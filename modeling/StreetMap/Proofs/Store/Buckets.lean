import StreetMap.Proofs.Store.Preservation
import StreetMap.Proofs.Store.WayLevel

/-!
The two buckets of ways.  A way is a plain way or an area way, and stays what it was when it came.  What
is kept stands under its own id, and the ways that are areas by themselves are area ways of more than two
nodes.
-/

namespace StreetMap

def UnderOwnId {β : Type} (ident : β → Int) (t : Table Int β) : Prop := ∀ row ∈ t, ident row.2 = row.1

section OwnId

variable {β : Type} {ident : β → Int} {t : Table Int β} {id : Int} {y : β}

theorem UnderOwnId.put (h : UnderOwnId ident t) (own : ident y = id) : UnderOwnId ident (t.put id y) := by
  intro row hrow
  rcases Table.mem_put hrow with rfl | hrow
  · exact own
  · exact h row hrow

end OwnId

namespace Store

variable {c : Settings} {s t : Store} {op : Operation}

/-- Elements stand under their own ids, area ways are marked as such, those that are areas by themselves
have more than two nodes, and relations are of the kind that their tags say. -/
structure Bucketed (c : Settings) (s : Store) : Prop where
  nodes : UnderOwnId Node.id s.nodes
  bikeRentals : UnderOwnId Node.id s.bikeRentals
  ways : UnderOwnId Way.id s.ways
  areaWays : UnderOwnId Way.id s.areaWays
  marked : ∀ id, s.areaWays.has id = true → id ∈ s.areaWayIds
  long : ∀ w ∈ s.candidates, w.nodeRefs.length > 2
  kinds : ∀ row ∈ s.relations, classify c row.2.relation.tags = .ok (some row.2.kind)

/-- Every multipolygon that is kept has a level. -/
def MultipolygonsLevelled (s : Store) : Prop :=
  ∀ row ∈ s.relations, row.2.kind = .multipolygon → s.levels.has row.2.relation.key = true

section Admission

theorem classify_of_admission {t : Tags} {kind : RelationKind} (h : admission c t = .ok (some kind)) :
    classify c t = .ok (some kind) := by
  rw [admission] at h
  obtain ⟨found, hfound, h⟩ := bind_eq_ok.1 h
  rw [hfound]
  split at h
  · obtain ⟨kept, -, h⟩ := bind_eq_ok.1 h
    cases kept with
    | false => cases h
    | true => exact congrArg (fun k => Except.ok (some k)) (Option.some.inj (Except.ok.inj h))
  · exact h

theorem marked_of_member {marked : Bool} {w : Way} (h : bucketOf c marked w = .ok (some .member)) :
    marked = true := by
  rw [bucketOf] at h
  by_contra hm
  rw [if_neg hm] at h
  obtain ⟨kept, -, h⟩ := bind_eq_ok.1 h
  split at h
  · split at h <;> cases h
  · cases h

theorem long_of_candidate {marked : Bool} {w : Way} (h : bucketOf c marked w = .ok (some .candidate)) :
    w.nodeRefs.length > 2 := by
  rw [bucketOf] at h
  split at h
  · cases h
  · obtain ⟨kept, -, h⟩ := bind_eq_ok.1 h
    split at h
    · split at h
      · rename_i area
        rw [isAreaWay, Bool.and_eq_true, decide_eq_true_eq] at area
        exact area.2
      · cases h
    · cases h

end Admission

section Steps

theorem Bucketed.empty : Bucketed c empty where
  nodes := List.forall_mem_nil _
  bikeRentals := List.forall_mem_nil _
  ways := List.forall_mem_nil _
  areaWays := List.forall_mem_nil _
  marked := nofun
  long := List.forall_mem_nil _
  kinds := List.forall_mem_nil _

theorem Bucketed.stored (h : Bucketed c s) {w : Way} {b : Bucket}
    (fate : bucketOf c (w.id ∈ s.areaWayIds) w = .ok (some b)) : Bucketed c (stored w b s) := by
  cases b with
  | plain => exact { h with ways := h.ways.put rfl }
  | member =>
    refine { h with areaWays := h.areaWays.put rfl, marked := fun id hid => ?_ }
    rcases Table.has_put.1 hid with rfl | hid
    · exact of_decide_eq_true (marked_of_member fate)
    · exact h.marked id hid
  | candidate =>
    refine { h with areaWays := h.areaWays.put rfl, marked := fun id hid => ?_, long := ?_ }
    · apply mem_insertNew.2
      rcases Table.has_put.1 hid with rfl | hid
      · exact .inr rfl
      · exact .inl (h.marked id hid)
    · exact List.forall_mem_append.2 ⟨h.long, List.forall_mem_singleton.2 (long_of_candidate fate)⟩

theorem IntakeStep.bucketed (step : IntakeStep c s t) (h : Bucketed c s) : Bucketed c t := by
  cases step with
  | note log findings => exact { h with }
  | level k l new => exact { h with }
  | members r => exact { h with marked := fun id hid => mem_insertAll.2 (.inl (h.marked id hid)) }
  | relation k new kind =>
    refine { h with kinds := fun row hrow => ?_ }
    rcases Table.mem_put hrow with rfl | hrow
    · exact classify_of_admission kind
    · exact h.kinds row hrow
  | way w b newWay newArea fate levelled => exact h.stored fate

theorem underOwnId_outline {ways : Table Int Way} :
    UnderOwnId Way.id ways ↔ ∀ row ∈ outline ways, row.2.1 = row.1 := by
  simp only [UnderOwnId, outline, List.forall_mem_map]

theorem Bucketed.same (h : Bucketed c s) (same : SameElements s t) : Bucketed c t where
  nodes := same.nodes ▸ h.nodes
  bikeRentals := same.bikeRentals ▸ h.bikeRentals
  ways := by
    rw [underOwnId_outline, same.ways, ← underOwnId_outline]
    exact h.ways
  areaWays := same.areaWays ▸ h.areaWays
  marked := by
    rw [same.areaWays, same.areaWayIds]
    exact h.marked
  long := same.candidates ▸ h.long
  kinds := same.relations ▸ h.kinds

variable [Limits] [Geometry]

theorem Bucketed.call (h : Bucketed c s) (single : op.IsCall) : Bucketed c (apply c op s).state := by
  have opened : Bucketed c s.reopened := { h with }
  have step := call_step (c := c) (s := s) single
  generalize ht : (apply c op s).state = t at step
  cases step with
  | refused _ _ closed => exact h
  | rental passes rental => exact { h with bikeRentals := h.bikeRentals.put rfl }
  | node passes plain wanted new => exact { h with nodes := h.nodes.put rfl }
  | passed passes plain old => exact h
  | way passes adds => exact ht ▸ keeps_of_chain (addWay_chain passes _) IntakeStep.bucketed opened
  | relation passes adds => exact ht ▸ keeps_of_chain (addRelation_chain passes _) IntakeStep.bucketed opened
  | marked passes => exact { h with }
  | resolving passes same => exact h.same same
  | resolved passes same tried => exact { h.same same with }
  | concluding passes same => exact h.same same
  | concluded passes same => exact { h.same same with }

theorem Reachable.bucketed (h : Reachable c s) : Bucketed c s :=
  h.call_induction .empty fun _ single _ ht => ht.call single

theorem Reachable.apart (h : Reachable c s) : Apart s :=
  h.call_induction nofun fun _ single _ ht => ht.call single

end Steps

section Levels

theorem MultipolygonsLevelled.grow (h : MultipolygonsLevelled s) (relations : t.relations = s.relations)
    (levels : ∀ k, s.levels.has k = true → t.levels.has k = true) : MultipolygonsLevelled t := by
  rw [MultipolygonsLevelled, relations]
  exact fun row hrow kind => levels _ (h row hrow kind)

theorem MultipolygonsLevelled.put (h : MultipolygonsLevelled s) {k : KeptRelation}
    (level : k.kind = .multipolygon → s.levels.has k.relation.key = true) :
    MultipolygonsLevelled { s with relations := s.relations.put k.relation.id k } := by
  intro row hrow kind
  rcases Table.mem_put hrow with rfl | hrow
  · exact level kind
  · exact h row hrow kind

variable [Limits]

theorem MultipolygonsLevelled.addRelation (h : MultipolygonsLevelled s)
    (opened : s.phase ≠ .relationsProcessed) (r : Relation) :
    MultipolygonsLevelled (addRelation c r s).state := by
  have before : MultipolygonsLevelled s.reopened := h
  rw [addRelation_eq opened]
  split
  · exact before
  · refine withValue_keeps before fun kind _ => ?_
    cases kind with
    | none => exact before
    | some kind =>
      dsimp only
      rw [takeIn]
      split
      · have chain := resolveLevel_chain (c := c) (s := markMembers r s.reopened) r.key r.tags
        have resolved : MultipolygonsLevelled (resolveLevel c r.key r.tags (markMembers r s.reopened)).state := by
          obtain ⟨ls, as, hs⟩ := resolveLevel_frame (c := c) (s := markMembers r s.reopened) r.key r.tags
          refine before.grow ?_ (adds_of_chain chain).levels
          rw [hs]
          rfl
        by_cases ok : (resolveLevel c r.key r.tags (markMembers r s.reopened)).failure = none
        · rw [Outcome.andThen_state ok, putRelation, progress_state]
          exact resolved.put (k := ⟨r, kind⟩) fun _ => resolveLevel_has ok
        · rw [Outcome.andThen_of_failed ok]
          exact resolved
      · rename_i other
        rw [putRelation, progress_state]
        exact before.put (k := ⟨r, kind⟩) fun multipolygon => absurd multipolygon other

variable [Geometry]

theorem MultipolygonsLevelled.call (h : MultipolygonsLevelled s) (single : op.IsCall) :
    MultipolygonsLevelled (apply c op s).state := by
  have step := call_step (c := c) (s := s) single
  generalize ht : (apply c op s).state = t at step
  cases step with
  | refused _ _ closed => exact h
  | rental passes rental => exact h
  | node passes plain wanted new => exact h
  | passed passes plain old => exact h
  | way passes adds => exact ht ▸ h.grow (addWay_relations _) (ht ▸ adds.levels)
  | relation passes adds => exact ht ▸ h.addRelation passes _
  | marked passes => exact h
  | resolving passes same => exact h.grow same.relations same.levels
  | resolved passes same tried =>
    have kept := h.grow same.relations same.levels
    exact kept
  | concluding passes same => exact h.grow same.relations same.levels
  | concluded passes same =>
    have kept := h.grow same.relations same.levels
    exact kept

theorem Reachable.multipolygonsLevelled (h : Reachable c s) : MultipolygonsLevelled s :=
  h.call_induction (List.forall_mem_nil _) fun _ single _ ht => ht.call single

end Levels

variable [Limits] [Geometry]

/-- Whatever calls have come, failed ones included, every table has its keys once and everything under its
own id; a way is in one bucket at most, with a level, and stays there with its nodes whatever comes next. -/
theorem buckets_final (ops more : List Operation) :
    let s := run c ops empty
    let t := run c more s
    Keyed s ∧ Bucketed c s ∧ Apart s ∧ Levelled s ∧ MultipolygonsLevelled s ∧
      (∀ id w, s.ways.get? id = some w → t.areaWays.has id = false ∧
        ∃ tags, t.ways.get? id = some { w with tags }) ∧
      (∀ id w, s.areaWays.get? id = some w → t.ways.has id = false ∧ t.areaWays.get? id = some w) := by
  intro s t
  have reached : Reachable c s := ⟨ops, rfl⟩
  have later : Reachable c t := ⟨ops ++ more, (run_append c ops more empty).symm⟩
  have kept := (leads_history (c := c) (s := s) more).preserves
  refine ⟨reached.keyed, reached.bucketed, reached.apart, reached.levelled,
    reached.multipolygonsLevelled, fun id w hw => ?_, fun id w hw => ?_⟩
  · obtain ⟨tags, ht, -⟩ := kept.ways id w hw
    exact ⟨later.apart id (Table.has_of_get? ht), tags, ht⟩
  · have ht := kept.areaWays id w hw
    refine ⟨?_, ht⟩
    by_contra plain
    rw [Bool.not_eq_false] at plain
    have area := later.apart id plain
    rw [Table.has_of_get? ht] at area
    cases area

end Store

end StreetMap
