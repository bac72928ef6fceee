import StreetMap.Proofs.Store.Calls
import StreetMap.Standard

/-!
Loads that bring nothing new.  A call that has gone well leaves itself nothing to do, and the calls of one
source do not undo that for each other; so what a source has brought it can bring again, in part and in
any order, and nothing changes.
-/

namespace StreetMap.Store

variable {c : Settings} {s t : Store} {op op' : Operation}

def Settled (c : Settings) : Operation → Store → Prop
  | .addRelation r, s => s.relations.has r.id = true ∨ admission c r.tags = .ok none
  | .addWay w, s => (s.ways.has w.id = true ∨ s.areaWays.has w.id = true) ∨
      s.levels.has w.key = true ∧ bucketOf c (w.id ∈ s.areaWayIds) w = .ok none
  | .linesComplete, s =>
      (∀ id ∈ nodesOfWays s.ways, id ∈ s.wayNodeIds) ∧
        ∀ id ∈ nodesOfWays s.areaWays, id ∈ s.areaNodeIds
  | .addNode n, s =>
      if n.tags.isBikeRental then s.bikeRentals.get? n.id = some n
      else s.wants n = true → s.nodes.has n.id = true
  | .pointsComplete, s =>
      (∀ k ∈ s.relations.values, k.kind = .multipolygon → k.relation.key ∈ s.processed) ∧
        ∀ w ∈ s.candidates, Waits s w
  | .finish, _ => False
  | .load _, _ => False

def MayFollow : Operation → Operation → Prop
  | .addRelation _, _ => True
  | .addWay _, .addRelation _ => False
  | .addWay _, _ => True
  | .linesComplete, .addNode _ => True
  | .linesComplete, .pointsComplete => True
  | .addNode n, .addNode m => n.id ≠ m.id
  | .addNode _, .pointsComplete => True
  | _, _ => False

theorem stored_has (w : Way) (b : Bucket) :
    (stored w b s).ways.has w.id = true ∨ (stored w b s).areaWays.has w.id = true := by
  cases b with
  | member => exact .inr (Table.has_put.2 (.inl rfl))
  | candidate => exact .inr (Table.has_put.2 (.inl rfl))
  | plain => exact .inl (Table.has_put.2 (.inl rfl))

section Settling

theorem opened_of_whileOpen {what : String} {f : Store → Outcome Store}
    (h : (whileOpen what s f).failure = none) : s.phase ≠ .relationsProcessed := by
  intro closed
  rw [whileOpen, if_pos closed] at h
  cases h

theorem addNode_settles (n : Node) (h : (addNode c n s).failure = none) :
    Settled c (.addNode n) (addNode c n s).state := by
  rw [addNode_eq (opened_of_whileOpen h), Settled]
  by_cases rental : n.tags.isBikeRental = true
  · rw [if_pos rental, if_pos rental]
    exact Table.get?_put_self _ _ _
  · rw [if_neg rental, if_neg rental]
    split
    · rw [progress_state]
      exact fun _ => Table.has_put.2 (.inl rfl)
    · rename_i old
      simpa using old

theorem linesComplete_settles (h : (linesComplete s).failure = none) :
    Settled c .linesComplete (linesComplete s).state := by
  by_cases closed : s.phase = .relationsProcessed
  · rw [linesComplete_of_closed closed] at h
    cases h
  · rw [linesComplete_eq closed]
    exact ⟨fun _ hid => mem_insertAll.2 (.inr hid), fun _ hid => mem_insertAll.2 (.inr hid)⟩

variable [Limits]

theorem takeIn_has {r : Relation} {kind : RelationKind} (h : (takeIn c r kind s).failure = none) :
    (takeIn c r kind s).state.relations.has r.id = true := by
  rw [takeIn] at h ⊢
  split
  · rw [if_pos ‹_›, Outcome.andThen_failure_eq_none] at h
    rw [Outcome.andThen_state h.1, putRelation, progress_state]
    exact Table.has_put.2 (.inl rfl)
  · rw [putRelation, progress_state]
    exact Table.has_put.2 (.inl rfl)

theorem addRelation_settles (r : Relation) (h : (addRelation c r s).failure = none) :
    Settled c (.addRelation r) (addRelation c r s).state := by
  have opened := opened_of_whileOpen h
  rw [addRelation_eq opened] at h ⊢
  split
  · exact .inl ‹_›
  · rename_i new
    rw [if_neg new] at h
    cases hk : admission c r.tags with
    | error e =>
      rw [hk] at h
      cases h
    | ok kind =>
      cases kind with
      | none => exact .inr hk
      | some kind =>
        rw [hk] at h
        exact .inl (takeIn_has h)

theorem addWay_settles (w : Way) (h : (addWay c w s).failure = none) :
    Settled c (.addWay w) (addWay c w s).state := by
  have opened := opened_of_whileOpen h
  rw [addWay_eq opened] at h ⊢
  split
  · rename_i old
    exact .inl ((Bool.or_eq_true _ _).mp old)
  · rename_i new
    rw [if_neg new, Outcome.andThen_failure_eq_none] at h
    rw [Outcome.andThen_state h.1]
    have hl := resolveLevel_has h.1
    generalize (resolveLevel c w.key w.tags s.reopened).state = t at h hl
    rw [keepWay_eq] at h ⊢
    cases hb : bucketOf c (w.id ∈ t.areaWayIds) w with
    | error e =>
      rw [hb] at h
      cases h.2
    | ok b =>
      cases b with
      | none => exact .inr ⟨hl, hb⟩
      | some b =>
        rw [Outcome.withValue_ok]
        dsimp only
        rw [putInto_state]
        exact .inl (stored_has w b)

variable [Geometry]

theorem pointsComplete_settles (h : (pointsComplete c s).failure = none) :
    Settled c .pointsComplete (pointsComplete c s).state ∧
      (pointsComplete c s).state.phase = .areasResolved := by
  by_cases opened : s.phase = .linesMarked ∨ s.phase = .areasResolved
  · rw [pointsComplete_of_open opened] at h ⊢
    rw [Outcome.andThen_failure_eq_none] at h
    rw [Outcome.andThen_state h.1]
    have same := resolveAreas_same (c := c) (s := s)
    refine ⟨⟨?_, ?_⟩, rfl⟩
    · change ∀ k ∈ (resolveAreas c s).state.relations.values, _
      rw [same.relations]
      exact resolveAreas_processed h.1
    · change ∀ w ∈ (resolveAreas c s).state.candidates, _
      rw [same.candidates]
      exact resolveAreas_waits h.1
  · rw [pointsComplete_of_closed opened] at h
    cases h

theorem settles {x : Extract} (hop : op ∈ x.operations) (h : (apply c op s).failure = none) :
    Settled c op (apply c op s).state := by
  simp only [Extract.operations, List.mem_append, List.mem_map, List.mem_singleton] at hop
  rcases hop with (((⟨r, -, rfl⟩ | ⟨w, -, rfl⟩) | rfl) | ⟨n, -, rfl⟩) | rfl
  · exact addRelation_settles r h
  · exact addWay_settles w h
  · exact linesComplete_settles h
  · exact addNode_settles n h
  · exact (pointsComplete_settles h).1

end Settling

section Keeping

theorem Settled.same (h : Settled c op s) (same : SameElements s t) : Settled c op t := by
  cases op with
  | addRelation r =>
    rw [Settled, same.relations]
    exact h
  | addWay w =>
    rw [Settled, has_of_outline same.ways, same.areaWays, same.areaWayIds]
    exact h.imp_right fun h => ⟨same.levels _ h.1, h.2⟩
  | linesComplete =>
    rw [Settled, nodesOfWays_of_outline same.ways, same.areaWays, same.wayNodeIds, same.areaNodeIds]
    exact h
  | addNode n =>
    rw [Settled, wants, same.wayNodeIds, same.areaNodeIds, same.nodes, same.bikeRentals]
    exact h
  | pointsComplete =>
    rw [Settled, same.relations, same.candidates]
    exact ⟨fun k hk hkind => same.processed _ (h.1 k hk hkind), fun w hw => (h.2 w hw).same same⟩
  | finish => exact h
  | load document => exact h

theorem Settled.atPhase (h : Settled c op s) (p : Phase) : Settled c op { s with phase := p } := by
  cases op <;> exact h

theorem OnlyAdds.has_relation {id : Int} (adds : OnlyAdds s t) (h : s.relations.has id = true) :
    t.relations.has id = true := by
  obtain ⟨rows, hrows⟩ := adds.relations
  rw [← hrows, Table.has_append, h]
  rfl

theorem Settled.stored {w v : Way} (h : Settled c (.addWay w) s) (b : Bucket) :
    Settled c (.addWay w) (stored v b s) := by
  cases h with
  | inl h =>
    cases b with
    | member => exact .inl (h.imp_right Table.has_put_of_has)
    | candidate => exact .inl (h.imp_right Table.has_put_of_has)
    | plain => exact .inl (h.imp_left Table.has_put_of_has)
  | inr h =>
    cases b with
    | member => exact .inr h
    | plain => exact .inr h
    | candidate =>
      by_cases hid : w.id = v.id
      · exact .inl (.inr (Table.has_put.2 (.inl hid)))
      · refine .inr ⟨h.1, ?_⟩
        change bucketOf c (w.id ∈ insertNew s.areaWayIds v.id) w = _
        simp only [mem_insertNew, hid, or_false]
        exact h.2

variable [Limits]

theorem Settled.addWay {w v : Way} (h : Settled c (.addWay w) s) :
    Settled c (.addWay w) (addWay c v s).state := by
  by_cases closed : s.phase = .relationsProcessed
  · rw [addWay_of_closed closed]
    exact h
  · obtain ⟨ls, as, mono, hs⟩ := addWay_frame (c := c) closed v
    have hl : Settled c (.addWay w) { s.reopened with levels := ls, anomalies := as } :=
      h.imp_right fun h => ⟨mono _ h.1, h.2⟩
    cases hs with
    | inl hs => rw [hs]; exact hl
    | inr hs =>
      obtain ⟨b, hs⟩ := hs
      rw [hs]
      exact hl.stored b

variable [Geometry]

theorem Settled.addNode {n m : Node} (h : Settled c (.addNode n) s) (hid : n.id ≠ m.id)
    (step : CallStep c (.addNode m) s t) : Settled c (.addNode n) t := by
  rw [Settled] at h ⊢
  cases step with
  | refused _ _ closed => exact h
  | passed opened plain old => exact h
  | rental opened rental =>
    rw [Table.get?_put_of_ne _ _ hid]
    exact h
  | node opened plain wanted new =>
    split
    · rwa [if_pos ‹_›] at h
    · rw [if_neg ‹_›] at h
      exact fun hw => Table.has_put_of_has (h hw)

theorem Settled.keeps (h : Settled c op s) (later : MayFollow op op') (single : op'.IsCall) :
    Settled c op (apply c op' s).state := by
  have step := call_step (c := c) (s := s) single
  generalize ht : (apply c op' s).state = t at step
  cases step with
  | refused _ _ closed => exact h
  | resolving opened same => exact h.same same
  | resolved opened same tried => exact (h.same same).atPhase _
  | concluding opened same => exact h.same same
  | concluded opened same => exact (h.same same).atPhase _
  | rental opened rental =>
    cases op with
    | addNode n => exact h.addNode later (.rental opened rental)
    | addRelation r => exact h
    | addWay w => exact h
    | linesComplete => exact h
    | _ => cases later
  | node opened plain wanted new =>
    cases op with
    | addNode n => exact h.addNode later (.node opened plain wanted new)
    | addRelation r => exact h
    | addWay w => exact h
    | linesComplete => exact h
    | _ => cases later
  | passed opened plain old => exact h
  | way opened adds =>
    cases op with
    | addRelation r => exact h.imp_left adds.has_relation
    | addWay w => rw [← ht]; exact h.addWay
    | _ => cases later
  | relation opened adds =>
    cases op with
    | addRelation r => exact h.imp_left adds.has_relation
    | _ => cases later
  | marked opened =>
    cases op with
    | addRelation r => exact h
    | addWay w => exact h
    | _ => cases later

end Keeping

section Repeating

theorem linesComplete_again (h : Settled c .linesComplete s) (opened : s.phase ≠ .relationsProcessed) :
    (linesComplete s).Ends (· = { s with phase := .linesMarked }) := by
  rw [linesComplete_eq opened]
  refine ⟨rfl, ?_⟩
  rw [Outcome.saying_state, marked, insertAll_of_subset h.1, insertAll_of_subset h.2]

theorem addNode_again {n : Node} (h : Settled c (.addNode n) s)
    (opened : s.phase ≠ .relationsProcessed) : (addNode c n s).Ends (· = s) := by
  rw [addNode_eq opened]
  rw [Settled] at h
  by_cases rental : n.tags.isBikeRental = true
  · rw [if_pos rental] at h ⊢
    refine ⟨rfl, ?_⟩
    rw [Outcome.done_state, Table.put_of_get? h]
  · rw [if_neg rental] at h ⊢
    rw [if_neg (by simpa using h)]
    exact ⟨rfl, rfl⟩

variable [Limits]

theorem addRelation_again {r : Relation} (h : Settled c (.addRelation r) s)
    (opened : s.phase ≠ .relationsProcessed) : (addRelation c r s).Ends (· = s.reopened) := by
  rw [addRelation_eq opened]
  split
  · exact ⟨rfl, rfl⟩
  · rw [h.resolve_left ‹_›]
    exact ⟨rfl, rfl⟩

theorem addWay_again {w : Way} (h : Settled c (.addWay w) s)
    (opened : s.phase ≠ .relationsProcessed) : (addWay c w s).Ends (· = s.reopened) := by
  rw [addWay_eq opened]
  split
  · exact ⟨rfl, rfl⟩
  · rename_i new
    rw [Bool.or_eq_true] at new
    have hw := h.resolve_left new
    have hl : resolveLevel c w.key w.tags s.reopened = Outcome.done s.reopened := if_pos hw.1
    rw [hl, Outcome.done_andThen, keepWay_eq]
    change (Outcome.withValue _ (bucketOf c (w.id ∈ s.areaWayIds) w) _).Ends _
    rw [hw.2]
    exact ⟨rfl, rfl⟩

variable [Geometry]

theorem tryMultipolygon_again {k : KeptRelation}
    (h : k.kind = .multipolygon → k.relation.key ∈ s.processed) :
    tryMultipolygon c k s = Outcome.done s := by
  rw [tryMultipolygon, if_pos]
  by_cases hkind : k.kind = .multipolygon
  · simpa [hkind, isProcessed] using h hkind
  · simp [hkind]

theorem tryMultipolygons_again
    (h : ∀ k ∈ s.relations.values, k.kind = .multipolygon → k.relation.key ∈ s.processed) :
    (Outcome.forEach (tryMultipolygon c) s.relations.values s).Ends (· = s) := by
  refine Outcome.forEach_ends rfl ?_
  rintro k hk _ rfl
  rw [tryMultipolygon_again (h k hk)]
  exact ⟨rfl, rfl⟩

theorem tryCandidate_again {w : Way} (h : Waits s w) : tryCandidate c w s = Outcome.done s := by
  rw [tryCandidate, if_pos]
  simpa [Waits, isProcessed] using h

theorem pointsComplete_again (h : Settled c .pointsComplete s)
    (opened : s.phase = .linesMarked ∨ s.phase = .areasResolved) :
    (pointsComplete c s).Ends (· = { s with phase := .areasResolved }) := by
  rw [pointsComplete_of_open opened]
  refine Outcome.Ends.andThen (P := (· = s)) ?_ ?_
  · refine (tryMultipolygons_again h.1).andThen ?_
    rintro _ rfl
    refine Outcome.forEach_ends rfl ?_
    rintro w hw _ rfl
    rw [tryCandidate_again (h.2 w hw)]
    exact ⟨rfl, rfl⟩
  · rintro _ rfl
    exact ⟨rfl, rfl⟩

theorem addExtract_again {y : Extract} (h : ∀ op ∈ y.operations, Settled c op s)
    (resolved : s.phase = .areasResolved) : (addExtract c y s).Ends (· = s) := by
  simp only [Extract.operations, List.mem_append, List.mem_map, List.mem_singleton] at h
  let AtOpenPhase (t : Store) : Prop := ∃ p, p ≠ .relationsProcessed ∧ t = { s with phase := p }
  have start : AtOpenPhase s := ⟨s.phase, by rw [resolved]; decide, rfl⟩
  refine Outcome.Ends.andThen (P := (· = { s with phase := .linesMarked })) ?_ ?_
  · refine Outcome.Ends.andThen (P := (· = { s with phase := .linesMarked })) ?_ ?_
    · refine Outcome.Ends.andThen (P := AtOpenPhase) ?_ ?_
      · refine Outcome.Ends.andThen (P := AtOpenPhase) ?_ ?_
        · refine Outcome.forEach_ends start ?_
          rintro r hr _ ⟨p, hp, rfl⟩
          have hs := h (.addRelation r) (.inl (.inl (.inl (.inl ⟨r, hr, rfl⟩))))
          have ends := addRelation_again (hs.atPhase p) hp
          exact ⟨ends.1, .ingesting, by decide, ends.2⟩
        · intro t ht
          refine Outcome.forEach_ends ht ?_
          rintro w hw _ ⟨p, hp, rfl⟩
          have hs := h (.addWay w) (.inl (.inl (.inl (.inr ⟨w, hw, rfl⟩))))
          have ends := addWay_again (hs.atPhase p) hp
          exact ⟨ends.1, .ingesting, by decide, ends.2⟩
      · rintro _ ⟨p, hp, rfl⟩
        have hs := h .linesComplete (.inl (.inl (.inr rfl)))
        exact linesComplete_again (hs.atPhase p) hp
    · rintro _ rfl
      refine Outcome.forEach_ends rfl ?_
      rintro n hn _ rfl
      have hs := h (.addNode n) (.inl (.inr ⟨n, hn, rfl⟩))
      have opened : Phase.linesMarked ≠ .relationsProcessed := by decide
      exact addNode_again (hs.atPhase .linesMarked) opened
  · rintro _ rfl
    have hs := h .pointsComplete (.inr rfl)
    have ends := pointsComplete_again (hs.atPhase .linesMarked) (.inl rfl)
    refine ⟨ends.1, ends.2.trans ?_⟩
    rw [← resolved]

end Repeating

section Overlapping

theorem pairwise_operations {x : Extract} (distinct : (x.nodes.map Node.id).Nodup) :
    x.operations.Pairwise MayFollow := by
  rw [List.Nodup, List.pairwise_map] at distinct
  simp only [Extract.operations, List.pairwise_append, List.pairwise_map, List.mem_append, List.mem_map,
    List.mem_singleton, List.pairwise_singleton]
  refine ⟨⟨⟨⟨?_, ?_, ?_⟩, trivial, ?_⟩, ?_, ?_⟩, trivial, ?_⟩
  · exact List.pairwise_of_forall fun _ _ => trivial
  · exact List.pairwise_of_forall fun _ _ => trivial
  · rintro _ ⟨r, -, rfl⟩ _ -
    trivial
  · rintro _ (⟨r, -, rfl⟩ | ⟨w, -, rfl⟩) _ rfl
    · trivial
    · trivial
  · exact distinct.imp fun h => h
  · rintro _ ((⟨r, -, rfl⟩ | ⟨w, -, rfl⟩) | rfl) _ ⟨n, -, rfl⟩
    · trivial
    · trivial
    · trivial
  · rintro _ (((⟨r, -, rfl⟩ | ⟨w, -, rfl⟩) | rfl) | ⟨n, -, rfl⟩) _ rfl
    · trivial
    · trivial
    · trivial
    · trivial

variable [Limits]

theorem operations_of_subset {document document' : Json} {es es' : List Json} {x : Extract}
    (hes : Extract.elements document = .ok es) (hx : (Extract.ofDocument document).result = .ok x)
    (hes' : Extract.elements document' = .ok es') (sub : ∀ e ∈ es', e ∈ es) :
    ∃ y, (Extract.ofDocument document').result = .ok y ∧ ∀ op ∈ y.operations, op ∈ x.operations := by
  rw [Extract.ofDocument_result, hes] at hx
  change (es.mapM Extract.ofElement).map Extract.join = .ok x at hx
  cases hxs : es.mapM Extract.ofElement with
  | error e => rw [hxs] at hx; cases hx
  | ok xs =>
    rw [hxs] at hx
    cases hx
    obtain ⟨ys, hys, hsub⟩ := mapM_of_subset hxs sub
    refine ⟨Extract.join ys, ?_, ?_⟩
    · rw [Extract.ofDocument_result, hes']
      change (es'.mapM Extract.ofElement).map Extract.join = _
      rw [hys]
      rfl
    · have mono {α : Type} (f : Extract → List α) : ∀ a ∈ ys.flatMap f, a ∈ xs.flatMap f := by
        intro a ha
        obtain ⟨y, hy, ha⟩ := List.mem_flatMap.1 ha
        exact List.mem_flatMap.2 ⟨y, hsub y hy, ha⟩
      intro op hop
      simp only [Extract.operations, List.mem_append, List.mem_map, List.mem_singleton] at hop ⊢
      rcases hop with (((⟨r, hr, rfl⟩ | ⟨w, hw, rfl⟩) | rfl) | ⟨n, hn, rfl⟩) | rfl
      · exact .inl (.inl (.inl (.inl ⟨r, mono Extract.relations r hr, rfl⟩)))
      · exact .inl (.inl (.inl (.inr ⟨w, mono Extract.ways w hw, rfl⟩)))
      · exact .inl (.inl (.inr rfl))
      · exact .inl (.inr ⟨n, mono Extract.nodes n hn, rfl⟩)
      · exact .inr rfl

variable [Geometry]

theorem settled_of_source {x : Extract} (distinct : (x.nodes.map Node.id).Nodup)
    (h : (Outcome.forEach (apply c) x.operations s).failure = none) :
    ∀ op ∈ x.operations, Settled c op (Outcome.forEach (apply c) x.operations s).state := by
  refine Outcome.forEach_settles (Q := Settled c)
    (D := fun op op' => MayFollow op op' ∧ op'.IsCall) ?_ ?_ ?_ h
  · refine (pairwise_operations distinct).imp_of_mem fun _ hop' later => ?_
    exact ⟨later, isCall_of_mem_operations hop'⟩
  · intro op hop s hf
    exact settles hop hf
  · intro op op' later s hs
    exact hs.keeps later.1 later.2

theorem phase_of_source {x : Extract} (h : (addExtract c x s).failure = none) :
    (addExtract c x s).state.phase = .areasResolved := by
  rw [addExtract, Outcome.andThen_failure_eq_none] at h
  rw [addExtract, Outcome.andThen_state h.1]
  exact (pointsComplete_settles h.2).2

theorem load_ends_again {document document' : Json} {es es' : List Json} {x : Extract}
    (hes : Extract.elements document = .ok es) (hx : (Extract.ofDocument document).result = .ok x)
    (distinct : (x.nodes.map Node.id).Nodup) (hes' : Extract.elements document' = .ok es')
    (sub : ∀ e ∈ es', e ∈ es) (loaded : (loadDocument c document s).failure = none) :
    (loadDocument c document' (loadDocument c document s).state).Ends
      (· = (loadDocument c document s).state) := by
  obtain ⟨y, hy, hops⟩ := operations_of_subset hes hx hes' sub
  rw [(loadDocument_of_ok hx).2] at loaded
  rw [(loadDocument_of_ok hx).1, Outcome.Ends, (loadDocument_of_ok hy).1, (loadDocument_of_ok hy).2,
    ← addExtract_eq y]
  have settled := settled_of_source distinct loaded
  apply addExtract_again fun op hop => settled op (hops op hop)
  rw [← addExtract_eq] at loaded ⊢
  exact phase_of_source loaded

/-- Once a document has been loaded, one whose elements are all among its own is loaded too and changes
nothing, and so is the document itself.  The store may be any; the nodes of the document have to have
different ids, since of two bicycle rentals with one id the last is kept. -/
theorem overlap_changes_nothing {document document' : Json} {es es' : List Json} {x : Extract}
    (hes : Extract.elements document = .ok es) (hx : (Extract.ofDocument document).result = .ok x)
    (distinct : (x.nodes.map Node.id).Nodup) (hes' : Extract.elements document' = .ok es')
    (sub : ∀ e ∈ es', e ∈ es) (loaded : (loadDocument c document s).failure = none) :
    ((loadDocument c document' (loadDocument c document s).state).failure = none ∧
      (loadDocument c document' (loadDocument c document s).state).state =
        (loadDocument c document s).state) ∧
    (loadDocument c document (loadDocument c document s).state).failure = none ∧
      (loadDocument c document (loadDocument c document s).state).state =
        (loadDocument c document s).state :=
  ⟨load_ends_again hes hx distinct hes' sub loaded,
    load_ends_again hes hx distinct hes (fun _ he => he) loaded⟩

end Overlapping

open Standard

def footwayElement : Json :=
  .object [("type", .text "way"), ("id", .int 1), ("nodes", .list [.int 10, .int 11]),
    ("tags", .object [("highway", .text "footway")])]

def wallElement : Json :=
  .object [("type", .text "way"), ("id", .int 2), ("nodes", .list [.int 11]),
    ("tags", .object [("barrier", .text "wall")])]

def cornerElement : Json :=
  .object [("type", .text "node"), ("id", .int 10), ("lat", .int 1), ("lon", .int 2)]

def streetDocument : Json := .object [("elements", .list [footwayElement, wallElement, cornerElement])]

def partOfStreet : Json := .object [("elements", .list [cornerElement, wallElement])]

theorem street_overlap_changes_nothing :
    (loadDocument .default streetDocument empty).failure = none ∧
      (loadDocument .default streetDocument empty).state.nodes.keys = [10] ∧
      (loadDocument .default partOfStreet (loadDocument .default streetDocument empty).state).state =
        (loadDocument .default streetDocument empty).state := by
  have whole : Extract.elements streetDocument = .ok [footwayElement, wallElement, cornerElement] := rfl
  have part : Extract.elements partOfStreet = .ok [cornerElement, wallElement] := rfl
  have read : (Extract.ofDocument streetDocument).result = .ok
    ⟨[⟨10, ⟨2, 1⟩, []⟩], [⟨1, [10, 11], [("highway", .text "footway")]⟩,
      ⟨2, [11], [("barrier", .text "wall")]⟩], []⟩ := rfl
  have sub : ∀ e ∈ [cornerElement, wallElement], e ∈ [footwayElement, wallElement, cornerElement] := by
    simp
  have loaded : (loadDocument .default streetDocument empty).failure = none := rfl
  exact ⟨loaded, rfl, (overlap_changes_nothing whole read (by decide) part sub loaded).1.2⟩

end StreetMap.Store
