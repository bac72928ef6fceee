import Mathlib.Logic.Relation
import StreetMap.Proofs.Failure
import StreetMap.Proofs.Level
import StreetMap.Proofs.Store.Admission
import StreetMap.Proofs.Table
import StreetMap.Store.Relations

/-!
What operations do to a store, one change at a time.  Ways and relations come in by `IntakeStep`s, areas
are resolved by `AreaStep`s and relations are applied by `RelationStep`s; whatever such a step keeps, the
operations keep, failed ones included.
-/

namespace StreetMap.Store

inductive IntakeStep (c : Settings) : Store → Store → Prop
  | note (s : Store) (log : Log)
      (findings : ∀ a ∈ log.filterMap Note.anomaly?, a.kind = .levelAmbiguous) :
      IntakeStep c s (s.record log)
  | level (s : Store) (k : Key) (l : Level) (new : s.levels.has k = false) :
      IntakeStep c s { s with levels := s.levels.put k l }
  | members (s : Store) (r : Relation) : IntakeStep c s (markMembers r s)
  | relation (s : Store) (k : KeptRelation) (new : s.relations.has k.relation.id = false)
      (kind : admission c k.relation.tags = .ok (some k.kind)) :
      IntakeStep c s { s with relations := s.relations.put k.relation.id k }
  | way (s : Store) (w : Way) (b : Bucket) (newWay : s.ways.has w.id = false)
      (newArea : s.areaWays.has w.id = false)
      (fate : bucketOf c (w.id ∈ s.areaWayIds) w = .ok (some b))
      (levelled : s.levels.has w.key = true) : IntakeStep c s (stored w b s)

inductive AreaStep : Store → Store → Prop
  | note (s : Store) (log : Log)
      (findings : ∀ a ∈ log.filterMap Note.anomaly?, a.kind = .multipolygonRoleUnexpected) :
      AreaStep s (s.record log)
  | processed (s : Store) (k : Key) : AreaStep s (markProcessed k s)
  | bound (s : Store) (w : Way) : AreaStep s (bound w s)
  | area (s : Store) (p : PlacedArea) : AreaStep s { s with areas := s.areas ++ [p] }
  | retag (s : Store) (id : Int) (source : Tags) : AreaStep s (retag id (copyTags source) s)

inductive RelationStep : Store → Store → Prop
  | note (s : Store) (log : Log) : RelationStep s (s.record log)
  | turn (s : Store) (ends : TurnRestriction.Ends) (turn : TurnRestriction) :
      RelationStep s { s with
        fromTurns := appendTurn s.fromTurns ends.fromWay turn
        toTurns := appendTurn s.toTurns ends.toWay turn }
  | level (s : Store) (id : Int) (l : Level) :
      RelationStep s { s with levels := s.levels.put ⟨.way, id⟩ l }
  | tags (s : Store) (id : Int) (w : Way) (t : Tags) (kept : s.ways.get? id = some w) :
      RelationStep s { s with ways := s.ways.put id { w with tags := t } }
  | stops (s : Store) (k : Key) (ids : List Int) :
      RelationStep s { s with stops := s.stops.put k ids }

section Outcomes

variable {s : Store} {α : Type} {P : Store → Prop}

@[simp] theorem progress_state (interval : Json) (label : String) (n : Nat) :
    (progress interval label n s).state = s := by
  rw [progress]
  cases Settings.isMultiple n interval with
  | error e => rfl
  | ok hit => cases hit <;> rfl

theorem withValue_keeps {x : Except Failure α} {f : α → Outcome Store} (hs : P s)
    (hf : ∀ a, x = .ok a → P (f a).state) : P (Outcome.withValue s x f).state := by
  cases x with
  | error e => exact hs
  | ok a => exact hf a rfl

theorem absorb_keeps {x : Logged α} {f : α → Store → Outcome Store} (hs : P (s.record x.log))
    (hf : ∀ a, x.result = .ok a → P (f a (s.record x.log)).state) : P (s.absorb x f).state := by
  rw [absorb]
  split
  · exact hf _ ‹_›
  · exact hs

theorem absorb_of_ok {x : Logged α} {found : α} (h : x.result = .ok found)
    (f : α → Store → Outcome Store) :
    (s.absorb x f).state = (f found (s.record x.log)).state ∧
      (s.absorb x f).failure = (f found (s.record x.log)).failure := by
  rw [absorb, h]
  exact ⟨rfl, rfl⟩

theorem absorb_failsBy {P : Failure → Prop} {x : Logged α} {f : α → Store → Outcome Store}
    (h : FailsBy P x.result) (hf : ∀ a t, (f a t).FailsBy P) : (s.absorb x f).FailsBy P := by
  rw [absorb]
  split
  · exact hf _ _
  · exact fun e he => h e (‹_ = Except.error _›.trans (congrArg _ (Option.some.inj he)))

theorem andThen_chain {R : Store → Store → Prop} {o : Outcome Store} {f : Store → Outcome Store}
    (ho : Relation.ReflTransGen R s o.state) (hf : ∀ t, Relation.ReflTransGen R t (f t).state) :
    Relation.ReflTransGen R s (o.andThen f).state :=
  Outcome.andThen_keeps ho fun t ht => ht.trans (hf t)

theorem forEach_chain {R : Store → Store → Prop} {f : α → Store → Outcome Store}
    (hf : ∀ x t, Relation.ReflTransGen R t (f x t).state) (xs : List α) (s : Store) :
    Relation.ReflTransGen R s (Outcome.forEach f xs s).state :=
  Outcome.forEach_keeps .refl fun x _ t ht => ht.trans (hf x t)

theorem keeps_of_chain {R : Store → Store → Prop} {t : Store} (chain : Relation.ReflTransGen R s t)
    (hR : ∀ {s t}, R s t → P s → P t) (hs : P s) : P t := by
  induction chain with
  | refl => exact hs
  | tail _ step ih => exact hR step ih

theorem eq_of_chain {β : Type} {R : Store → Store → Prop} {f : Store → β}
    (hR : ∀ {s t}, R s t → f t = f s) {t : Store} (chain : Relation.ReflTransGen R s t) : f t = f s :=
  keeps_of_chain (P := fun t => f t = f s) chain (fun step h => (hR step).trans h) rfl

end Outcomes

section Intake

theorem putInto_state (w : Way) (b : Bucket) : (putInto c w b s).state = stored w b s := by
  rw [putInto]
  split
  · exact progress_state _ _ _
  · rfl

theorem putInto_chain {w : Way} {b : Bucket} (newWay : s.ways.has w.id = false)
    (newArea : s.areaWays.has w.id = false)
    (fate : bucketOf c (w.id ∈ s.areaWayIds) w = .ok (some b)) (levelled : s.levels.has w.key = true) :
    Relation.ReflTransGen (IntakeStep c) s (putInto c w b s).state := by
  rw [putInto_state]
  exact .single (.way s w b newWay newArea fate levelled)

theorem putRelation_chain {r : Relation} {kind : RelationKind} (new : s.relations.has r.id = false)
    (kept : admission c r.tags = .ok (some kind)) :
    Relation.ReflTransGen (IntakeStep c) s (putRelation c r kind s).state := by
  rw [putRelation, progress_state]
  exact .single (.relation s ⟨r, kind⟩ new kept)

variable [Limits] {c : Settings} {s : Store}

theorem levelOfTag_findings (raise : Bool) (k : Key) (source : LevelSource) (v : Json) :
    ∀ a ∈ (levelOfTag raise k source v).findings, a.kind = .levelAmbiguous := by
  rw [levelOfTag, Logged.bind_findings, Logged.lift_findings, List.nil_append]
  split
  · rw [Logged.bind_findings, Level.readLogged_findings, List.nil_append]
    split
    · split
      · exact List.forall_mem_nil _
      · exact Logged.report_bind_kind (List.forall_mem_nil _)
    · exact List.forall_mem_nil _
  · exact List.forall_mem_nil _

theorem levelOf_findings (raise : Bool) (k : Key) (t : Tags) :
    ∀ a ∈ (levelOf raise k t).findings, a.kind = .levelAmbiguous := by
  rw [levelOf]
  split
  · exact levelOfTag_findings raise k _ _
  · exact levelOfTag_findings raise k _ _
  · exact List.forall_mem_nil _

theorem resolveLevel_frame (k : Key) (t : Tags) :
    ∃ ls as, (resolveLevel c k t s).state = { s with levels := ls, anomalies := as } := by
  rw [resolveLevel]
  split
  · exact ⟨_, _, rfl⟩
  · apply absorb_keeps (P := fun u => ∃ ls as, u = { s with levels := ls, anomalies := as })
    · exact ⟨_, _, rfl⟩
    · intro l _
      exact ⟨_, _, rfl⟩

theorem resolveLevel_chain (k : Key) (t : Tags) :
    Relation.ReflTransGen (IntakeStep c) s (resolveLevel c k t s).state := by
  rw [resolveLevel]
  split
  · exact .refl
  · rename_i new
    have hnote := Relation.ReflTransGen.single (IntakeStep.note (c := c) s (levelOf c.raisesFloors k t).log
      (levelOf_findings c.raisesFloors k t))
    apply absorb_keeps hnote
    intro l _
    exact hnote.tail (.level _ k l (by simpa [record] using new))

theorem resolveLevel_has {k : Key} {t : Tags} (h : (resolveLevel c k t s).failure = none) :
    (resolveLevel c k t s).state.levels.has k = true := by
  rw [resolveLevel] at h ⊢
  split
  · assumption
  · rename_i new
    rw [if_neg new, absorb] at h
    rw [absorb]
    split at h
    · exact Table.has_put.2 (.inl rfl)
    · cases h

theorem addWay_chain (h : s.phase ≠ .relationsProcessed) (w : Way) :
    Relation.ReflTransGen (IntakeStep c) s.reopened (addWay c w s).state := by
  rw [addWay_eq h]
  split
  · exact .refl
  · rename_i new
    rw [Bool.or_eq_true, not_or, Bool.not_eq_true, Bool.not_eq_true] at new
    obtain ⟨ls, as, hs⟩ := resolveLevel_frame (c := c) (s := s.reopened) w.key w.tags
    have hl := resolveLevel_chain (c := c) (s := s.reopened) w.key w.tags
    by_cases hf : (resolveLevel c w.key w.tags s.reopened).failure = none
    · rw [Outcome.andThen_state hf]
      refine hl.trans ?_
      have levelled := resolveLevel_has hf
      rw [hs] at levelled
      rw [hs, keepWay_eq]
      apply withValue_keeps .refl
      intro b hb
      cases b with
      | none => exact .refl
      | some b => exact putInto_chain new.1 new.2 hb levelled
    · rw [Outcome.andThen_of_failed hf]
      exact hl

theorem addRelation_chain (h : s.phase ≠ .relationsProcessed) (r : Relation) :
    Relation.ReflTransGen (IntakeStep c) s.reopened (addRelation c r s).state := by
  rw [addRelation_eq h]
  split
  · exact .refl
  · rename_i new
    rw [Bool.not_eq_true] at new
    apply withValue_keeps .refl
    intro kind hk
    cases kind with
    | none => exact .refl
    | some kind =>
      dsimp only
      rw [takeIn]
      split
      · have hm := Relation.ReflTransGen.single (IntakeStep.members (c := c) s.reopened r)
        have hl := resolveLevel_chain (c := c) (s := markMembers r s.reopened) r.key r.tags
        obtain ⟨ls, as, hs⟩ := resolveLevel_frame (c := c) (s := markMembers r s.reopened) r.key r.tags
        by_cases hf : (resolveLevel c r.key r.tags (markMembers r s.reopened)).failure = none
        · rw [Outcome.andThen_state hf]
          refine (hm.trans hl).trans ?_
          rw [hs]
          exact putRelation_chain new hk
        · rw [Outcome.andThen_of_failed hf]
          exact hm.trans hl
      · exact putRelation_chain new hk

end Intake

section Resolution

variable {c : Settings} {s : Store}

theorem place_chain (a : Area) : Relation.ReflTransGen AreaStep s (place c a s).state := by
  apply withValue_keeps .refl
  intro p _
  apply withValue_keeps .refl
  intro routable _
  dsimp only
  split
  · rename_i parkAndRide _
    dsimp only [Outcome.done]
    split
    · exact .single (.area s _)
    · exact .refl
  · dsimp only [Outcome.fail]
    split
    · exact .single (.area s _)
    · exact .refl

theorem bounds_frame (ws : List Way) (s : Store) :
    ∃ b, ws.foldl (fun s w => bound w s) s = { s with boundsAt := b } := by
  induction ws generalizing s with
  | nil => exact ⟨s.boundsAt, rfl⟩
  | cons w ws ih => exact ih (bound w s)

theorem place_frame (a : Area) : ∃ as, (place c a s).state = { s with areas := as } := by
  apply withValue_keeps (P := fun t => ∃ as, t = { s with areas := as }) ⟨_, rfl⟩
  intro p _
  apply withValue_keeps (P := fun t => ∃ as, t = { s with areas := as }) ⟨_, rfl⟩
  intro routable _
  dsimp only
  split
  · dsimp only [Outcome.done]
    split <;> exact ⟨_, rfl⟩
  · dsimp only [Outcome.fail]
    split <;> exact ⟨_, rfl⟩

theorem foldl_chain {α : Type} {R : Store → Store → Prop} {f : Store → α → Store}
    (hf : ∀ s x, Relation.ReflTransGen R s (f s x)) (xs : List α) (s : Store) :
    Relation.ReflTransGen R s (xs.foldl f s) := by
  induction xs generalizing s with
  | nil => exact .refl
  | cons x xs ih => exact (hf s x).trans (ih (f s x))

theorem copyToMembers_chain (r : Relation) : Relation.ReflTransGen AreaStep s (copyToMembers r s) :=
  foldl_chain (fun t (m : Member) => .single (.retag t m.ref r.tags)) r.wayMembers s

variable [Limits]

theorem gather_findings (r : Relation) (ms : List Member) (b : Boundary) :
    ∀ a ∈ (gather s r ms b).findings, a.kind = .multipolygonRoleUnexpected := by
  induction ms generalizing b with
  | nil => exact List.forall_mem_nil _
  | cons m ms ih =>
    rw [gather]
    split
    · split
      · exact List.forall_mem_nil _
      · split
        · exact List.forall_mem_nil _
        · split
          · exact ih _
          · exact ih _
    · exact Logged.report_bind_kind (ih b)

variable [Geometry]

theorem buildArea_chain {what : String} {parent : Parent} {outer inner : List Way}
    {f : Area → Store → Outcome Store} (hf : ∀ a, Relation.ReflTransGen AreaStep s (f a s).state) :
    Relation.ReflTransGen AreaStep s (buildArea what parent outer inner s f).state := by
  rw [buildArea]
  split
  · exact hf _
  · split
    · exact withValue_keeps .refl fun _ _ => .refl
    · exact .refl

theorem resolveMultipolygon_chain (r : Relation) :
    Relation.ReflTransGen AreaStep (markProcessed r.key s) (resolveMultipolygon c r s).state := by
  have hnote := Relation.ReflTransGen.single (AreaStep.note (markProcessed r.key s)
    (gather (markProcessed r.key s) r r.wayMembers ⟨[], []⟩).log (gather_findings r r.wayMembers ⟨[], []⟩))
  apply absorb_keeps hnote
  intro b _
  refine hnote.trans ?_
  cases b with
  | none => exact .refl
  | some b =>
    apply buildArea_chain
    intro a
    refine Relation.ReflTransGen.trans
      (foldl_chain (fun t w => .single (.bound t w)) (b.outer ++ b.inner) _) ?_
    apply andThen_chain (place_chain a)
    intro t
    exact copyToMembers_chain r

theorem tryMultipolygon_chain (k : KeptRelation) :
    Relation.ReflTransGen AreaStep s (tryMultipolygon c k s).state := by
  rw [tryMultipolygon]
  split
  · exact .refl
  · exact .head (.processed s k.relation.key) (resolveMultipolygon_chain k.relation)

theorem tryCandidate_chain (w : Way) : Relation.ReflTransGen AreaStep s (tryCandidate c w s).state := by
  rw [tryCandidate]
  split
  · exact .refl
  · apply andThen_chain (buildArea_chain fun a => place_chain a)
    intro t
    exact .single (.processed t w.key)

end Resolution

section Conclusion

theorem listOnWay_chain (r : Relation) (key : String) (tag : Json) (id : Int) :
    Relation.ReflTransGen RelationStep s (listOnWay c r key tag id s).state := by
  rw [listOnWay]
  split
  · apply withValue_keeps .refl
    intro t _
    exact .single (.tags s id _ t ‹_›)
  · exact .refl

theorem applyRoute_chain (r : Relation) :
    Relation.ReflTransGen RelationStep s (applyRoute c r s).state := by
  apply forEach_chain
  intro m t
  exact andThen_chain (listOnWay_chain r "name" c.routeNameTag m.ref)
    fun u => listOnWay_chain r "ref" c.routeRefTag m.ref

variable [Limits] {c : Settings} {s : Store}

theorem applyRestriction_chain (r : Relation) :
    Relation.ReflTransGen RelationStep s (applyRestriction r s).state := by
  have hnote := Relation.ReflTransGen.single (RelationStep.note s (TurnRestriction.ofRelation r).log)
  apply absorb_keeps hnote
  intro found _
  cases found with
  | none => exact hnote
  | some found => exact hnote.tail (.turn _ found.1 found.2)

theorem applyLevel_chain (r : Relation) (levels : Table String Level) (m : Member) :
    Relation.ReflTransGen RelationStep s (applyLevel r levels m s).state := by
  rw [applyLevel]
  split
  · exact .refl
  · apply withValue_keeps .refl
    intro role _
    split
    · exact .refl
    have hnote := Relation.ReflTransGen.single (RelationStep.note s (levelInRole r levels m).log)
    apply absorb_keeps hnote
    intro level _
    cases level with
    | none => exact hnote
    | some level => exact hnote.tail (.level _ m.ref level)

theorem applyLevelMap_chain (r : Relation) :
    Relation.ReflTransGen RelationStep s (applyLevelMap r s).state := by
  have hnote := Relation.ReflTransGen.single (RelationStep.note s (levelsOf r).log)
  apply absorb_keeps hnote
  intro levels _
  exact hnote.trans (forEach_chain (fun m t => applyLevel_chain r levels m) r.wayMembers _)

theorem applyStopArea_chain (r : Relation) :
    Relation.ReflTransGen RelationStep s (applyStopArea r s).state := by
  have unresolved : ∀ text, Relation.ReflTransGen RelationStep s
      (s.absorb (unresolvedStops r text) fun _ s => Outcome.done s).state := by
    intro text
    have hnote := Relation.ReflTransGen.single (RelationStep.note s (unresolvedStops r text).log)
    exact absorb_keeps hnote fun _ _ => hnote
  rw [applyStopArea]
  split
  · exact .single (.stops s _ _)
  · exact unresolved _
  · exact unresolved _

theorem applyRelation_chain (k : KeptRelation) :
    Relation.ReflTransGen RelationStep s (applyRelation c k s).state := by
  rw [applyRelation]
  split
  · exact .refl
  · exact applyRestriction_chain k.relation
  · exact applyLevelMap_chain k.relation
  · exact applyRoute_chain k.relation
  · exact applyStopArea_chain k.relation

end Conclusion

end StreetMap.Store
