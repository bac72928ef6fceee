import StreetMap.Proofs.Store.Step

/-!
What stays as it was.  Ways and relations only come to those that are there.  Resolving areas and
applying relations change no element but the tags of plain ways, and nothing that was processed or has a
level loses that.
-/

namespace StreetMap.Store

structure OnlyAdds (s t : Store) : Prop where
  phase : t.phase = s.phase
  nodes : t.nodes = s.nodes
  bikeRentals : t.bikeRentals = s.bikeRentals
  wayNodeIds : t.wayNodeIds = s.wayNodeIds
  areaNodeIds : t.areaNodeIds = s.areaNodeIds
  processed : t.processed = s.processed
  ways : s.ways <+: t.ways
  areaWays : s.areaWays <+: t.areaWays
  relations : s.relations <+: t.relations
  areaWayIds : ∀ id ∈ s.areaWayIds, id ∈ t.areaWayIds
  levels : ∀ k, s.levels.has k = true → t.levels.has k = true
  areas : t.areas = s.areas
  candidates : s.candidates <+: t.candidates
  turns : t.fromTurns = s.fromTurns ∧ t.toTurns = s.toTurns
  findings : ∃ as, t.anomalies = s.anomalies ++ as ∧ ∀ a ∈ as, a.kind = .levelAmbiguous

theorem OnlyAdds.refl (s : Store) : OnlyAdds s s where
  phase := rfl
  nodes := rfl
  bikeRentals := rfl
  wayNodeIds := rfl
  areaNodeIds := rfl
  processed := rfl
  ways := List.prefix_rfl
  areaWays := List.prefix_rfl
  relations := List.prefix_rfl
  areaWayIds := fun _ h => h
  levels := fun _ h => h
  areas := rfl
  candidates := List.prefix_rfl
  turns := ⟨rfl, rfl⟩
  findings := ⟨[], (List.append_nil _).symm, List.forall_mem_nil _⟩

theorem OnlyAdds.trans {s t u : Store} (h : OnlyAdds s t) (h' : OnlyAdds t u) : OnlyAdds s u where
  phase := h'.phase.trans h.phase
  nodes := h'.nodes.trans h.nodes
  bikeRentals := h'.bikeRentals.trans h.bikeRentals
  wayNodeIds := h'.wayNodeIds.trans h.wayNodeIds
  areaNodeIds := h'.areaNodeIds.trans h.areaNodeIds
  processed := h'.processed.trans h.processed
  ways := h.ways.trans h'.ways
  areaWays := h.areaWays.trans h'.areaWays
  relations := h.relations.trans h'.relations
  areaWayIds := fun id hid => h'.areaWayIds id (h.areaWayIds id hid)
  levels := fun k hk => h'.levels k (h.levels k hk)
  areas := h'.areas.trans h.areas
  candidates := h.candidates.trans h'.candidates
  turns := ⟨h'.turns.1.trans h.turns.1, h'.turns.2.trans h.turns.2⟩
  findings := by
    obtain ⟨as, has, hkinds⟩ := h.findings
    obtain ⟨as', has', hkinds'⟩ := h'.findings
    refine ⟨as ++ as', ?_, List.forall_mem_append.2 ⟨hkinds, hkinds'⟩⟩
    rw [has', has, List.append_assoc]

theorem IntakeStep.adds {c : Settings} {s t : Store} (h : IntakeStep c s t) : OnlyAdds s t := by
  cases h with
  | note log findings => exact { OnlyAdds.refl s with findings := ⟨_, rfl, findings⟩ }
  | level k l new => exact { OnlyAdds.refl s with levels := fun _ h => Table.has_put_of_has h }
  | members r =>
    exact { OnlyAdds.refl s with areaWayIds := fun _ h => mem_insertAll.2 (.inl h) }
  | relation k new kind =>
    exact { OnlyAdds.refl s with relations := ⟨[(k.relation.id, k)], (Table.put_of_new new).symm⟩ }
  | way w b newWay newArea fate =>
    cases b with
    | member =>
      exact { OnlyAdds.refl s with areaWays := ⟨[(w.id, w)], (Table.put_of_new newArea).symm⟩ }
    | candidate =>
      exact { OnlyAdds.refl s with
        areaWays := ⟨[(w.id, w)], (Table.put_of_new newArea).symm⟩
        areaWayIds := fun _ h => mem_insertNew.2 (.inl h)
        candidates := ⟨[w], rfl⟩ }
    | plain => exact { OnlyAdds.refl s with ways := ⟨[(w.id, w)], (Table.put_of_new newWay).symm⟩ }

def outline (ways : Table Int Way) : List (Int × Int × List Int) :=
  ways.map fun r => (r.1, r.2.id, r.2.nodeRefs)

structure SameElements (s t : Store) : Prop where
  phase : t.phase = s.phase
  nodes : t.nodes = s.nodes
  bikeRentals : t.bikeRentals = s.bikeRentals
  ways : outline t.ways = outline s.ways
  areaWays : t.areaWays = s.areaWays
  relations : t.relations = s.relations
  candidates : t.candidates = s.candidates
  areaWayIds : t.areaWayIds = s.areaWayIds
  wayNodeIds : t.wayNodeIds = s.wayNodeIds
  areaNodeIds : t.areaNodeIds = s.areaNodeIds
  processed : ∀ k ∈ s.processed, k ∈ t.processed
  levels : ∀ k, s.levels.has k = true → t.levels.has k = true

theorem SameElements.refl (s : Store) : SameElements s s :=
  ⟨rfl, rfl, rfl, rfl, rfl, rfl, rfl, rfl, rfl, rfl, fun _ h => h, fun _ h => h⟩

theorem SameElements.trans {s t u : Store} (h : SameElements s t) (h' : SameElements t u) :
    SameElements s u where
  phase := h'.phase.trans h.phase
  nodes := h'.nodes.trans h.nodes
  bikeRentals := h'.bikeRentals.trans h.bikeRentals
  ways := h'.ways.trans h.ways
  areaWays := h'.areaWays.trans h.areaWays
  relations := h'.relations.trans h.relations
  candidates := h'.candidates.trans h.candidates
  areaWayIds := h'.areaWayIds.trans h.areaWayIds
  wayNodeIds := h'.wayNodeIds.trans h.wayNodeIds
  areaNodeIds := h'.areaNodeIds.trans h.areaNodeIds
  processed := fun k hk => h'.processed k (h.processed k hk)
  levels := fun k hk => h'.levels k (h.levels k hk)

theorem outline_put {ways : Table Int Way} {id : Int} {v w : Way} (h : ways.get? id = some w)
    (hid : v.id = w.id) (hrefs : v.nodeRefs = w.nodeRefs) : outline (ways.put id v) = outline ways := by
  induction ways with
  | nil => cases h
  | cons r ways ih =>
    obtain ⟨k, u⟩ := r
    by_cases hk : k = id
    · simp only [Table.get?, hk, if_true, Option.some.injEq] at h
      simp [Table.put, outline, hk, h, hid, hrefs]
    · simp only [Table.get?, hk, if_false] at h
      simp only [outline] at ih
      simp [Table.put, outline, hk, ih h]

theorem get?_outline (ways : Table Int Way) (id : Int) :
    Table.get? (outline ways) id = (ways.get? id).map fun w => (w.id, w.nodeRefs) := by
  induction ways with
  | nil => rfl
  | cons r ways ih =>
    simp only [outline] at ih
    by_cases hr : r.1 = id <;> simp [outline, Table.get?, hr, ih]

theorem outline_retag {s : Store} (id : Int) (f : Tags → Tags) :
    outline (retag id f s).ways = outline s.ways := by
  rw [retag]
  split
  · rfl
  · rename_i w hw
    exact outline_put hw rfl rfl

theorem keys_of_outline {t u : Table Int Way} (h : outline t = outline u) : t.keys = u.keys := by
  have h' := congrArg (List.map Prod.fst) h
  simpa [outline, Table.keys, Function.comp_def] using h'

theorem has_of_outline {t u : Table Int Way} (h : outline t = outline u) (id : Int) :
    t.has id = u.has id := by
  rw [Bool.eq_iff_iff, Table.has_iff_mem_keys, Table.has_iff_mem_keys, keys_of_outline h]

theorem nodesOfWays_eq (ways : Table Int Way) :
    nodesOfWays ways = ((outline ways).filter fun r => r.2.2.length > 1).flatMap fun r => r.2.2 := by
  simp [nodesOfWays, outline, Table.values, List.filter_map, List.flatMap_map, Function.comp_def]

theorem nodesOfWays_of_outline {t u : Table Int Way} (h : outline t = outline u) :
    nodesOfWays t = nodesOfWays u := by
  rw [nodesOfWays_eq, nodesOfWays_eq, h]

theorem AreaStep.same {s t : Store} (h : AreaStep s t) : SameElements s t := by
  cases h with
  | note log => exact { SameElements.refl s with }
  | processed k =>
    exact { SameElements.refl s with processed := fun _ hk => mem_insertNew.2 (.inl hk) }
  | bound w => exact { SameElements.refl s with }
  | area p => exact { SameElements.refl s with }
  | retag id source =>
    have hways := outline_retag (s := s) id (copyTags source)
    rw [Store.retag] at hways ⊢
    split
    · exact SameElements.refl s
    · rename_i hw
      rw [hw] at hways
      exact { SameElements.refl s with ways := hways }

theorem RelationStep.same {s t : Store} (h : RelationStep s t) : SameElements s t := by
  cases h with
  | note log => exact { SameElements.refl s with }
  | turn ends turn => exact { SameElements.refl s with }
  | level id l => exact { SameElements.refl s with levels := fun _ h => Table.has_put_of_has h }
  | tags id w t kept => exact { SameElements.refl s with ways := outline_put kept rfl rfl }
  | stops k ids => exact { SameElements.refl s with }

theorem adds_of_chain {c : Settings} {s t : Store} (h : Relation.ReflTransGen (IntakeStep c) s t) :
    OnlyAdds s t := by
  induction h with
  | refl => exact .refl s
  | tail _ step ih => exact ih.trans step.adds

theorem same_of_chain {R : Store → Store → Prop} (hR : ∀ {s t}, R s t → SameElements s t)
    {s t : Store} (h : Relation.ReflTransGen R s t) : SameElements s t := by
  induction h with
  | refl => exact .refl s
  | tail _ step ih => exact ih.trans (hR step)

variable {c : Settings} {s : Store}

theorem linesComplete_of_closed (h : s.phase = .relationsProcessed) :
    linesComplete s = Outcome.fail s (.phase (.outOfOrder "on_lines_complete" s.phase)) := if_pos h

def marked (s : Store) : Store :=
  { s with
    wayNodeIds := insertAll s.wayNodeIds (nodesOfWays s.ways)
    areaNodeIds := insertAll s.areaNodeIds (nodesOfWays s.areaWays)
    phase := .linesMarked }

theorem linesComplete_eq (h : s.phase ≠ .relationsProcessed) :
    linesComplete s = Outcome.saying .info ("Kept " ++ toString s.ways.length ++ " ways, "
      ++ toString s.areaWays.length ++ " area ways, " ++ toString s.relations.length ++ " relations")
      s.marked := if_neg h

def Waits (s : Store) (w : Way) : Prop := w.key ∈ s.processed ∨ s.hasNodes w.nodeRefs = false

theorem Waits.same {t : Store} {w : Way} (h : Waits s w) (same : SameElements s t) : Waits t w :=
  h.imp (same.processed _) fun h => by rw [hasNodes, same.nodes]; exact h

variable [Limits]

theorem addWay_frame (h : s.phase ≠ .relationsProcessed) (w : Way) :
    ∃ ls as, (∀ k, s.levels.has k = true → ls.has k = true) ∧
      ((addWay c w s).state = { s.reopened with levels := ls, anomalies := as } ∨
        ∃ b, (addWay c w s).state = stored w b { s.reopened with levels := ls, anomalies := as }) := by
  rw [addWay_eq h]
  split
  · exact ⟨s.levels, s.anomalies, fun _ h => h, .inl rfl⟩
  · obtain ⟨ls, as, hs⟩ := resolveLevel_frame (c := c) (s := s.reopened) w.key w.tags
    have mono := (adds_of_chain (resolveLevel_chain (c := c) (s := s.reopened) w.key w.tags)).levels
    rw [hs] at mono
    refine ⟨ls, as, mono, ?_⟩
    by_cases hf : (resolveLevel c w.key w.tags s.reopened).failure = none
    · rw [Outcome.andThen_state hf, hs]
      generalize ({ s.reopened with levels := ls, anomalies := as } : Store) = u
      rw [keepWay_eq]
      cases bucketOf c (w.id ∈ u.areaWayIds) w with
      | error e => exact .inl rfl
      | ok b =>
        cases b with
        | none => exact .inl rfl
        | some b => exact .inr ⟨b, putInto_state w b⟩
    · rw [Outcome.andThen_of_failed hf]
      exact .inl hs

theorem addWay_relations (w : Way) : (addWay c w s).state.relations = s.relations := by
  by_cases closed : s.phase = .relationsProcessed
  · rw [addWay_of_closed closed]
    rfl
  · obtain ⟨ls, as, -, hs | ⟨b, hs⟩⟩ := addWay_frame (c := c) closed w
    · rw [hs]
      rfl
    · rw [hs]
      cases b <;> rfl

theorem addRelation_frame (h : s.phase ≠ .relationsProcessed) (r : Relation) :
    ∃ ids ls as, (addRelation c r s).state =
        { s.reopened with areaWayIds := ids, levels := ls, anomalies := as } ∨
      ∃ kind, admission c r.tags = .ok (some kind) ∧ (addRelation c r s).state =
        { s.reopened with
          areaWayIds := ids, levels := ls, anomalies := as
          relations := s.relations.put r.id ⟨r, kind⟩ } := by
  rw [addRelation_eq h]
  split
  · exact ⟨s.areaWayIds, s.levels, s.anomalies, .inl rfl⟩
  · cases hk : admission c r.tags with
    | error e => exact ⟨s.areaWayIds, s.levels, s.anomalies, .inl rfl⟩
    | ok kind =>
      cases kind with
      | none => exact ⟨s.areaWayIds, s.levels, s.anomalies, .inl rfl⟩
      | some kind =>
        rw [Outcome.withValue_ok]
        dsimp only
        rw [takeIn]
        split
        · obtain ⟨ls, as, hs⟩ := resolveLevel_frame (c := c) (s := markMembers r s.reopened) r.key r.tags
          refine ⟨(markMembers r s.reopened).areaWayIds, ls, as, ?_⟩
          by_cases hf : (resolveLevel c r.key r.tags (markMembers r s.reopened)).failure = none
          · rw [Outcome.andThen_state hf, hs, putRelation, progress_state]
            exact .inr ⟨kind, rfl, rfl⟩
          · rw [Outcome.andThen_of_failed hf]
            exact .inl hs
        · refine ⟨s.areaWayIds, s.levels, s.anomalies, .inr ⟨kind, rfl, ?_⟩⟩
          rw [putRelation, progress_state]
          rfl

theorem finish_of_closed (h : s.phase ≠ .areasResolved) :
    finish c s = Outcome.fail s (.phase (.outOfOrder "finish" s.phase)) := if_neg h

def applyRelations (c : Settings) (s : Store) : Outcome Store :=
  (Outcome.saying .debug "Processing relations..." s).andThen
    (Outcome.forEach (applyRelation c) s.relations.values)

theorem applyRelations_chain : Relation.ReflTransGen RelationStep s (applyRelations c s).state :=
  andThen_chain .refl fun t => forEach_chain (fun k _ => applyRelation_chain k) s.relations.values t

theorem applyRelations_same : SameElements s (applyRelations c s).state :=
  same_of_chain RelationStep.same applyRelations_chain

theorem finish_of_open (h : s.phase = .areasResolved) :
    finish c s = (applyRelations c s).andThen fun s =>
      Outcome.saying .info ("Relations processed: " ++ toString s.fromTurns.length
        ++ " ways with turn restrictions, " ++ toString s.stops.length ++ " stop areas, "
        ++ toString s.anomalies.length ++ " anomalies")
        { s with phase := .relationsProcessed } := if_pos h

theorem finish_ok (ok : (finish c s).failure = none) :
    (applyRelations c s).failure = none ∧
      (finish c s).state = { (applyRelations c s).state with phase := .relationsProcessed } := by
  by_cases opened : s.phase = .areasResolved
  · rw [finish_of_open opened, Outcome.andThen_failure_eq_none] at ok
    rw [finish_of_open opened, Outcome.andThen_state ok.1]
    exact ⟨ok.1, rfl⟩
  · rw [finish_of_closed opened] at ok
    cases ok

variable [Geometry]

def resolveAreas (c : Settings) (s : Store) : Outcome Store :=
  (Outcome.forEach (tryMultipolygon c) s.relations.values s).andThen fun s =>
    Outcome.forEach (tryCandidate c) s.candidates s

theorem resolveAreas_chain : Relation.ReflTransGen AreaStep s (resolveAreas c s).state :=
  andThen_chain (forEach_chain (fun k _ => tryMultipolygon_chain k) s.relations.values s)
    fun t => forEach_chain (fun w _ => tryCandidate_chain w) t.candidates t

theorem resolveAreas_same : SameElements s (resolveAreas c s).state :=
  same_of_chain AreaStep.same resolveAreas_chain

theorem tryCandidates_same (ws : List Way) :
    SameElements s (Outcome.forEach (tryCandidate c) ws s).state :=
  same_of_chain AreaStep.same (forEach_chain (fun w _ => tryCandidate_chain w) ws s)

theorem tryMultipolygon_processed (k : KeptRelation) (hkind : k.kind = .multipolygon) :
    k.relation.key ∈ (tryMultipolygon c k s).state.processed := by
  rw [tryMultipolygon]
  split
  · rename_i skipped
    simpa [hkind, isProcessed, Outcome.done] using skipped
  · exact (same_of_chain AreaStep.same (resolveMultipolygon_chain k.relation)).processed _
      (mem_insertNew.2 (.inr rfl))

theorem tryMultipolygons_same (ks : List KeptRelation) :
    SameElements s (Outcome.forEach (tryMultipolygon c) ks s).state :=
  same_of_chain AreaStep.same (forEach_chain (fun k _ => tryMultipolygon_chain k) ks s)

theorem multipolygons_processed
    (h : (Outcome.forEach (tryMultipolygon c) s.relations.values s).failure = none) :
    ∀ k ∈ s.relations.values, k.kind = .multipolygon →
      k.relation.key ∈ (Outcome.forEach (tryMultipolygon c) s.relations.values s).state.processed := by
  refine Outcome.forEach_settles
    (Q := fun k t => k.kind = .multipolygon → k.relation.key ∈ t.processed) (D := fun _ _ => True)
    (List.pairwise_of_forall fun _ _ => trivial) ?_ ?_ h
  · intro k _ t _ hkind
    exact tryMultipolygon_processed k hkind
  · intro k l _ t kept hkind
    exact (same_of_chain AreaStep.same (tryMultipolygon_chain l)).processed _ (kept hkind)

theorem resolveAreas_processed (h : (resolveAreas c s).failure = none) :
    ∀ k ∈ s.relations.values, k.kind = .multipolygon →
      k.relation.key ∈ (resolveAreas c s).state.processed := by
  rw [resolveAreas, Outcome.andThen_failure_eq_none] at h
  rw [resolveAreas, Outcome.andThen_state h.1]
  intro k hk hkind
  exact (tryCandidates_same _).processed _ (multipolygons_processed h.1 k hk hkind)

theorem tryCandidate_same (w : Way) : SameElements s (tryCandidate c w s).state :=
  same_of_chain AreaStep.same (tryCandidate_chain w)

theorem tryCandidate_waits (w : Way) (h : (tryCandidate c w s).failure = none) :
    Waits (tryCandidate c w s).state w := by
  rw [tryCandidate] at h ⊢
  split
  · rename_i skipped
    simpa [Waits, isProcessed] using skipped
  · rename_i new
    rw [if_neg new, Outcome.andThen_failure_eq_none] at h
    rw [Outcome.andThen_state h.1]
    exact .inl (mem_insertNew.2 (.inr rfl))

theorem resolveAreas_waits (h : (resolveAreas c s).failure = none) :
    ∀ w ∈ s.candidates, Waits (resolveAreas c s).state w := by
  rw [resolveAreas, Outcome.andThen_failure_eq_none] at h
  rw [resolveAreas, Outcome.andThen_state h.1]
  intro w hw
  rw [← (tryMultipolygons_same (c := c) (s := s) s.relations.values).candidates] at hw
  refine Outcome.forEach_settles (Q := fun w t => Waits t w) (D := fun _ _ => True)
    (List.pairwise_of_forall fun _ _ => trivial) ?_ ?_ h.2 w hw
  · intro w _ t ht
    exact tryCandidate_waits w ht
  · intro w v _ t ht
    exact ht.same (tryCandidate_same v)

theorem pointsComplete_of_open (h : s.phase = .linesMarked ∨ s.phase = .areasResolved) :
    pointsComplete c s = (resolveAreas c s).andThen fun s =>
      Outcome.saying .info ("Kept " ++ toString s.nodes.length ++ " nodes; "
        ++ toString s.walkableAreas.length ++ " walkable areas, "
        ++ toString s.parkAndRideAreas.length ++ " park and ride areas")
        { s with phase := .areasResolved } := by
  rw [pointsComplete, if_pos (by simpa using h)]
  rfl

theorem pointsComplete_of_closed (h : ¬ (s.phase = .linesMarked ∨ s.phase = .areasResolved)) :
    pointsComplete c s = Outcome.fail s (.phase (.outOfOrder "on_points_complete" s.phase)) := by
  rw [pointsComplete, if_neg (by simpa using h)]

end StreetMap.Store
