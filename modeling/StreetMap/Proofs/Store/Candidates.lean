import StreetMap.Proofs.Store.Boundary
import StreetMap.Proofs.Store.Retention
import StreetMap.Standard

/-!
Candidates.  Each is processed once all its nodes are in, and then its area is there or its nodes make
none.  What its nodes make is settled by them, so nodes that come later change nothing.
-/

namespace StreetMap.Store

variable {c : Settings} {s t : Store} {op : Operation} {w : Way} {nodes nodes' : Table Int Node}

theorem hasNodes_iff {ids : List Int} : s.hasNodes ids = true ↔ ∀ id ∈ ids, s.nodes.has id = true :=
  List.all_eq_true

theorem hasNodes_mono {ids : List Int} (nodes : s.nodes <+: t.nodes) (h : s.hasNodes ids = true) :
    t.hasNodes ids = true := by
  rw [hasNodes_iff] at h ⊢
  intro id hid
  obtain ⟨n, hn⟩ := Option.isSome_iff_exists.1 (h id hid)
  exact Table.has_of_get? (Table.get?_of_prefix nodes hn)

theorem RelationStep.processed (step : RelationStep s t) : t.processed = s.processed := by
  cases step <;> rfl

theorem placed_of_walkable {a : Area} {ps : List PlacedArea} (placed : placing c a = .ok ps)
    (walkable : IsWalkable c a.parent.tags) : ∃ p ∈ ps, p.walkable = true ∧ p.area = a := by
  obtain ⟨routable, p, hp, some⟩ := walkable
  rw [placing, hp, routable] at placed
  obtain ⟨b, -, rfl⟩ := map_eq_ok.1 placed
  simp [some]

theorem placed_of_parkAndRide {a : Area} {ps : List PlacedArea} (placed : placing c a = .ok ps)
    (parking : a.parent.tags.isParkAndRide = .ok true) :
    ∃ p ∈ ps, p.parkAndRide = true ∧ p.area = a := by
  obtain ⟨p, -, placed⟩ := bind_eq_ok.1 placed
  obtain ⟨routable, -, placed⟩ := bind_eq_ok.1 placed
  rw [parking] at placed
  cases placed
  simp

def Call.BringsLate (k : Call) (id : Int) : Prop :=
  k.found.phase = .areasResolved ∧ k.found.nodes.has id = false ∧
    ∃ n, k.op = .addNode n ∧ n.id = id ∧ n.tags.isBikeRental = false ∧ k.found.wants n = true

def ResolvedBefore (s : Store) : Prop := s.phase = .areasResolved ∨ s.phase = .relationsProcessed

theorem exists_missing {ids : List Int} (h : s.hasNodes ids = false) : ∃ id ∈ ids, s.nodes.has id = false := by
  simpa [hasNodes] using h

section Candidates

variable [Limits]

theorem applyRelations_processed : (applyRelations c s).state.processed = s.processed :=
  eq_of_chain (f := processed) RelationStep.processed applyRelations_chain

variable [Geometry]

def areasOfWay (c : Settings) (nodes : Table Int Node) (w : Way) : Except Failure (List PlacedArea) :=
  match Area.build ⟨w.key, w.tags⟩ [w.nodeRefs] [] nodes with
  | .ok a => placing c a
  | .error e =>
    if e.isRejection then (Json.number (skippingText "area way" w.key e)).map fun _ => []
    else .error (.area e)

structure Decided (c : Settings) (s : Store) (w : Way) : Prop where
  complete : s.hasNodes w.nodeRefs = true
  placed : ∃ ps, areasOfWay c s.nodes w = .ok ps ∧ ∀ p ∈ ps, p ∈ s.areas

def WaysDecided (c : Settings) (s : Store) : Prop :=
  ∀ id, (⟨.way, id⟩ : Key) ∈ s.processed → ∃ w ∈ s.candidates, w.id = id ∧ Decided c s w

section Lookup

theorem areasOfWay_congr (h : ∀ id ∈ w.nodeRefs, nodes.get? id = nodes'.get? id) :
    areasOfWay c nodes w = areasOfWay c nodes' w := by
  rw [areasOfWay, areasOfWay, Area.build_congr_on]
  simpa using h

theorem areasOfWay_settled (complete : s.hasNodes w.nodeRefs = true) (nodes : s.nodes <+: t.nodes) :
    areasOfWay c t.nodes w = areasOfWay c s.nodes w := by
  apply areasOfWay_congr
  intro id hid
  obtain ⟨n, hn⟩ := Option.isSome_iff_exists.1 (hasNodes_iff.1 complete id hid)
  rw [hn]
  exact Table.get?_of_prefix nodes hn

end Lookup

section Trying

theorem candidateVerdict_eq (complete : s.hasNodes w.nodeRefs = true) :
    candidateVerdict c s w =
      (areasOfWay c s.nodes w).map fun ps => { areas := ps, processed := [w.key] } := by
  rw [candidateVerdict, if_pos complete, buildVerdict, areasOfWay, List.map_singleton, List.map_nil]
  cases Area.build ⟨w.key, w.tags⟩ [w.nodeRefs] [] s.nodes with
  | ok a =>
    dsimp only
    rw [placeVerdict]
    cases placing c a with
    | ok ps => simp [Except.map, Harvest.append]
    | error e => rfl
  | error e =>
    dsimp only
    split
    · cases Json.number (skippingText "area way" w.key e) <;> rfl
    · rfl

inductive Trial (c : Settings) (w : Way) (s : Store) (o : Outcome Store) : Prop
  | passed (waits : Waits s w) (idle : o = Outcome.done s)
  | built (new : w.key ∉ s.processed) (complete : s.hasNodes w.nodeRefs = true) {ps : List PlacedArea}
      (worth : areasOfWay c s.nodes w = .ok ps)
      (ends : o.Ends (· = { s with areas := s.areas ++ ps, processed := insertNew s.processed w.key }))
  | failed (new : w.key ∉ s.processed) (complete : s.hasNodes w.nodeRefs = true) {e : Failure}
      (worth : areasOfWay c s.nodes w = .error e) (failed : o.failure ≠ none) {as : List PlacedArea}
      (state : o.state = { s with areas := s.areas ++ as })

theorem tryCandidate_of_failed (failed : (tryCandidate c w s).failure ≠ none) :
    ∃ as, (tryCandidate c w s).state = { s with areas := s.areas ++ as } := by
  rw [tryCandidate] at failed ⊢
  split
  · exact ⟨[], by rw [List.append_nil]; rfl⟩
  · rename_i tried
    rw [if_neg tried] at failed
    have unbuilt : (buildArea "area way" ⟨w.key, w.tags⟩ [w] [] s (place c)).failure ≠ none := by
      intro ok
      rw [Outcome.andThen_failure ok] at failed
      exact failed rfl
    rw [Outcome.andThen_of_failed unbuilt]
    cases buildArea_cases "area way" ⟨w.key, w.tags⟩ [w] [] s with
    | inl built =>
      obtain ⟨a, -, hs⟩ := built
      rw [hs]
      exact place_grows a
    | inr none => exact ⟨[], by rw [none.2, List.append_nil]⟩

theorem tryCandidate_trial (c : Settings) (w : Way) (s : Store) : Trial c w s (tryCandidate c w s) := by
  by_cases waits : Waits s w
  · exact .passed waits (tryCandidate_again waits)
  · rw [Waits, not_or, Bool.not_eq_false] at waits
    have yields := tryCandidate_yields (c := c) (t := s) ⟨⟨fun _ => rfl, fun _ => rfl⟩, waits.1⟩
    rw [candidateVerdict_eq waits.2] at yields
    cases worth : areasOfWay c s.nodes w with
    | error e =>
      rw [worth] at yields
      obtain ⟨as, hs⟩ := tryCandidate_of_failed yields
      exact .failed waits.1 waits.2 worth yields hs
    | ok ps =>
      rw [worth] at yields
      refine .built waits.1 waits.2 worth ⟨yields.1, yields.2.trans ?_⟩
      simp [add, addBounds, insertAll]

end Trying

section Runs

theorem Decided.mono (h : Decided c s w) (nodes : s.nodes <+: t.nodes)
    (areas : ∀ p ∈ s.areas, p ∈ t.areas) : Decided c t w where
  complete := hasNodes_mono nodes h.complete
  placed := by
    obtain ⟨ps, worth, placed⟩ := h.placed
    exact ⟨ps, (areasOfWay_settled h.complete nodes).trans worth, fun p hp => areas p (placed p hp)⟩

theorem WaysDecided.mono (h : WaysDecided c s)
    (processed : ∀ id, (⟨.way, id⟩ : Key) ∈ t.processed → (⟨.way, id⟩ : Key) ∈ s.processed)
    (candidates : s.candidates <+: t.candidates) (nodes : s.nodes <+: t.nodes)
    (areas : ∀ p ∈ s.areas, p ∈ t.areas) : WaysDecided c t := by
  intro id hid
  obtain ⟨w, hw, hwid, decided⟩ := h id (processed id hid)
  exact ⟨w, candidates.mem hw, hwid, decided.mono nodes areas⟩

theorem WaysDecided.of_same (h : WaysDecided c s) (processed : t.processed = s.processed)
    (candidates : t.candidates = s.candidates) (nodes : t.nodes = s.nodes) (areas : t.areas = s.areas) :
    WaysDecided c t :=
  h.mono (by simp [processed]) (by simp [candidates]) (by simp [nodes]) (by simp [areas])

theorem WaysDecided.tryMultipolygon (h : WaysDecided c s) (k : KeptRelation) :
    WaysDecided c (tryMultipolygon c k s).state := by
  cases tryMultipolygon_cases c k s with
  | inl tried =>
    rw [tried.2]
    obtain ⟨bounds, ⟨as, ws, fs, hs⟩, -⟩ := resolveMultipolygon_tried c s k.relation
    rw [hs]
    refine h.mono ?_ List.prefix_rfl List.prefix_rfl fun p hp => List.mem_append_left _ hp
    intro id hid
    exact (mem_insertNew.1 hid).resolve_right nofun
  | inr passed =>
    rw [passed.2]
    exact h

theorem WaysDecided.add {ps : List PlacedArea} (h : WaysDecided c s) (hw : w ∈ s.candidates)
    (complete : s.hasNodes w.nodeRefs = true) (worth : areasOfWay c s.nodes w = .ok ps) :
    WaysDecided c { s with areas := s.areas ++ ps, processed := insertNew s.processed w.key } := by
  intro id hid
  cases mem_insertNew.1 hid with
  | inl hid =>
    obtain ⟨v, hv, hvid, decided⟩ := h id hid
    exact ⟨v, hv, hvid, decided.mono List.prefix_rfl fun p hp => List.mem_append_left _ hp⟩
  | inr hid =>
    cases hid
    exact ⟨w, hw, rfl, complete, ps, worth, fun p hp => List.mem_append_right _ hp⟩

theorem WaysDecided.tryCandidate (h : WaysDecided c s) (hw : w ∈ s.candidates) :
    WaysDecided c (tryCandidate c w s).state := by
  cases tryCandidate_trial c w s with
  | passed waits idle =>
    rw [idle]
    exact h
  | failed new complete worth failed state =>
    rw [state]
    exact h.mono (fun _ hid => hid) List.prefix_rfl List.prefix_rfl fun p hp => List.mem_append_left _ hp
  | built new complete worth ends =>
    rw [ends.2]
    exact h.add hw complete worth

theorem WaysDecided.resolveAreas (h : WaysDecided c s) : WaysDecided c (resolveAreas c s).state := by
  apply Outcome.andThen_keeps
  · exact Outcome.forEach_keeps h fun k _ t ht => ht.tryMultipolygon k
  · intro t ht
    refine (Outcome.forEach_keeps (P := fun u => WaysDecided c u ∧ SameElements t u) ⟨ht, .refl t⟩ ?_).1
    intro w hw u hu
    rw [← hu.2.candidates] at hw
    exact ⟨hu.1.tryCandidate hw, hu.2.trans (tryCandidate_same w)⟩

theorem WaysDecided.call (h : WaysDecided c s) (single : op.IsCall) :
    WaysDecided c (apply c op s).state := by
  have step := call_step (c := c) (s := s) single
  generalize (apply c op s).state = t at step
  cases step with
  | refused _ _ closed => exact h
  | rental opened rental => exact h.of_same rfl rfl rfl rfl
  | node opened plain wanted new =>
    exact h.mono (fun _ hid => hid) List.prefix_rfl ⟨_, (Table.put_of_new new).symm⟩ fun _ hp => hp
  | passed opened plain old => exact h
  | way opened adds =>
    exact h.mono (by simp [adds.processed, reopened]) adds.candidates (by simp [adds.nodes, reopened])
      (by simp [adds.areas, reopened])
  | relation opened adds =>
    exact h.mono (by simp [adds.processed, reopened]) adds.candidates (by simp [adds.nodes, reopened])
      (by simp [adds.areas, reopened])
  | marked opened => exact h.of_same rfl rfl rfl rfl
  | resolving opened same made =>
    rw [made]
    exact h.resolveAreas
  | resolved opened same tried made =>
    rw [made]
    exact h.resolveAreas.of_same rfl rfl rfl rfl
  | concluding opened same made =>
    rw [made]
    exact h.of_same applyRelations_processed applyRelations_same.candidates applyRelations_same.nodes
      applyRelations_areas
  | concluded opened same made =>
    rw [made]
    exact h.of_same applyRelations_processed applyRelations_same.candidates applyRelations_same.nodes
      applyRelations_areas

theorem Reachable.waysDecided (h : Reachable c s) : WaysDecided c s :=
  h.call_induction (fun _ hid => by cases hid) fun _ single _ ht => ht.call single

theorem Reachable.decided (h : Reachable c s) (hw : w ∈ s.candidates) (processed : w.key ∈ s.processed) :
    Decided c s w := by
  obtain ⟨v, hv, hid, decided⟩ := h.waysDecided w.id processed
  obtain rfl : v = w := List.inj_on_of_nodup_map h.keyed.candidates.1 hv hw hid
  exact decided

end Runs

section Judgement

/-- What has become of a candidate: the area that its nodes make is there for each of its uses, or its
nodes make none. -/
def Judged (c : Settings) (s : Store) (w : Way) : Prop :=
  (∃ a, Area.build ⟨w.key, w.tags⟩ [w.nodeRefs] [] s.nodes = .ok a ∧
    (IsWalkable c w.tags → a ∈ s.walkableAreas) ∧
    (w.tags.isParkAndRide = .ok true → a ∈ s.parkAndRideAreas)) ∨
  ∃ e, Area.build ⟨w.key, w.tags⟩ [w.nodeRefs] [] s.nodes = .error e ∧ e.isRejection = true

theorem Decided.judged (h : Decided c s w) : Judged c s w := by
  obtain ⟨ps, worth, placed⟩ := h.placed
  rw [areasOfWay] at worth
  split at worth
  · rename_i a built
    have parent := (Area.sound_of_build built).1
    refine .inl ⟨a, built, fun walkable => ?_, fun parking => ?_⟩
    · obtain ⟨p, hp, use, hpa⟩ := placed_of_walkable worth (parent ▸ walkable)
      exact mem_walkableAreas.2 ⟨p, placed p hp, use, hpa⟩
    · obtain ⟨p, hp, use, hpa⟩ := placed_of_parkAndRide worth (parent ▸ parking)
      exact mem_parkAndRideAreas.2 ⟨p, placed p hp, use, hpa⟩
  · rename_i e rejected
    split at worth
    · exact .inr ⟨e, rejected, ‹_›⟩
    · cases worth

end Judgement

section Lateness

variable {h : List Call} {k : Call} {id : Int}

def Call.Resolves (c : Settings) (k : Call) : Prop :=
  k.op = .pointsComplete ∧ (pointsComplete c k.found).failure = none

/-- A node came when areas had been resolved, and they have not been resolved since. -/
def CameLate (c : Settings) (h : List Call) (id : Int) : Prop :=
  ∃ before k after, h = before ++ k :: after ∧ k.BringsLate id ∧ ∀ m ∈ after, ¬ m.Resolves c

theorem CameLate.snoc (late : CameLate c h id) (other : ¬ k.Resolves c) : CameLate c (h ++ [k]) id := by
  obtain ⟨before, m, after, rfl, brings, since⟩ := late
  refine ⟨before, m, after ++ [k], by simp, brings, ?_⟩
  exact List.forall_mem_append.2 ⟨since, List.forall_mem_singleton.2 other⟩

theorem Call.BringsLate.came (brings : k.BringsLate id) : CameLate c (h ++ [k]) id :=
  ⟨h, k, [], rfl, brings, List.forall_mem_nil _⟩

def NoneLeft (c : Settings) (h : List Call) (s : Store) : Prop :=
  ResolvedBefore s → ∀ w ∈ s.candidates, w.key ∈ s.processed ∨
    ∃ id ∈ w.nodeRefs, s.nodes.has id = false ∨ CameLate c h id

theorem NoneLeft.of_settled (settled : Settled c .pointsComplete s) : NoneLeft c h s := by
  intro _ w hw
  apply (settled.2 w hw).imp_right
  intro incomplete
  obtain ⟨id, hid, missing⟩ := exists_missing incomplete
  exact ⟨id, hid, .inl missing⟩

theorem NoneLeft.keep (hs : NoneLeft c h s) (other : ¬ k.Resolves c)
    (phase : ResolvedBefore t → ResolvedBefore s) (candidates : t.candidates = s.candidates)
    (processed : ∀ key ∈ s.processed, key ∈ t.processed)
    (nodes : ∀ id, ResolvedBefore t → s.nodes.has id = false → t.nodes.has id = false ∨ k.BringsLate id) :
    NoneLeft c (h ++ [k]) t := by
  intro resolved w hw
  rw [candidates] at hw
  apply (hs (phase resolved) w hw).imp (processed _)
  rintro ⟨id, hid, missing | late⟩
  · exact ⟨id, hid, (nodes id resolved missing).imp_right Call.BringsLate.came⟩
  · exact ⟨id, hid, .inr (late.snoc other)⟩

theorem NoneLeft.same (hs : NoneLeft c h s) (other : ¬ k.Resolves c) (same : SameElements s t)
    (phase : ResolvedBefore t → ResolvedBefore s) : NoneLeft c (h ++ [k]) t :=
  hs.keep other phase same.candidates same.processed fun _ _ missing => .inl (same.nodes ▸ missing)

theorem pointsComplete_of_failed (failed : (pointsComplete c s).failure ≠ none) :
    SameElements s (pointsComplete c s).state := by
  by_cases opened : s.phase = .linesMarked ∨ s.phase = .areasResolved
  · rw [pointsComplete_of_open opened] at failed ⊢
    have broken : (resolveAreas c s).failure ≠ none :=
      fun ok => failed (Outcome.andThen_failure_eq_none.2 ⟨ok, rfl⟩)
    rw [Outcome.andThen_of_failed broken]
    exact resolveAreas_same
  · rw [pointsComplete_of_closed opened]
    exact .refl s

theorem NoneLeft.call (hs : NoneLeft c h s) (single : op.IsCall) :
    NoneLeft c (h ++ [⟨op, s⟩]) (apply c op s).state := by
  by_cases resolves : Call.Resolves c ⟨op, s⟩
  · obtain ⟨rfl, ok⟩ := resolves
    exact .of_settled (pointsComplete_settles ok).1
  by_cases points : op = .pointsComplete
  · subst points
    have same := pointsComplete_of_failed fun ok => resolves ⟨rfl, ok⟩
    exact hs.same resolves same fun resolved => by rwa [ResolvedBefore, ← same.phase]
  have step := call_step (c := c) (s := s) single
  generalize (apply c op s).state = t at step
  cases step with
  | refused _ _ closed => exact hs.same resolves (.refl s) id
  | rental opened rental => exact hs.keep resolves id rfl (fun _ hk => hk) fun _ _ missing => .inl missing
  | @node n _ opened plain wanted new =>
    refine hs.keep resolves id rfl (fun _ hk => hk) fun id resolved missing => ?_
    by_cases hid : id = n.id
    · exact .inr ⟨resolved.resolve_right opened, missing, n, rfl, hid.symm, plain, wanted⟩
    · refine .inl ?_
      rw [Table.has, Table.get?_put_of_ne _ _ hid]
      exact missing
  | passed opened plain old => exact hs.same resolves (.refl s) id
  | way opened adds =>
    intro resolved
    rw [ResolvedBefore, adds.phase] at resolved
    cases resolved <;> contradiction
  | relation opened adds =>
    intro resolved
    rw [ResolvedBefore, adds.phase] at resolved
    cases resolved <;> contradiction
  | marked opened =>
    intro resolved
    cases resolved <;> contradiction
  | resolving opened same => exact absurd rfl points
  | resolved opened same tried => exact absurd rfl points
  | concluding opened same => exact hs.same resolves same fun _ => .inl opened
  | concluded opened same =>
    exact hs.keep resolves (fun _ => .inl opened) same.candidates same.processed
      fun _ _ missing => .inl (same.nodes ▸ missing)

theorem Leads.noneLeft (hl : Leads c empty h s) : NoneLeft c h s := by
  induction hl with
  | start => exact fun resolved => by cases resolved <;> contradiction
  | call op _ single ih => exact ih.call single

/-- A candidate that is processed has been judged.  Once areas have been resolved this goes for every
candidate with all its nodes, unless one of these came late; so no other is left behind at the end of a
load. -/
theorem complete_candidates_judged (ops : List Operation) :
    let s := run c ops empty
    let late := CameLate c (history c ops empty)
    (∀ w ∈ s.candidates, s.isProcessed w.key = true → s.hasNodes w.nodeRefs = true ∧ Judged c s w) ∧
    (s.phase = .areasResolved ∨ s.phase = .relationsProcessed →
      ∀ w ∈ s.candidates, s.hasNodes w.nodeRefs = true → (∀ id ∈ w.nodeRefs, ¬ late id) →
        s.isProcessed w.key = true ∧ Judged c s w) ∧
    ((∀ e, (finish c s).failure ≠ some (.phase e)) →
      ∀ w ∈ s.candidates, s.hasNodes w.nodeRefs = true → (∀ id ∈ w.nodeRefs, ¬ late id) →
        s.isProcessed w.key = true ∧ Judged c s w) := by
  intro s late
  have reachable : Reachable c s := ⟨ops, rfl⟩
  have left : NoneLeft c (history c ops empty) s := (leads_history ops).noneLeft
  have resolved : s.phase = .areasResolved ∨ s.phase = .relationsProcessed →
      ∀ w ∈ s.candidates, s.hasNodes w.nodeRefs = true → (∀ id ∈ w.nodeRefs, ¬ late id) →
        s.isProcessed w.key = true ∧ Judged c s w := by
    intro phase w hw complete early
    cases left phase w hw with
    | inl processed => exact ⟨decide_eq_true processed, (reachable.decided hw processed).judged⟩
    | inr waits =>
      obtain ⟨id, hid, missing | late⟩ := waits
      · rw [hasNodes_iff.1 complete id hid] at missing
        cases missing
      · exact absurd late (early id hid)
  refine ⟨fun w hw processed => ?_, resolved, fun accepted => resolved (.inl (phase_of_finish accepted))⟩
  have decided := reachable.decided hw (of_decide_eq_true processed)
  exact ⟨decided.complete, decided.judged⟩

end Lateness

end Candidates

open Standard

theorem carPark_judged :
    let s := run .default (triangle carPark ++ [.pointsComplete]) empty
    s.candidates = [⟨10, [1, 2, 3, 1], carPark⟩] ∧ s.phase = .areasResolved ∧
      s.isProcessed ⟨.way, 10⟩ = true ∧ Judged .default s ⟨10, [1, 2, 3, 1], carPark⟩ := by
  intro s
  have last : s = (pointsComplete .default (run .default (triangle carPark) empty)).state :=
    run_append _ _ _ _
  have kept := pointsComplete_kept (c := .default) (s := run .default (triangle carPark) empty)
  rw [← last] at kept
  have candidates : s.candidates = [⟨10, [1, 2, 3, 1], carPark⟩] := kept.2
  have phase : s.phase = .areasResolved := by decide +kernel
  have complete : s.hasNodes [1, 2, 3, 1] = true := by decide +kernel
  have early : ∀ k ∈ history .default (triangle carPark ++ [.pointsComplete]) empty,
      k.found.phase ≠ .areasResolved := by decide +kernel
  have facts := (complete_candidates_judged (c := .default) (triangle carPark ++ [.pointsComplete])).2.1
    (.inl phase) ⟨10, [1, 2, 3, 1], carPark⟩ (by rw [candidates]; exact List.mem_cons_self) complete ?_
  · exact ⟨candidates, phase, facts⟩
  · rintro id - ⟨before, k, after, hk, brings, -⟩
    exact early k (hk ▸ List.mem_append_right _ List.mem_cons_self) brings.1

def lateCorner : List Operation :=
  (triangle carPark).take 4 ++ [.pointsComplete, atCorner 3 0 1]

theorem lateCorner_left_behind :
    ∃ s, Reachable .default s ∧ s.phase = .areasResolved ∧
      (∃ w ∈ s.candidates, s.hasNodes w.nodeRefs = true ∧ s.isProcessed w.key = false) ∧
      (finish .default s).failure = none ∧ (finish .default s).state.walkableAreas = [] ∧
      (pointsComplete .default s).state.walkableAreas.map (fun a => a.parent.key) = [⟨.way, 10⟩] := by
  exact ⟨run .default lateCorner empty, ⟨_, rfl⟩, by decide +kernel⟩

end StreetMap.Store
