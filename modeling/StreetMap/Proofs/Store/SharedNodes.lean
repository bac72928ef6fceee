import Mathlib.Data.Finset.Card
import StreetMap.Proofs.Store.Alike
import StreetMap.Proofs.Store.Candidates
import StreetMap.Standard

/-!
Nodes where areas meet.  A node counts the ways that bound an area there, and not the areas.  A candidate
counts from when it comes, whether it makes an area or not, and the boundary of a multipolygon counts from
when it makes one.
-/

namespace StreetMap.Store

variable {c : Settings} {s t u : Store} {op : Operation} {h : List Call} {node way : Int}

def CandidateAt (s : Store) (node way : Int) : Prop := ∃ w ∈ s.candidates, w.id = way ∧ node ∈ w.nodeRefs

def Registers (s t : Store) : Prop :=
  ∃ ws, t.candidates = s.candidates ++ ws ∧ t.boundsAt = addBounds s.boundsAt (ws.flatMap boundsOf)

theorem Registers.of_same (candidates : t.candidates = s.candidates) (boundsAt : t.boundsAt = s.boundsAt) :
    Registers s t :=
  ⟨[], by rw [candidates, List.append_nil], boundsAt⟩

theorem Registers.trans (hs : Registers s t) (ht : Registers t u) : Registers s u := by
  obtain ⟨ws, candidates, boundsAt⟩ := hs
  obtain ⟨vs, candidates', boundsAt'⟩ := ht
  refine ⟨ws ++ vs, ?_, ?_⟩
  · rw [candidates', candidates, List.append_assoc]
  · rw [boundsAt', boundsAt, List.flatMap_append, addBounds, addBounds, addBounds, List.foldl_append]

theorem IntakeStep.registers (step : IntakeStep c s t) : Registers s t := by
  cases step with
  | way w b =>
    cases b with
    | candidate =>
      refine ⟨[w], rfl, ?_⟩
      rw [List.flatMap_singleton, stored, addBound_eq]
      rfl
    | member => exact .of_same rfl rfl
    | plain => exact .of_same rfl rfl
  | _ => exact .of_same rfl rfl

theorem RelationStep.registers (step : RelationStep s t) : Registers s t := by
  cases step <;> exact .of_same rfl rfl

theorem Registers.candidateAt (h : Registers s t) (hc : CandidateAt s node way) : CandidateAt t node way := by
  obtain ⟨ws, candidates, -⟩ := h
  obtain ⟨w, hw, hid⟩ := hc
  exact ⟨w, candidates ▸ List.mem_append_left _ hw, hid⟩

theorem Registers.mem_boundsAt (h : Registers s t)
    (before : CandidateAt s node way → way ∈ waysAt s.boundsAt node) :
    way ∈ waysAt t.boundsAt node ↔ way ∈ waysAt s.boundsAt node ∨ CandidateAt t node way := by
  obtain ⟨ws, candidates, boundsAt⟩ := h
  rw [boundsAt, mem_waysAt_addBounds, mem_boundsOf, CandidateAt, candidates]
  constructor
  · rintro (hs | ⟨w, hw, hid⟩)
    · exact .inl hs
    · exact .inr ⟨w, List.mem_append_right _ hw, hid⟩
  · rintro (hs | ⟨w, hw, hid⟩)
    · exact .inl hs
    · exact (List.mem_append.1 hw).imp (fun hw => before ⟨w, hw, hid⟩) fun hw => ⟨w, hw, hid⟩

theorem isSharedByAreas_iff (keyed : Keyed s) :
    s.isSharedByAreas node = true ↔
      ∃ v ∈ waysAt s.boundsAt node, ∃ w ∈ waysAt s.boundsAt node, v ≠ w := by
  change decide (1 < (waysAt s.boundsAt node).length) = true ↔ _
  rw [decide_eq_true_iff, ← List.toFinset_card_of_nodup (keyed.boundsAt.2 node), Finset.one_lt_card]
  simp only [List.mem_toFinset]

section Sharing

variable [Limits] [Geometry]

def MakesArea (s t : Store) (k : KeptRelation) : Prop :=
  k.kind = .multipolygon ∧ k.relation.key ∉ s.processed ∧ k.relation.key ∈ t.processed ∧
    Constructs s k.relation

/-- The call makes an area of a multipolygon. -/
def Call.Constructs (c : Settings) (k : Call) (m : KeptRelation) : Prop :=
  k.op = .pointsComplete ∧ m ∈ k.found.relations.values ∧ MakesArea k.found (apply c k.op k.found).state m

/-- The way goes along the node, as a candidate or in the boundary of a multipolygon of which some call has
made an area. -/
def Bounds (c : Settings) (h : List Call) (s : Store) (node way : Int) : Prop :=
  CandidateAt s node way ∨ ∃ k ∈ h, ∃ m, k.Constructs c m ∧ BoundBy k.found m.relation node way

theorem call_registers (single : op.IsCall) (other : op ≠ .pointsComplete) :
    Registers s (apply c op s).state := by
  have same : Registers s s := .of_same rfl rfl
  cases op with
  | load document => cases single
  | addNode n => exact addNode_keeps same (.of_same rfl rfl) (.of_same rfl rfl)
  | addWay w => exact addWay_keeps same (.of_same rfl rfl) (fun step h => h.trans step.registers) w
  | addRelation r => exact addRelation_keeps same (.of_same rfl rfl) (fun step h => h.trans step.registers) r
  | linesComplete => exact linesComplete_keeps same (.of_same rfl rfl)
  | pointsComplete => exact absurd rfl other
  | finish =>
    refine finish_keeps same ?_ fun _ h => h
    exact keeps_of_chain applyRelations_chain (fun step h => h.trans step.registers) same

theorem tryMultipolygon_bounds (c : Settings) (k : KeptRelation) (s : Store) :
    let t := (tryMultipolygon c k s).state
    (∀ key, key ∈ t.processed ↔ key ∈ s.processed ∨ k.kind = .multipolygon ∧ key = k.relation.key) ∧
    ∀ node way, way ∈ waysAt t.boundsAt node ↔
      way ∈ waysAt s.boundsAt node ∨ MakesArea s t k ∧ BoundBy s k.relation node way := by
  intro t
  rcases tryMultipolygon_cases c k s with ⟨untried, ht⟩ | ⟨skipped, ht⟩
  · obtain ⟨bounds, ⟨as, ws, fs, tried⟩, mem⟩ := resolveMultipolygon_tried c s k.relation
    have ht : t = _ := (congrArg Outcome.state ht).trans tried
    have marks (key : Key) : key ∈ t.processed ↔ key ∈ s.processed ∨ key = k.relation.key := by
      rw [ht]
      exact mem_insertNew
    refine ⟨fun key => by rw [marks, and_iff_right untried.1], fun node way => ?_⟩
    have makes : MakesArea s t k ↔ Constructs s k.relation := by
      simp [MakesArea, untried.1, untried.2, marks]
    rw [makes, ← mem, ht]
    exact mem_waysAt_addBounds _ _ _ _
  · have ht : t = s := congrArg Outcome.state ht
    have none : ¬ MakesArea s t k := fun makes => skipped ⟨makes.1, makes.2.1⟩
    rw [ht] at none ⊢
    refine ⟨fun key => ?_, fun node way => by simp [none]⟩
    rw [or_iff_left_of_imp]
    rintro ⟨kind, rfl⟩
    by_contra new
    exact skipped ⟨kind, new⟩

theorem tryCandidate_bounds (w : Way) :
    (tryCandidate c w s).state.boundsAt = s.boundsAt ∧
      ∀ r : Relation, r.key ∈ (tryCandidate c w s).state.processed ↔ r.key ∈ s.processed := by
  cases tryCandidate_trial c w s with
  | passed waits idle =>
    rw [idle]
    exact ⟨rfl, fun _ => .rfl⟩
  | built new complete worth ends =>
    rw [ends.2]
    refine ⟨rfl, fun r => ?_⟩
    have other : r.key ≠ w.key := fun h => by cases congrArg Key.kind h
    exact mem_insertNew.trans (or_iff_left other)
  | failed new complete worth failed state =>
    rw [state]
    exact ⟨rfl, fun _ => .rfl⟩

structure Resolving (s t : Store) : Prop where
  same : SameElements s t
  bounds : ∀ node way, way ∈ waysAt t.boundsAt node ↔ way ∈ waysAt s.boundsAt node ∨
    ∃ k ∈ s.relations.values, MakesArea s t k ∧ BoundBy s k.relation node way

theorem Resolving.refl (s : Store) : Resolving s s where
  same := .refl s
  bounds := fun node way => by
    have none (k : KeptRelation) : ¬ MakesArea s s k := fun makes => makes.2.1 makes.2.2.1
    simp [none]

theorem makesArea_try (same : SameElements s t) {k k' : KeptRelation}
    (own : k'.relation.key = k.relation.key → k' = k) :
    MakesArea s (tryMultipolygon c k t).state k' ↔
      MakesArea s t k' ∨ k' = k ∧ MakesArea t (tryMultipolygon c k t).state k := by
  have marks := (tryMultipolygon_bounds c k t).1
  generalize (tryMultipolygon c k t).state = u at marks
  by_cases hkey : k'.relation.key = k.relation.key
  · obtain rfl := own hkey
    simp only [MakesArea, marks, same.constructs]
    by_cases new : k'.relation.key ∈ t.processed
    · simp [new]
    · have unseen : k'.relation.key ∉ s.processed := fun seen => new (same.processed _ seen)
      simp [new, unseen]
  · have other : k' ≠ k := fun h => hkey (h ▸ rfl)
    simp [MakesArea, marks, hkey, other]

theorem Resolving.multipolygon (h : Resolving s t) (keyed : Keyed s) {k : KeptRelation}
    (hk : k ∈ s.relations.values) : Resolving s (tryMultipolygon c k t).state where
  same := h.same.trans (same_of_chain AreaStep.same (tryMultipolygon_chain k))
  bounds := fun node way => by
    rw [(tryMultipolygon_bounds c k t).2, h.bounds, h.same.boundBy, or_assoc]
    refine or_congr_right ⟨?_, ?_⟩
    · rintro (⟨k', hk', makes, bound⟩ | ⟨makes, bound⟩)
      · exact ⟨k', hk', (makesArea_try h.same (keyed.relation_ext hk' hk)).2 (.inl makes), bound⟩
      · exact ⟨k, hk, (makesArea_try h.same fun _ => rfl).2 (.inr ⟨rfl, makes⟩), bound⟩
    · rintro ⟨k', hk', makes, bound⟩
      cases (makesArea_try h.same (keyed.relation_ext hk' hk)).1 makes with
      | inl makes => exact .inl ⟨k', hk', makes, bound⟩
      | inr last =>
        obtain ⟨rfl, makes⟩ := last
        exact .inr ⟨makes, bound⟩

theorem Resolving.candidate (h : Resolving s t) (w : Way) : Resolving s (tryCandidate c w t).state where
  same := h.same.trans (tryCandidate_same w)
  bounds := fun node way => by
    obtain ⟨boundsAt, marks⟩ := tryCandidate_bounds (c := c) (s := t) w
    have marks (k : KeptRelation) : k.relation.key ∈ (tryCandidate c w t).state.processed ↔
      k.relation.key ∈ t.processed := marks k.relation
    rw [boundsAt, h.bounds]
    simp only [MakesArea, marks]

theorem resolveAreas_resolving (keyed : Keyed s) : Resolving s (resolveAreas c s).state := by
  apply Outcome.andThen_keeps
  · exact Outcome.forEach_keeps (.refl s) fun k hk t ht => ht.multipolygon keyed hk
  · intro t ht
    exact Outcome.forEach_keeps ht fun w _ u hu => hu.candidate w

theorem pointsComplete_bounds (keyed : Keyed s) :
    let t := (pointsComplete c s).state
    t.candidates = s.candidates ∧ ∀ node way, way ∈ waysAt t.boundsAt node ↔
      way ∈ waysAt s.boundsAt node ∨
        ∃ k ∈ s.relations.values, MakesArea s t k ∧ BoundBy s k.relation node way := by
  have idle := Resolving.refl s
  have resolved := resolveAreas_resolving (c := c) keyed
  exact pointsComplete_keeps (P := fun t => t.candidates = s.candidates ∧ ∀ node way,
      way ∈ waysAt t.boundsAt node ↔ way ∈ waysAt s.boundsAt node ∨
        ∃ k ∈ s.relations.values, MakesArea s t k ∧ BoundBy s k.relation node way)
    ⟨rfl, idle.bounds⟩ ⟨resolved.same.candidates, resolved.bounds⟩ fun _ ht => ht

theorem Leads.keyed (hl : Leads c empty h s) : Keyed s :=
  hl.keeps .empty fun _ single _ ht => ht.call single

theorem bounds_snoc {k : Call} : Bounds c (h ++ [k]) s node way ↔
    CandidateAt s node way ∨ (∃ k' ∈ h, ∃ m, k'.Constructs c m ∧ BoundBy k'.found m.relation node way) ∨
      ∃ m, k.Constructs c m ∧ BoundBy k.found m.relation node way := by
  simp only [Bounds, List.mem_append, List.mem_singleton, or_and_right, exists_or, exists_eq_left]

theorem Leads.mem_boundsAt (hl : Leads c empty h s) (node way : Int) :
    way ∈ waysAt s.boundsAt node ↔ Bounds c h s node way := by
  induction hl with
  | start => simp [Bounds, CandidateAt, empty, waysAt]
  | @call h s op leads single ih =>
    rw [bounds_snoc]
    by_cases points : op = .pointsComplete
    · subst points
      obtain ⟨candidates, bounds⟩ := pointsComplete_bounds (c := c) leads.keyed
      change way ∈ waysAt (pointsComplete c s).state.boundsAt node ↔
        CandidateAt (pointsComplete c s).state node way ∨ _
      rw [bounds, ih, Bounds, or_assoc, CandidateAt, CandidateAt, candidates]
      simp only [Call.Constructs, true_and, and_assoc]
      rfl
    · have idle : ¬ ∃ m, Call.Constructs c ⟨op, s⟩ m ∧ BoundBy s m.relation node way := by
        rintro ⟨m, constructs, -⟩
        exact points constructs.1
      have registers := call_registers (c := c) (s := s) single points
      rw [registers.mem_boundsAt fun hc => ih.2 (.inl hc), ih, Bounds, or_iff_left idle]
      constructor
      · rintro ((hc | made) | hc)
        · exact .inl (registers.candidateAt hc)
        · exact .inr made
        · exact .inl hc
      · rintro (hc | made)
        · exact .inr hc
        · exact .inl (.inr made)

/-- A node counts as shared if two ways bound areas there, be they candidates, built or not, or outer and
inner ways of multipolygons of which areas have been made.  The rings of such an area go along the nodes of
its outer and inner ways. -/
theorem shared_by_two_ways (ops : List Operation) (node : Int) :
    let s := run c ops empty
    let calls := history c ops empty
    (s.isSharedByAreas node = true ↔
      ∃ v w, v ≠ w ∧ Bounds c calls s node v ∧ Bounds c calls s node w) ∧
    ∀ k ∈ calls, ∀ m, k.Constructs c m → ∃ a, areaOf k.found m.relation = .ok a ∧
      (node ∈ a.ringNodes ↔ ∃ way, BoundBy k.found m.relation node way) := by
  intro s calls
  have leads : Leads c empty calls s := leads_history ops
  refine ⟨?_, fun k _ m constructs => ?_⟩
  · rw [isSharedByAreas_iff leads.keyed]
    simp only [leads.mem_boundsAt]
    constructor
    · rintro ⟨v, hv, w, hw, hne⟩
      exact ⟨v, w, hne, hv, hw⟩
    · rintro ⟨v, w, hne, hv, hw⟩
      exact ⟨v, hv, w, hw, hne⟩
  · obtain ⟨a, ha⟩ := constructs.2.2.2.2.2.2.2
    exact ⟨a, ha, mem_ringNodes ha⟩

end Sharing

open Standard

def squareOf (id : Int) (ways : List Int) : Relation :=
  ⟨id, ways.map fun w => ⟨.text "way", w, .text "outer"⟩,
    [("type", .text "multipolygon"), ("highway", .text "pedestrian")]⟩

def atCorners : List Operation :=
  [.linesComplete, atCorner 1 0 0, atCorner 2 1 0, atCorner 3 0 1, .pointsComplete]

def halves : List Operation :=
  [.addRelation (squareOf 20 [10, 11]), .addWay ⟨10, [1, 2, 3], []⟩, .addWay ⟨11, [3, 1], []⟩] ++ atCorners

def doubled : List Operation :=
  [.addRelation (squareOf 20 [10]), .addRelation (squareOf 21 [10]), .addWay ⟨10, [1, 2, 3, 1], []⟩] ++
    atCorners

theorem halves_shared_by_two_ways :
    let s := run .default halves empty
    let calls := history .default halves empty
    s.candidates.length = 0 ∧
      ∃ v w, v ≠ w ∧ Bounds .default calls s 1 v ∧ Bounds .default calls s 1 w := by
  intro s calls
  exact ⟨by decide +kernel, (shared_by_two_ways halves 1).1.1 (by decide +kernel)⟩

theorem halves_shared_doubled_unshared :
    let s := run .default halves empty
    let t := run .default doubled empty
    (s.phase = .areasResolved ∧ s.candidates.length = 0 ∧ s.relations.keys = [20] ∧
      s.walkableAreas.map (fun a => a.parent.key) = [⟨.relation, 20⟩] ∧ s.isSharedByAreas 1 = true) ∧
    t.phase = .areasResolved ∧
      t.walkableAreas.map (fun a => (a.parent.key, decide (1 ∈ a.ringNodes))) =
        [(⟨.relation, 20⟩, true), (⟨.relation, 21⟩, true)] ∧
      t.isSharedByAreas 1 = false := by
  decide +kernel

end StreetMap.Store
