import StreetMap.Proofs.Store.Calls
import StreetMap.Standard

/-!
Marks and tries.  Only nodes of kept ways are marked.  Once the phase has left the first, all of them
are; once areas are resolved, every multipolygon has been tried.
-/

namespace StreetMap.Store

variable {c : Settings} {s t : Store}

theorem mem_nodesOfWays {ways : Table Int Way} {id : Int} :
    id ∈ nodesOfWays ways ↔ ∃ w ∈ ways.values, 2 ≤ w.nodeRefs.length ∧ id ∈ w.nodeRefs := by
  rw [nodesOfWays, List.mem_flatMap]
  constructor
  · intro h
    cases h with
    | intro w h =>
      have hw := List.mem_filter.1 h.1
      exact ⟨w, hw.1, of_decide_eq_true hw.2, h.2⟩
  · intro h
    cases h with
    | intro w h => exact ⟨w, List.mem_filter.2 ⟨h.1, decide_eq_true h.2.1⟩, h.2.2⟩

theorem nodesOfWays_append (ways ways' : Table Int Way) :
    nodesOfWays (ways ++ ways') = nodesOfWays ways ++ nodesOfWays ways' := by
  simp [nodesOfWays, Table.values]

theorem nodesOfWays_mono {ways ways' : Table Int Way} (h : ways <+: ways') :
    ∀ id ∈ nodesOfWays ways, id ∈ nodesOfWays ways' := by
  intro id hid
  cases h with
  | intro rows h =>
    rw [← h]
    exact (nodesOfWays_append ways rows).symm ▸ List.mem_append_left _ hid

structure Marking (s : Store) : Prop where
  ways : ∀ id ∈ s.wayNodeIds, id ∈ nodesOfWays s.ways
  areas : ∀ id ∈ s.areaNodeIds, id ∈ nodesOfWays s.areaWays
  waysComplete : s.phase ≠ .ingesting → ∀ id ∈ nodesOfWays s.ways, id ∈ s.wayNodeIds
  areasComplete : s.phase ≠ .ingesting → ∀ id ∈ nodesOfWays s.areaWays, id ∈ s.areaNodeIds
  tried : s.phase = .areasResolved ∨ s.phase = .relationsProcessed →
    ∀ k ∈ s.relations.values, k.kind = .multipolygon → k.relation.key ∈ s.processed

theorem Marking.empty : Marking empty where
  ways := fun _ h => by cases h
  areas := fun _ h => by cases h
  waysComplete := fun h => absurd rfl h
  areasComplete := fun h => absurd rfl h
  tried := fun _ _ hk => by cases hk

theorem Marking.adds (h : Marking s) (adds : OnlyAdds s.reopened t) : Marking t where
  ways := fun id hid => nodesOfWays_mono adds.ways id (h.ways id (adds.wayNodeIds ▸ hid))
  areas := fun id hid => nodesOfWays_mono adds.areaWays id (h.areas id (adds.areaNodeIds ▸ hid))
  waysComplete := fun hp => absurd adds.phase hp
  areasComplete := fun hp => absurd adds.phase hp
  tried := by
    intro hp
    rw [adds.phase] at hp
    cases hp with
    | inl hp => cases hp
    | inr hp => cases hp

theorem Marking.same (h : Marking s) (same : SameElements s t) : Marking t where
  ways := by
    rw [same.wayNodeIds, nodesOfWays_of_outline same.ways]
    exact h.ways
  areas := by
    rw [same.areaNodeIds, same.areaWays]
    exact h.areas
  waysComplete := by
    rw [same.phase, same.wayNodeIds, nodesOfWays_of_outline same.ways]
    exact h.waysComplete
  areasComplete := by
    rw [same.phase, same.areaNodeIds, same.areaWays]
    exact h.areasComplete
  tried := by
    rw [same.phase, same.relations]
    intro hp k hk hkind
    exact same.processed _ (h.tried hp k hk hkind)

theorem Marking.marked (h : Marking s) : Marking s.marked where
  ways := by
    intro id hid
    cases mem_insertAll.1 hid with
    | inl hid => exact h.ways id hid
    | inr hid => exact hid
  areas := by
    intro id hid
    cases mem_insertAll.1 hid with
    | inl hid => exact h.areas id hid
    | inr hid => exact hid
  waysComplete := fun _ _ hid => mem_insertAll.2 (.inr hid)
  areasComplete := fun _ _ hid => mem_insertAll.2 (.inr hid)
  tried := by
    intro hp
    cases hp with
    | inl hp => cases hp
    | inr hp => cases hp

theorem Marking.enter (h : Marking s) (left : s.phase ≠ .ingesting) (p : Phase)
    (tried : ∀ k ∈ s.relations.values, k.kind = .multipolygon → k.relation.key ∈ s.processed) :
    Marking { s with phase := p } where
  ways := h.ways
  areas := h.areas
  waysComplete := fun _ => h.waysComplete left
  areasComplete := fun _ => h.areasComplete left
  tried := fun _ => tried

section Reaching

variable [Limits]

theorem phase_of_finish (h : ∀ e, (finish c s).failure ≠ some (.phase e)) : s.phase = .areasResolved := by
  apply Decidable.byContradiction
  intro hp
  rw [finish_of_closed hp] at h
  exact h _ rfl

variable [Geometry]

theorem Marking.step {op : Operation} (h : Marking s) (step : CallStep c op s t) : Marking t := by
  cases step with
  | refused _ _ closed => exact h
  | rental opened rental => exact ⟨h.ways, h.areas, h.waysComplete, h.areasComplete, h.tried⟩
  | node opened plain wanted new => exact ⟨h.ways, h.areas, h.waysComplete, h.areasComplete, h.tried⟩
  | passed opened plain old => exact h
  | way opened adds => exact h.adds adds
  | relation opened adds => exact h.adds adds
  | marked opened => exact h.marked
  | resolving opened same => exact h.same same
  | resolved opened same tried =>
    apply (h.same same).enter
    · rw [same.phase]
      cases opened with
      | inl opened => rw [opened]; decide
      | inr opened => rw [opened]; decide
    · rw [same.relations]
      exact tried
  | concluding opened same => exact h.same same
  | concluded opened same =>
    apply (h.same same).enter
    · rw [same.phase, opened]
      decide
    · exact (h.same same).tried (.inl (same.phase.trans opened))

theorem Reachable.marking (h : Reachable c s) : Marking s :=
  h.call_induction .empty fun _ single _ hs => hs.step (call_step single)

/-- The phase tells what has been marked and tried, and the end of the load is taken only when all of it
has. -/
theorem marked_and_tried (h : Reachable c s) :
    (s.phase ≠ .ingesting →
      (∀ id, id ∈ s.wayNodeIds ↔ ∃ w ∈ s.ways.values, 2 ≤ w.nodeRefs.length ∧ id ∈ w.nodeRefs) ∧
      (∀ id, id ∈ s.areaNodeIds ↔ ∃ w ∈ s.areaWays.values, 2 ≤ w.nodeRefs.length ∧ id ∈ w.nodeRefs) ∧
      ∀ id, s.isOnWay id = true ↔ ∃ w ∈ s.ways.values, 2 ≤ w.nodeRefs.length ∧ id ∈ w.nodeRefs) ∧
    (s.phase = .areasResolved ∨ s.phase = .relationsProcessed →
      ∀ k ∈ s.relations.values, k.kind = .multipolygon → s.isProcessed k.relation.key = true) ∧
    ((∀ e, (finish c s).failure ≠ some (.phase e)) →
      (∀ w ∈ s.ways.values, 2 ≤ w.nodeRefs.length → ∀ id ∈ w.nodeRefs, id ∈ s.wayNodeIds) ∧
      (∀ w ∈ s.areaWays.values, 2 ≤ w.nodeRefs.length → ∀ id ∈ w.nodeRefs, id ∈ s.areaNodeIds) ∧
      ∀ k ∈ s.relations.values, k.kind = .multipolygon → s.isProcessed k.relation.key = true) := by
  have hm := h.marking
  have tried : s.phase = .areasResolved ∨ s.phase = .relationsProcessed →
      ∀ k ∈ s.relations.values, k.kind = .multipolygon → s.isProcessed k.relation.key = true :=
    fun hp k hk hkind => decide_eq_true (hm.tried hp k hk hkind)
  refine ⟨?_, tried, ?_⟩
  · intro hp
    have hways : ∀ id, id ∈ s.wayNodeIds ↔
        ∃ w ∈ s.ways.values, 2 ≤ w.nodeRefs.length ∧ id ∈ w.nodeRefs :=
      fun id => Iff.trans ⟨hm.ways id, hm.waysComplete hp id⟩ mem_nodesOfWays
    refine ⟨hways, ?_, ?_⟩
    · exact fun id => Iff.trans ⟨hm.areas id, hm.areasComplete hp id⟩ mem_nodesOfWays
    · intro id
      rw [isOnWay, decide_eq_true_eq]
      exact hways id
  · intro hf
    have hp := phase_of_finish hf
    have left : s.phase ≠ .ingesting := by rw [hp]; decide
    refine ⟨?_, ?_, tried (.inl hp)⟩
    · intro w hw hlen id hid
      exact hm.waysComplete left id (mem_nodesOfWays.2 ⟨w, hw, hlen, hid⟩)
    · intro w hw hlen id hid
      exact hm.areasComplete left id (mem_nodesOfWays.2 ⟨w, hw, hlen, hid⟩)

end Reaching

open Standard

def footwayAndPlaza : Store :=
  run .default
    [.addRelation ⟨2, [⟨.text "way", 3, .text "outer"⟩],
        [("type", .text "multipolygon"), ("highway", .text "pedestrian")]⟩,
      .addWay ⟨1, [10, 11], [("highway", .text "footway")]⟩, .linesComplete, .pointsComplete] empty

theorem footwayAndPlaza_marked_and_tried :
    Reachable .default footwayAndPlaza ∧ footwayAndPlaza.phase = .areasResolved ∧
      footwayAndPlaza.relations.values.map KeptRelation.kind = [.multipolygon] ∧
      (∀ k ∈ footwayAndPlaza.relations.values, footwayAndPlaza.isProcessed k.relation.key = true) ∧
      ∃ w ∈ footwayAndPlaza.ways.values, 2 ≤ w.nodeRefs.length ∧ 11 ∈ w.nodeRefs := by
  have reach : Reachable .default footwayAndPlaza := ⟨_, rfl⟩
  have facts := marked_and_tried reach
  have left : footwayAndPlaza.phase ≠ .ingesting := by decide
  refine ⟨reach, rfl, rfl, ?_, ((facts.1 left).1 11).1 (by decide)⟩
  intro k hk
  cases hk with
  | head => exact facts.2.1 (.inl rfl) _ List.mem_cons_self rfl
  | tail _ hk => cases hk

end StreetMap.Store
