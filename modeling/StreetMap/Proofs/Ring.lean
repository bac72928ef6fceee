import Mathlib.Tactic.Tauto
import StreetMap.Ring

/-!
Assembled rings come back to where they start, and go along the ways that they are assembled from.
-/

namespace StreetMap.Ring

variable {ways rings rest : List Refs} {chain ring : Refs}

theorem isClosed_of_close (h : close chain ways = some (ring, rest)) : isClosed ring = true := by
  fun_induction close chain ways with
  | case1 chain ws closed =>
    cases h
    exact closed
  | case2 => cases h
  | case3 => cases h
  | case4 _ _ _ _ _ _ _ _ ih => exact ih h

theorem isClosed_of_chains (h : chains ways = some rings) : ∀ ring ∈ rings, isClosed ring = true := by
  fun_induction chains ways generalizing rings with
  | case1 =>
    cases h
    exact List.forall_mem_nil _
  | case2 => cases h
  | case3 w ws ring rest closed ih =>
    obtain ⟨rings, hrings, rfl⟩ := Option.map_eq_some_iff.1 h
    exact List.forall_mem_cons.2 ⟨isClosed_of_close closed, ih hrings⟩

theorem assemble_eq_some (h : assemble ways = some rings) :
    (∀ w ∈ ways, 2 ≤ w.length) ∧
      ∃ joined, chains (ways.filter fun w => !isClosed w) = some joined ∧
        rings = ways.filter isClosed ++ joined := by
  rw [assemble] at h
  split at h
  · cases h
  · rename_i short
    dsimp only at h
    split at h
    · obtain ⟨joined, hjoined, rfl⟩ := Option.map_eq_some_iff.1 h
      refine ⟨fun w hw => Nat.le_of_not_lt fun less => short ?_, joined, hjoined, rfl⟩
      exact List.any_eq_true.2 ⟨w, hw, decide_eq_true less⟩
    · cases h

theorem isClosed_of_assemble (h : assemble ways = some rings) : ∀ ring ∈ rings, isClosed ring = true := by
  obtain ⟨-, joined, hjoined, rfl⟩ := assemble_eq_some h
  refine List.forall_mem_append.2 ⟨fun ring hring => ?_, isClosed_of_chains hjoined⟩
  exact (List.mem_filter.1 hring).2

section Members

variable {id tail : Int} {next : Refs}

theorem head?_of_takeFrom (h : takeFrom tail ways = some (next, rest)) : next.head? = some tail := by
  induction ways generalizing rest with
  | nil => cases h
  | cons w ways ih =>
    rw [takeFrom] at h
    split at h
    · rename_i head
      cases h
      exact head
    · split at h
      · rename_i last
        cases h
        rw [List.head?_reverse]
        exact last
      · obtain ⟨⟨next', rest'⟩, htake, hpair⟩ := Option.map_eq_some_iff.1 h
        cases hpair
        exact ih htake

theorem mem_takeFrom (h : takeFrom tail ways = some (next, rest)) :
    id ∈ next ∨ id ∈ rest.flatten ↔ id ∈ ways.flatten := by
  induction ways generalizing rest with
  | nil => cases h
  | cons w ways ih =>
    rw [takeFrom] at h
    split at h
    · cases h
      rw [List.flatten_cons, List.mem_append]
    · split at h
      · cases h
        rw [List.flatten_cons, List.mem_append, List.mem_reverse]
      · obtain ⟨⟨next', rest'⟩, htake, hpair⟩ := Option.map_eq_some_iff.1 h
        cases hpair
        rw [List.flatten_cons, List.flatten_cons, List.mem_append, List.mem_append, ← ih htake]
        exact or_left_comm

theorem mem_close (h : close chain ways = some (ring, rest)) :
    id ∈ ring ∨ id ∈ rest.flatten ↔ id ∈ chain ∨ id ∈ ways.flatten := by
  fun_induction close chain ways with
  | case1 => cases h; rfl
  | case2 => cases h
  | case3 => cases h
  | case4 chain ways _ tail last next rest' taken ih =>
    obtain ⟨others, rfl⟩ := List.head?_eq_some_iff.1 (head?_of_takeFrom taken)
    have tail_mem : id = tail → id ∈ chain := fun h => h ▸ List.mem_of_getLast? last
    rw [ih h, ← mem_takeFrom taken, List.tail_cons, List.mem_append, List.mem_cons]
    tauto

theorem mem_chains (h : chains ways = some rings) : id ∈ rings.flatten ↔ id ∈ ways.flatten := by
  fun_induction chains ways generalizing rings with
  | case1 => cases h; rfl
  | case2 => cases h
  | case3 w ws ring rest closed ih =>
    obtain ⟨rings, hrings, rfl⟩ := Option.map_eq_some_iff.1 h
    rw [List.flatten_cons, List.flatten_cons, List.mem_append, List.mem_append, ih hrings, mem_close closed]

theorem mem_assemble (h : assemble ways = some rings) : id ∈ rings.flatten ↔ id ∈ ways.flatten := by
  obtain ⟨-, joined, hjoined, rfl⟩ := assemble_eq_some h
  rw [List.flatten_append, List.mem_append, mem_chains hjoined]
  simp only [List.mem_flatten, List.mem_filter]
  constructor
  · rintro (⟨w, hw, hid⟩ | ⟨w, hw, hid⟩)
    · exact ⟨w, hw.1, hid⟩
    · exact ⟨w, hw.1, hid⟩
  · rintro ⟨w, hw, hid⟩
    cases closed : isClosed w with
    | true => exact .inl ⟨w, ⟨hw, closed⟩, hid⟩
    | false => exact .inr ⟨w, ⟨hw, by simp [closed]⟩, hid⟩

end Members

end StreetMap.Ring
