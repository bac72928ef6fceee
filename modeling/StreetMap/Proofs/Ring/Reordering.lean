import Mathlib.Data.List.Rotate
import StreetMap.Proofs.Computation
import StreetMap.Proofs.Ring.Circuit

/-!
Rings of the same ways in another order and other directions.  Where every end of an open way is an end of
just one more, the ways are taken quite differently and the rings are the same, each a cycle of nodes that
may start elsewhere and go the other way round.
-/

namespace StreetMap.Ring

variable {ways ways' us ws : List Refs} {w : Refs} {u v : Int}

section Loops

variable {c d : List Refs} {ls : List Leg}

def loop : List Refs → Refs
  | [] => []
  | w :: ws => w ++ ws.flatMap List.tail

theorem course_eq (ls : List Leg) : course ls = loop (ls.map Leg.refs) := by
  cases ls with
  | nil => rfl
  | cons l ls => rw [course, List.map_cons, loop, List.flatMap_map]

theorem Path.loop_eq (h : Path u c v) (nonempty : c ≠ []) : loop c = u :: c.flatMap List.tail := by
  cases h with
  | nil => exact absurd rfl nonempty
  | cons head last rest =>
    obtain ⟨others, rfl⟩ := List.head?_eq_some_iff.1 head
    rfl

theorem IsCircuit.dropLast_loop (h : IsCircuit c) : (loop c).dropLast = c.flatMap List.dropLast := by
  obtain ⟨nonempty, v, path⟩ := h
  rw [path.loop_eq nonempty, path.cons_flatMap_tail, List.dropLast_concat]

theorem Leg.turns (l : Leg) : Turns l.way l.refs := by
  rw [Leg.refs]
  split
  · exact .inr rfl
  · exact .inl rfl

theorem exists_path (joined : ls.IsChain fun l m => l.refs.getLast? = m.refs.head?)
    (start : ∀ l ∈ ls.head?, l.refs.head? = some u) : ∃ v, Path u (ls.map Leg.refs) v := by
  induction ls generalizing u with
  | nil => exact ⟨u, .nil u⟩
  | cons l ls ih =>
    have head : l.refs.head? = some u := start l rfl
    obtain ⟨others, refs⟩ := List.head?_eq_some_iff.1 head
    obtain ⟨on, joined⟩ := List.isChain_cons.1 joined
    obtain ⟨v, last⟩ : ∃ v, l.refs.getLast? = some v := ⟨_, by rw [refs, List.getLast?_cons]⟩
    obtain ⟨t, path⟩ := ih joined fun m hm => (on m hm).symm.trans last
    exact ⟨t, .cons head last path⟩

theorem IsTour.circuit (h : IsTour ls) : IsCircuit (ls.map Leg.refs) := by
  have nonempty : ls.map Leg.refs ≠ [] := by simpa using h.nonempty
  obtain ⟨l, ms, rfl⟩ := List.exists_cons_of_ne_nil h.nonempty
  obtain ⟨u, head⟩ := l.exists_head? (h.opened l List.mem_cons_self)
  obtain ⟨v, path⟩ := exists_path h.joined fun m hm => by
    cases hm
    exact head
  have closed := h.closed
  have along := path.loop_eq nonempty
  rw [course_eq, isClosed, decide_eq_true_eq] at closed
  refine ⟨nonempty, u, ?_⟩
  have same : some u = some v := by
    calc some u = (loop ((l :: ms).map Leg.refs)).head? := by rw [along]; rfl
      _ = (loop ((l :: ms).map Leg.refs)).getLast? := closed
      _ = some v := by rw [along, path.cons_flatMap_tail, List.getLast?_concat]
  cases same
  exact path

/-- Rings that are the same cycle of nodes, up to where it starts and to its direction.  A ring has its
first node once more at the end. -/
def Alike (r s : Refs) : Prop := r.dropLast ~r s.dropLast ∨ r.dropLast ~r s.dropLast.reverse

theorem flatMap_dropLast_turned (ws : List Refs) :
    (turned ws).flatMap List.dropLast = (ws.flatMap List.tail).reverse := by
  induction ws with
  | nil => rfl
  | cons w ws ih => simp [List.flatMap_append, ih]

theorem IsCircuit.rotated (h : IsCircuit c) : c.flatMap List.tail ~r c.flatMap List.dropLast := by
  obtain ⟨-, v, path⟩ := h
  have along := path.cons_flatMap_tail
  cases drop : c.flatMap List.dropLast with
  | nil =>
    rw [drop] at along
    rw [(List.cons_eq_cons.1 along).2]
  | cons id ids =>
    rw [drop] at along
    obtain ⟨rfl, tail⟩ := List.cons_eq_cons.1 along
    rw [tail]
    exact List.isRotated_concat v ids

theorem Same.alike (h : Same c d) (hc : IsCircuit c) : Alike (loop c) (loop d) := by
  obtain ⟨xs, ys, rfl, turn⟩ := h
  have rotated : (ys ++ xs).flatMap List.dropLast ~r (xs ++ ys).flatMap List.dropLast := by
    rw [List.flatMap_append, List.flatMap_append]
    exact List.isRotated_append
  obtain rfl | turn := turn
  · refine .inl ?_
    rwa [hc.dropLast_loop, hc.rotate.dropLast_loop]
  · have circuit : IsCircuit d := by
      rw [← turned_turned d, turn]
      exact hc.rotate.turned
    refine .inr ?_
    rw [hc.dropLast_loop, circuit.dropLast_loop]
    rw [← turn, flatMap_dropLast_turned] at rotated
    exact rotated.trans circuit.rotated.reverse

end Loops

section Assembling

/-- Every end of an open way is an end of just one more. -/
def Untouched (ways : List Refs) : Prop := ∀ v ∈ ends (openWays ways), degree v (openWays ways) = 2

instance (ways : List Refs) : Decidable (Untouched ways) :=
  inferInstanceAs (Decidable (∀ v ∈ ends (openWays ways), degree v (openWays ways) = 2))

/-- The same ways in some order, each in one of its directions. -/
def Reordered (ways ways' : List Refs) : Prop := ∃ turns, ways.Perm turns ∧ List.Forall₂ Turns turns ways'

theorem Untouched.degree (h : Untouched ways) (v : Int) :
    Ring.degree v (openWays ways) = 0 ∨ Ring.degree v (openWays ways) = 2 := by
  by_cases hv : v ∈ ends (openWays ways)
  · exact .inr (h v hv)
  · exact .inl (List.count_eq_zero_of_not_mem hv)

theorem chains_of_paired (h : Paired (openWays ways)) : ∃ joined, chains (openWays ways) = some joined := by
  have unclosed : ∀ w ∈ openWays ways, isClosed w = false := fun w hw => (mem_openWays.1 hw).2
  cases none : chains (openWays ways) with
  | some joined => exact ⟨joined, rfl⟩
  | none =>
    obtain ⟨chain, rest, joins, stuck⟩ := chains_stuck none fun w us hw => .first hw
    exact absurd stuck (joins.joinable unclosed h).not_stuck

theorem assemble_untouched (long : ∀ w ∈ ways, 2 ≤ w.length) (h : Untouched ways) :
    ∃ cs, Apart cs ∧ (arcs cs.flatten).Perm (arcs (openWays ways)) ∧
      assemble ways = some (ways.filter isClosed ++ cs.map loop) := by
  have paired : Paired (openWays ways) := fun v => by rcases h.degree v with none | two <;> omega
  obtain ⟨joined, hjoined⟩ := chains_of_paired paired
  obtain ⟨tours, rfl, tour, perm⟩ := chains_tours hjoined fun w hw => (mem_openWays.1 hw).2
  have legs : (tours.map (List.map Leg.refs)).flatten = tours.flatten.map Leg.refs := List.map_flatten.symm
  have same : (arcs (tours.map (List.map Leg.refs)).flatten).Perm (arcs (openWays ways)) := by
    refine List.Perm.trans ?_ (arcs_perm perm)
    rw [legs]
    refine (arcs_of_turns ?_).symm
    rw [List.forall₂_map_left_iff, List.forall₂_map_right_iff, List.forall₂_same]
    exact fun l _ => l.turns
  refine ⟨tours.map (List.map Leg.refs), apart_of_degree ?_ fun v => ?_, same, ?_⟩
  · intro c hc
    obtain ⟨ls, hls, rfl⟩ := List.mem_map.1 hc
    exact (tour ls hls).circuit
  · rw [degree_of_perm same]
    rcases h.degree v with none | two <;> omega
  · have short : ¬ (ways.any fun w => w.length < 2) = true := by
      rw [List.any_eq_true]
      rintro ⟨w, hw, less⟩
      exact Nat.not_lt_of_le (long w hw) (of_decide_eq_true less)
    have unchanged : (tours.map (List.map Leg.refs)).map loop = tours.map course := by
      rw [List.map_map]
      exact List.map_congr_left fun ls _ => (course_eq ls).symm
    rw [assemble, if_neg short]
    change (if isBalanced (openWays ways) then (chains (openWays ways)).map _ else none) = _
    rw [if_pos (isBalanced_iff.2 paired), hjoined, unchanged]
    rfl

section Reordering

variable {w' : Refs}

theorem Turns.isClosed_eq (h : Turns w w') : isClosed w' = isClosed w := by
  obtain rfl | rfl := h
  · rfl
  · exact isClosed_reverse w

theorem Turns.length_eq (h : Turns w w') : w'.length = w.length := by
  obtain rfl | rfl := h
  · rfl
  · exact List.length_reverse

theorem Turns.alike (h : Turns w w') (closed : isClosed w = true) (nonempty : w ≠ []) : Alike w w' := by
  have circuit : IsCircuit [w] := by
    obtain ⟨v, others, rfl⟩ := List.exists_cons_of_ne_nil nonempty
    exact ⟨List.cons_ne_nil _ _, v, .cons rfl (of_decide_eq_true closed).symm (.nil v)⟩
  have same : Same [w] [w'] := by
    refine ⟨[], [w], rfl, ?_⟩
    obtain rfl | rfl := h
    · exact .inl rfl
    · exact .inr (by simp [turned])
  simpa [loop] using same.alike circuit

theorem Reordered.filter (h : Reordered ways ways') (p : Refs → Bool) (hp : ∀ w w', Turns w w' → p w' = p w) :
    Reordered (ways.filter p) (ways'.filter p) := by
  obtain ⟨turns, perm, turned⟩ := h
  refine ⟨turns.filter p, perm.filter p, List.rel_filter (fun w w' hw => ?_) turned⟩
  exact iff_of_eq (congrArg (· = true) (hp w w' hw).symm)

theorem Reordered.arcs_perm (h : Reordered us ws) : (arcs us).Perm (arcs ws) := by
  obtain ⟨turns, perm, turned⟩ := h
  exact (Ring.arcs_perm perm).trans (arcs_of_turns turned)

theorem Reordered.openWays (h : Reordered ways ways') : Reordered (openWays ways) (openWays ways') :=
  h.filter _ fun _ _ turns => by rw [turns.isClosed_eq]

theorem Reordered.long (h : Reordered ways ways') (long : ∀ w ∈ ways, 2 ≤ w.length) :
    ∀ w ∈ ways', 2 ≤ w.length := by
  obtain ⟨turns, perm, turned⟩ := h
  intro w' hw'
  obtain ⟨w, hw, turn⟩ := exists_of_forall₂ turned.flip hw'
  rw [Turns.length_eq turn]
  exact long w (perm.mem_iff.2 hw)

theorem Reordered.untouched (h : Reordered ways ways') (untouched : Untouched ways) : Untouched ways' := by
  intro v hv
  have same := degree_of_perm h.openWays.arcs_perm v
  have some_end : 0 < degree v (Ring.openWays ways') := List.count_pos_iff.2 hv
  have few := untouched.degree v
  omega

theorem Reordered.exists_alike (h : Reordered ways ways') (long : ∀ w ∈ ways, 2 ≤ w.length) :
    ∃ matched, matched.Perm (ways'.filter isClosed) ∧ List.Forall₂ Alike (ways.filter isClosed) matched := by
  obtain ⟨turns, perm, turned⟩ := h.filter isClosed fun _ _ turns => turns.isClosed_eq
  obtain ⟨matched, hm, hperm⟩ := List.perm_comp_forall₂ perm turned
  refine ⟨matched, hperm, ?_⟩
  have proper : ∀ w ∈ ways.filter isClosed, isClosed w = true ∧ w ≠ [] := by
    intro w hw
    obtain ⟨hw, closed⟩ := List.mem_filter.1 hw
    exact ⟨closed, List.ne_nil_of_length_pos (Nat.lt_of_lt_of_le Nat.two_pos (long w hw))⟩
  exact ((List.forall₂_and_left _ _).2 ⟨proper, hm⟩).imp fun w w' h => h.2.alike h.1.1 h.1.2

end Reordering

/-- Rings that do not touch do not depend on the order of the ways or on their directions: those of the same
ways in another order and other directions are the same rings, one for one, each up to its start and its
direction. -/
theorem assemble_reordered (long : ∀ w ∈ ways, 2 ≤ w.length) (untouched : Untouched ways)
    (h : Reordered ways ways') :
    ∃ rings rings' matched, assemble ways = some rings ∧ assemble ways' = some rings' ∧
      matched.Perm rings' ∧ List.Forall₂ Alike rings matched := by
  obtain ⟨cs, apart, along, assembled⟩ := assemble_untouched long untouched
  obtain ⟨ds, apart', along', assembled'⟩ := assemble_untouched (h.long long) (h.untouched untouched)
  obtain ⟨closed, closedPerm, closedAlike⟩ := h.exists_alike long
  obtain ⟨matched, perm, same⟩ :=
    circuits_match apart apart' (along.trans (h.openWays.arcs_perm.trans along'.symm))
  refine ⟨_, _, closed ++ matched.map loop, assembled, assembled', closedPerm.append (perm.map loop),
    List.rel_append closedAlike ?_⟩
  rw [List.forall₂_map_left_iff, List.forall₂_map_right_iff]
  exact ((List.forall₂_and_left _ _).2 ⟨apart.circuits, same⟩).imp fun c d h => h.2.alike h.1

theorem lakeAndShore_reordered :
    assemble lakeAndShore = some [[7, 8, 9, 7], [1, 2, 3, 4, 1]] ∧
    assemble [[3, 4, 1], [1, 2, 3], [7, 9, 8, 7]] = some [[7, 9, 8, 7], [3, 4, 1, 2, 3]] ∧
    ∃ matched, matched.Perm [[7, 9, 8, 7], [3, 4, 1, 2, 3]] ∧
      List.Forall₂ Alike [[7, 8, 9, 7], [1, 2, 3, 4, 1]] matched := by
  have reordered : Reordered lakeAndShore [[3, 4, 1], [1, 2, 3], [7, 9, 8, 7]] :=
    ⟨[[1, 4, 3], [1, 2, 3], [7, 8, 9, 7]], by decide, .cons (.inr rfl) (.cons (.inl rfl) (.cons (.inr rfl) .nil))⟩
  obtain ⟨rings, rings', matched, assembled, assembled', perm, alike⟩ :=
    assemble_reordered (by decide) (by decide) reordered
  have turned : assemble [[3, 4, 1], [1, 2, 3], [7, 9, 8, 7]] = some [[7, 9, 8, 7], [3, 4, 1, 2, 3]] := by
    decide +kernel
  cases assemble_lakeAndShore.symm.trans assembled
  cases turned.symm.trans assembled'
  exact ⟨assembled, turned, matched, perm, alike⟩

end Assembling

end StreetMap.Ring
