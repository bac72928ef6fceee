import Mathlib

/-!
The order of floating-point numbers, by the rank that a number has among them.  What is not a number has no
rank, and is neither less than anything nor equal to it.  Of members measured by numbers, going from left to
right and changing only for one that is less finds the first of the least.
-/

namespace StreetMap.Number

open Float.Model (UnpackedFloat)

def placeOf : UnpackedFloat → Option (Int ×ₗ Int ×ₗ Int)
  | .notANumber => none
  | .infinity .negative => some (toLex (-2, toLex (0, 0)))
  | .finite .negative m e _ => some (toLex (-1, toLex (-e, -m)))
  | .zero _ => some (toLex (0, toLex (0, 0)))
  | .finite .positive m e _ => some (toLex (1, toLex (e, m)))
  | .infinity .positive => some (toLex (2, toLex (0, 0)))

theorem unpacked_lt_iff (a b : UnpackedFloat) :
    a.lt b = true ↔ ∃ x ∈ placeOf a, ∃ y ∈ placeOf b, x < y := by
  rcases a with (_ | _) | _ | _ | ⟨_ | _, m, e, _⟩ <;> rcases b with (_ | _) | _ | _ | ⟨_ | _, m', e', _⟩ <;>
    simp [UnpackedFloat.lt, UnpackedFloat.compare, placeOf, Prod.Lex.lt_iff, Ordering.then_eq_lt,
      Ordering.swap_then, compare_gt_iff_gt, compare_lt_iff_lt]
  rfl

theorem unpacked_beq_iff (a b : UnpackedFloat) :
    a.beq b = true ↔ ∃ x ∈ placeOf a, x ∈ placeOf b := by
  rcases a with (_ | _) | _ | _ | ⟨_ | _, m, e, _⟩ <;> rcases b with (_ | _) | _ | _ | ⟨_ | _, m', e', _⟩ <;>
    simp [UnpackedFloat.beq, UnpackedFloat.compare, placeOf, Ordering.then_eq_eq, Ordering.swap_then]
  · rfl
  · rfl
  · omega
  · omega

def place (x : Float) : Option (Int ×ₗ Int ×ₗ Int) := placeOf x.toModel.unpack

variable {x y z : Float}

theorem lt_iff : x < y ↔ ∃ p ∈ place x, ∃ q ∈ place y, p < q := by
  rw [place, place, ← unpacked_lt_iff]
  exact decide_eq_true_iff

theorem beq_iff : (x == y) = true ↔ ∃ p ∈ place x, p ∈ place y := unpacked_beq_iff _ _

theorem lt_irrefl (x : Float) : ¬ x < x := by
  intro h
  obtain ⟨p, hp, q, hq, h⟩ := lt_iff.1 h
  exact h.ne (Option.mem_unique hp hq)

theorem lt_trans (h : x < y) (h' : y < z) : x < z := by
  obtain ⟨p, hp, q, hq, h⟩ := lt_iff.1 h
  obtain ⟨q', hq', r, hr, h'⟩ := lt_iff.1 h'
  obtain rfl := Option.mem_unique hq hq'
  exact lt_iff.2 ⟨p, hp, r, hr, h.trans h'⟩

theorem lt_of_beq_of_lt (h : (x == y) = true) (h' : y < z) : x < z := by
  obtain ⟨p, hp, hq⟩ := beq_iff.1 h
  obtain ⟨q, hq', r, hr, h'⟩ := lt_iff.1 h'
  obtain rfl := Option.mem_unique hq hq'
  exact lt_iff.2 ⟨p, hp, r, hr, h'⟩

section Least

variable {α : Type} {f : α → Float}

structure IsFirstLeast (f : α → Float) (xs : List α) (m : α) : Prop where
  least : ∀ x ∈ xs, ¬ f x < f m
  first : ∃ before after, xs = before ++ m :: after ∧ ∀ x ∈ before, (f x == f m) = false

theorem firstLeast_of_foldl (f : α → Float) (x : α) (xs : List α) :
    IsFirstLeast f (x :: xs) (xs.foldl (fun best y => if f y < f best then y else best) x) := by
  induction xs using List.reverseRecOn with
  | nil => exact ⟨by simp [lt_irrefl], [], [], rfl, List.forall_mem_nil _⟩
  | append_singleton xs y ih =>
    obtain ⟨least, before, after, split, first⟩ := ih
    rw [List.foldl_append, List.foldl_cons, List.foldl_nil, ← List.cons_append]
    generalize xs.foldl (fun best y => if f y < f best then y else best) x = best at *
    by_cases less : f y < f best
    · rw [if_pos less]
      refine ⟨?_, x :: xs, [], rfl, fun z hz => ?_⟩
      · refine List.forall_mem_append.2 ⟨fun z hz h => least z hz (lt_trans h less), ?_⟩
        exact List.forall_mem_singleton.2 (lt_irrefl _)
      · rw [← Bool.not_eq_true]
        exact fun h => least z hz (lt_of_beq_of_lt h less)
    · rw [if_neg less]
      refine ⟨List.forall_mem_append.2 ⟨least, List.forall_mem_singleton.2 less⟩, before, after ++ [y], ?_, first⟩
      rw [split, List.append_assoc, List.cons_append]

end Least

end StreetMap.Number
