import Mathlib.Data.List.TakeWhile
import StreetMap.Text.Blank

/-!
Trimming.  It takes blanks put around a text away again, and leaves a text alone that starts and ends with
other characters.
-/

namespace StreetMap.Text

variable {p : Char → Bool} {cs before after : List Char} {c : Char}

theorem dropWhile_of_head? (start : ∀ c, cs.head? = some c → p c = false) : cs.dropWhile p = cs := by
  cases cs with
  | nil => rfl
  | cons c cs => rw [List.dropWhile_cons_of_neg (by simp [start c rfl])]

theorem trimBy_of_ends (start : ∀ c, cs.head? = some c → p c = false)
    (stop : ∀ c, cs.getLast? = some c → p c = false) : trimBy p cs = cs := by
  rw [trimBy, dropWhile_of_head? start, dropWhile_of_head?, List.reverse_reverse]
  intro c hc
  rw [List.head?_reverse] at hc
  exact stop c hc

theorem trimBy_append (hb : ∀ c ∈ before, p c = true) (ha : ∀ c ∈ after, p c = true) :
    trimBy p (before ++ cs ++ after) = trimBy p cs := by
  have stop : ∀ c ∈ after.reverse, p c = true := fun c hc => ha c (List.mem_reverse.1 hc)
  rw [trimBy, trimBy, List.append_assoc, List.dropWhile_append_of_pos hb, List.dropWhile_append]
  cases left : cs.dropWhile p with
  | nil => simp [List.dropWhile_eq_nil_iff.2 ha]
  | cons c ds => rw [if_neg (by simp), List.reverse_append, List.dropWhile_append_of_pos stop]

theorem mem_trimBy {p : Char → Bool} {c : Char} (h : c ∈ cs) : p c = true ∨ c ∈ trimBy p cs := by
  have parted (ds : List Char) (hc : c ∈ ds) : p c = true ∨ c ∈ ds.dropWhile p := by
    rw [← List.takeWhile_append_dropWhile (p := p) (l := ds), List.mem_append] at hc
    exact hc.imp_left fun hc => List.mem_takeWhile_imp hc
  obtain away | left := parted cs h
  · exact .inl away
  · rw [trimBy, List.mem_reverse]
    exact parted _ (List.mem_reverse.2 left)

theorem isBlank_of_isDigit (h : c.isDigit = true) : isBlank c = false := by
  rw [Char.isDigit_iff_toNat] at h
  obtain ⟨low, high⟩ := h
  change 48 ≤ c.toNat at low
  change c.toNat ≤ 57 at high
  simp only [isBlank, Bool.or_eq_false_iff, Bool.and_eq_false_iff, decide_eq_false_iff_not]
  omega

end StreetMap.Text
