import Mathlib.Data.List.Infix
import StreetMap.Text.Pieces

/-!
The pieces of joined texts.  A separator of which no end is a beginning cannot occur across a seam, so a
text joined to another by it has the pieces of both.  No piece has the separator in it, and so just the
texts that do not have it either can be joined and taken apart again.  A cut at a single character finds
the place where two texts were joined by it, if the one that is searched first is without it.
-/

namespace StreetMap.Text

variable {sep xs ys cs p : List Char}

def Unbordered (sep : List Char) : Prop := ∀ p, p <+: sep → p <:+ sep → p = [] ∨ p = sep

theorem unbordered_iff : Unbordered sep ↔ ∀ p ∈ sep.inits, p <:+ sep → p = [] ∨ p = sep := by
  simp only [Unbordered, List.mem_inits]

instance : Decidable (Unbordered sep) := decidable_of_iff _ unbordered_iff.symm

theorem occursIn_iff (part : List Char) : occursIn part cs = true ↔ part <:+: cs := by
  induction cs with
  | nil => simp [occursIn]
  | cons c cs ih => rw [occursIn, Bool.or_eq_true, List.isPrefixOf_iff_prefix, ih, List.infix_cons_iff]

theorem occursIn_eq_false (part : List Char) : occursIn part cs = false ↔ ¬ part <:+: cs := by
  rw [← occursIn_iff, Bool.not_eq_true]

section Cutting

theorem pieces_of_absent (absent : ¬ sep <:+: cs) : pieces sep cs = [cs] := by
  rw [pieces]
  induction cs with
  | nil => rfl
  | cons c cs ih =>
    rw [List.infix_cons_iff, not_or] at absent
    rw [piecesFrom, if_neg (by simpa using absent.1), ih absent.2]
    rfl

theorem piecesFrom_skip (sep xs ys : List Char) : piecesFrom sep xs.length (xs ++ ys) = pieces sep ys := by
  induction xs with
  | nil => rfl
  | cons x xs ih => exact ih

theorem isPrefixOf_seam (unbordered : Unbordered sep) (hx : xs ≠ []) (ys : List Char) :
    sep.isPrefixOf (xs ++ (sep ++ ys)) = sep.isPrefixOf xs := by
  rw [Bool.eq_iff_iff, List.isPrefixOf_iff_prefix, List.isPrefixOf_iff_prefix]
  refine ⟨fun h => ?_, fun h => h.trans (List.prefix_append xs _)⟩
  rcases Nat.le_total sep.length xs.length with short | long
  · exact List.prefix_of_prefix_length_le h (List.prefix_append xs _) short
  · obtain ⟨p, rfl⟩ := List.prefix_of_prefix_length_le (List.prefix_append xs _) h long
    rw [List.prefix_append_right_inj] at h
    have start : p <+: xs ++ p :=
      List.prefix_of_prefix_length_le h (List.prefix_append _ _) (by simp)
    rcases unbordered p start (List.suffix_append xs p) with rfl | whole
    · rw [List.append_nil]
    · exact absurd (List.self_eq_append_left.1 whole) hx

theorem piecesFrom_append (unbordered : Unbordered sep) (full : sep ≠ []) {k : Nat} (hk : k ≤ xs.length) :
    piecesFrom sep k (xs ++ (sep ++ ys)) = piecesFrom sep k xs ++ pieces sep ys := by
  induction xs generalizing k with
  | nil =>
    obtain rfl := Nat.le_zero.1 hk
    obtain ⟨d, ds, rfl⟩ := List.exists_cons_of_ne_nil full
    have starts : (d :: ds).isPrefixOf (d :: (ds ++ ys)) = true :=
      List.isPrefixOf_iff_prefix.2 (List.prefix_append (d :: ds) ys)
    have cut : piecesFrom (d :: ds) 0 (d :: (ds ++ ys)) = [] :: piecesFrom (d :: ds) ds.length (ds ++ ys) :=
      if_pos starts
    exact cut.trans (congrArg ([] :: ·) (piecesFrom_skip (d :: ds) ds ys))
  | cons c cs ih =>
    cases k with
    | succ k => exact ih (Nat.le_of_succ_le_succ hk)
    | zero =>
      have seam := isPrefixOf_seam unbordered (List.cons_ne_nil c cs) ys
      rw [List.cons_append] at seam ⊢
      rw [piecesFrom, piecesFrom, seam]
      split
      · rename_i starts
        have fits := (List.isPrefixOf_iff_prefix.1 starts).length_le
        rw [List.length_cons] at fits
        rw [ih (by omega), List.cons_append]
      · rw [ih (Nat.zero_le _)]
        obtain ⟨p, ps, hp⟩ := List.exists_cons_of_ne_nil (piecesFrom_ne_nil sep 0 cs)
        rw [hp]
        rfl

theorem pieces_append (unbordered : Unbordered sep) (full : sep ≠ []) (xs ys : List Char) :
    pieces sep (xs ++ (sep ++ ys)) = pieces sep xs ++ pieces sep ys :=
  piecesFrom_append unbordered full (Nat.zero_le _)

theorem prefix_of_head? (h : (pieces sep cs).head? = some p) : p <+: cs := by
  rw [pieces] at h
  induction cs generalizing p with
  | nil =>
    cases h
    exact List.nil_prefix
  | cons c cs ih =>
    rw [piecesFrom] at h
    split at h
    · cases h
      exact List.nil_prefix
    · obtain ⟨q, qs, hq⟩ := List.exists_cons_of_ne_nil (piecesFrom_ne_nil sep 0 cs)
      rw [hq] at h ih
      cases h
      exact List.cons_prefix_cons.2 ⟨rfl, ih rfl⟩

theorem absent_of_mem_piecesFrom (full : sep ≠ []) {k : Nat} (hp : p ∈ piecesFrom sep k cs) :
    ¬ sep <:+: p := by
  have empty : ¬ sep <:+: [] := by rwa [List.infix_nil]
  induction cs generalizing k p with
  | nil =>
    rw [piecesFrom.eq_1, List.mem_singleton] at hp
    rwa [hp]
  | cons c cs ih =>
    cases k with
    | succ k => exact ih hp
    | zero =>
      rw [piecesFrom] at hp
      split at hp
      · rcases List.mem_cons.1 hp with rfl | hp
        · exact empty
        · exact ih hp
      · rename_i other
        obtain ⟨q, qs, hq⟩ := List.exists_cons_of_ne_nil (piecesFrom_ne_nil sep 0 cs)
        have head : (pieces sep cs).head? = some q := by rw [pieces, hq]; rfl
        have start := prefix_of_head? head
        rw [hq] at hp
        rcases List.mem_cons.1 hp with rfl | hp
        · rw [List.infix_cons_iff, not_or]
          refine ⟨fun h => other ?_, ih (hq ▸ List.mem_cons_self)⟩
          exact List.isPrefixOf_iff_prefix.2 (h.trans (List.cons_prefix_cons.2 ⟨rfl, start⟩))
        · exact ih (hq ▸ List.mem_cons_of_mem q hp)

end Cutting

section Joining

theorem intercalate_modifyHead (c : Char) {ps : List (List Char)} (h : ps ≠ []) :
    sep.intercalate (ps.modifyHead (c :: ·)) = c :: sep.intercalate ps := by
  obtain ⟨p, ps, rfl⟩ := List.exists_cons_of_ne_nil h
  by_cases last : ps = []
  · simp [last]
  · simp [List.intercalate_cons_of_ne_nil last]

theorem intercalate_piecesFrom (full : sep ≠ []) (k : Nat) (cs : List Char) :
    sep.intercalate (piecesFrom sep k cs) = cs.drop k := by
  induction cs generalizing k with
  | nil => simp [piecesFrom]
  | cons c cs ih =>
    cases k with
    | succ k => exact ih k
    | zero =>
      rw [piecesFrom]
      split
      · rename_i starts
        obtain ⟨rest, hrest⟩ := List.isPrefixOf_iff_prefix.1 starts
        obtain ⟨d, ds, rfl⟩ := List.exists_cons_of_ne_nil full
        cases hrest
        rw [List.intercalate_cons_of_ne_nil (piecesFrom_ne_nil _ _ _), ih]
        simp
      · rw [intercalate_modifyHead c (piecesFrom_ne_nil _ _ _), ih]
        rfl

end Joining

section Strings

variable {separator s t : String} {ts : List String}

theorem mem_split : t ∈ split separator s ↔ t.toList ∈ pieces separator.toList s.toList := by
  rw [split, List.mem_map]
  constructor
  · rintro ⟨p, hp, rfl⟩
    rwa [String.toList_ofList]
  · exact fun h => ⟨t.toList, h, String.ofList_toList⟩

theorem absent_of_mem_split (full : separator.toList ≠ []) (h : t ∈ split separator s) :
    ¬ separator.toList <:+: t.toList :=
  absent_of_mem_piecesFrom full (mem_split.1 h)

theorem split_of_absent (absent : ¬ separator.toList <:+: s.toList) : split separator s = [s] := by
  rw [split, pieces_of_absent absent, List.map_singleton, String.ofList_toList]

theorem split_append (unbordered : Unbordered separator.toList) (full : separator.toList ≠ []) (s t : String) :
    split separator (s ++ separator ++ t) = split separator s ++ split separator t := by
  rw [split, String.toList_append, String.toList_append, List.append_assoc, pieces_append unbordered full,
    List.map_append]
  rfl

theorem intercalate_split (full : separator.toList ≠ []) (s : String) :
    separator.intercalate (split separator s) = s := by
  rw [← String.toList_inj, String.toList_intercalate, split, List.map_map]
  have same : String.toList ∘ String.ofList = id := funext fun _ => String.toList_ofList
  rw [same, List.map_id, pieces, intercalate_piecesFrom full]
  rfl

theorem split_intercalate (unbordered : Unbordered separator.toList) (full : separator.toList ≠ [])
    (nonempty : ts ≠ []) (absent : ∀ t ∈ ts, ¬ separator.toList <:+: t.toList) :
    split separator (separator.intercalate ts) = ts := by
  induction ts with
  | nil => exact absurd rfl nonempty
  | cons t ts ih =>
    rw [List.forall_mem_cons] at absent
    by_cases last : ts = []
    · rw [last, String.intercalate_singleton, split_of_absent absent.1]
    · rw [String.intercalate_cons_of_ne_nil last, split_append unbordered full, split_of_absent absent.1,
        ih last absent.2]
      rfl

end Strings

section Cuts

variable {x : Char} {before after : List Char}

theorem cutAtFirst?_append (absent : x ∉ before) :
    cutAtFirst? x (before ++ x :: after) = some (before, after) := by
  induction before with
  | nil => simp [cutAtFirst?]
  | cons c cs ih =>
    rw [List.mem_cons, not_or] at absent
    rw [List.cons_append, cutAtFirst?, if_neg (Ne.symm absent.1), ih absent.2]
    rfl

theorem cutAtFirst?_of_absent (absent : x ∉ cs) : cutAtFirst? x cs = none := by
  cases h : cutAtFirst? x cs with
  | none => rfl
  | some cut =>
    obtain ⟨rfl, -⟩ := cutAtFirst?_eq_some h
    simp at absent

theorem cutAtLast?_of_absent (absent : x ∉ cs) : cutAtLast? x cs = none := by
  cases h : cutAtLast? x cs with
  | none => rfl
  | some cut =>
    obtain rfl := cutAtLast?_eq_some h
    simp at absent

theorem cutAtLast?_append (absent : x ∉ after) :
    cutAtLast? x (before ++ x :: after) = some (before, after) := by
  induction before with
  | nil => simp [cutAtLast?, cutAtLast?_of_absent absent]
  | cons c cs ih => rw [List.cons_append, cutAtLast?, ih]

theorem dropLeading_of_head? (other : cs.head? ≠ some x) : dropLeading x cs = cs := by
  cases cs with
  | nil => rfl
  | cons c cs => rw [dropLeading, if_neg fun same => other (congrArg some same)]

end Cuts

end StreetMap.Text
