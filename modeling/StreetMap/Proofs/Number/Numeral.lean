import StreetMap.Number.Numeral
import StreetMap.Proofs.Text.Blank
import StreetMap.Proofs.Text.Pieces

/-!
Numerals of ASCII digits.  They read as their value as long as there are not too many digits, and so an
integer that may be written is read back from what is written.
-/

namespace StreetMap.Numeral

open Text

variable {s : String} {cs : List Char} {c : Char}

/-- Only digits, and at least one. -/
structure IsDigits (cs : List Char) : Prop where
  nonempty : cs ≠ []
  digits : ∀ c ∈ cs, c.isDigit = true

theorem isDigits_iff : IsDigits cs ↔ cs ≠ [] ∧ cs.all Char.isDigit = true := by
  rw [List.all_eq_true]
  exact ⟨fun h => ⟨h.nonempty, h.digits⟩, fun h => ⟨h.1, h.2⟩⟩

instance : Decidable (IsDigits cs) := decidable_of_iff _ isDigits_iff.symm

section Digits

theorem digitValue?_of_isDigit (h : c.isDigit = true) : digitValue? c = some (c.toNat - 48) := by
  obtain ⟨-, high⟩ := Char.isDigit_iff_toNat.1 h
  change c.toNat ≤ 57 at high
  rw [digitValue?, if_pos (by omega), if_pos h]

theorem isNumeralBlank_of_isDigit (h : c.isDigit = true) : isNumeralBlank c = false := by
  rw [isNumeralBlank, isBlank_of_isDigit h]
  rfl

theorem ofDigits_map (cs : List Char) :
    ofDigits (cs.map fun c => c.toNat - 48) = Nat.ofDigitChars 10 cs 0 := by
  rw [ofDigits, List.foldl_map]
  rfl

theorem readDigits_of_isDigits (h : IsDigits cs) :
    readDigits cs = some (cs.map fun c => c.toNat - 48, []) := by
  have value : ∀ c ∈ cs, digitValue? c = some (c.toNat - 48) := fun c hc =>
    digitValue?_of_isDigit (h.digits c hc)
  have run : cs.takeWhile isDigitOrLink = cs := by
    rw [List.takeWhile_eq_self_iff]
    intro c hc
    simp [isDigitOrLink, value c hc]
  have rest : cs.dropWhile isDigitOrLink = [] := by
    rw [List.dropWhile_eq_nil_iff]
    intro c hc
    simp [isDigitOrLink, value c hc]
  have unlinked : ¬ ['_'] <:+: cs := by
    intro link
    have digit := h.digits '_' (link.subset (List.mem_singleton_self _))
    cases digit
  have values : cs.filterMap digitValue? = cs.map fun c => c.toNat - 48 := by
    rw [← List.filterMap_eq_map]
    exact List.filterMap_congr value
  rw [readDigits, run, rest, if_neg (by simpa using h.nonempty), pieces_of_absent unlinked,
    if_neg (by simpa using h.nonempty), values]

theorem readSign_of_isDigits (h : IsDigits cs) : readSign cs = (false, cs) := by
  obtain ⟨c, cs, rfl⟩ := List.exists_cons_of_ne_nil h.nonempty
  have digit := h.digits c List.mem_cons_self
  rw [readSign]
  · rintro _ ⟨⟩
    cases digit
  · rintro _ ⟨⟩
    cases digit

end Digits

section Limits

variable [Limits]

theorem permits_iff {count : Nat} : permits count = true ↔ ∀ k ∈ Limits.digits, count ≤ k := by
  rw [permits, Option.all_eq_true]
  simp

theorem fits_iff {n : Int} : fits n = true ↔ ∀ k ∈ Limits.digits, n.natAbs < Nat.pow 10 k := by
  rw [fits, permits_iff]
  refine forall₂_congr fun k hk => Nat.length_toDigits_le_iff (by decide) ?_
  exact Nat.lt_of_lt_of_le (by decide) (Limits.room k hk)

theorem permits_of_le {count : Nat} (few : count ≤ 640) : permits count = true :=
  permits_iff.2 fun k hk => few.trans (Limits.room k hk)

theorem fits_of_lt {n : Int} {m : Nat} (few : m ≤ 640) (small : n.natAbs < Nat.pow 10 m) : fits n = true :=
  fits_iff.2 fun k hk => small.trans_le (Nat.pow_le_pow_right (by decide) (few.trans (Limits.room k hk)))

end Limits

section Reading

variable [Limits]

theorem readInt_of_readSign {negative : Bool} (h : IsDigits cs)
    (sign : readSign (trimBy isNumeralBlank s.toList) = (negative, cs)) :
    readInt s = if permits cs.length then .ok (applySign negative (Nat.ofDigitChars 10 cs 0))
      else .error (.tooManyDigits cs.length) := by
  obtain ⟨c, cs', rfl⟩ := List.exists_cons_of_ne_nil h.nonempty
  rw [readInt, sign]
  dsimp only
  rw [readDigits_of_isDigits h, ← ofDigits_map]
  simp only [List.map_cons, List.length_map, List.isEmpty_nil, if_true, Bool.not_eq_true', ← Bool.not_eq_true,
    ite_not]
  rfl

theorem readInt_of_isDigits (h : IsDigits s.toList) :
    readInt s = if permits s.toList.length then .ok (Nat.ofDigitChars 10 s.toList 0 : Int)
      else .error (.tooManyDigits s.toList.length) := by
  have trimmed : trimBy isNumeralBlank s.toList = s.toList := by
    refine trimBy_of_ends (fun c start => ?_) fun c stop => ?_
    · exact isNumeralBlank_of_isDigit (h.digits c (List.mem_of_head? start))
    · exact isNumeralBlank_of_isDigit (h.digits c (List.mem_of_getLast? stop))
  exact readInt_of_readSign h (by rw [trimmed, readSign_of_isDigits h])

theorem readInt_of_minus (h : IsDigits cs) (hs : s.toList = '-' :: cs) :
    readInt s = if permits cs.length then .ok (-Nat.ofDigitChars 10 cs 0 : Int)
      else .error (.tooManyDigits cs.length) := by
  have trimmed : trimBy isNumeralBlank ('-' :: cs) = '-' :: cs := by
    refine trimBy_of_ends (fun c start => ?_) fun c stop => ?_
    · cases start
      rfl
    · rw [List.getLast?_cons, List.getLast?_eq_some_getLast h.nonempty] at stop
      cases stop
      exact isNumeralBlank_of_isDigit (h.digits _ (List.getLast_mem _))
  exact readInt_of_readSign h (by rw [hs, trimmed]; rfl)

end Reading

section Text

theorem mem_readSign {cs : List Char} (h : c ∈ cs) : c = '-' ∨ c = '+' ∨ c ∈ (readSign cs).2 := by
  rw [readSign.eq_def]
  split
  · exact (List.mem_cons.1 h).imp_right .inr
  · exact .inr (List.mem_cons.1 h)
  · exact .inr (.inr h)

theorem rest_of_readDigits {cs rest : List Char} {ds : List Nat} (h : readDigits cs = some (ds, rest)) :
    rest = cs.dropWhile isDigitOrLink := by
  rw [readDigits] at h
  split at h
  · cases h
    rfl
  · split at h
    · cases h
    · cases h
      rfl

variable [Limits]

theorem readInt_cases (s : String) :
    (∃ ds, readDigits (readSign (trimBy isNumeralBlank s.toList)).2 = some (ds, []) ∧
      ∃ n, readInt s = .ok n) ∨
    readInt s = .error (.notInteger s) ∨ ∃ n, permits n = false ∧ readInt s = .error (.tooManyDigits n) := by
  rw [readInt]
  rcases sign : readSign (trimBy isNumeralBlank s.toList) with ⟨negative, body⟩
  dsimp only
  split
  · rename_i d ds rest read
    split
    · rename_i long
      exact .inr (.inr ⟨_, Bool.not_eq_true' _ ▸ long, rfl⟩)
    · split
      · rename_i last
        rw [List.isEmpty_iff.1 last] at read
        exact .inl ⟨_, read, _, rfl⟩
      · exact .inr (.inl rfl)
  · exact .inr (.inl rfl)

theorem mem_of_readInt {n : Int} (h : readInt s = .ok n) (hc : c ∈ s.toList) :
    isNumeralBlank c = true ∨ c = '-' ∨ c = '+' ∨ isDigitOrLink c = true := by
  refine (mem_trimBy hc).imp_right fun hc => (mem_readSign hc).imp_right (Or.imp_right fun hc => ?_)
  obtain ⟨ds, read, -⟩ | failed | ⟨_, _, failed⟩ := readInt_cases s
  · exact List.dropWhile_eq_nil_iff.1 (rest_of_readDigits read).symm c hc
  · cases failed.symm.trans h
  · cases failed.symm.trans h

theorem readInt_eq_error {e : NumeralError} (h : readInt s = .error e) :
    e = .notInteger s ∨ ∃ n, permits n = false ∧ e = .tooManyDigits n := by
  obtain ⟨_, _, n, read⟩ | failed | ⟨n, hn, failed⟩ := readInt_cases s
  · cases read.symm.trans h
  · cases failed.symm.trans h
    exact .inl rfl
  · cases failed.symm.trans h
    exact .inr ⟨n, hn, rfl⟩

end Text

section Writing

theorem isDigits_toString (n : Nat) : IsDigits (toString n).toList := by
  rw [Nat.toString_eq_ofList_toDigits, String.toList_ofList]
  exact ⟨Nat.toDigits_ne_nil, fun c hc => Nat.isDigit_of_mem_toDigits (by decide) (by decide) hc⟩

theorem ofDigitChars_toString (n : Nat) : Nat.ofDigitChars 10 (toString n).toList 0 = n := by
  rw [Nat.toString_eq_ofList_toDigits, String.toList_ofList, Nat.ofDigitChars_ten_toDigits]

theorem toList_toString_negSucc (n : Nat) :
    (toString (Int.negSucc n)).toList = '-' :: (toString (n + 1)).toList := by
  change ("-" ++ toString (n + 1)).toList = _
  rw [String.toList_append]
  rfl

variable [Limits]

theorem permits_length_toString (n : Nat) : permits (toString n).toList.length = fits n := by
  rw [Nat.toString_eq_ofList_toDigits, String.toList_ofList]
  rfl

theorem readInt_toString {n : Int} (room : fits n = true) : readInt (toString n) = .ok n := by
  cases n with
  | ofNat n =>
    change readInt (toString n) = _
    rw [readInt_of_isDigits (isDigits_toString n), permits_length_toString, if_pos (show fits (n : Nat) = true from room),
      ofDigitChars_toString]
    rfl
  | negSucc n =>
    rw [readInt_of_minus (isDigits_toString (n + 1)) (toList_toString_negSucc n),
      permits_length_toString, if_pos (show fits (n + 1 : Nat) = true from room), ofDigitChars_toString]
    rfl

end Writing

end StreetMap.Numeral
