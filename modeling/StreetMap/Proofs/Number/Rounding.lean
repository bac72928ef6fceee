import Mathlib
import StreetMap.Number.Lattice
import StreetMap.Number.Numeral

/-!
Where floating-point numbers end.  Rounding cuts a mantissa to the bits that there is room for, and may
carry into one bit more; so the exponent of what is rounded is known but for one, and the largest exponent
parts the finite numbers from the infinite ones.
-/

namespace StreetMap.Number

open Float.Model (Format totalExponent)
open Float.Model.UnpackedFloat

section Cutting

def cutExponent (m : Nat) (e : Int) : Int := max e (max (m.log2 - 52 + e) (-1074))

def cutBits (m : Nat) (e : Int) : Nat := (cutExponent m e - e).toNat

theorem log2_le_of_lt {n k : Nat} (h : n < 2 ^ (k + 1)) : n.log2 ≤ k := by
  by_cases none : n = 0
  · rw [none]
    exact Nat.zero_le k
  · exact Nat.le_of_lt_succ ((Nat.log2_lt none).2 h)

theorem succ_lt_of_log2_lt {n k limit : Nat} (h : n.log2 < k) (room : Nat.pow 2 k < limit) : n + 1 < limit :=
  calc n + 1 ≤ 2 ^ (n.log2 + 1) := Nat.lt_log2_self
    _ ≤ 2 ^ k := Nat.pow_le_pow_right Nat.two_pos h
    _ < limit := room

theorem mantissa_shift (em : ExtendedMantissa) (k : Nat) : (em >>> k).mantissa = em.mantissa / 2 ^ k := by
  change (Nat.repeat ExtendedMantissa.shiftRightOne k em).mantissa = _
  induction k with
  | zero => simp [Nat.repeat]
  | succ k ih =>
    rw [Nat.pow_succ, ← Nat.div_div_eq_div_mul, ← ih]
    rfl

theorem shiftToTargetExponent_eq (m : Nat) (e : Int) (acc : Accuracy) :
    (shiftToTargetExponent Format.binary64 m e acc).1.mantissa = m / 2 ^ cutBits m e ∧
      (shiftToTargetExponent Format.binary64 m e acc).2 = cutExponent m e := by
  have target : Format.binary64.targetExponent (totalExponent m e) = max (m.log2 - 52 + e) (-1074) := by
    simp only [Format.targetExponent, totalExponent, Format.mantissaBits, Format.minExponent]
    norm_num
    omega
  have bits : (max (↑m.log2 - 52 + e) (-1074) - e).toNat = cutBits m e := by
    rw [cutBits, cutExponent]
    omega
  rw [shiftToTargetExponent, target]
  simp only [shiftToExponent, bits, mantissa_shift]
  constructor
  · cases acc with
    | exact => rfl
    | inexact o => cases o <;> rfl
  · rw [cutBits, cutExponent]
    omega

theorem roundedMantissa_bounds (em : ExtendedMantissa) :
    em.mantissa ≤ em.roundedMantissa ∧ em.roundedMantissa ≤ em.mantissa + 1 := by
  obtain ⟨m, round, sticky⟩ := em
  cases round <;> cases sticky <;>
    simp [ExtendedMantissa.roundedMantissa, ExtendedMantissa.accuracy, Accuracy.roundToNearestEven]
  omega

theorem cut_lt (m : Nat) (e : Int) : m / 2 ^ cutBits m e < 2 ^ 53 := by
  rw [Nat.div_lt_iff_lt_mul (Nat.two_pow_pos _), ← Nat.pow_add]
  refine Nat.lt_of_lt_of_le (Nat.lt_log2_self (n := m)) (Nat.pow_le_pow_right (by decide) ?_)
  rw [cutBits, cutExponent]
  omega

theorem cut_pos {m : Nat} {e : Int} (pos : m ≠ 0) (large : -1074 ≤ m.log2 + e) : 0 < m / 2 ^ cutBits m e := by
  refine Nat.div_pos (Nat.le_trans (Nat.pow_le_pow_right (by decide) ?_) (Nat.log2_self_le pos))
    (Nat.two_pow_pos _)
  rw [cutBits, cutExponent]
  omega

theorem round_cases (s : Sign) (m : Nat) (e : Int) (acc : Accuracy) :
    (roundWithAccuracy Format.binary64 s m e acc = .zero s ∧ m / 2 ^ cutBits m e = 0) ∨
      ∃ m' e' pos, roundWithAccuracy Format.binary64 s m e acc = .finite s m' e' pos ∧
        cutExponent m e ≤ e' ∧ e' ≤ cutExponent m e + 1 := by
  obtain ⟨mantissa, exponent⟩ := shiftToTargetExponent_eq m e acc
  have low : -1074 ≤ cutExponent m e := by rw [cutExponent]; omega
  have room := cut_lt m e
  rw [roundWithAccuracy]
  generalize shiftToTargetExponent Format.binary64 m e acc = first at *
  obtain ⟨em, e₁⟩ := first
  dsimp only at *
  subst exponent
  have rounded := roundedMantissa_bounds em
  rw [mantissa] at rounded
  obtain ⟨mantissa', exponent'⟩ := shiftToTargetExponent_eq em.roundedMantissa (cutExponent m e) .exact
  generalize em.roundedMantissa = r at *
  by_cases none : r = 0
  · left
    refine ⟨?_, by omega⟩
    rw [dif_pos]
    rw [mantissa', none, Nat.zero_div]
  · right
    have carry : r.log2 ≤ 53 := log2_le_of_lt (by omega)
    have kept : 0 < r / 2 ^ cutBits r (cutExponent m e) := cut_pos none (by omega)
    rw [← mantissa'] at kept
    rw [dif_neg kept.ne']
    refine ⟨_, _, kept, rfl, ?_⟩
    rw [exponent']
    generalize cutExponent m e = cut at *
    rw [cutExponent]
    omega

end Cutting

section Packing

variable {s : Sign} {m : Nat} {e : Int} {pos : 0 < m}

theorem isFinite_unpack (b : BitVec Format.binary64.numBits) :
    (unpack Format.binary64 b).isFinite = true ↔
      unpackExponent b ≠ -BitVec.ofNat Format.binary64.exponentBits 1 := by
  rw [unpack]
  dsimp only
  split
  · split <;> simp_all [isFinite]
  · split
    · split <;> simp_all [isFinite]
    · simp_all [isFinite]

theorem isFinite_pack : (Float.Model.pack (.finite s m e pos)).isFinite = true ↔ e ≤ 971 := by
  change (unpack Format.binary64 (pack Format.binary64 _)).isFinite = true ↔ _
  have bias : (Format.binary64.exponentBias : Int) = 1023 := rfl
  rw [isFinite_unpack, pack]
  dsimp only
  split
  · rw [packedInfinity, unpackExponent_packComponents]
    exact iff_of_false (fun h => h rfl) (by omega)
  · refine iff_of_true ?_ (by omega)
    split
    · rw [unpackExponent_packComponents]
      intro full
      have full := congrArg BitVec.toNat full
      rw [BitVec.toNat_ofNat] at full
      change _ = 2047 at full
      omega
    · rw [unpackExponent_packComponents]
      decide

theorem isFinite_pack_zero (s : Sign) : (Float.Model.pack (.zero s)).isFinite = true := by
  cases s <;> rfl

theorem isInf_pack_infinity (s : Sign) : (Float.Model.pack (.infinity s)).isInf = true := by
  cases s <;> rfl

theorem isInf_pack (large : 972 ≤ e) : (Float.Model.pack (.finite s m e pos)).isInf = true := by
  have bias : (Format.binary64.exponentBias : Int) = 1023 := rfl
  have infinite : pack Format.binary64 (.finite s m e pos) = pack Format.binary64 (.infinity s) := by
    refine if_pos ?_
    change 2 ^ 11 ≤ (e + Format.binary64.exponentBias + (52 : Nat)).toNat + 1
    omega
  change (unpack Format.binary64 (pack Format.binary64 _)).isInf = true
  rw [infinite]
  exact isInf_pack_infinity s

theorem isFinite_pack_round {acc : Accuracy} (small : cutExponent m e ≤ 970) :
    (Float.Model.pack (roundWithAccuracy Format.binary64 s m e acc)).isFinite = true := by
  obtain ⟨rounded, -⟩ | ⟨m', e', pos, rounded, -, high⟩ := round_cases s m e acc
  · rw [rounded]
    exact isFinite_pack_zero s
  · rw [rounded, isFinite_pack]
    omega

theorem bounds_of_unpack {b : BitVec Format.binary64.numBits}
    (h : unpack Format.binary64 b = .finite s m e pos) : m < 2 ^ 53 ∧ -1074 ≤ e ∧ e ≤ 971 := by
  have bias : (Format.binary64.exponentBias : Int) = 1023 := rfl
  have exponent : (unpackExponent b).toNat < 2 ^ 11 := (unpackExponent b).isLt
  have mantissa : (unpackMantissa b).toNat < 2 ^ 52 := (unpackMantissa b).isLt
  rw [unpack] at h
  dsimp only at h
  split at h
  · split at h <;> cases h
  · rename_i ordinary
    have below : (unpackExponent b).toNat ≠ 2047 := fun full => ordinary (BitVec.eq_of_toNat_eq full)
    split at h
    · rename_i least
      have least : (unpackExponent b).toNat = 0 := congrArg BitVec.toNat least
      split at h
      · cases h
      · cases h
        omega
    · rename_i more
      have more : (unpackExponent b).toNat ≠ 0 := fun none => more (BitVec.eq_of_toNat_eq none)
      have whole : (1#1 ++ unpackMantissa b).toNat < 2 ^ 53 := (1#1 ++ unpackMantissa b).isLt
      cases h
      omega

end Packing

section Thrice

variable {x : Float}

theorem unpack_three : (3 : Float).toModel.unpack = .finite .positive (3 * 2 ^ 51) (-51) (by decide) := rfl

theorem isFinite_third (h : x.isFinite = true) : (x / 3).isFinite = true := by
  change x.toModel.unpack.isFinite = true at h
  change (Float.Model.pack (div Format.binary64 x.toModel.unpack (3 : Float).toModel.unpack)).isFinite = true
  rw [unpack_three]
  cases hx : x.toModel.unpack with
  | infinity s => rw [hx] at h; cases h
  | notANumber => rw [hx] at h; cases h
  | zero s => exact isFinite_pack_zero _
  | finite s m e pos =>
    obtain ⟨room, -, high⟩ := bounds_of_unpack hx
    have log : m.log2 ≤ 52 := log2_le_of_lt room
    have two : totalExponent (3 * 2 ^ 51) (-51) = 2 := rfl
    have target : Format.binary64.targetExponent (totalExponent m e - 2) = max (m.log2 - 54 + e) (-1074) := by
      simp only [Format.targetExponent, totalExponent, Format.mantissaBits, Format.minExponent]
      norm_num
      omega
    simp only [div, divCore, two, target]
    apply isFinite_pack_round
    generalize hk : (e - -51 - min (e - -51) (max (m.log2 - 54 + e) (-1074))).toNat = k
    have quotient : m <<< k / (3 * 2 ^ 51) < 2 ^ (k + 1) := by
      rw [Nat.div_lt_iff_lt_mul (by decide), Nat.shiftLeft_eq, Nat.pow_succ]
      calc m * 2 ^ k < 2 ^ 53 * 2 ^ k := Nat.mul_lt_mul_of_pos_right room (Nat.two_pow_pos k)
        _ ≤ 2 ^ k * 2 * (3 * 2 ^ 51) := by omega
    have bits := log2_le_of_lt quotient
    rw [cutExponent]
    omega

theorem isInf_thrice (h : x.isInf = true) : (x * 3).isInf = true := by
  change x.toModel.unpack.isInf = true at h
  change (Float.Model.pack (mul Format.binary64 x.toModel.unpack (3 : Float).toModel.unpack)).isInf = true
  rw [unpack_three]
  cases hx : x.toModel.unpack with
  | infinity s => exact isInf_pack_infinity _
  | notANumber => rw [hx] at h; cases h
  | zero s => rw [hx] at h; cases h
  | finite s m e pos => rw [hx] at h; cases h

theorem isInf_eq_false (h : x.isFinite = true) : x.isInf = false := by
  change x.toModel.unpack.isFinite = true at h
  change x.toModel.unpack.isInf = false
  cases hx : x.toModel.unpack with
  | infinity s => rw [hx] at h; cases h
  | notANumber => rfl
  | zero s => rfl
  | finite s m e pos => rfl

end Thrice

section Integers

theorem isInf_neg {x : Float} (h : x.isInf = true) : (-x).isInf = true := by
  change x.toModel.unpack.isInf = true at h
  change (Float.Model.pack x.toModel.unpack.neg).isInf = true
  cases hx : x.toModel.unpack with
  | infinity s => exact isInf_pack_infinity _
  | notANumber => rw [hx] at h; cases h
  | zero s => rw [hx] at h; cases h
  | finite s m e pos => rw [hx] at h; cases h

theorem isInf_ofNat {n : Nat} (long : 1024 ≤ n.log2) : (Float.ofNat n).isInf = true := by
  have pos : n ≠ 0 := by
    rintro rfl
    cases long
  have big : ¬ (n < 2 ^ 53 ∧ 0 ≤ 22) := fun ⟨small, _⟩ => absurd (log2_le_of_lt small) (by omega)
  have shifted : n <<< 53 ≠ 0 := by simpa using pos
  have log : n.log2 + 53 ≤ (n <<< 53).log2 := by
    rw [Nat.le_log2 shifted, Nat.pow_add, Nat.shiftLeft_eq]
    exact Nat.mul_le_mul_right _ (Nat.log2_self_le pos)
  have scaled : ofScientific Format.binary64 n 0 =
      roundWithAccuracy Format.binary64 .positive (n <<< 53) (-53) .exact := by
    have range : (2 : Int) ^ Format.binary64.exponentBits = 2048 := rfl
    have room : Format.binary64.mantissaBits = 53 := rfl
    have sign : Sign.positive * Sign.positive = Sign.positive := rfl
    rw [ofScientific, dif_neg pos, if_neg (by decide), if_neg (by omega), if_pos (by decide)]
    simp only [mul, room, sign, Int.toNat_zero, Nat.pow_zero, Nat.mul_one, Int.add_zero]
    rfl
  change (Float.ofScientific n false 0).isInf = true
  rw [Float.ofScientific, dif_neg big]
  change (Float.Model.pack (ofScientific Format.binary64 n 0)).isInf = true
  rw [scaled]
  obtain ⟨-, none⟩ | ⟨m', e', pos, rounded, low, -⟩ := round_cases .positive (n <<< 53) (-53) .exact
  · exact absurd none (cut_pos shifted (by omega)).ne'
  · rw [rounded]
    apply isInf_pack
    rw [cutExponent] at low
    omega

theorem isInf_ofInt {n : Int} (long : 1024 ≤ n.natAbs.log2) : (Float.ofInt n).isInf = true := by
  cases n with
  | ofNat n => exact isInf_ofNat long
  | negSucc n => exact isInf_neg (isInf_ofNat long)

end Integers

section Truncation

theorem shiftLeft_div_two_pow {m k unit : Nat} {e : Int} (hu : unit = Nat.pow 2 k) (low : -k ≤ e) :
    m <<< (e + k).toNat / unit = if 0 ≤ e then m <<< e.toNat else m >>> (-e).toNat := by
  rw [hu, Nat.pow_eq, Nat.shiftLeft_eq, Nat.shiftLeft_eq, Nat.shiftRight_eq_div_pow]
  split
  · rename_i whole
    obtain ⟨n, rfl⟩ := Int.eq_ofNat_of_zero_le whole
    rw [← Int.natCast_add, Int.toNat_natCast, Int.toNat_natCast, Nat.pow_add, ← Nat.mul_assoc,
      Nat.mul_div_cancel _ (Nat.two_pow_pos k)]
  · obtain ⟨n, hn⟩ := Int.eq_ofNat_of_zero_le (show 0 ≤ e + k by omega)
    obtain ⟨b, hb⟩ := Int.eq_ofNat_of_zero_le (show 0 ≤ -e by omega)
    obtain rfl : k = b + n := by omega
    rw [hn, hb, Int.toNat_natCast, Int.toNat_natCast, Nat.pow_add,
      Nat.mul_div_mul_right _ _ (Nat.two_pow_pos n)]

theorem truncate_eq_tdiv {x : Float} (h : x.isFinite = true) :
    ∃ v, latticeValue? x = some v ∧ Numeral.truncate x = .ok (v.tdiv latticeUnit) := by
  change x.toModel.unpack.isFinite = true at h
  rw [latticeValue?, Numeral.truncate]
  cases hx : x.toModel.unpack with
  | infinity s => rw [hx] at h; cases h
  | notANumber => rw [hx] at h; cases h
  | zero s => exact ⟨0, rfl, by rw [Int.zero_tdiv]⟩
  | finite s m e pos =>
    obtain ⟨-, low, -⟩ := bounds_of_unpack hx
    have whole : m <<< (e + 1074).toNat / latticeUnit = if 0 ≤ e then m <<< e.toNat else m >>> (-e).toNat :=
      shiftLeft_div_two_pow (k := 1074) (by decide +kernel) low
    refine ⟨_, rfl, ?_⟩
    dsimp only
    rw [← whole]
    cases s with
    | positive => exact congrArg Except.ok (Int.ofNat_tdiv _ _)
    | negative => exact congrArg Except.ok ((congrArg Neg.neg (Int.ofNat_tdiv _ _)).trans (Int.neg_tdiv _ _).symm)

end Truncation

end StreetMap.Number
