import Mathlib.Data.List.Basic
import StreetMap.Text.Utf8

/-!
Reading octets back.  A character is spelled with one octet to four, in one way; so octets are read as a text
just if they are the octets of that text.
-/

namespace StreetMap.Text.Utf8

variable {b : UInt8} {bs rest : List UInt8} {code bits n : Nat} {lo hi : UInt8}
  {bounds : List (UInt8 × UInt8)}

theorem follow_nil_eq_ok : follow code [] bs = .ok (n, rest) ↔ code = n ∧ bs = rest := by
  rw [follow, Except.ok.injEq, Prod.mk.injEq]

theorem follow_cons_eq_ok : follow code ((lo, hi) :: bounds) bs = .ok (n, rest) ↔
    ∃ b bs', bs = b :: bs' ∧ lo.toNat ≤ b.toNat ∧ b.toNat ≤ hi.toNat ∧
      follow (code * 64 + (b.toNat - 0x80)) bounds bs' = .ok (n, rest) := by
  cases bs with
  | nil => simp [follow]
  | cons b bs =>
    rw [follow]
    simp only [Bool.and_eq_true, decide_eq_true_eq, UInt8.le_iff_toNat_le]
    constructor
    · intro read
      split at read
      · rename_i within
        refine ⟨b, bs, rfl, within.1, within.2, ?_⟩
        split at read
        · rename_i read'
          cases read
          exact read'
        · cases read
      · cases read
    · rintro ⟨_, _, ⟨⟩, low, high, read⟩
      rw [if_pos ⟨low, high⟩, read]

def least (n : Nat) : UInt8 := if n = 0xe0 then 0xa0 else if n = 0xf0 then 0x90 else 0x80

def greatest (n : Nat) : UInt8 := if n = 0xed then 0x9f else if n = 0xf4 then 0x8f else 0xbf

theorem lead?_eq (b : UInt8) : lead? b =
    if b.toNat < 0x80 then some (b.toNat, [])
    else if b.toNat < 0xc2 then none
    else if b.toNat < 0xe0 then some (b.toNat - 0xc0, [(0x80, 0xbf)])
    else if b.toNat < 0xf0 then some (b.toNat - 0xe0, [(least b.toNat, greatest b.toNat), (0x80, 0xbf)])
    else if b.toNat < 0xf5 then
      some (b.toNat - 0xf0, [(least b.toNat, greatest b.toNat), (0x80, 0xbf), (0x80, 0xbf)])
    else none := by
  rw [lead?, least, greatest]
  generalize b.toNat = n
  grind

def IsCode (n : Nat) : Prop := n < 0xd800 ∨ 0xdfff < n ∧ n < 0x110000

theorem toNat_ofNat (valid : IsCode code) : (Char.ofNat code).val.toNat = code := by
  have valid : code.isValidChar := valid
  rw [Char.ofNat, dif_pos valid]
  rfl

theorem ofNat_eq {n : Nat} (h : n = b.toNat) : UInt8.ofNat n = b := by
  rw [h, UInt8.ofNat_toNat]

theorem least_le_iff (n k : Nat) :
    (least n).toNat ≤ k ↔ 0x80 ≤ k ∧ (n = 0xe0 → 0xa0 ≤ k) ∧ (n = 0xf0 → 0x90 ≤ k) := by
  have octets : (least n).toNat = if n = 0xe0 then 0xa0 else if n = 0xf0 then 0x90 else 0x80 := by
    rw [least]
    split_ifs <;> rfl
  rw [octets]
  split_ifs <;> omega

theorem le_greatest_iff (n k : Nat) :
    k ≤ (greatest n).toNat ↔ k ≤ 0xbf ∧ (n = 0xed → k ≤ 0x9f) ∧ (n = 0xf4 → k ≤ 0x8f) := by
  have octets : (greatest n).toNat = if n = 0xed then 0x9f else if n = 0xf4 then 0x8f else 0xbf := by
    rw [greatest]
    split_ifs <;> rfl
  rw [octets]
  split_ifs <;> omega

def IsTail (b : UInt8) : Prop := 0x80 ≤ b.toNat ∧ b.toNat ≤ 0xbf

inductive Spells : Nat → List UInt8 → Prop
  | one {b : UInt8} (high : b.toNat < 0x80) : Spells b.toNat [b]
  | two {b b₁ : UInt8} (low : 0xc2 ≤ b.toNat) (high : b.toNat < 0xe0) (tail : IsTail b₁) :
    Spells ((b.toNat - 0xc0) * 64 + (b₁.toNat - 0x80)) [b, b₁]
  | three {b b₁ b₂ : UInt8} (low : 0xe0 ≤ b.toNat) (high : b.toNat < 0xf0)
    (above : (least b.toNat).toNat ≤ b₁.toNat) (below : b₁.toNat ≤ (greatest b.toNat).toNat)
    (tail : IsTail b₂) :
    Spells (((b.toNat - 0xe0) * 64 + (b₁.toNat - 0x80)) * 64 + (b₂.toNat - 0x80)) [b, b₁, b₂]
  | four {b b₁ b₂ b₃ : UInt8} (low : 0xf0 ≤ b.toNat) (high : b.toNat < 0xf5)
    (above : (least b.toNat).toNat ≤ b₁.toNat) (below : b₁.toNat ≤ (greatest b.toNat).toNat)
    (tail : IsTail b₂) (tail' : IsTail b₃) :
    Spells ((((b.toNat - 0xf0) * 64 + (b₁.toNat - 0x80)) * 64 + (b₂.toNat - 0x80)) * 64 +
      (b₃.toNat - 0x80)) [b, b₁, b₂, b₃]

theorem encodeChar_of_spells {octets : List UInt8} (spells : Spells code octets) :
    String.utf8EncodeChar (Char.ofNat code) = octets := by
  cases spells with
  | @one b high =>
    have valid : IsCode b.toNat := .inl (by omega)
    rw [String.utf8EncodeChar, toNat_ofNat valid, if_pos (by omega), UInt8.ofNat_toNat]
  | @two b b₁ low high tail =>
    obtain ⟨low₁, high₁⟩ := tail
    have valid : IsCode ((b.toNat - 0xc0) * 64 + (b₁.toNat - 0x80)) := .inl (by omega)
    rw [String.utf8EncodeChar, toNat_ofNat valid, if_neg (by omega), if_pos (by omega),
      ofNat_eq (b := b) (by omega), ofNat_eq (b := b₁) (by omega)]
  | @three b b₁ b₂ low high above below tail =>
    obtain ⟨low₂, high₂⟩ := tail
    rw [least_le_iff] at above
    rw [le_greatest_iff] at below
    have valid : IsCode (((b.toNat - 0xe0) * 64 + (b₁.toNat - 0x80)) * 64 + (b₂.toNat - 0x80)) := by
      rw [IsCode]
      omega
    rw [String.utf8EncodeChar, toNat_ofNat valid, if_neg (by omega), if_neg (by omega), if_pos (by omega),
      ofNat_eq (b := b) (by omega), ofNat_eq (b := b₁) (by omega), ofNat_eq (b := b₂) (by omega)]
  | @four b b₁ b₂ b₃ low high above below tail tail' =>
    obtain ⟨low₂, high₂⟩ := tail
    obtain ⟨low₃, high₃⟩ := tail'
    rw [least_le_iff] at above
    rw [le_greatest_iff] at below
    have valid : IsCode ((((b.toNat - 0xf0) * 64 + (b₁.toNat - 0x80)) * 64 + (b₂.toNat - 0x80)) * 64 +
        (b₃.toNat - 0x80)) := by
      rw [IsCode]
      omega
    rw [String.utf8EncodeChar, toNat_ofNat valid, if_neg (by omega), if_neg (by omega), if_neg (by omega),
      ofNat_eq (b := b) (by omega), ofNat_eq (b := b₁) (by omega), ofNat_eq (b := b₂) (by omega),
      ofNat_eq (b := b₃) (by omega)]

theorem toNat_octet {n : Nat} (h : n < 256) : (UInt8.ofNat n).toNat = n := by
  rw [UInt8.toNat_ofNat', Nat.mod_eq_of_lt h]

theorem spells_encodeChar (c : Char) : Spells c.val.toNat (String.utf8EncodeChar c) := by
  have valid : IsCode c.val.toNat := c.valid
  rw [IsCode] at valid
  rw [String.utf8EncodeChar]
  generalize c.val.toNat = n at valid
  split_ifs with one two three
  · have first := toNat_octet (n := n) (by omega)
    have spells : Spells _ [UInt8.ofNat n] := .one (by omega)
    rwa [first] at spells
  · have first := toNat_octet (n := n / 64 % 32 + 192) (by omega)
    have second := toNat_octet (n := n % 64 + 128) (by omega)
    have spells : Spells _ [UInt8.ofNat (n / 64 % 32 + 192), UInt8.ofNat (n % 64 + 128)] :=
      .two (by omega) (by omega) ⟨by omega, by omega⟩
    rw [first, second] at spells
    convert spells using 1
    omega
  · have first := toNat_octet (n := n / 4096 % 16 + 224) (by omega)
    have second := toNat_octet (n := n / 64 % 64 + 128) (by omega)
    have third := toNat_octet (n := n % 64 + 128) (by omega)
    have spells : Spells _ [UInt8.ofNat (n / 4096 % 16 + 224), UInt8.ofNat (n / 64 % 64 + 128),
        UInt8.ofNat (n % 64 + 128)] :=
      .three (by omega) (by omega) (by rw [least_le_iff]; omega) (by rw [le_greatest_iff]; omega)
        ⟨by omega, by omega⟩
    rw [first, second, third] at spells
    convert spells using 1
    omega
  · have first := toNat_octet (n := n / 262144 % 8 + 240) (by omega)
    have second := toNat_octet (n := n / 4096 % 64 + 128) (by omega)
    have third := toNat_octet (n := n / 64 % 64 + 128) (by omega)
    have fourth := toNat_octet (n := n % 64 + 128) (by omega)
    have spells : Spells _ [UInt8.ofNat (n / 262144 % 8 + 240), UInt8.ofNat (n / 4096 % 64 + 128),
        UInt8.ofNat (n / 64 % 64 + 128), UInt8.ofNat (n % 64 + 128)] :=
      .four (by omega) (by omega) (by rw [least_le_iff]; omega) (by rw [le_greatest_iff]; omega)
        ⟨by omega, by omega⟩ ⟨by omega, by omega⟩
    rw [first, second, third, fourth] at spells
    convert spells using 1
    omega

theorem spells_of_follow (lead : lead? b = some (bits, bounds))
    (read : follow bits bounds bs = .ok (code, rest)) :
    ∃ octets, Spells code octets ∧ b :: bs = octets ++ rest := by
  have size : b.toNat < 256 := b.toNat_lt
  rw [lead?_eq] at lead
  split_ifs at lead with one _ two three four <;>
    simp only [Option.some.injEq, Prod.mk.injEq] at lead <;> obtain ⟨rfl, rfl⟩ := lead
  · obtain ⟨rfl, rfl⟩ := follow_nil_eq_ok.1 read
    exact ⟨[b], .one one, rfl⟩
  · obtain ⟨b₁, _, rfl, low₁, high₁, read⟩ := follow_cons_eq_ok.1 read
    obtain ⟨rfl, rfl⟩ := follow_nil_eq_ok.1 read
    exact ⟨[b, b₁], .two (by omega) two ⟨low₁, high₁⟩, rfl⟩
  · obtain ⟨b₁, _, rfl, low₁, high₁, read⟩ := follow_cons_eq_ok.1 read
    obtain ⟨b₂, _, rfl, low₂, high₂, read⟩ := follow_cons_eq_ok.1 read
    obtain ⟨rfl, rfl⟩ := follow_nil_eq_ok.1 read
    exact ⟨[b, b₁, b₂], .three (by omega) three low₁ high₁ ⟨low₂, high₂⟩, rfl⟩
  · obtain ⟨b₁, _, rfl, low₁, high₁, read⟩ := follow_cons_eq_ok.1 read
    obtain ⟨b₂, _, rfl, low₂, high₂, read⟩ := follow_cons_eq_ok.1 read
    obtain ⟨b₃, _, rfl, low₃, high₃, read⟩ := follow_cons_eq_ok.1 read
    obtain ⟨rfl, rfl⟩ := follow_nil_eq_ok.1 read
    exact ⟨[b, b₁, b₂, b₃], .four (by omega) four low₁ high₁ ⟨low₂, high₂⟩ ⟨low₃, high₃⟩, rfl⟩

theorem follow_of_spells {octets : List UInt8} (spells : Spells code octets) (rest : List UInt8) :
    ∃ b tail bits bounds, octets = b :: tail ∧ lead? b = some (bits, bounds) ∧
      follow bits bounds (tail ++ rest) = .ok (code, rest) := by
  cases spells with
  | @one b high => exact ⟨b, [], _, _, rfl, by rw [lead?_eq, if_pos high], rfl⟩
  | @two b b₁ low high tail =>
    refine ⟨b, _, _, _, rfl, by rw [lead?_eq, if_neg (by omega), if_neg (by omega), if_pos high], ?_⟩
    exact follow_cons_eq_ok.2 ⟨b₁, _, rfl, tail.1, tail.2, rfl⟩
  | @three b b₁ b₂ low high above below tail =>
    refine ⟨b, _, _, _, rfl, by
      rw [lead?_eq, if_neg (by omega), if_neg (by omega), if_neg (by omega), if_pos high], ?_⟩
    exact follow_cons_eq_ok.2 ⟨b₁, _, rfl, above, below,
      follow_cons_eq_ok.2 ⟨b₂, _, rfl, tail.1, tail.2, rfl⟩⟩
  | @four b b₁ b₂ b₃ low high above below tail tail' =>
    refine ⟨b, _, _, _, rfl, by
      rw [lead?_eq, if_neg (by omega), if_neg (by omega), if_neg (by omega), if_neg (by omega),
        if_pos high], ?_⟩
    exact follow_cons_eq_ok.2 ⟨b₁, _, rfl, above, below,
      follow_cons_eq_ok.2 ⟨b₂, _, rfl, tail.1, tail.2,
        follow_cons_eq_ok.2 ⟨b₃, _, rfl, tail'.1, tail'.2, rfl⟩⟩⟩

theorem zero_mem_of_spells {octets : List UInt8} (spells : Spells code octets) : 0 ∈ octets ↔ code = 0 := by
  cases spells with
  | one high => simp [← UInt8.toNat_inj, eq_comm]
  | two low high tail =>
    obtain ⟨low₁, high₁⟩ := tail
    simp only [List.mem_cons, List.not_mem_nil, or_false, ← UInt8.toNat_inj, UInt8.toNat_zero]
    omega
  | three low high above below tail =>
    obtain ⟨low₂, high₂⟩ := tail
    rw [least_le_iff] at above
    simp only [List.mem_cons, List.not_mem_nil, or_false, ← UInt8.toNat_inj, UInt8.toNat_zero]
    omega
  | four low high above below tail tail' =>
    obtain ⟨low₂, high₂⟩ := tail
    obtain ⟨low₃, high₃⟩ := tail'
    rw [least_le_iff] at above
    simp only [List.mem_cons, List.not_mem_nil, or_false, ← UInt8.toNat_inj, UInt8.toNat_zero]
    omega

theorem zero_mem_encodeChar {c : Char} : 0 ∈ String.utf8EncodeChar c ↔ c = '\x00' := by
  rw [zero_mem_of_spells (spells_encodeChar c), ← Char.toNat_inj]
  rfl

theorem encode_ofList (cs : List Char) : encode (String.ofList cs) = cs.flatMap String.utf8EncodeChar := by
  rw [encode, String.toUTF8, String.toByteArray_ofList, List.utf8Encode, List.data_toByteArray]

theorem decodeFrom_encoded (start : Nat) (cs read : List Char) :
    decodeFrom start (cs.flatMap String.utf8EncodeChar) read = .ok (String.ofList (read.reverse ++ cs)) := by
  induction cs generalizing start read with
  | nil => rw [List.flatMap_nil, decodeFrom, List.append_nil]
  | cons c cs ih =>
    obtain ⟨b, tail, bits, bounds, octets, lead, follows⟩ :=
      follow_of_spells (spells_encodeChar c) (cs.flatMap String.utf8EncodeChar)
    rw [List.flatMap_cons, octets, List.cons_append, decodeFrom, lead]
    dsimp only
    split
    · rename_i follows'
      cases follows.symm.trans follows'
      have same : Char.ofNat c.val.toNat = c := c.ofNat_toNat
      rw [ih, same, List.reverse_cons, List.append_assoc]
      rfl
    · rename_i follows'
      cases follows.symm.trans follows'

theorem encoded_of_decodeFrom {start : Nat} {read : List Char} {s : String}
    (h : decodeFrom start bs read = .ok s) :
    ∃ cs, bs = cs.flatMap String.utf8EncodeChar ∧ s = String.ofList (read.reverse ++ cs) := by
  fun_induction decodeFrom start bs read with
  | case1 start read =>
    cases h
    exact ⟨[], rfl, by rw [List.append_nil]⟩
  | case2 => cases h
  | case3 start read b bs bits bounds lead code rest follows ih =>
    obtain ⟨octets, spells, parts⟩ := spells_of_follow lead follows
    obtain ⟨cs, rfl, rfl⟩ := ih h
    refine ⟨Char.ofNat code :: cs, ?_, by simp⟩
    rw [parts, List.flatMap_cons, encodeChar_of_spells spells]
  | case4 => cases h

theorem decode_eq_ok {s : String} : decode bs = .ok s ↔ encode s = bs := by
  constructor
  · intro h
    obtain ⟨cs, rfl, rfl⟩ := encoded_of_decodeFrom h
    exact encode_ofList _
  · rintro rfl
    rw [← String.ofList_toList (s := s), encode_ofList, decode, decodeFrom_encoded]
    rfl

end StreetMap.Text.Utf8
