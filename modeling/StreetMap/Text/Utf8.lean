/-!
Octets as text.  The first octet of a character says how many more it takes and which values each of
those may have; so no character has two forms, and halves of surrogate pairs have none.
-/

namespace StreetMap.Text.Utf8

inductive Reason
  | start | continuation | tooShort
  deriving DecidableEq

/-- Octets that are no text: those from `start` up to `stop`, the first of them given. -/
structure Malformed where
  octet : UInt8
  start : Nat
  stop : Nat
  reason : Reason
  deriving DecidableEq

/-- What the first octet adds to the number of a character, and the bounds of each octet to follow. -/
def lead? (b : UInt8) : Option (Nat × List (UInt8 × UInt8)) :=
  let n := b.toNat
  if n < 0x80 then some (n, [])
  else if n < 0xc2 then none
  else if n < 0xe0 then some (n - 0xc0, [(0x80, 0xbf)])
  else if n = 0xe0 then some (0, [(0xa0, 0xbf), (0x80, 0xbf)])
  else if n = 0xed then some (0xd, [(0x80, 0x9f), (0x80, 0xbf)])
  else if n < 0xf0 then some (n - 0xe0, [(0x80, 0xbf), (0x80, 0xbf)])
  else if n = 0xf0 then some (0, [(0x90, 0xbf), (0x80, 0xbf), (0x80, 0xbf)])
  else if n < 0xf4 then some (n - 0xf0, [(0x80, 0xbf), (0x80, 0xbf), (0x80, 0xbf)])
  else if n = 0xf4 then some (4, [(0x80, 0x8f), (0x80, 0xbf), (0x80, 0xbf)])
  else none

/-- The octets that follow a first one, six bits each; of those that may not, how many could stay. -/
def follow (code : Nat) : List (UInt8 × UInt8) → List UInt8 → Except (Nat × Reason) (Nat × List UInt8)
  | [], bs => .ok (code, bs)
  | _ :: _, [] => .error (0, .tooShort)
  | (lo, hi) :: bounds, b :: bs =>
    if lo ≤ b && b ≤ hi then
      match follow (code * 64 + (b.toNat - 0x80)) bounds bs with
      | .ok r => .ok r
      | .error (n, reason) => .error (n + 1, reason)
    else .error (0, .continuation)

theorem follow_length {code : Nat} {bounds : List (UInt8 × UInt8)} {bs rest : List UInt8} {n : Nat}
    (h : follow code bounds bs = .ok (n, rest)) : rest.length ≤ bs.length := by
  induction bounds generalizing code bs with
  | nil =>
    simp only [follow, Except.ok.injEq, Prod.mk.injEq] at h
    simp [h.2]
  | cons r bounds ih =>
    cases bs with
    | nil => simp [follow] at h
    | cons b bs =>
      simp only [follow] at h
      split at h
      · split at h
        · rename_i h'
          cases h
          exact Nat.le_succ_of_le (ih h')
        · simp at h
      · simp at h

def decodeFrom (start : Nat) (bs : List UInt8) (read : List Char) : Except Malformed String :=
  match bs with
  | [] => .ok (String.ofList read.reverse)
  | b :: bs =>
    match lead? b with
    | none => .error ⟨b, start, start + 1, .start⟩
    | some (bits, bounds) =>
      match h : follow bits bounds bs with
      | .ok (code, rest) => decodeFrom (start + 1 + bounds.length) rest (Char.ofNat code :: read)
      | .error (n, reason) => .error ⟨b, start, start + 1 + n, reason⟩
termination_by bs.length
decreasing_by exact Nat.lt_succ_of_le (follow_length h)

def decode (bs : List UInt8) : Except Malformed String := decodeFrom 0 bs []

def encode (s : String) : List UInt8 := s.toUTF8.data.toList

end StreetMap.Text.Utf8
