import StreetMap.Text.Quoted

/-!
Texts that may hold halves of surrogate pairs by themselves, as the paths of files may.
-/

namespace StreetMap

/-- A character, or the half of a surrogate pair with a number from U+D800 on. -/
inductive RawChar
  | char (c : Char) | half (n : Fin 0x800)
  deriving DecidableEq

def RawChar.isHalf : RawChar → Bool
  | .char _ => false
  | .half _ => true

abbrev RawText := List RawChar

namespace RawText

def ofString (s : String) : RawText := s.toList.map .char

instance : Coe String RawText := ⟨ofString⟩

def chars (t : RawText) : List Char :=
  t.filterMap fun
    | .char c => some c
    | .half _ => none

def shown (t : RawText) : String :=
  String.ofList (t.map fun
    | .char c => c
    | .half _ => '\ufffd')

def escapeHalf (n : Fin 0x800) : List Char := '\\' :: 'u' :: Text.hexDigits 4 (0xd800 + n)

def quoted (t : RawText) : String :=
  let q := Text.quoteMark t.chars
  String.ofList (q :: t.flatMap (fun
    | .char c => Text.escape q c
    | .half n => escapeHalf n) ++ [q])

end RawText

end StreetMap
