/-!
Cutting a text at a separator.  The pieces, joined by the separator, give the text back; a text
without the separator is its own only piece.
-/

namespace StreetMap.Text

/-- The pieces between the occurrences of a separator, found from the left without overlap.  The
number counts the characters of a separator still to be passed over. -/
def piecesFrom (sep : List Char) : Nat → List Char → List (List Char)
  | _, [] => [[]]
  | k + 1, _ :: cs => piecesFrom sep k cs
  | 0, c :: cs =>
    if sep.isPrefixOf (c :: cs) then [] :: piecesFrom sep (sep.length - 1) cs
    else (piecesFrom sep 0 cs).modifyHead (c :: ·)

def pieces (sep : List Char) (cs : List Char) : List (List Char) := piecesFrom sep 0 cs

theorem piecesFrom_ne_nil (sep : List Char) (k : Nat) (cs : List Char) : piecesFrom sep k cs ≠ [] := by
  induction cs generalizing k with
  | nil => cases k <;> simp [piecesFrom]
  | cons c cs ih =>
    cases k with
    | succ k => exact ih k
    | zero =>
      simp only [piecesFrom]
      split
      · simp
      · have := ih 0
        cases h : piecesFrom sep 0 cs with
        | nil => exact absurd h this
        | cons p ps => simp

def split (sep : String) (s : String) : List String :=
  (pieces sep.toList s.toList).map String.ofList

def cutAtFirst? (x : Char) : List Char → Option (List Char × List Char)
  | [] => none
  | c :: cs =>
    if c = x then some ([], cs)
    else (cutAtFirst? x cs).map fun (before, after) => (c :: before, after)

def cutAtLast? (x : Char) : List Char → Option (List Char × List Char)
  | [] => none
  | c :: cs =>
    match cutAtLast? x cs with
    | some (before, after) => some (c :: before, after)
    | none => if c = x then some ([], cs) else none

theorem cutAtFirst?_eq_some {x : Char} {cs before after : List Char}
    (h : cutAtFirst? x cs = some (before, after)) : cs = before ++ x :: after ∧ x ∉ before := by
  induction cs generalizing before with
  | nil => simp [cutAtFirst?] at h
  | cons c cs ih =>
    simp only [cutAtFirst?] at h
    split at h
    · rename_i hc
      simp only [Option.some.injEq, Prod.mk.injEq] at h
      obtain ⟨rfl, rfl⟩ := h
      simp [hc]
    · rename_i hc
      obtain ⟨⟨b, a⟩, hb, heq⟩ := Option.map_eq_some_iff.1 h
      simp only [Prod.mk.injEq] at heq
      obtain ⟨rfl, rfl⟩ := heq
      obtain ⟨rfl, hn⟩ := ih hb
      exact ⟨rfl, by simp [hn, Ne.symm hc]⟩

theorem cutAtLast?_eq_some {x : Char} {cs before after : List Char}
    (h : cutAtLast? x cs = some (before, after)) : cs = before ++ x :: after := by
  induction cs generalizing before with
  | nil => simp [cutAtLast?] at h
  | cons c cs ih =>
    simp only [cutAtLast?] at h
    split at h
    · rename_i b a hb
      simp only [Option.some.injEq, Prod.mk.injEq] at h
      obtain ⟨rfl, rfl⟩ := h
      simp [ih hb]
    · split at h
      · rename_i hc
        simp only [Option.some.injEq, Prod.mk.injEq] at h
        obtain ⟨rfl, rfl⟩ := h
        simp [hc]
      · simp at h

def occursIn (part : List Char) : List Char → Bool
  | [] => part.isEmpty
  | c :: cs => part.isPrefixOf (c :: cs) || occursIn part cs

def dropLeading (x : Char) : List Char → List Char
  | [] => []
  | c :: cs => if c = x then cs else c :: cs

end StreetMap.Text
