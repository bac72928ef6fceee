import StreetMap.Json
import StreetMap.Number.Numeral

/-!
Reading JSON.  A text is taken one token at a time by a machine whose stack holds the lists and
objects still open.  Besides the standard grammar the words `NaN`, `Infinity` and `-Infinity` stand for
numbers.  Of two members of one name the later value wins.
-/

namespace StreetMap.Json

inductive Complaint
  | value | name | colon | comma | extraData | unterminated | control | escape | unicodeEscape
  | byteOrderMark
  deriving DecidableEq

/-- Why a text is not read.  A malformed one goes wrong where so many characters are left; what would be
too deep is a list or an object. -/
inductive Fault
  | malformed (c : Complaint) (left : Nat) | tooDeep (inner : Shape) | number (e : NumeralError)
  deriving DecidableEq

def Complaint.text : Complaint → String
  | .value => "Expecting value"
  | .name => "Expecting property name enclosed in double quotes"
  | .colon => "Expecting ':' delimiter"
  | .comma => "Expecting ',' delimiter"
  | .extraData => "Extra data"
  | .unterminated => "Unterminated string starting at"
  | .control => "Invalid control character at"
  | .escape => "Invalid \\escape"
  | .unicodeEscape => "Invalid \\uXXXX escape"
  | .byteOrderMark => "Unexpected UTF-8 BOM (decode using utf-8-sig)"

/-- A complaint with its place in the text, by line and column and by the characters before it. -/
def Complaint.message (text : List Char) (left : Nat) (c : Complaint) : String :=
  let before := text.take (text.length - left)
  let column := (before.reverse.takeWhile (· ≠ '\n')).length + 1
  c.text ++ ": line " ++ toString (before.count '\n' + 1) ++ " column " ++ toString column ++ " (char "
    ++ toString before.length ++ ")"

inductive Token
  | beginList | endList | beginObject | endObject | comma | colon
  | name (s : String) | scalar (v : Except NumeralError Json) | broken (f : Fault) | stray

def simpleEscape? : Char → Option Char
  | '"' => some '"' | '\\' => some '\\' | '/' => some '/' | 'b' => some '\x08' | 'f' => some '\x0c'
  | 'n' => some '\n' | 'r' => some '\r' | 't' => some '\t' | _ => none

def hexValue? (c : Char) : Option Nat :=
  if c.isDigit then some (c.toNat - 48)
  else if 'a' ≤ c ∧ c ≤ 'f' then some (c.toNat - 87)
  else if 'A' ≤ c ∧ c ≤ 'F' then some (c.toNat - 55)
  else none

def unit? (a b c d : Char) : Option Nat := do
  return ((← hexValue? a) * 16 + (← hexValue? b)) * 256 + ((← hexValue? c) * 16 + (← hexValue? d))

def isHighSurrogate (u : Nat) : Bool := 0xd800 ≤ u && u < 0xdc00

def isLowSurrogate (u : Nat) : Bool := 0xdc00 ≤ u && u < 0xe000

def unitChar (u : Nat) : Char :=
  if isHighSurrogate u || isLowSurrogate u then '\ufffd' else Char.ofNat u

def scanUnit? : List Char → Option (Nat × List Char)
  | a :: b :: c :: d :: e :: cs => (unit? a b c d).map fun u => (u, e :: cs)
  | _ => none

theorem scanUnit?_length {cs rest : List Char} {u : Nat} (h : scanUnit? cs = some (u, rest)) :
    rest.length + 4 = cs.length := by
  unfold scanUnit? at h
  split at h
  · obtain ⟨v, -, heq⟩ := Option.map_eq_some_iff.1 h
    simp only [Prod.mk.injEq] at heq
    simp [← heq.2]
  · simp at h

def scanSecond? (u : Nat) (cs : List Char) : Option (Nat × List Char) :=
  match cs with
  | '\\' :: 'u' :: cs =>
    if isHighSurrogate u then (scanUnit? cs).filter fun (l, _) => isLowSurrogate l else none
  | _ => none

theorem scanSecond?_length {cs rest : List Char} {u l : Nat} (h : scanSecond? u cs = some (l, rest)) :
    rest.length < cs.length := by
  unfold scanSecond? at h
  split at h
  · split at h
    · have := scanUnit?_length (Option.filter_eq_some_iff.1 h).1
      simp only [List.length_cons]
      omega
    · simp at h
  · simp at h

/-- The text up to the closing quote, after the characters read before, in reverse.  With the opening
quote there were `opened` characters left. -/
def scanText (opened : Nat) : List Char → List Char → Except Fault (List Char × List Char)
  | [], _ | ['\\'], _ => .error (.malformed .unterminated opened)
  | '"' :: cs, read => .ok (read.reverse, cs)
  | '\\' :: 'u' :: cs, read =>
    match _ : scanUnit? cs with
    | none => .error (.malformed .unicodeEscape (cs.length + 1))
    | some (u, rest) =>
      match _ : scanSecond? u rest with
      | some (l, rest) =>
        scanText opened rest (Char.ofNat (0x10000 + (u - 0xd800) * 0x400 + (l - 0xdc00)) :: read)
      | none => scanText opened rest (unitChar u :: read)
  | '\\' :: e :: cs, read =>
    match simpleEscape? e with
    | some c => scanText opened cs (c :: read)
    | none => .error (.malformed .escape (cs.length + 2))
  | c :: cs, read =>
    if c.toNat < 0x20 then .error (.malformed .control (cs.length + 1)) else scanText opened cs (c :: read)
termination_by cs => cs.length
decreasing_by
  all_goals simp only [List.length_cons]
  · have := scanUnit?_length ‹_›
    have := scanSecond?_length ‹_›
    omega
  · have := scanUnit?_length ‹_›
    omega
  all_goals omega

theorem scanText_length {opened : Nat} {cs read s rest : List Char}
    (h : scanText opened cs read = .ok (s, rest)) : rest.length < cs.length := by
  fun_induction scanText opened cs read with
  | case1 => simp at h
  | case2 => simp at h
  | case3 => simp_all
  | case4 => simp at h
  | case5 cs read u rest unit l rest' second ih =>
    have := scanUnit?_length unit
    have := scanSecond?_length second
    have := ih h
    simp only [List.length_cons]
    omega
  | case6 cs read u rest unit second ih =>
    have := scanUnit?_length unit
    have := ih h
    simp only [List.length_cons]
    omega
  | case7 e cs read _ c escape ih =>
    have := ih h
    simp only [List.length_cons]
    omega
  | case8 => simp at h
  | case9 => simp at h
  | case10 c cs read _ _ _ _ _ ih =>
    have := ih h
    simp only [List.length_cons]
    omega

def scanDigits? (cs : List Char) : Option (List Char × List Char) :=
  match cs.takeWhile Char.isDigit with
  | [] => none
  | ds => some (ds, cs.dropWhile Char.isDigit)

theorem length_dropWhile_le {α : Type} (p : α → Bool) (xs : List α) :
    (xs.dropWhile p).length ≤ xs.length := by
  induction xs with
  | nil => simp
  | cons x xs ih =>
    rw [List.dropWhile_cons]
    split
    · exact Nat.le_succ_of_le ih
    · exact Nat.le_refl _

theorem scanDigits?_length {cs ds rest : List Char} (h : scanDigits? cs = some (ds, rest)) :
    rest.length < cs.length := by
  unfold scanDigits? at h
  cases cs with
  | nil => simp at h
  | cons c cs =>
    by_cases hc : c.isDigit = true
    · simp only [List.takeWhile_cons, hc, if_true, Option.some.injEq, Prod.mk.injEq,
        List.dropWhile_cons] at h
      rw [← h.2]
      exact Nat.lt_succ_of_le (length_dropWhile_le _ _)
    · simp [hc] at h

def digitValues (ds : List Char) : List Nat := ds.map (·.toNat - 48)

def scanFraction (cs : List Char) : List Char × List Char :=
  match cs with
  | '.' :: rest => (scanDigits? rest).getD ([], cs)
  | _ => ([], cs)

def scanExponent (cs : List Char) : Option Int × List Char :=
  match cs with
  | c :: rest =>
    if c = 'e' || c = 'E' then
      let (negative, body) := Numeral.readSign rest
      match scanDigits? body with
      | some (ds, rest) => (some (Numeral.applySign negative (Numeral.ofDigits (digitValues ds))), rest)
      | none => (none, cs)
    else (none, cs)
  | [] => (none, cs)

theorem readSign_length (cs : List Char) : (Numeral.readSign cs).2.length ≤ cs.length := by
  unfold Numeral.readSign
  split <;> simp

theorem scanFraction_length (cs : List Char) : (scanFraction cs).2.length ≤ cs.length := by
  unfold scanFraction
  split
  · rename_i rest
    cases h : scanDigits? rest with
    | none => simp
    | some r =>
      obtain ⟨ds, after⟩ := r
      have := scanDigits?_length h
      simp only [Option.getD_some, List.length_cons]
      omega
  · simp

theorem scanExponent_length (cs : List Char) : (scanExponent cs).2.length ≤ cs.length := by
  unfold scanExponent
  split
  · split
    · rename_i c rest _
      have hs := readSign_length rest
      simp only []
      split
      · rename_i h
        have := scanDigits?_length h
        simp only [List.length_cons]
        omega
      · simp
    · simp
  · simp

def scanNumber? [Limits] (negative : Bool) (cs : List Char) : Option (Except NumeralError Json × List Char) :=
  match (match cs with | '0' :: rest => some (['0'], rest) | cs => scanDigits? cs) with
  | none => none
  | some (whole, rest) =>
    let (fraction, rest) := scanFraction rest
    let (exponent, rest) := scanExponent rest
    if fraction.isEmpty && exponent.isNone then
      if !Numeral.permits whole.length then some (.error (.tooManyDigits whole.length), rest)
      else some (.ok (.int (Numeral.applySign negative (Numeral.ofDigits (digitValues whole)))), rest)
    else
      let x := Numeral.scale (Numeral.ofDigits (digitValues (whole ++ fraction)))
        (exponent.getD 0 - fraction.length)
      some (.ok (.float (if negative then -x else x)), rest)

theorem scanNumber?_length [Limits] {negative : Bool} {cs rest : List Char} {v : Except NumeralError Json}
    (h : scanNumber? negative cs = some (v, rest)) : rest.length < cs.length := by
  unfold scanNumber? at h
  split at h
  · simp at h
  · rename_i whole r hw
    have hr : r.length < cs.length := by
      split at hw
      · simp only [Option.some.injEq, Prod.mk.injEq] at hw
        simp [← hw.2]
      · exact scanDigits?_length hw
    have hf := scanFraction_length r
    have he := scanExponent_length (scanFraction r).2
    have : rest = (scanExponent (scanFraction r).2).2 := by
      simp only [] at h
      split at h
      · split at h <;> simp_all
      · simp_all
    rw [this]
    omega

def afterWord? : List Char → List Char → Option (List Char)
  | [], cs => some cs
  | _ :: _, [] => none
  | w :: ws, c :: cs => if w = c then afterWord? ws cs else none

theorem afterWord?_length {ws cs rest : List Char} (h : afterWord? ws cs = some rest) :
    rest.length + ws.length = cs.length := by
  induction ws generalizing cs with
  | nil => simp only [afterWord?, Option.some.injEq] at h; simp [h]
  | cons w ws ih =>
    cases cs with
    | nil => simp [afterWord?] at h
    | cons c cs =>
      simp only [afterWord?] at h
      split at h
      · have := ih h
        simp only [List.length_cons]
        omega
      · simp at h

def words : List (List Char × Json) :=
  [("null".toList, .null), ("true".toList, .bool true), ("false".toList, .bool false),
    ("NaN".toList, .float Numeral.nan), ("Infinity".toList, .float Numeral.infinity),
    ("-Infinity".toList, .float (-Numeral.infinity))]

def scanWord? (cs : List Char) : Option (Json × List Char) :=
  words.findSome? fun (w, v) => (afterWord? w cs).map fun rest => (v, rest)

theorem scanWord?_length {cs rest : List Char} {v : Json} (h : scanWord? cs = some (v, rest)) :
    rest.length < cs.length := by
  obtain ⟨⟨w, x⟩, hw, hx⟩ := List.exists_of_findSome?_eq_some h
  obtain ⟨r, hr, heq⟩ := Option.map_eq_some_iff.1 hx
  simp only [Prod.mk.injEq] at heq
  obtain ⟨rfl, rfl⟩ := heq
  have := afterWord?_length hr
  have hpos : 0 < w.length := by
    simp only [words, List.mem_cons, Prod.mk.injEq, List.not_mem_nil, or_false] at hw
    rcases hw with h | h | h | h | h | h <;> (rw [h.1]; decide)
  omega

def isSpace (c : Char) : Bool := c = ' ' || c = '\t' || c = '\n' || c = '\r'

def scanToken [Limits] (c : Char) (cs : List Char) : Token × List Char :=
  match c with
  | '[' => (.beginList, cs)
  | ']' => (.endList, cs)
  | '{' => (.beginObject, cs)
  | '}' => (.endObject, cs)
  | ',' => (.comma, cs)
  | ':' => (.colon, cs)
  | '"' =>
    match scanText (cs.length + 1) cs [] with
    | .ok (s, rest) => (.name (String.ofList s), rest)
    | .error f => (.broken f, cs)
  | c =>
    match scanWord? (c :: cs) with
    | some (v, rest) => (.scalar (.ok v), rest)
    | none =>
      match (if c = '-' then scanNumber? true cs else scanNumber? false (c :: cs)) with
      | some (v, rest) => (.scalar v, rest)
      | none => (.stray, cs)

theorem scanToken_length [Limits] (c : Char) (cs : List Char) :
    (scanToken c cs).2.length < (c :: cs).length := by
  have short {rest : List Char} (h : rest.length ≤ cs.length) : rest.length < (c :: cs).length :=
    Nat.lt_succ_of_le h
  unfold scanToken
  split <;> try exact short (Nat.le_refl _)
  · split
    · rename_i h
      exact short (Nat.le_of_lt (scanText_length h))
    · exact short (Nat.le_refl _)
  · split
    · rename_i h
      exact scanWord?_length h
    · split
      · rename_i h
        split at h
        · exact short (Nat.le_of_lt (scanNumber?_length h))
        · exact scanNumber?_length h
      · exact short (Nat.le_refl _)

/-- A list or object still open: what it holds so far, last first for a list, and for an object whose
next value is under way the name of that. -/
inductive Frame
  | list (items : List Json) | object (members : Table String Json)
  | member (members : Table String Json) (key : String)

inductive Expected
  | value | valueOrEnd | keyOrEnd | key | colon (key : String) | commaOrEnd | nothing (v : Json)

structure Machine where
  frames : List Frame
  expected : Expected

def Machine.start : Machine := ⟨[], .value⟩

def Machine.give (frames : List Frame) (v : Json) : Machine :=
  match frames with
  | [] => ⟨[], .nothing v⟩
  | .list items :: fs => ⟨.list (v :: items) :: fs, .commaOrEnd⟩
  | .member ms k :: fs => ⟨.object (ms.put k v) :: fs, .commaOrEnd⟩
  | .object ms :: fs => ⟨.object ms :: fs, .commaOrEnd⟩

def Machine.openFrame (limit : Nat) (frames : List Frame) (f : Frame) (e : Expected) (inner : Shape) :
    Except Fault Machine :=
  if frames.length ≥ limit then .error (.tooDeep inner) else .ok ⟨f :: frames, e⟩

def Expected.complaint : Expected → Complaint
  | .value | .valueOrEnd => .value
  | .keyOrEnd | .key => .name
  | .colon _ => .colon
  | .commaOrEnd => .comma
  | .nothing _ => .extraData

def Machine.startValue (limit left : Nat) (frames : List Frame) : Token → Except Fault Machine
  | .scalar (.ok v) => .ok (give frames v)
  | .scalar (.error e) => .error (.number e)
  | .name s => .ok (give frames (.text s))
  | .beginList => openFrame limit frames (.list []) .valueOrEnd .list
  | .beginObject => openFrame limit frames (.object []) .keyOrEnd .object
  | .broken f => .error f
  | _ => .error (.malformed .value left)

def Machine.startMember (left : Nat) (frames : List Frame) : Token → Except Fault Machine
  | .name k => .ok ⟨frames, .colon k⟩
  | .broken f => .error f
  | _ => .error (.malformed .name left)

def Machine.step (limit left : Nat) (m : Machine) (t : Token) : Except Fault Machine :=
  match m.expected, m.frames, t with
  | .value, fs, t => startValue limit left fs t
  | .valueOrEnd, .list _ :: fs, .endList => .ok (give fs (.list []))
  | .valueOrEnd, fs, t => startValue limit left fs t
  | .keyOrEnd, .object _ :: fs, .endObject => .ok (give fs (.object []))
  | .keyOrEnd, fs, t => startMember left fs t
  | .key, fs, t => startMember left fs t
  | .colon k, .object ms :: fs, .colon => .ok ⟨.member ms k :: fs, .value⟩
  | .commaOrEnd, .list items :: fs, .comma => .ok ⟨.list items :: fs, .value⟩
  | .commaOrEnd, .list items :: fs, .endList => .ok (give fs (.list items.reverse))
  | .commaOrEnd, .object ms :: fs, .comma => .ok ⟨.object ms :: fs, .key⟩
  | .commaOrEnd, .object ms :: fs, .endObject => .ok (give fs (.object ms))
  | e, _, _ => .error (.malformed e.complaint left)

def Machine.result : Machine → Except Fault Json
  | ⟨_, .nothing v⟩ => .ok v
  | ⟨_, e⟩ => .error (.malformed e.complaint 0)

def Machine.run [Limits] (limit : Nat) (m : Machine) (cs : List Char) : Except Fault Json :=
  match cs with
  | [] => m.result
  | c :: cs =>
    if isSpace c then m.run limit cs
    else
      match m.step limit (cs.length + 1) (scanToken c cs).1 with
      | .ok m => m.run limit (scanToken c cs).2
      | .error e => .error e
termination_by cs.length
decreasing_by
  · simp
  · exact scanToken_length c cs

def byteOrderMark : Char := '\ufeff'

/-- The value a text stands for, with at most `limit` lists and objects inside one another. -/
def read [Limits] (limit : Nat) (s : String) : Except Fault Json :=
  if s.toList.head? = some byteOrderMark then .error (.malformed .byteOrderMark s.toList.length)
  else Machine.start.run limit s.toList

end StreetMap.Json
