import StreetMap.Load
import StreetMap.Proofs.Computation
import StreetMap.Proofs.Json.Limits
import StreetMap.Proofs.Text.Pieces
import StreetMap.Proofs.Text.Utf8
import StreetMap.Standard

/-!
Reading a source.  It ends with an object or with a failure that names the source, unless the path cannot be
one of a file, the file holds no text, or the text is beyond the limits of reading; those failures say nothing
of the source.
-/

namespace StreetMap.Load

open Text (Utf8.encode Utf8.decode Utf8.decode_eq_ok)

section Paths

variable {path : RawText} {octets : List UInt8}

theorem octetsFrom_char (place : Nat) (c : Char) (t : RawText) :
    octetsFrom place (.char c :: t) = (octetsFrom (place + 1) t).map (String.utf8EncodeChar c ++ ·) := by
  rw [octetsFrom]
  cases octetsFrom (place + 1) t <;> rfl

theorem octetsFrom_octet (place : Nat) {n : Fin 0x800} (octet : IsOctet n) (t : RawText) :
    octetsFrom place (.half n :: t) = (octetsFrom (place + 1) t).map (UInt8.ofNat (n - 0x400) :: ·) := by
  rw [octetsFrom, if_pos octet]
  cases octetsFrom (place + 1) t <;> rfl

theorem octetsFrom_of_half (place : Nat) {n : Fin 0x800} (half : .half n ∈ path) (other : ¬ IsOctet n) :
    ∃ m start stop, .half m ∈ path ∧ ¬ IsOctet m ∧ octetsFrom place path = .error (.noOctets m start stop) := by
  induction path generalizing place with
  | nil => cases half
  | cons r t ih =>
    cases r with
    | char c =>
      obtain ⟨m, start, stop, inside, odd, failed⟩ := ih (place + 1) (by simpa using half)
      refine ⟨m, start, stop, List.mem_cons_of_mem _ inside, odd, ?_⟩
      rw [octetsFrom_char, failed]
      rfl
    | half k =>
      by_cases octet : IsOctet k
      · have later : .half n ∈ t := by
          refine (List.mem_cons.1 half).resolve_left fun same => other ?_
          cases same
          exact octet
        obtain ⟨m, start, stop, inside, odd, failed⟩ := ih (place + 1) later
        refine ⟨m, start, stop, List.mem_cons_of_mem _ inside, odd, ?_⟩
        rw [octetsFrom_octet place octet, failed]
        rfl
      · exact ⟨k, _, _, List.mem_cons_self, octet, by rw [octetsFrom, if_neg octet]⟩

theorem exists_octets (octets : ∀ n, .half n ∈ path → IsOctet n) (place : Nat) :
    ∃ os, octetsFrom place path = .ok os := by
  induction path generalizing place with
  | nil => exact ⟨[], rfl⟩
  | cons r t ih =>
    obtain ⟨os, rest⟩ := ih (fun n hn => octets n (List.mem_cons_of_mem _ hn)) (place + 1)
    cases r with
    | char c => exact ⟨_, by rw [octetsFrom_char, rest]; rfl⟩
    | half n => exact ⟨_, by rw [octetsFrom_octet place (octets n List.mem_cons_self), rest]; rfl⟩

theorem zero_mem_octets {place : Nat} (h : octetsFrom place path = .ok octets) :
    0 ∈ octets ↔ .char '\x00' ∈ path := by
  induction path generalizing place octets with
  | nil =>
    cases h
    simp
  | cons r t ih =>
    cases r with
    | char c =>
      rw [octetsFrom_char] at h
      obtain ⟨os, rest, rfl⟩ := map_eq_ok.1 h
      simp [ih rest, Text.Utf8.zero_mem_encodeChar, eq_comm]
    | half n =>
      by_cases octet : IsOctet n
      · rw [octetsFrom_octet place octet] at h
        obtain ⟨os, rest, rfl⟩ := map_eq_ok.1 h
        have nonzero : 0 ≠ UInt8.ofNat (n - 0x400) := by
          obtain ⟨low, high⟩ := octet
          rw [ne_eq, ← UInt8.toNat_inj, Text.Utf8.toNat_octet (by omega)]
          simp only [UInt8.toNat_zero]
          omega
        simp [ih rest, nonzero]
      · rw [octetsFrom, if_neg octet] at h
        cases h

end Paths

section Sources

variable (disk : Disk) (path : RawText)

/-- The octets of a path that may be one of a file. -/
def Reaches (octets : List UInt8) : Prop := octetsFrom 0 path = .ok octets ∧ .char '\x00' ∉ path

/-- The file that a path leads to holds a text, whose lines end with line feeds as it is read. -/
def Holds (text : String) : Prop :=
  ∃ octets written, Reaches path octets ∧ disk octets = .ok (Utf8.encode written) ∧
    text = String.ofList (unifyLines written.toList)

variable [Limits]

/-- Failures that name their source: there is no such file, or no object in it. -/
inductive Named : SourceError → Prop
  | unavailable {octets : List UInt8} {e : FileError} (reaches : Reaches path octets)
    (failed : disk octets = .error e) : Named (.unavailable e)
  | malformed {text : String} {c : Json.Complaint} {left : Nat} (holds : Holds disk path text)
    (failed : Json.read Limits.depth text = .error (.malformed c left)) :
    Named (.malformed (c.message text.toList left))
  | notAnObject {text : String} {v : Json} (holds : Holds disk path text)
    (read : Json.read Limits.depth text = .ok v) (other : v.shape ≠ .object) : Named .notAnObject

/-- Failures that do not: those of paths that cannot be, of octets that are no text, and of the limits. -/
inductive Unnamed : SourceError → Prop
  | noOctets {half : Fin 0x800} {start stop : Nat} (inside : .half half ∈ path) (other : ¬ IsOctet half) :
    Unnamed (.noOctets half start stop)
  | nulInPath (inside : .char '\x00' ∈ path) : Unnamed .nulInPath
  | notUtf8 {octets content : List UInt8} {e : Text.Utf8.Malformed} (reaches : Reaches path octets)
    (read : disk octets = .ok content) (foreign : ∀ text, Utf8.encode text ≠ content) : Unnamed (.notUtf8 e)
  | tooDeep {text : String} {inner : Json.Shape} (holds : Holds disk path text)
    (deep : Limits.depth < Json.openings text.toList) : Unnamed (.tooDeep inner)
  | tooLong {text : String} {digits : List Char} (holds : Holds disk path text)
    (part : digits <:+: text.toList) (whole : ∀ c ∈ digits, c.isDigit = true)
    (long : Numeral.permits digits.length = false) :
    Unnamed (.number (.tooManyDigits digits.length))

end Sources

variable {disk : Disk} {path : RawText} {text : String} {e : SourceError}

theorem Named.message [Limits] (h : Named disk path e) : path <:+: e.message path := by
  cases h with
  | unavailable => exact ⟨"Failed to read OSM extract ", _, rfl⟩
  | malformed => exact ⟨"Failed to read OSM extract ", _, rfl⟩
  | notAnObject => exact ⟨"OSM extract ", " is not a JSON object", rfl⟩

section Texts

theorem readText_of_half (disk : Disk) {half : Fin 0x800} (inside : .half half ∈ path) (other : ¬ IsOctet half) :
    ∃ first start stop, .half first ∈ path ∧ ¬ IsOctet first ∧
      readText disk path = .error (.noOctets first start stop) := by
  obtain ⟨first, start, stop, member, odd, failed⟩ := octetsFrom_of_half 0 inside other
  exact ⟨first, start, stop, member, odd, by rw [readText, failed]; rfl⟩

theorem readText_of_nul (nul : .char '\x00' ∈ path) (octets : ∀ n, .half n ∈ path → IsOctet n) :
    readText disk path = .error .nulInPath := by
  obtain ⟨os, hos⟩ := exists_octets octets 0
  rw [readText, hos]
  exact if_pos (List.contains_iff_mem.2 ((zero_mem_octets hos).2 nul))

theorem readText_of_reaches {octets : List UInt8} (reaches : Reaches path octets) :
    readText disk path = match disk octets with
      | .error e => .error (.unavailable e)
      | .ok content =>
        match Utf8.decode content with
        | .error e => .error (.notUtf8 e)
        | .ok text => .ok (String.ofList (unifyLines text.toList)) := by
  rw [readText, reaches.1]
  refine if_neg fun nul => reaches.2 ?_
  exact (zero_mem_octets reaches.1).1 (List.contains_iff_mem.1 nul)

theorem readText_of_holds (holds : Holds disk path text) : readText disk path = .ok text := by
  obtain ⟨octets, written, reaches, content, rfl⟩ := holds
  rw [readText_of_reaches reaches, content]
  dsimp only
  rw [Utf8.decode_eq_ok.2 rfl]

theorem readText_of_foreign {octets content : List UInt8} (reaches : Reaches path octets)
    (read : disk octets = .ok content) (foreign : ∀ text, Utf8.encode text ≠ content) :
    ∃ e, readText disk path = .error (.notUtf8 e) := by
  rw [readText_of_reaches reaches, read]
  dsimp only
  cases decoded : Utf8.decode content with
  | ok text => exact absurd (Utf8.decode_eq_ok.1 decoded) (foreign text)
  | error e => exact ⟨e, rfl⟩

variable [Limits]

theorem readText_cases (disk : Disk) (path : RawText) :
    (∃ text, Holds disk path text) ∨
      ∃ e, readText disk path = .error e ∧ (Named disk path e ∨ Unnamed disk path e) := by
  by_cases octets : ∀ n, .half n ∈ path → IsOctet n
  · by_cases nul : .char '\x00' ∈ path
    · exact .inr ⟨_, readText_of_nul nul octets, .inr (.nulInPath nul)⟩
    · obtain ⟨os, hos⟩ := exists_octets octets 0
      have reaches : Reaches path os := ⟨hos, nul⟩
      cases read : disk os with
      | error e =>
        refine .inr ⟨.unavailable e, ?_, .inl (.unavailable reaches read)⟩
        rw [readText_of_reaches reaches, read]
      | ok content =>
        by_cases text : ∃ text, Utf8.encode text = content
        · obtain ⟨text, rfl⟩ := text
          exact .inl ⟨_, os, text, reaches, read, rfl⟩
        · have foreign : ∀ text, Utf8.encode text ≠ content := fun s same => text ⟨s, same⟩
          obtain ⟨e, failed⟩ := readText_of_foreign reaches read foreign
          exact .inr ⟨_, failed, .inr (.notUtf8 reaches read foreign)⟩
  · simp only [not_forall] at octets
    obtain ⟨half, inside, other⟩ := octets
    obtain ⟨first, start, stop, inside, other, failed⟩ := readText_of_half disk inside other
    exact .inr ⟨_, failed, .inr (.noOctets inside other)⟩

end Texts

section Documents

variable [Limits]

theorem readDocument_of_holds (holds : Holds disk path text) : readDocument disk path = parse text := by
  rw [readDocument, readText_of_holds holds]
  rfl

theorem readDocument_of_error (failed : readText disk path = .error e) : readDocument disk path = .error e := by
  rw [readDocument, failed]
  rfl

theorem parse_cases (holds : Holds disk path text) :
    (∃ members, Json.read Limits.depth text = .ok (.object members) ∧ parse text = .ok (.object members)) ∨
      ∃ e, parse text = .error e ∧ (Named disk path e ∨ Unnamed disk path e) := by
  rw [parse]
  cases read : Json.read Limits.depth text with
  | ok v =>
    cases v with
    | object members => exact .inl ⟨members, rfl, rfl⟩
    | _ => exact .inr ⟨_, rfl, .inl (.notAnObject holds read nofun)⟩
  | error fault =>
    cases fault with
    | malformed c left => exact .inr ⟨_, rfl, .inl (.malformed holds read)⟩
    | tooDeep inner => exact .inr ⟨_, rfl, .inr (.tooDeep holds (Json.read_tooDeep read))⟩
    | number e =>
      obtain ⟨digits, part, whole, long, rfl⟩ := Json.read_number read
      exact .inr ⟨_, rfl, .inr (.tooLong holds part whole long)⟩

end Documents

section Examples

def cityDisk (content : List UInt8) : Disk := diskOf [(["city.json"], .file content)]

theorem reaches_city : Reaches "city.json" (Utf8.encode "city.json") := ⟨by decide +kernel, by decide⟩

theorem cityDisk_city (content : List UInt8) : cityDisk content (Utf8.encode "city.json") = .ok content := by
  rw [cityDisk, diskOf, Utf8.decode_eq_ok.2 rfl]
  rfl

theorem unifyLines_of_none {cs : List Char} (none : '\r' ∉ cs) : unifyLines cs = cs := by
  fun_induction unifyLines cs with
  | case1 => simp at none
  | case2 => simp at none
  | case3 c cs _ _ ih => rw [ih fun later => none (List.mem_cons_of_mem _ later)]
  | case4 => rfl

theorem return_not_mem (n : Nat) {c : Char} (other : c ≠ '\r') : '\r' ∉ List.replicate n c ++ [] := by
  rw [List.append_nil, List.mem_replicate]
  exact fun repeated => other repeated.2.symm

theorem holds_city {cs : List Char} (none : '\r' ∉ cs) :
    Holds (cityDisk (Utf8.encode (String.ofList cs))) "city.json" (String.ofList cs) :=
  ⟨_, _, reaches_city, cityDisk_city _, by rw [String.toList_ofList, unifyLines_of_none none]⟩

theorem decode_strayOctet : Utf8.decode [0xff] = .error ⟨0xff, 0, 1, .start⟩ := by
  rw [Text.Utf8.decode, Text.Utf8.decodeFrom]
  rfl

theorem strayOctet_foreign (text : String) : Utf8.encode text ≠ [0xff] := by
  intro same
  cases decode_strayOctet.symm.trans (Utf8.decode_eq_ok.2 same)

open Standard

end Examples

end StreetMap.Load
