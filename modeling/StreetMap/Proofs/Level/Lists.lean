import StreetMap.Proofs.Level
import StreetMap.Proofs.Number.Numeral
import StreetMap.Proofs.Text.Pieces
import StreetMap.Standard

/-!
Lists of levels.  A list is read entry by entry, so two lists joined are read as one after the other.  A
range stands for the numerals from its first end to its last, and blanks around an entry count for nothing.
-/

namespace StreetMap.Level

open Text
open Numeral (IsDigits)

variable {source : LevelSource} {raise : Bool} {p q text token list : String}

section Joining

theorem unbordered_semicolon : Unbordered (";" : String).toList := by decide

variable [Limits]

theorem expandList_eq_ok {specs : List String} : expandList list = .ok specs ↔
    ∃ entries, (split ";" list).mapM expand = .ok entries ∧ entries.flatten = specs := by
  refine bind_eq_ok.trans (exists_congr fun entries => and_congr_right fun _ => ?_)
  exact ⟨Except.ok.inj, congrArg Except.ok⟩

theorem expandList_append {specs : List String} (a b : String) :
    expandList (a ++ ";" ++ b) = .ok specs ↔
      ∃ first last, expandList a = .ok first ∧ expandList b = .ok last ∧ first ++ last = specs := by
  simp only [expandList_eq_ok, split_append unbordered_semicolon (by decide) a b, mapM_append_eq_ok]
  constructor
  · rintro ⟨_, ⟨es, es', hes, hes', rfl⟩, rfl⟩
    exact ⟨es.flatten, es'.flatten, ⟨es, hes, rfl⟩, ⟨es', hes', rfl⟩, List.flatten_append.symm⟩
  · rintro ⟨_, _, ⟨es, hes, rfl⟩, ⟨es', hes', rfl⟩, rfl⟩
    exact ⟨es ++ es', ⟨es, es', hes, hes', rfl⟩, List.flatten_append⟩

theorem readList_eq_ok {levels : List Level} : (readList list source raise).result = .ok levels ↔
    ∃ specs, expandList list = .ok specs ∧
      specs.mapM (fun s => (readLogged s source raise).result) = .ok levels := by
  rw [readList, Logged.bind_result]
  simp only [Logged.mapM_result, bind_eq_ok]
  cases expandList list <;> simp [Json.number, Logged.ofExcept]

theorem readList_append {levels : List Level} (a b : String) :
    (readList (a ++ ";" ++ b) source raise).result = .ok levels ↔
      ∃ first last, (readList a source raise).result = .ok first ∧
        (readList b source raise).result = .ok last ∧ first ++ last = levels := by
  simp only [readList_eq_ok, expandList_append]
  constructor
  · rintro ⟨_, ⟨s, t, hs, ht, rfl⟩, h⟩
    obtain ⟨first, last, hf, hl, rfl⟩ := mapM_append_eq_ok.1 h
    exact ⟨first, last, ⟨s, hs, hf⟩, ⟨t, ht, hl⟩, rfl⟩
  · rintro ⟨first, last, ⟨s, hs, hf⟩, ⟨t, ht, hl⟩, rfl⟩
    exact ⟨s ++ t, ⟨s, t, hs, ht, rfl⟩, mapM_append_eq_ok.2 ⟨first, last, hf, hl, rfl⟩⟩

end Joining

section Entries

/-- A text with nothing but blanks put around it. -/
inductive Padded (token : String) : String → Prop
  | intro (before after : String) (hb : before.toList.all isBlank = true)
      (ha : after.toList.all isBlank = true) : Padded token (before ++ token ++ after)

structure IsTrimmed (token : String) : Prop where
  start : ∀ c, token.toList.head? = some c → isBlank c = false
  stop : ∀ c, token.toList.getLast? = some c → isBlank c = false

theorem trim_of_padded (h : Padded token text) (trimmed : IsTrimmed token) : trim text = token := by
  obtain ⟨_, _, hb, ha⟩ := h
  rw [trim, String.toList_append, String.toList_append, trimBy_append (List.all_eq_true.1 hb) (List.all_eq_true.1 ha),
    trimBy_of_ends trimmed.start trimmed.stop, String.ofList_toList]

theorem not_mem_of_padded (h : Padded token text) {c : Char} (dark : isBlank c = false)
    (absent : c ∉ token.toList) : c ∉ text.toList := by
  obtain ⟨_, _, hb, ha⟩ := h
  rw [List.all_eq_true] at hb ha
  simp only [String.toList_append, List.mem_append]
  rintro ((hc | hc) | hc)
  · exact Bool.noConfusion (dark.symm.trans (hb c hc))
  · exact absent hc
  · exact Bool.noConfusion (dark.symm.trans (ha c hc))

theorem isTrimmed_of_isDigits (h : IsDigits token.toList) : IsTrimmed token where
  start c hc := isBlank_of_isDigit (h.digits c (List.mem_of_head? hc))
  stop c hc := isBlank_of_isDigit (h.digits c (List.mem_of_getLast? hc))

theorem isTrimmed_range (hp : IsDigits p.toList) (hq : IsDigits q.toList) : IsTrimmed (p ++ "-" ++ q) := by
  constructor
  · intro c hc
    refine isBlank_of_isDigit (hp.digits c (List.mem_of_head? ?_))
    rwa [String.toList_append, String.toList_append, List.append_assoc,
      List.head?_append_of_ne_nil _ hp.nonempty] at hc
  · intro c hc
    refine isBlank_of_isDigit (hq.digits c (List.mem_of_getLast? ?_))
    rwa [String.toList_append, List.getLast?_append_of_ne_nil _ hq.nonempty] at hc

theorem not_mem_of_isDigits (h : IsDigits token.toList) {c : Char} (other : c.isDigit = false) :
    c ∉ token.toList :=
  fun hc => Bool.noConfusion (other.symm.trans (h.digits c hc))

theorem split_of_not_mem (absent : ';' ∉ text.toList) : split ";" text = [text] :=
  split_of_absent fun occurs => absent (occurs.subset (List.mem_singleton_self ';'))

/-- The numerals from one number to another. -/
def between (m n : Nat) : List String := (List.range' m (n + 1 - m)).map toString

theorem numerals_eq (m n : Nat) : numerals m n = between m n := by
  have count : ((n : Int) + 1 - m).toNat = n + 1 - m := by omega
  rw [numerals, count, between, List.range'_eq_map_range, List.map_map]
  rfl

theorem isDigits_of_mem_between {m n : Nat} (h : token ∈ between m n) : IsDigits token.toList := by
  obtain ⟨k, -, rfl⟩ := List.mem_map.1 h
  exact Numeral.isDigits_toString k

theorem range?_eq (hp : IsDigits p.toList) (hq : IsDigits q.toList) :
    range? (p ++ "-" ++ q).toList = some (p, q) := by
  have cut : cutAtFirst? '-' (p ++ "-" ++ q).toList = some (p.toList, q.toList) := by
    rw [String.toList_append, String.toList_append, List.append_assoc]
    exact cutAtFirst?_append (not_mem_of_isDigits hp rfl)
  obtain ⟨c, cs, first⟩ := List.exists_cons_of_ne_nil hp.nonempty
  obtain ⟨d, ds, last⟩ := List.exists_cons_of_ne_nil hq.nonempty
  have digits : ((c :: cs).all Char.isDigit && (d :: ds).all Char.isDigit) = true := by
    rw [← first, ← last, Bool.and_eq_true, List.all_eq_true, List.all_eq_true]
    exact ⟨hp.digits, hq.digits⟩
  rw [range?, cut, first, last]
  dsimp only
  rw [if_pos digits, ← first, ← last, String.ofList_toList, String.ofList_toList]

theorem not_mem_range (hp : IsDigits p.toList) (hq : IsDigits q.toList) (padded : Padded (p ++ "-" ++ q) text) :
    ';' ∉ text.toList := by
  refine not_mem_of_padded padded (by decide) ?_
  simp [String.toList_append, not_mem_of_isDigits hp, not_mem_of_isDigits hq]

variable [Limits]

theorem expand_digits (h : IsDigits token.toList) (padded : Padded token text) : expand text = .ok [token] := by
  have nonempty : token.isEmpty ≠ true := by simpa using h.nonempty
  have single : range? token.toList = none := by
    rw [range?, cutAtFirst?_of_absent (not_mem_of_isDigits h rfl)]
  rw [expand, trim_of_padded padded (isTrimmed_of_isDigits h), if_neg nonempty, single]

theorem expand_range (hp : IsDigits p.toList) (hq : IsDigits q.toList) (padded : Padded (p ++ "-" ++ q) text) :
    expand text = (Numeral.readInt p).bind fun first => (Numeral.readInt q).map (numerals first) := by
  have nonempty : (p ++ "-" ++ q).isEmpty ≠ true := by simp
  rw [expand, trim_of_padded padded (isTrimmed_range hp hq), if_neg nonempty, range?_eq hp hq]
  rfl

/-- The value of a text of digits. -/
def valueOf (digits : String) : Nat := Nat.ofDigitChars 10 digits.toList 0

/-- A text of digits that is not too long to be read. -/
def IsShort (digits : String) : Prop := Numeral.permits digits.toList.length = true

instance (digits : String) : Decidable (IsShort digits) :=
  inferInstanceAs (Decidable (Numeral.permits digits.toList.length = true))

theorem expandList_of_not_mem (absent : ';' ∉ text.toList) : expandList text = expand text := by
  rw [expandList, split_of_not_mem absent, mapM_cons_eq]
  cases expand text <;> simp [Except.bind, Except.map, pure, bind, Except.pure]

theorem expandList_range (hp : IsDigits p.toList) (hq : IsDigits q.toList)
    (padded : Padded (p ++ "-" ++ q) text) (short : IsShort p ∧ IsShort q) :
    expandList text = .ok (between (valueOf p) (valueOf q)) := by
  have first : Numeral.readInt p = .ok (valueOf p) := (Numeral.readInt_of_isDigits hp).trans (if_pos short.1)
  have last : Numeral.readInt q = .ok (valueOf q) := (Numeral.readInt_of_isDigits hq).trans (if_pos short.2)
  rw [expandList_of_not_mem (not_mem_range hp hq padded), expand_range hp hq padded, first, last]
  exact congrArg Except.ok (numerals_eq _ _)

theorem expandList_long_range (hp : IsDigits p.toList) (hq : IsDigits q.toList)
    (padded : Padded (p ++ "-" ++ q) text) (long : ¬ (IsShort p ∧ IsShort q)) (specs : List String) :
    expandList text ≠ .ok specs := by
  rw [expandList_of_not_mem (not_mem_range hp hq padded), expand_range hp hq padded, ne_eq, bind_eq_ok]
  rintro ⟨first, hf, h⟩
  obtain ⟨last, hl, -⟩ := map_eq_ok.1 h
  rw [Numeral.readInt_of_isDigits hp] at hf
  rw [Numeral.readInt_of_isDigits hq] at hl
  split at hf
  · split at hl
    · exact long ⟨‹_›, ‹_›⟩
    · cases hl
  · cases hf

theorem expandList_joined {tokens texts : List String} (digits : ∀ t ∈ tokens, IsDigits t.toList)
    (padded : List.Forall₂ Padded tokens texts) : expandList (";".intercalate texts) = .ok tokens := by
  by_cases none : texts = []
  · subst none
    cases padded
    rfl
  have pieces : split ";" (";".intercalate texts) = texts := by
    refine split_intercalate unbordered_semicolon (by decide) none fun t ht occurs => ?_
    obtain ⟨token, htoken, ht⟩ := exists_of_forall₂ padded.flip ht
    exact not_mem_of_padded ht (by decide) (not_mem_of_isDigits (digits token htoken) rfl)
      (occurs.subset (List.mem_singleton_self ';'))
  refine expandList_eq_ok.2 ⟨tokens.map fun t => [t], ?_, ?_⟩
  · rw [pieces, mapM_eq_ok, List.forall₂_map_right_iff]
    exact ((List.forall₂_and_left _ _).2 ⟨digits, padded⟩).flip.imp fun _ _ h => expand_digits h.1 h.2
  · rw [← List.flatMap_def]
    exact List.flatMap_singleton' tokens

/-- Two lists joined are read one after the other.  A range is read as the joined numerals that it stands
for, each with blanks around it or none, unless one of its ends is too long to be read.  In a map of levels
the short names stand as they come first, each with the last level of that name. -/
theorem lists_read_entrywise (source : LevelSource) (raise : Bool) :
    (∀ a b levels, (readList (a ++ ";" ++ b) source raise).result = .ok levels ↔
      ∃ first last, (readList a source raise).result = .ok first ∧
        (readList b source raise).result = .ok last ∧ first ++ last = levels) ∧
    (∀ p q range texts, IsDigits p.toList → IsDigits q.toList → Padded (p ++ "-" ++ q) range →
      List.Forall₂ Padded (between (valueOf p) (valueOf q)) texts →
      (IsShort p ∧ IsShort q → readList range source raise = readList (";".intercalate texts) source raise) ∧
      (¬ (IsShort p ∧ IsShort q) → ∀ levels, (readList range source raise).result ≠ .ok levels)) ∧
    ∀ list levels, (readList list source raise).result = .ok levels →
      ∃ table, (readMap list source raise).result = .ok table ∧
        table.keys = (levels.map Level.shortName).eraseDups ∧
        ∀ name, table.get? name = (levels.filter fun l => l.shortName = name).getLast? := by
  refine ⟨fun a b levels => readList_append a b, fun p q range texts hp hq padded joined => ?_,
    fun list levels read => ⟨byShortName levels, ?_, ?_, get?_byShortName levels⟩⟩
  · constructor
    · intro short
      rw [readList, readList, expandList_range hp hq padded short,
        expandList_joined (fun t => isDigits_of_mem_between) joined]
    · intro long levels read
      obtain ⟨specs, hs, -⟩ := readList_eq_ok.1 read
      exact expandList_long_range hp hq padded long specs hs
  · rw [readMap, Logged.bind_result, read]
    rfl
  · rw [byShortName, Table.keys_ofList, List.map_map]
    rfl

end Entries

open Standard in
theorem garden_before_roof :
    readList " 01-3" .levelTag false = readList "1; 2 ;3" .levelTag false ∧
      ∃ table, (readMap "G=Ground;R=Roof;G=Garden" .levelTag false).result = .ok table ∧
        table.keys = ["G", "R"] ∧ (table.get? "G").map Level.longName = some "Garden" := by
  constructor
  · have first : IsDigits (String.toList "01") := by decide
    have last : IsDigits (String.toList "3") := by decide
    have range : Padded ("01" ++ "-" ++ "3") " 01-3" := .intro " " "" (by decide) (by decide)
    have texts : List.Forall₂ Padded (between (valueOf "01") (valueOf "3")) ["1", " 2 ", "3"] :=
      .cons (.intro "" "" (by decide) (by decide))
        (.cons (.intro " " " " (by decide) (by decide))
          (.cons (.intro "" "" (by decide) (by decide)) .nil))
    exact ((lists_read_entrywise .levelTag false).2.1 "01" "3" _ _ first last range texts).1
      ⟨by decide, by decide⟩
  · obtain ⟨table, read, keys, rows⟩ := (lists_read_entrywise .levelTag false).2.2
      "G=Ground;R=Roof;G=Garden" [⟨0, none, "G", "Ground", .levelTag, false⟩,
        ⟨0, none, "R", "Roof", .levelTag, false⟩, ⟨0, none, "G", "Garden", .levelTag, false⟩] (by rfl)
    refine ⟨table, read, keys, ?_⟩
    rw [rows]
    rfl

end StreetMap.Level
