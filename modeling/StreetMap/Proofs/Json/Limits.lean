import Mathlib.Data.List.Basic
import Mathlib.Data.List.TakeWhile
import StreetMap.Json.Reader
import StreetMap.Proofs.Number.Numeral

/-!
The limits of reading.  A text is too deep only if it has more beginnings of lists and objects than may be
open at once, and a number in it cannot be taken only for having too many digits.  Both limits are met: by
texts that start with as many lists inside one another, and by those that start with such a number.
-/

namespace StreetMap.Json

variable {limit : Nat} {c : Char} {cs ds rest : List Char} {inner : Shape} {e : NumeralError} {m m' : Machine}
  {t : Token} {s : String}

section Rest

theorem scanUnit?_suffix {u : Nat} (h : scanUnit? cs = some (u, rest)) : rest <:+ cs := by
  unfold scanUnit? at h
  split at h
  · rename_i a b c d e cs
    obtain ⟨v, -, same⟩ := Option.map_eq_some_iff.1 h
    cases same
    exact ⟨[a, b, c, d], rfl⟩
  · cases h

theorem scanSecond?_suffix {u l : Nat} (h : scanSecond? u cs = some (l, rest)) : rest <:+ cs := by
  unfold scanSecond? at h
  split at h
  · split at h
    · exact (scanUnit?_suffix (Option.filter_eq_some_iff.1 h).1).trans ⟨['\\', 'u'], rfl⟩
    · cases h
  · cases h

theorem scanText_suffix {opened : Nat} {read text : List Char} (h : scanText opened cs read = .ok (text, rest)) :
    rest <:+ cs := by
  fun_induction scanText opened cs read with
  | case1 => cases h
  | case2 => cases h
  | case3 => simp_all
  | case4 => cases h
  | case5 cs read u after unit l rest' second ih =>
    exact (((ih h).trans (scanSecond?_suffix second)).trans (scanUnit?_suffix unit)).trans
      ⟨['\\', 'u'], rfl⟩
  | case6 cs read u after unit second ih =>
    exact ((ih h).trans (scanUnit?_suffix unit)).trans ⟨['\\', 'u'], rfl⟩
  | case7 e cs read other c escape ih => exact (ih h).trans ⟨['\\', e], rfl⟩
  | case8 => cases h
  | case9 => cases h
  | case10 c cs read _ _ _ _ _ ih => exact (ih h).trans (List.suffix_cons c cs)

theorem scanText_error {opened : Nat} {read : List Char} {f : Fault} (h : scanText opened cs read = .error f) :
    ∃ complaint left, f = .malformed complaint left := by
  fun_induction scanText opened cs read with
  | case3 => cases h
  | case5 _ _ _ _ _ _ _ _ ih | case6 _ _ _ _ _ _ ih | case7 _ _ _ _ _ _ ih | case10 _ _ _ _ _ _ _ _ ih => exact ih h
  | case1 | case2 | case4 | case8 | case9 =>
    cases h
    exact ⟨_, _, rfl⟩

theorem scanDigits?_eq_some (h : scanDigits? cs = some (ds, rest)) :
    ds ++ rest = cs ∧ ∀ d ∈ ds, d.isDigit = true := by
  rw [scanDigits?] at h
  split at h
  · cases h
  · cases h
    refine ⟨List.takeWhile_append_dropWhile, fun d hd => ?_⟩
    exact List.mem_takeWhile_imp hd

theorem scanDigits?_suffix (h : scanDigits? cs = some (ds, rest)) : rest <:+ cs := by
  obtain ⟨rfl, -⟩ := scanDigits?_eq_some h
  exact List.suffix_append ds rest

theorem readSign_suffix (cs : List Char) : (Numeral.readSign cs).2 <:+ cs := by
  rw [Numeral.readSign.eq_def]
  split <;> simp [List.suffix_cons]

theorem scanFraction_suffix (cs : List Char) : (scanFraction cs).2 <:+ cs := by
  rw [scanFraction.eq_def]
  split
  · rename_i rest
    cases h : scanDigits? rest with
    | none => exact List.suffix_rfl
    | some r => exact (scanDigits?_suffix h).trans (List.suffix_cons _ _)
  · exact List.suffix_rfl

theorem scanExponent_suffix (cs : List Char) : (scanExponent cs).2 <:+ cs := by
  rw [scanExponent.eq_def]
  split
  · rename_i c rest
    split
    · dsimp only
      split
      · rename_i h
        exact ((scanDigits?_suffix h).trans (readSign_suffix rest)).trans (List.suffix_cons c rest)
      · exact List.suffix_rfl
    · exact List.suffix_rfl
  · exact List.suffix_rfl

theorem afterWord?_eq_some {word : List Char} (h : afterWord? word cs = some rest) : word ++ rest = cs := by
  induction word generalizing cs with
  | nil => exact (Option.some.inj h).symm
  | cons w word ih =>
    cases cs with
    | nil => cases h
    | cons c cs =>
      rw [afterWord?] at h
      split at h
      · rename_i same
        rw [List.cons_append, ih h, same]
      · cases h

theorem scanWord?_suffix {v : Json} (h : scanWord? cs = some (v, rest)) : rest <:+ cs := by
  obtain ⟨⟨word, v'⟩, -, found⟩ := List.exists_of_findSome?_eq_some h
  obtain ⟨r, after, same⟩ := Option.map_eq_some_iff.1 found
  cases same
  exact ⟨word, afterWord?_eq_some after⟩

variable [Limits]

theorem scanNumber?_eq_some {negative : Bool} {v : Except NumeralError Json}
    (h : scanNumber? negative cs = some (v, rest)) :
    rest <:+ cs ∧ ∀ e, v = .error e → ∃ ds, ds <+: cs ∧ (∀ d ∈ ds, d.isDigit = true) ∧
      Numeral.permits ds.length = false ∧ e = .tooManyDigits ds.length := by
  unfold scanNumber? at h
  split at h
  · cases h
  · rename_i whole after start
    have parts : whole ++ after = cs ∧ ∀ d ∈ whole, d.isDigit = true := by
      split at start
      · cases start
        refine ⟨rfl, fun d hd => ?_⟩
        rw [List.mem_singleton.1 hd]
        rfl
      · exact scanDigits?_eq_some start
    obtain ⟨rfl, digits⟩ := parts
    have left : (scanExponent (scanFraction after).2).2 <:+ whole ++ after :=
      ((scanExponent_suffix _).trans (scanFraction_suffix _)).trans (List.suffix_append whole after)
    dsimp only at h
    split at h
    · split at h
      · rename_i long
        cases h
        refine ⟨left, fun e he => ⟨whole, List.prefix_append _ _, digits, ?_, ?_⟩⟩
        · exact Bool.not_eq_true' _ ▸ long
        · cases he
          rfl
      · cases h
        exact ⟨left, nofun⟩
    · cases h
      exact ⟨left, nofun⟩

theorem scanToken_suffix (c : Char) (cs : List Char) : (scanToken c cs).2 <:+ c :: cs := by
  have next : cs <:+ c :: cs := List.suffix_cons c cs
  rw [scanToken.eq_def]
  split <;> try exact next
  · split
    · rename_i h
      exact (scanText_suffix h).trans next
    · exact next
  · split
    · rename_i h
      exact scanWord?_suffix h
    · split
      · rename_i h
        split at h
        · exact (scanNumber?_eq_some h).1.trans next
        · exact (scanNumber?_eq_some h).1
      · exact next

end Rest

section Tokens

def Token.opens : Token → Bool
  | .beginList | .beginObject => true
  | _ => false

def opens (c : Char) : Bool := c = '[' || c = '{'

variable [Limits]

theorem scanToken_opens (h : (scanToken c cs).1.opens = true) :
    opens c = true ∧ (scanToken c cs).2 = cs := by
  unfold scanToken at h ⊢
  split at h
  · exact ⟨rfl, rfl⟩
  · cases h
  · exact ⟨rfl, rfl⟩
  · cases h
  · cases h
  · cases h
  · split at h <;> cases h
  · split at h
    · cases h
    · split at h <;> cases h

theorem scanToken_number (h : (scanToken c cs).1 = .scalar (.error e)) :
    ∃ ds, ds <:+: c :: cs ∧ (∀ d ∈ ds, d.isDigit = true) ∧ Numeral.permits ds.length = false ∧
      e = .tooManyDigits ds.length := by
  unfold scanToken at h
  split at h <;> try cases h
  · split at h <;> cases h
  · split at h
    · cases h
    · split at h
      · rename_i v rest number
        cases h
        split at number
        · obtain ⟨ds, start, digits⟩ := (scanNumber?_eq_some number).2 e rfl
          exact ⟨ds, start.isInfix.trans (List.suffix_cons c cs).isInfix, digits⟩
        · obtain ⟨ds, start, digits⟩ := (scanNumber?_eq_some number).2 e rfl
          exact ⟨ds, start.isInfix, digits⟩
      · cases h

theorem scanToken_broken {f : Fault} (h : (scanToken c cs).1 = .broken f) :
    ∃ complaint left, f = .malformed complaint left := by
  unfold scanToken at h
  split at h <;> try cases h
  · split at h
    · cases h
    · rename_i failed
      cases h
      exact scanText_error failed
  · split at h
    · cases h
    · split at h <;> cases h

end Tokens

section Steps

inductive Leads (limit : Nat) (frames : List Frame) (t : Token) : Except Fault Machine → Prop
  | on {m : Machine} (room : m.frames.length ≤ frames.length + if t.opens then 1 else 0) :
    Leads limit frames t (.ok m)
  | malformed {complaint : Complaint} {left : Nat} : Leads limit frames t (.error (.malformed complaint left))
  | broken {f : Fault} (broken : t = .broken f) : Leads limit frames t (.error f)
  | tooDeep {inner : Shape} (full : limit ≤ frames.length) (opens : t.opens = true) :
    Leads limit frames t (.error (.tooDeep inner))
  | number {e : NumeralError} (number : t = .scalar (.error e)) : Leads limit frames t (.error (.number e))

variable {frames frames' : List Frame}

theorem give_frames (frames : List Frame) (v : Json) :
    (Machine.give frames v).frames.length = frames.length := by
  unfold Machine.give
  split <;> rfl

theorem leads_give {v : Json} (h : frames'.length ≤ frames.length) :
    Leads limit frames t (.ok (Machine.give frames' v)) :=
  .on (by rw [give_frames]; omega)

theorem leads_openFrame (f : Frame) (x : Expected) (opens : t.opens = true) :
    Leads limit frames t (Machine.openFrame limit frames f x inner) := by
  rw [Machine.openFrame]
  split
  · exact .tooDeep ‹_› opens
  · refine .on ?_
    rw [if_pos opens]
    exact Nat.le_refl _

theorem leads_startValue (limit left : Nat) (frames : List Frame) (t : Token) :
    Leads limit frames t (Machine.startValue limit left frames t) := by
  unfold Machine.startValue
  split
  · exact leads_give (Nat.le_refl _)
  · exact .number rfl
  · exact leads_give (Nat.le_refl _)
  · exact leads_openFrame _ _ rfl
  · exact leads_openFrame _ _ rfl
  · exact .broken rfl
  · exact .malformed

theorem leads_startMember (left : Nat) (frames : List Frame) (t : Token) :
    Leads limit frames t (Machine.startMember left frames t) := by
  unfold Machine.startMember
  split
  · exact .on (Nat.le_add_right _ _)
  · exact .broken rfl
  · exact .malformed

theorem leads_step (limit left : Nat) (m : Machine) (t : Token) :
    Leads limit m.frames t (m.step limit left t) := by
  obtain ⟨frames, expected⟩ := m
  unfold Machine.step
  dsimp only
  split
  · exact leads_startValue _ _ _ _
  · exact leads_give (Nat.le_succ _)
  · exact leads_startValue _ _ _ _
  · exact leads_give (Nat.le_succ _)
  · exact leads_startMember _ _ _
  · exact leads_startMember _ _ _
  · exact .on (Nat.le_add_right _ _)
  · exact .on (Nat.le_add_right _ _)
  · exact leads_give (Nat.le_succ _)
  · exact .on (Nat.le_add_right _ _)
  · exact leads_give (Nat.le_succ _)
  · exact .malformed

end Steps

section Runs

def openings (cs : List Char) : Nat := cs.countP opens

theorem openings_of_suffix {ds : List Char} (h : ds <:+ cs) : openings ds ≤ openings cs :=
  h.sublist.countP_le

theorem result_error {fault : Fault} (h : m.result = .error fault) :
    ∃ complaint left, fault = .malformed complaint left := by
  unfold Machine.result at h
  split at h
  · cases h
  · cases h
    exact ⟨_, _, rfl⟩

variable [Limits]

theorem openings_scanToken (c : Char) (cs : List Char) :
    (openings (scanToken c cs).2 + if (scanToken c cs).1.opens then 1 else 0) ≤ openings (c :: cs) := by
  by_cases h : (scanToken c cs).1.opens = true
  · obtain ⟨bracket, left⟩ := scanToken_opens h
    rw [if_pos h, left, openings, openings, List.countP_cons_of_pos bracket]
  · rw [if_neg h]
    exact openings_of_suffix (scanToken_suffix c cs)

theorem run_tooDeep (h : m.run limit cs = .error (.tooDeep inner)) :
    limit < m.frames.length + openings cs := by
  fun_induction Machine.run limit m cs with
  | case1 m =>
    obtain ⟨_, _, malformed⟩ := result_error h
    cases malformed
  | case2 m c cs space ih =>
    have skipped := openings_of_suffix (List.suffix_cons c cs)
    have left := ih h
    omega
  | case3 m c cs space m' step ih =>
    have lead := leads_step limit (cs.length + 1) m (scanToken c cs).1
    have left := openings_scanToken c cs
    rw [step] at lead
    cases lead with
    | on room =>
      have later := ih h
      omega
  | case4 m c cs space fault step =>
    have lead := leads_step limit (cs.length + 1) m (scanToken c cs).1
    have left := openings_scanToken c cs
    rw [step] at lead
    cases h
    cases lead with
    | tooDeep full opens =>
      rw [if_pos opens] at left
      omega
    | broken broken =>
      obtain ⟨_, _, malformed⟩ := scanToken_broken broken
      cases malformed

theorem run_number (h : m.run limit cs = .error (.number e)) :
    ∃ ds, ds <:+: cs ∧ (∀ d ∈ ds, d.isDigit = true) ∧ Numeral.permits ds.length = false ∧
      e = .tooManyDigits ds.length := by
  fun_induction Machine.run limit m cs with
  | case1 m =>
    obtain ⟨_, _, malformed⟩ := result_error h
    cases malformed
  | case2 m c cs space ih =>
    obtain ⟨ds, part, digits⟩ := ih h
    exact ⟨ds, part.trans (List.suffix_cons c cs).isInfix, digits⟩
  | case3 m c cs space m' step ih =>
    obtain ⟨ds, part, digits⟩ := ih h
    exact ⟨ds, part.trans (scanToken_suffix c cs).isInfix, digits⟩
  | case4 m c cs space fault step =>
    have lead := leads_step limit (cs.length + 1) m (scanToken c cs).1
    rw [step] at lead
    cases h
    cases lead with
    | number number => exact scanToken_number number
    | broken broken =>
      obtain ⟨_, _, malformed⟩ := scanToken_broken broken
      cases malformed

end Runs

section Brackets

theorem step_beginList (left : Nat) (frames : List Frame) {x : Expected}
    (value : x = .value ∨ x = .valueOrEnd) : Machine.step limit left ⟨frames, x⟩ .beginList =
      Machine.openFrame limit frames (.list []) .valueOrEnd .list := by
  obtain rfl | rfl := value
  · rfl
  · rcases frames with _ | ⟨_ | _ | _, fs⟩ <;> rfl

variable [Limits]

theorem run_bracket (frames : List Frame) {x : Expected} (value : x = .value ∨ x = .valueOrEnd) :
    Machine.run limit ⟨frames, x⟩ ('[' :: cs) =
      (Machine.openFrame limit frames (.list []) .valueOrEnd .list).bind fun m => m.run limit cs := by
  have token : scanToken '[' cs = (.beginList, cs) := rfl
  rw [Machine.run, if_neg (by decide), token, step_beginList _ frames value]
  cases Machine.openFrame limit frames (.list []) .valueOrEnd .list <;> rfl

theorem run_brackets (rest : List Char) {k : Nat} (frames : List Frame) {x : Expected}
    (value : x = .value ∨ x = .valueOrEnd) (room : frames.length + k = limit) :
    Machine.run limit ⟨frames, x⟩ (List.replicate (k + 1) '[' ++ rest) = .error (.tooDeep .list) := by
  induction k generalizing frames x with
  | zero =>
    rw [List.replicate_succ, List.cons_append, run_bracket frames value, Machine.openFrame, if_pos (by omega)]
    rfl
  | succ k ih =>
    rw [List.replicate_succ, List.cons_append, run_bracket frames value, Machine.openFrame, if_neg (by omega)]
    exact ih _ (.inr rfl) (by rw [List.length_cons]; omega)

end Brackets

section Numbers

/-- What comes after a whole number neither goes on with it nor makes it a decimal. -/
def EndsNumber (rest : List Char) : Prop :=
  ∀ c, rest.head? = some c → c.isDigit = false ∧ c ≠ '.' ∧ c ≠ 'e' ∧ c ≠ 'E'

theorem scanDigits?_append (digits : ∀ d ∈ ds, d.isDigit = true) (full : ds ≠ [])
    (last : EndsNumber rest) : scanDigits? (ds ++ rest) = some (ds, rest) := by
  have none : rest.takeWhile Char.isDigit = [] := by
    rw [List.takeWhile_eq_nil_iff]
    intro pos digit
    have other := (last _ (List.head?_eq_some_head (List.ne_nil_of_length_pos pos))).1
    rw [List.head_eq_getElem] at other
    exact Bool.noConfusion (other.symm.trans digit)
  have all : rest.dropWhile Char.isDigit = rest := by
    have parts := List.takeWhile_append_dropWhile (p := Char.isDigit) (l := rest)
    rwa [none] at parts
  have run : (ds ++ rest).takeWhile Char.isDigit = ds := by
    rw [List.takeWhile_append_of_pos digits, none, List.append_nil]
  obtain ⟨d, ds, rfl⟩ := List.exists_cons_of_ne_nil full
  rw [scanDigits?, run, List.dropWhile_append_of_pos digits, all]

theorem scanFraction_of_ends (last : EndsNumber rest) : scanFraction rest = ([], rest) := by
  rw [scanFraction.eq_def]
  split
  · exact absurd rfl (last '.' rfl).2.1
  · rfl

theorem scanExponent_of_ends (last : EndsNumber rest) : scanExponent rest = (none, rest) := by
  rw [scanExponent.eq_def]
  split
  · rename_i c rest
    obtain ⟨-, -, small, capital⟩ := last c rfl
    rw [if_neg (by simp [small, capital])]
  · rfl

theorem scanWord?_of_isDigit (digit : c.isDigit = true) : scanWord? (c :: cs) = none := by
  have letters : ∀ row ∈ words, ∃ w ws, row.1 = w :: ws ∧ w.isDigit = false := by
    simp [words]
  rw [scanWord?, List.findSome?_eq_none_iff]
  rintro ⟨word, v⟩ row
  obtain ⟨w, ws, rfl, letter⟩ := letters _ row
  have other : w ≠ c := fun same => Bool.noConfusion (letter.symm.trans (same ▸ digit))
  dsimp only
  rw [afterWord?, if_neg other]
  rfl

variable [Limits]

theorem ne_nil_of_not_permits (long : Numeral.permits ds.length = false) : ds ≠ [] := by
  rintro rfl
  exact Bool.noConfusion (long.symm.trans (Numeral.permits_of_le (Nat.zero_le _)))

theorem scanNumber?_of_digits (digits : ∀ d ∈ ds, d.isDigit = true)
    (long : Numeral.permits ds.length = false) (first : ds.head? ≠ some '0') (last : EndsNumber rest) :
    scanNumber? false (ds ++ rest) = some (.error (.tooManyDigits ds.length), rest) := by
  have full : ds ≠ [] := ne_nil_of_not_permits long
  have whole := scanDigits?_append digits full last
  unfold scanNumber?
  split
  · rename_i taken
    split at taken
    · cases taken
    · cases taken.symm.trans whole
  · rename_i whole' after taken
    split at taken
    · rename_i rest' start
      have head := congrArg List.head? start
      rw [List.head?_append_of_ne_nil ds full] at head
      exact absurd head first
    · cases taken.symm.trans whole
      rw [scanFraction_of_ends last]
      dsimp only
      rw [scanExponent_of_ends last]
      dsimp only
      rw [if_pos (by rfl), if_pos (by rw [long]; rfl)]

theorem scanToken_of_isDigit (digit : c.isDigit = true) {v : Except NumeralError Json}
    (number : scanNumber? false (c :: cs) = some (v, rest)) : scanToken c cs = (.scalar v, rest) := by
  unfold scanToken
  split <;> try cases digit
  have unsigned : c ≠ '-' := by
    rintro rfl
    cases digit
  rw [scanWord?_of_isDigit digit, if_neg unsigned]
  dsimp only
  rw [number]

theorem run_digits (digits : ∀ d ∈ ds, d.isDigit = true) (long : Numeral.permits ds.length = false)
    (first : ds.head? ≠ some '0') (last : EndsNumber rest) :
    Machine.run limit .start (ds ++ rest) = .error (.number (.tooManyDigits ds.length)) := by
  have number := scanNumber?_of_digits digits long first last
  obtain ⟨d, ds, rfl⟩ := List.exists_cons_of_ne_nil (ne_nil_of_not_permits long)
  have digit : d.isDigit = true := digits d List.mem_cons_self
  have dark : isSpace d = false := by
    by_contra space
    simp only [isSpace, Bool.not_eq_false, Bool.or_eq_true, decide_eq_true_eq] at space
    obtain ((rfl | rfl) | rfl) | rfl := space <;> cases digit
  rw [List.cons_append] at number ⊢
  rw [Machine.run, dark, scanToken_of_isDigit digit number]
  rfl

end Numbers

section Texts

variable [Limits]

theorem run_of_read {f : Fault} (h : read limit s = .error f) :
    (∃ complaint left, f = .malformed complaint left) ∨ Machine.start.run limit s.toList = .error f := by
  rw [read] at h
  split at h
  · cases h
    exact .inl ⟨_, _, rfl⟩
  · exact .inr h

theorem read_tooDeep (h : read limit s = .error (.tooDeep inner)) : limit < openings s.toList := by
  obtain ⟨_, _, malformed⟩ | h := run_of_read h
  · cases malformed
  · have deep : limit < ([] : List Frame).length + openings s.toList := run_tooDeep h
    rwa [List.length_nil, Nat.zero_add] at deep

theorem read_number (h : read limit s = .error (.number e)) :
    ∃ ds, ds <:+: s.toList ∧ (∀ d ∈ ds, d.isDigit = true) ∧ Numeral.permits ds.length = false ∧
      e = .tooManyDigits ds.length := by
  obtain ⟨_, _, malformed⟩ | h := run_of_read h
  · cases malformed
  · exact run_number h

theorem read_brackets (limit : Nat) (rest : List Char) :
    read limit (String.ofList (List.replicate (limit + 1) '[' ++ rest)) = .error (.tooDeep .list) := by
  rw [read, String.toList_ofList, List.replicate_succ, List.cons_append, if_neg (by simp [byteOrderMark]),
    ← List.cons_append, ← List.replicate_succ]
  exact run_brackets rest [] (.inl rfl) (Nat.zero_add limit)

theorem read_digits (limit : Nat) (digits : ∀ d ∈ ds, d.isDigit = true)
    (long : Numeral.permits ds.length = false) (first : ds.head? ≠ some '0') (last : EndsNumber rest) :
    read limit (String.ofList (ds ++ rest)) = .error (.number (.tooManyDigits ds.length)) := by
  have unmarked : (ds ++ rest).head? ≠ some byteOrderMark := by
    rw [List.head?_append_of_ne_nil ds (ne_nil_of_not_permits long)]
    intro mark
    exact Bool.noConfusion (digits _ (List.mem_of_head? mark))
  rw [read, String.toList_ofList, if_neg unmarked]
  exact run_digits digits long first last

end Texts

end StreetMap.Json
