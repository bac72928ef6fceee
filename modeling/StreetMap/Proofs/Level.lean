import StreetMap.Level
import StreetMap.Proofs.Computation
import StreetMap.Proofs.Table

/-!
Which specifications of a level can be read.  All can but those with a number that has no room: a floor
that is too long to be shown one higher, a floor whose altitude is beyond all floating-point numbers, or an
altitude at which there is no floor.
-/

namespace StreetMap

theorem Numeral.truncate_eq_error {x : Float} :
    (∃ e, truncate x = .error e) ↔ x.isFinite = false := by
  change _ ↔ x.toModel.unpack.isFinite = false
  rw [truncate]
  cases x.toModel.unpack with
  | infinity sign => exact ⟨fun _ => rfl, fun _ => ⟨_, rfl⟩⟩
  | notANumber => exact ⟨fun _ => rfl, fun _ => ⟨_, rfl⟩⟩
  | zero sign => exact ⟨nofun, nofun⟩
  | finite sign m e h => exact ⟨nofun, nofun⟩

theorem Numeral.toFloat_eq_error {n : Int} :
    (∃ e, toFloat n = .error e) ↔ (Float.ofInt n).isInf = true := by
  rw [toFloat]
  cases (Float.ofInt n).isInf <;> simp

namespace Level

theorem altitudeOf_eq_error {n : Int} {altitude : Option Float} :
    (∃ e, altitudeOf n altitude = .error e) ↔ altitude = none ∧ (Float.ofInt n).isInf = true := by
  cases altitude with
  | some a => simp [altitudeOf]
  | none =>
    rw [altitudeOf, ← Numeral.toFloat_eq_error]
    cases Numeral.toFloat n <;> simp [Except.map]

theorem get?_byShortName (levels : List Level) (name : String) :
    (byShortName levels).get? name = (levels.filter fun l => l.shortName = name).getLast? := by
  rw [byShortName, Table.get?_ofList, List.filter_map, List.getLast?_map, Option.map_map]
  exact Option.map_id_apply

variable [Limits]

/-- The floor that a name reads as, counted from zero. -/
def floor? (source : LevelSource) (raise : Bool) (name : String) : Option Int :=
  (Numeral.readInt name).toOption.map fun n =>
    if raise = true ∧ source = .levelMap ∧ 1 ≤ n then n - 1 else n

/-- The short name goes before the long one. -/
def Spec.floor? (s : Spec) (source : LevelSource) (raise : Bool) : Option Int :=
  Level.floor? source raise s.shortName <|> Level.floor? source raise s.longName

def Overlong (source : LevelSource) (raise : Bool) (name : String) : Prop :=
  raise = true ∧ source ≠ .levelMap ∧
    ∃ n : Nat, Numeral.readInt name = .ok n ∧ Numeral.fits (n + 1) = false

/-- Why there is no level. -/
inductive Unreadable (source : LevelSource) (raise : Bool) (s : Spec) : Prop
  | overlong (h : Overlong source raise s.longName ∨ Overlong source raise s.shortName)
  | beyond {n : Int} (floor : s.floor? source raise = some n) (altitude : s.altitude = none)
      (huge : (Float.ofInt n).isInf = true)
  | endless {a : Float} (floor : s.floor? source raise = none) (altitude : s.altitude = some a)
      (far : (a / metresPerFloor).isFinite = false)

variable {source : LevelSource} {raise : Bool} {spec name : String}

theorem readName_of_overlong (h : Overlong source raise name) :
    readName source raise name = .error .tooLongToWrite := by
  obtain ⟨rfl, hs, n, hn, long⟩ := h
  have hw : Numeral.writeInt (n + 1) = .error .tooLongToWrite := by
    rw [Numeral.writeInt, long]
    rfl
  simp only [readName, hn]
  rw [if_neg (by simp), if_neg hs, if_pos (Int.natCast_nonneg n), hw]
  rfl

def raisedName (name : String) : String :=
  match Numeral.readInt name with
  | .ok n => if n ≥ 0 then toString (n + 1) else name
  | .error _ => name

theorem readName_literal (source : LevelSource) (name : String) :
    readName source false name = .ok ((Numeral.readInt name).toOption, name) := by
  rw [readName]
  cases Numeral.readInt name <;> rfl

theorem readName_raised (tag : source ≠ .levelMap) (short : ¬ Overlong source true name) :
    readName source true name = .ok ((Numeral.readInt name).toOption, raisedName name) := by
  rw [readName, raisedName]
  cases hn : Numeral.readInt name with
  | error e => rfl
  | ok n =>
    simp only [Bool.not_true, Bool.false_eq_true, if_false, tag]
    split
    · rename_i h0
      have fits : Numeral.writeInt (n + 1) = .ok (toString (n + 1)) := by
        rw [Numeral.writeInt, if_pos]
        refine Bool.of_not_eq_false fun long => short ⟨rfl, tag, n.toNat, ?_, ?_⟩
        · rw [Int.toNat_of_nonneg h0]
          exact hn
        · rw [Int.toNat_of_nonneg h0]
          exact long
      rw [fits]
      rfl
    · rfl

theorem readName_of_short (h : ¬ Overlong source raise name) :
    ∃ shown, readName source raise name = .ok (floor? source raise name, shown) := by
  have unmoved (kept : ¬ (raise = true ∧ source = .levelMap)) :
      floor? source raise name = (Numeral.readInt name).toOption := by
    have same (n : Int) : ¬ (raise = true ∧ source = .levelMap ∧ 1 ≤ n) := fun ⟨hr, hs, _⟩ => kept ⟨hr, hs⟩
    simp only [floor?, if_neg (same _), Option.map_id']
  cases raise with
  | false => exact ⟨name, by rw [readName_literal, unmoved (by simp)]⟩
  | true =>
    by_cases hs : source = .levelMap
    · subst hs
      rw [readName, floor?]
      cases Numeral.readInt name with
      | error e => exact ⟨name, rfl⟩
      | ok n => exact ⟨name, by simp [Except.toOption]⟩
    · exact ⟨raisedName name, by rw [readName_raised hs h, unmoved (by simp [hs])]⟩

section Reasons

variable {s : Spec} (short : ¬ Overlong source raise s.longName ∧ ¬ Overlong source raise s.shortName)
include short

theorem unreadable_of_floor {n : Int} (floor : s.floor? source raise = some n) :
    Unreadable source raise s ↔ s.altitude = none ∧ (Float.ofInt n).isInf = true := by
  constructor
  · intro h
    cases h with
    | overlong h => exact absurd h (not_or.2 short)
    | beyond floor' altitude huge =>
      cases floor.symm.trans floor'
      exact ⟨altitude, huge⟩
    | endless floor' altitude far => cases floor.symm.trans floor'
  · exact fun h => .beyond floor h.1 h.2

theorem unreadable_of_no_floor (floor : s.floor? source raise = none) :
    Unreadable source raise s ↔ ∃ a, s.altitude = some a ∧ (a / metresPerFloor).isFinite = false := by
  constructor
  · intro h
    cases h with
    | overlong h => exact absurd h (not_or.2 short)
    | beyond floor' altitude huge => cases floor.symm.trans floor'
    | endless floor' altitude far => exact ⟨_, altitude, far⟩
  · rintro ⟨a, altitude, far⟩
    exact .endless floor altitude far

end Reasons

inductive Reads (source : LevelSource) (raise : Bool) (s : Spec) :
    Except NumeralError (Level × Option Doubt) → Prop
  | error {e : NumeralError} (reason : Unreadable source raise s) : Reads source raise s (.error e)
  | ok {level : Level} {doubt : Option Doubt} (readable : ¬ Unreadable source raise s)
      (reliable : level.reliable = true ↔ s.floor? source raise ≠ none) :
      Reads source raise s (.ok (level, doubt))

theorem reads (spec : String) (source : LevelSource) (raise : Bool) :
    Reads source raise (Spec.ofText spec) (read spec source raise) := by
  rw [read]
  generalize Spec.ofText spec = s
  by_cases hl : Overlong source raise s.longName
  · rw [readName_of_overlong hl]
    exact .error (.overlong (.inl hl))
  by_cases hs : Overlong source raise s.shortName
  · obtain ⟨longName, hl'⟩ := readName_of_short hl
    rw [hl', readName_of_overlong hs]
    exact .error (.overlong (.inr hs))
  obtain ⟨longName, hl'⟩ := readName_of_short hl
  obtain ⟨shortName, hs'⟩ := readName_of_short hs
  simp only [hl', hs', bind, Except.bind, pure, Except.pure]
  cases hf : (floor? source raise s.shortName <|> floor? source raise s.longName) with
  | some n =>
    have floor : s.floor? source raise = some n := hf
    have reason := unreadable_of_floor ⟨hl, hs⟩ floor
    dsimp only
    cases ha : altitudeOf n s.altitude with
    | error e => exact .error (reason.2 (altitudeOf_eq_error.1 ⟨e, ha⟩))
    | ok a =>
      refine .ok (fun unreadable => ?_) (by simp [floor])
      simpa [ha] using altitudeOf_eq_error.2 (reason.1 unreadable)
  | none =>
    have floor : s.floor? source raise = none := hf
    have reason := unreadable_of_no_floor ⟨hl, hs⟩ floor
    cases ha : s.altitude with
    | none => exact .ok (by simp [reason, ha]) (by simp [floor])
    | some a =>
      dsimp only
      cases ht : Numeral.truncate (a / metresPerFloor) with
      | error e => exact .error (reason.2 ⟨a, ha, Numeral.truncate_eq_error.1 ⟨e, ht⟩⟩)
      | ok n =>
        refine .ok (fun unreadable => ?_) (by simp [floor])
        have far := reason.1 unreadable
        simp only [ha, Option.some.injEq, exists_eq_left'] at far
        simpa [ht] using Numeral.truncate_eq_error.2 far

theorem read_eq_error :
    (∃ e, read spec source raise = .error e) ↔ Unreadable source raise (Spec.ofText spec) := by
  have h := reads spec source raise
  cases hr : read spec source raise with
  | error e =>
    rw [hr] at h
    cases h with
    | error reason => simp [reason]
  | ok found =>
    rw [hr] at h
    cases h with
    | ok readable reliable => simp [readable]

theorem reliable_of_read {level : Level} {doubt : Option Doubt}
    (h : read spec source raise = .ok (level, doubt)) :
    level.reliable = true ↔ (Spec.ofText spec).floor? source raise ≠ none := by
  have hr := reads spec source raise
  rw [h] at hr
  cases hr with
  | ok readable reliable => exact reliable

theorem readLogged_of_error {e : NumeralError} (h : read spec source raise = .error e) :
    readLogged spec source raise = ⟨[], .error (.number e)⟩ := by
  delta readLogged
  rw [h]

theorem readLogged_of_ok {level : Level} {doubt : Option Doubt}
    (h : read spec source raise = .ok (level, doubt)) :
    readLogged spec source raise =
      ⟨doubt.toList.map fun d => .line .warning d.message, .ok level⟩ := by
  delta readLogged
  rw [h]

theorem readLogged_findings (spec : String) (source : LevelSource) (raise : Bool) :
    (readLogged spec source raise).findings = [] := by
  cases h : read spec source raise with
  | error e => rw [readLogged_of_error h]; rfl
  | ok found =>
    obtain ⟨level, doubt⟩ := found
    rw [readLogged_of_ok h]
    cases doubt <;> rfl

def ReadableList (list : String) (source : LevelSource) (raise : Bool) : Prop :=
  ∃ specs, expandList list = .ok specs ∧ ∀ spec ∈ specs, ¬ Unreadable source raise (Spec.ofText spec)

theorem readLogged_ok : (∃ level, (readLogged spec source raise).result = .ok level) ↔
    ¬ Unreadable source raise (Spec.ofText spec) := by
  rw [← read_eq_error]
  cases h : read spec source raise with
  | error e => simp [readLogged_of_error h]
  | ok found => simp [readLogged_of_ok h]

theorem readMap_ok {list : String} : (∃ levels, (readMap list source raise).result = .ok levels) ↔
    ReadableList list source raise := by
  have values : (∃ levels, (readMap list source raise).result = .ok levels) ↔
      ∃ levels, (readList list source raise).result = .ok levels := by
    rw [readMap, Logged.bind_result]
    cases (readList list source raise).result with
    | error e => simp [Except.bind]
    | ok levels => simp [Except.bind]
  rw [values, readList, ReadableList, Logged.bind_result]
  cases expandList list with
  | error e => simp [Logged.ofExcept, Json.number, Except.bind]
  | ok specs =>
    simp only [Except.ok.injEq, exists_eq_left', ← readLogged_ok]
    exact Logged.mapM_result_ok

section Sources

def Spec.situate (s : Spec) : Option Int → Except NumeralError (Int × Option Float × Option Doubt)
  | some n => (altitudeOf n s.altitude).map fun a => (n, some a, none)
  | none =>
    match s.altitude with
    | some a => (Numeral.truncate (a / metresPerFloor)).map fun n => (n, some a, some (.guessed s.body n))
    | none => .ok (0, none, some (.unreadable s.body))

theorem read_eq_ok {level : Level} {doubt : Option Doubt}
    (h : read spec source raise = .ok (level, doubt)) :
    ∃ longFloor longName shortFloor shortName floor altitude,
      readName source raise (Spec.ofText spec).longName = .ok (longFloor, longName) ∧
      readName source raise (Spec.ofText spec).shortName = .ok (shortFloor, shortName) ∧
      (Spec.ofText spec).situate (shortFloor <|> longFloor) = .ok (floor, altitude, doubt) ∧
      level = ⟨floor, altitude, shortName, longName, source, (shortFloor <|> longFloor).isSome⟩ := by
  rw [read] at h
  obtain ⟨⟨longFloor, longName⟩, long, h⟩ := bind_eq_ok.1 h
  obtain ⟨⟨shortFloor, shortName⟩, short, h⟩ := bind_eq_ok.1 h
  refine ⟨longFloor, longName, shortFloor, shortName, level.floor, level.altitude, long, short, ?_⟩
  dsimp only at h
  split at h
  · rename_i floor altitude hf
    obtain ⟨a, ha, h⟩ := bind_eq_ok.1 h
    cases h
    rw [hf]
    exact ⟨by rw [Spec.situate, ha]; rfl, rfl⟩
  · rename_i a hf ha
    obtain ⟨floor, ht, h⟩ := bind_eq_ok.1 h
    cases h
    rw [hf]
    exact ⟨by rw [Spec.situate, ha]; dsimp only; rw [ht]; rfl, rfl⟩
  · rename_i hf ha
    cases h
    rw [hf]
    exact ⟨by rw [Spec.situate, ha], rfl⟩

theorem source_of_read {level : Level} {doubt : Option Doubt}
    (h : read spec source raise = .ok (level, doubt)) : level.source = source := by
  obtain ⟨_, _, _, _, _, _, -, -, -, rfl⟩ := read_eq_ok h
  rfl

theorem source_of_readLogged {level : Level} (h : (readLogged spec source raise).result = .ok level) :
    level.source = source := by
  cases hr : read spec source raise with
  | error e =>
    rw [readLogged_of_error hr] at h
    cases h
  | ok found =>
    rw [readLogged_of_ok hr] at h
    cases h
    exact source_of_read hr

theorem source_of_readList {list : String} {levels : List Level}
    (h : (readList list source raise).result = .ok levels) : ∀ level ∈ levels, level.source = source := by
  rw [readList, Logged.bind_result] at h
  obtain ⟨specs, -, h⟩ := bind_eq_ok.1 h
  rw [Logged.mapM_result] at h
  intro level hl
  obtain ⟨spec, -, read⟩ := exists_of_mem_mapM h level hl
  exact source_of_readLogged read

theorem source_of_readMap {list name : String} {levels : Table String Level} {level : Level}
    (h : (readMap list source raise).result = .ok levels) (hl : levels.get? name = some level) :
    level.source = source := by
  rw [readMap, Logged.bind_result] at h
  obtain ⟨ls, hls, h⟩ := bind_eq_ok.1 h
  cases h
  rw [get?_byShortName] at hl
  exact source_of_readList hls level (List.mem_of_mem_filter (List.mem_of_getLast? hl))

end Sources

section Numbering

/-- A level of a tag as it is shown where floors count from one; the names of other levels stay. -/
def raised (l : Level) : Level :=
  if l.source = .levelTag ∨ l.source = .layerTag then
    { l with shortName := raisedName l.shortName, longName := raisedName l.longName }
  else l

theorem raised_of_other {l : Level} (other : ¬ (l.source = .levelTag ∨ l.source = .layerTag)) :
    l.raised = l := if_neg other

@[simp] theorem raised_reliable (l : Level) : l.raised.reliable = l.reliable := by
  rw [raised]
  split <;> rfl

theorem read_literal {level : Level} {doubt : Option Doubt}
    (h : read spec source false = .ok (level, doubt)) :
    level.shortName = (Spec.ofText spec).shortName ∧ level.longName = (Spec.ofText spec).longName := by
  obtain ⟨_, _, _, _, _, _, long, short, -, rfl⟩ := read_eq_ok h
  rw [readName_literal] at long short
  obtain ⟨-, rfl⟩ := Prod.mk.inj (Except.ok.inj long)
  obtain ⟨-, rfl⟩ := Prod.mk.inj (Except.ok.inj short)
  exact ⟨rfl, rfl⟩

theorem read_raised (tag : source = .levelTag ∨ source = .layerTag) {level shown : Level}
    {doubt doubt' : Option Doubt} (h : read spec source true = .ok (shown, doubt))
    (h' : read spec source false = .ok (level, doubt')) : shown = level.raised ∧ doubt = doubt' := by
  have readable : ¬ Unreadable source true (Spec.ofText spec) := by
    rw [← read_eq_error, h]
    exact nofun
  have other : source ≠ .levelMap := by rintro rfl; simp at tag
  obtain ⟨_, _, _, _, floor, altitude, long, short, situated, rfl⟩ := read_eq_ok h
  obtain ⟨_, _, _, _, floor', altitude', long', short', situated', rfl⟩ := read_eq_ok h'
  rw [readName_raised other fun overlong => readable (.overlong (.inl overlong))] at long
  rw [readName_raised other fun overlong => readable (.overlong (.inr overlong))] at short
  rw [readName_literal] at long' short'
  obtain ⟨rfl, rfl⟩ := Prod.mk.inj (Except.ok.inj long)
  obtain ⟨rfl, rfl⟩ := Prod.mk.inj (Except.ok.inj short)
  obtain ⟨rfl, rfl⟩ := Prod.mk.inj (Except.ok.inj long')
  obtain ⟨rfl, rfl⟩ := Prod.mk.inj (Except.ok.inj short')
  obtain ⟨rfl, same⟩ := Prod.mk.inj (Except.ok.inj (situated.symm.trans situated'))
  obtain ⟨rfl, rfl⟩ := Prod.mk.inj same
  refine ⟨?_, rfl⟩
  rw [raised, if_pos tag]

end Numbering

end Level

end StreetMap
