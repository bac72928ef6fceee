import StreetMap.Proofs.Number.Numeral
import StreetMap.Proofs.Schedule
import StreetMap.Proofs.Text.Pieces
import StreetMap.Standard

/-!
The grammar of schedules.  Times pair up in order, and each is an hour or an hour and a minute around a
colon; days go by their names or the beginnings of these.  A text outside of the grammar is refused with what
is wrong in it, and nothing else stops the reading.
-/

namespace StreetMap

namespace Schedule

open Text

section Grammar

variable [Limits] (text : String)

inductive IsClock : Int → Int → Prop
  | hours {h : Int} (whole : Numeral.readInt text = .ok h) : IsClock h 0
  | minutes {a b : String} {h m : Int} (parts : text = a ++ ":" ++ b) (before : Numeral.readInt a = .ok h)
    (after : Numeral.readInt b = .ok m) : IsClock h m

def IsTime (second : Nat) : Prop :=
  ∃ h m : Nat, IsClock (trim text) h m ∧ h ≤ 24 ∧ m ≤ 59 ∧ h * 60 + m ≤ 1440 ∧
    second = (h * 60 + m) * 60

def IsDayName (day : Weekday) : Prop :=
  ∃ name, dayNames[day.val]? = some name ∧
    ∃ n ∈ [2, 3, name.length], (lower (trim text)).toList = name.toList.take n

end Grammar

section Texts

variable [Limits] (dayOn dayOff hourOn hourOff : String)

/-- Texts that make up a schedule: times that pair up, and two weekdays. -/
structure AreTimes : Prop where
  paired : (split ";" hourOn).length = (split ";" hourOff).length
  times : ∀ text ∈ split ";" hourOn ++ split ";" hourOff, ∃ s, IsTime text s
  firstDay : ∃ d, IsDayName dayOn d
  lastDay : ∃ d, IsDayName dayOff d

/-- What a failure to read the texts says is wrong with them. -/
inductive Rejects : ScheduleError → Prop
  | unpaired (odd : (split ";" hourOn).length ≠ (split ";" hourOff).length) :
    Rejects (.unpairedHours hourOn hourOff)
  | malformed {text : String} (part : text ∈ split ";" hourOn ++ split ";" hourOff)
    (parts : 2 < (split ":" (trim text)).length) : Rejects (.malformedHour text)
  | notInteger {text number : String} (part : text ∈ split ";" hourOn ++ split ";" hourOff)
    (within : number ∈ split ":" (trim text))
    (failed : Numeral.readInt number = .error (.notInteger number)) : Rejects (.number (.notInteger number))
  | tooManyDigits {text number : String} {n : Nat} (part : text ∈ split ";" hourOn ++ split ";" hourOff)
    (within : number ∈ split ":" (trim text)) (long : Numeral.permits n = false)
    (failed : Numeral.readInt number = .error (.tooManyDigits n)) : Rejects (.number (.tooManyDigits n))
  | outOfRange {text : String} {h m : Int} (part : text ∈ split ";" hourOn ++ split ";" hourOff)
    (clock : IsClock (trim text) h m) (out : ¬ ∃ s, IsTime text s) : Rejects (.hourOutOfRange text)
  | unknownDay {text : String} (day : text = dayOn ∨ text = dayOff) (unknown : ∀ d, ¬ IsDayName text d) :
    Rejects (.unknownDay text)

/-- What the texts say of a schedule: its windows, and the cyclic range of the weekdays that have them. -/
structure Describes (p : Schedule) (first last : Weekday) (ws : List Window) : Prop where
  firstDay : IsDayName dayOn first
  lastDay : IsDayName dayOff last
  opening : List.Forall₂ IsTime (split ";" hourOn) (ws.map Window.start)
  closing : List.Forall₂ IsTime (split ";" hourOff) (ws.map Window.stop)
  within : ∀ w ∈ ws, w.start ≤ secondsPerDay ∧ w.stop ≤ secondsPerDay
  days : ∀ d, p.windows d = if ((d : Int) - first) % 7 ≤ ((last : Int) - first) % 7 then ws else []

end Texts

variable {dayOn dayOff hourOn hourOff text : String}

section Days

theorem isNamed_iff {name word : String} :
    isNamed name word = true ↔ ∃ n ∈ [2, 3, name.length], word.toList = name.toList.take n := by
  have whole : name.toList.take name.length = name.toList := List.take_of_length_le (Nat.le_refl _)
  have start (n : Nat) : (name.take n).toString.toList = name.toList.take n := String.toList_copy_take
  simp only [isNamed, Bool.or_eq_true, decide_eq_true_eq, ← String.toList_inj, start, List.mem_cons,
    List.not_mem_nil, or_false, exists_eq_or_imp, exists_eq_left, whole]
  tauto

theorem names_apart : ∀ a ∈ dayNames, ∀ b ∈ dayNames, ∀ n ∈ [2, 3, a.length],
    ∀ k ∈ [2, 3, b.length], a.toList.take n = b.toList.take k → a = b := by decide

theorem IsDayName.unique {d d' : Weekday} (h : IsDayName text d) (h' : IsDayName text d') : d = d' := by
  obtain ⟨name, at_d, n, hn, word⟩ := h
  obtain ⟨name', at_d', n', hn', word'⟩ := h'
  have same : name = name' := by
    refine names_apart name (List.mem_of_getElem? at_d) name' (List.mem_of_getElem? at_d') n hn n' hn' ?_
    rw [← word, ← word']
  have distinct : dayNames.Nodup := by decide
  exact Fin.ext ((List.getElem?_inj d.isLt distinct).1 (by rw [at_d, at_d', same]))

theorem readDay_cases (text : String) :
    (∃ d, IsDayName text d ∧ readDay text = .ok d) ∨
      (∀ d, ¬ IsDayName text d) ∧ readDay text = .error (.unknownDay text) := by
  rw [readDay]
  cases found : dayNames.findIdx? (isNamed · (lower (trim text))) with
  | some i =>
    obtain ⟨hi, named, -⟩ := List.findIdx?_eq_some_iff_getElem.1 found
    have index : (Fin.ofNat 7 i).val = i := Nat.mod_eq_of_lt hi
    refine .inl ⟨_, ⟨dayNames[i], ?_, isNamed_iff.1 named⟩, rfl⟩
    rw [index, List.getElem?_eq_getElem hi]
  | none =>
    rw [List.findIdx?_eq_none_iff] at found
    refine .inr ⟨?_, rfl⟩
    rintro d ⟨name, at_d, named⟩
    exact Bool.noConfusion ((isNamed_iff.2 named).symm.trans (found name (List.mem_of_getElem? at_d)))

theorem readDay_eq_ok {d : Weekday} : readDay text = .ok d ↔ IsDayName text d := by
  obtain ⟨d', named, read⟩ | ⟨unnamed, read⟩ := readDay_cases text
  · rw [read, Except.ok.injEq]
    constructor
    · rintro rfl
      exact named
    · exact named.unique
  · rw [read]
    exact ⟨nofun, fun named => absurd named (unnamed d)⟩

end Days

section Hours

theorem secondOf_eq_ok {h m : Int} {s : Nat} : secondOf text h m = .ok s ↔
    ∃ a b : Nat, h = a ∧ m = b ∧
      a ≤ 24 ∧ b ≤ 59 ∧ a * 60 + b ≤ 1440 ∧ s = (a * 60 + b) * 60 := by
  rw [secondOf, secondsPerDay]
  dsimp only
  constructor
  · intro read
    split at read
    · split at read
      · cases read
        exact ⟨h.toNat, m.toNat, by omega, by omega, by omega, by omega, by omega, by omega⟩
      · cases read
    · cases read
  · rintro ⟨a, b, rfl, rfl, ha, hb, within, rfl⟩
    rw [if_pos (by omega), if_pos (by omega)]
    exact congrArg Except.ok (by omega)

theorem secondOf_eq_error {h m : Int} {e : ScheduleError} (failed : secondOf text h m = .error e) :
    e = .hourOutOfRange text := by
  rw [secondOf] at failed
  dsimp only at failed
  split at failed
  · split at failed
    · cases failed
    · cases failed
      rfl
  · cases failed
    rfl

variable [Limits]

theorem colon_not_mem {n : Int} (h : Numeral.readInt text = .ok n) :
    ¬ (":" : String).toList <:+: text.toList := by
  intro colon
  have := Numeral.mem_of_readInt h (colon.subset (List.mem_singleton_self ':'))
  revert this
  decide

theorem split_of_readInt {n : Int} (h : Numeral.readInt text = .ok n) : split ":" text = [text] :=
  split_of_absent (colon_not_mem h)

theorem isClock_iff {h m : Int} : IsClock text h m ↔
    (split ":" text = [text] ∧ Numeral.readInt text = .ok h ∧ m = 0) ∨
      ∃ a b, split ":" text = [a, b] ∧ Numeral.readInt a = .ok h ∧ Numeral.readInt b = .ok m := by
  constructor
  · rintro (hours | ⟨rfl, hours, minutes⟩)
    · exact .inl ⟨split_of_readInt hours, hours, rfl⟩
    · refine .inr ⟨_, _, ?_, hours, minutes⟩
      rw [split_append (by decide) (by decide), split_of_readInt hours, split_of_readInt minutes]
      rfl
  · rintro (⟨-, hours, rfl⟩ | ⟨a, b, parts, hours, minutes⟩)
    · exact .hours hours
    · refine .minutes ?_ hours minutes
      have joined : String.intercalate ":" (split ":" text) = text := intercalate_split (by decide) text
      rw [parts] at joined
      rw [← joined]
      rfl

theorem readPart_ok {n : Int} (h : Numeral.readInt text = .ok n) : readPart text = .ok n := by
  rw [readPart, h]

theorem readPart_error {e : NumeralError} (h : Numeral.readInt text = .error e) :
    readPart text = .error (.number e) := by
  rw [readPart, h]

theorem readHour_of_clock {h m : Int} (clock : IsClock (trim text) h m) :
    readHour text = secondOf text h m := by
  rw [readHour]
  obtain ⟨parts, hours, rfl⟩ | ⟨a, b, parts, hours, minutes⟩ := isClock_iff.1 clock
  · rw [parts]
    dsimp only
    rw [readPart_ok hours]
    rfl
  · rw [parts]
    dsimp only
    rw [readPart_ok hours, readPart_ok minutes]
    rfl

theorem readHour_cases (text : String) :
    (∃ h m, IsClock (trim text) h m) ∨
    (2 < (split ":" (trim text)).length ∧ readHour text = .error (.malformedHour text)) ∨
    ∃ number ∈ split ":" (trim text), ∃ e, Numeral.readInt number = .error e ∧
      readHour text = .error (.number e) := by
  have joined : String.intercalate ":" (split ":" (trim text)) = trim text := intercalate_split (by decide) _
  rw [readHour]
  rcases parts : split ":" (trim text) with _ | ⟨a, _ | ⟨b, _ | ⟨c, cs⟩⟩⟩
  · have some := piecesFrom_ne_nil (":" : String).toList 0 (trim text).toList
    exact absurd (List.map_eq_nil_iff.1 parts) some
  · rw [parts, String.intercalate_singleton] at joined
    cases hours : Numeral.readInt a with
    | ok h => exact .inl ⟨h, 0, .hours (joined ▸ hours)⟩
    | error e =>
      refine .inr (.inr ⟨a, List.mem_cons_self, e, hours, ?_⟩)
      dsimp only
      rw [readPart_error hours]
      rfl
  · cases hours : Numeral.readInt a with
    | error e =>
      refine .inr (.inr ⟨a, List.mem_cons_self, e, hours, ?_⟩)
      dsimp only
      rw [readPart_error hours]
      rfl
    | ok h =>
      cases minutes : Numeral.readInt b with
      | error e =>
        refine .inr (.inr ⟨b, by simp, e, minutes, ?_⟩)
        dsimp only
        rw [readPart_ok hours, readPart_error minutes]
        rfl
      | ok m => exact .inl ⟨h, m, isClock_iff.2 (.inr ⟨a, b, parts, hours, minutes⟩)⟩
  · exact .inr (.inl ⟨by simp, rfl⟩)

theorem readHour_eq_ok {s : Nat} : readHour text = .ok s ↔ IsTime text s := by
  constructor
  · intro read
    obtain ⟨h, m, clock⟩ | ⟨-, failed⟩ | ⟨_, -, _, -, failed⟩ := readHour_cases text
    · rw [readHour_of_clock clock, secondOf_eq_ok] at read
      obtain ⟨a, b, rfl, rfl, time⟩ := read
      exact ⟨a, b, clock, time⟩
    · cases failed.symm.trans read
    · cases failed.symm.trans read
  · rintro ⟨h, m, clock, time⟩
    rw [readHour_of_clock clock, secondOf_eq_ok]
    exact ⟨h, m, rfl, rfl, time⟩

theorem rejects_of_readHour {e : ScheduleError} (part : text ∈ split ";" hourOn ++ split ";" hourOff)
    (failed : readHour text = .error e) : Rejects dayOn dayOff hourOn hourOff e := by
  obtain ⟨h, m, clock⟩ | ⟨parts, cause⟩ | ⟨number, within, _, misread, cause⟩ := readHour_cases text
  · have out : ¬ ∃ s, IsTime text s := by
      rintro ⟨s, time⟩
      cases (readHour_eq_ok.2 time).symm.trans failed
    rw [readHour_of_clock clock] at failed
    rw [secondOf_eq_error failed]
    exact .outOfRange part clock out
  · cases cause.symm.trans failed
    exact .malformed part parts
  · cases cause.symm.trans failed
    obtain rfl | ⟨n, long, rfl⟩ := Numeral.readInt_eq_error misread
    · exact .notInteger part within misread
    · exact .tooManyDigits part within long misread

end Hours

section Windows

variable [Limits] {ws : List Window}

theorem readWindows_eq_ok : readWindows hourOn hourOff = .ok ws ↔
    List.Forall₂ IsTime (split ";" hourOn) (ws.map Window.start) ∧
      List.Forall₂ IsTime (split ";" hourOff) (ws.map Window.stop) := by
  rw [readWindows]
  dsimp only
  split
  · rename_i paired
    rw [mapM_eq_ok, ← forall₂_zip_iff paired]
    simp only [readWindow_eq_ok, readHour_eq_ok]
  · rename_i odd
    constructor
    · intro read
      cases read
    · rintro ⟨opening, closing⟩
      refine absurd ?_ odd
      rw [opening.length_eq, closing.length_eq, List.length_map, List.length_map]

theorem readWindow_eq_error {opening closing : String} {e : ScheduleError}
    (h : readWindow opening closing = .error e) :
    readHour opening = .error e ∨ readHour closing = .error e := by
  cases start : readHour opening with
  | error e' =>
    rw [readWindow, start] at h
    cases h
    exact .inl rfl
  | ok s =>
    cases stop : readHour closing with
    | error e' =>
      rw [readWindow, start, stop] at h
      cases h
      exact .inr rfl
    | ok s' =>
      rw [readWindow, start, stop] at h
      cases h

theorem rejects_of_readWindows {e : ScheduleError} (failed : readWindows hourOn hourOff = .error e) :
    Rejects dayOn dayOff hourOn hourOff e := by
  rw [readWindows] at failed
  dsimp only at failed
  split at failed
  · obtain ⟨⟨opening, closing⟩, pair, failed⟩ := exists_of_mapM_error failed
    obtain ⟨on, off⟩ := List.of_mem_zip pair
    obtain failed | failed := readWindow_eq_error failed
    · exact rejects_of_readHour (List.mem_append_left _ on) failed
    · exact rejects_of_readHour (List.mem_append_right _ off) failed
  · cases failed
    exact .unpaired ‹_›

end Windows

theorem mem_daysBetween_iff (first last d : Weekday) :
    d ∈ daysBetween first last ↔ ((d : Int) - first) % 7 ≤ ((last : Int) - first) % 7 := by
  revert first last d
  decide

section Texts

variable [Limits]

theorem rejects_of_read {e : ScheduleError} (failed : read dayOn dayOff hourOn hourOff = .error e) :
    Rejects dayOn dayOff hourOn hourOff e := by
  rw [read] at failed
  cases windows : readWindows hourOn hourOff with
  | error e' =>
    rw [windows] at failed
    cases failed
    exact rejects_of_readWindows windows
  | ok ws =>
    obtain ⟨first, -, read⟩ | ⟨unknown, read⟩ := readDay_cases dayOn
    · obtain ⟨last, -, read'⟩ | ⟨unknown, read'⟩ := readDay_cases dayOff
      · rw [windows, read, read'] at failed
        cases failed
      · rw [windows, read, read'] at failed
        cases failed
        exact .unknownDay (.inr rfl) unknown
    · rw [windows, read] at failed
      cases failed
      exact .unknownDay (.inl rfl) unknown

theorem IsClock.reads {h m : Int} (clock : IsClock text h m) :
    (split ":" text).length ≤ 2 ∧ ∀ number ∈ split ":" text, ∃ n, Numeral.readInt number = .ok n := by
  obtain ⟨parts, hours, -⟩ | ⟨a, b, parts, hours, minutes⟩ := isClock_iff.1 clock
  · rw [parts]
    exact ⟨by simp, by simpa using ⟨h, hours⟩⟩
  · rw [parts]
    exact ⟨by simp, by simpa using ⟨⟨h, hours⟩, ⟨m, minutes⟩⟩⟩

theorem Rejects.not_areTimes {e : ScheduleError} (rejected : Rejects dayOn dayOff hourOn hourOff e) :
    ¬ AreTimes dayOn dayOff hourOn hourOff := by
  intro times
  have clock {text : String} (part : text ∈ split ";" hourOn ++ split ";" hourOff) :
      (split ":" (trim text)).length ≤ 2 ∧
        ∀ number ∈ split ":" (trim text), ∃ n, Numeral.readInt number = .ok n := by
    obtain ⟨_, _, _, clock, _⟩ := times.times text part
    exact clock.reads
  cases rejected with
  | unpaired odd => exact odd times.paired
  | malformed part parts => exact absurd (clock part).1 (by omega)
  | notInteger part within failed =>
    obtain ⟨n, read⟩ := (clock part).2 _ within
    cases failed.symm.trans read
  | tooManyDigits part within _ failed =>
    obtain ⟨n, read⟩ := (clock part).2 _ within
    cases failed.symm.trans read
  | outOfRange part _ out => exact out (times.times _ part)
  | unknownDay day unknown =>
    obtain rfl | rfl := day
    · exact times.firstDay.elim unknown
    · exact times.lastDay.elim unknown

theorem describes_of_read {p : Schedule} (h : read dayOn dayOff hourOn hourOff = .ok p) :
    ∃ first last ws, Describes dayOn dayOff hourOn hourOff p first last ws := by
  obtain ⟨ws, first, last, windows, on, off, rfl⟩ := read_eq_ok h
  obtain ⟨opening, closing⟩ := readWindows_eq_ok.1 windows
  have within {texts : List String} {times : List Nat} (h : List.Forall₂ IsTime texts times) :
      ∀ s ∈ times, s ≤ secondsPerDay := by
    intro s hs
    obtain ⟨text, -, time⟩ := exists_of_forall₂ h.flip hs
    exact readHour_le (readHour_eq_ok.2 time)
  refine ⟨first, last, ws, readDay_eq_ok.1 on, readDay_eq_ok.1 off, opening, closing,
    fun w hw => ?_, fun d => ?_⟩
  · exact ⟨within opening _ (List.mem_map_of_mem hw), within closing _ (List.mem_map_of_mem hw)⟩
  · simp only [onDays, mem_daysBetween_iff]

theorem Describes.areTimes {p : Schedule} {first last : Weekday} {ws : List Window}
    (h : Describes dayOn dayOff hourOn hourOff p first last ws) : AreTimes dayOn dayOff hourOn hourOff where
  paired := by rw [h.opening.length_eq, h.closing.length_eq, List.length_map, List.length_map]
  times text part := by
    obtain part | part := List.mem_append.1 part
    · obtain ⟨s, -, time⟩ := exists_of_forall₂ h.opening part
      exact ⟨s, time⟩
    · obtain ⟨s, -, time⟩ := exists_of_forall₂ h.closing part
      exact ⟨s, time⟩
  firstDay := ⟨first, h.firstDay⟩
  lastDay := ⟨last, h.lastDay⟩

/-- Four texts are read as a schedule just if they follow the grammar of times and days.  A failure says what
in them does not, and a schedule has the windows that they list on the days of their range. -/
theorem read_by_grammar (dayOn dayOff hourOn hourOff : String) :
    ((∃ p, read dayOn dayOff hourOn hourOff = .ok p) ↔ AreTimes dayOn dayOff hourOn hourOff) ∧
    (∀ e, read dayOn dayOff hourOn hourOff = .error e → Rejects dayOn dayOff hourOn hourOff e) ∧
    ∀ p, read dayOn dayOff hourOn hourOff = .ok p →
      p.toList.length = 7 ∧ ∃ first last ws, Describes dayOn dayOff hourOn hourOff p first last ws := by
  refine ⟨⟨?_, fun times => ?_⟩, fun e => rejects_of_read, fun p h => ⟨?_, describes_of_read h⟩⟩
  · rintro ⟨p, h⟩
    obtain ⟨first, last, ws, described⟩ := describes_of_read h
    exact described.areTimes
  · cases h : read dayOn dayOff hourOn hourOff with
    | ok p => exact ⟨p, rfl⟩
    | error e => exact absurd times (rejects_of_read h).not_areTimes
  · rw [toList, List.length_map, List.length_finRange]

end Texts

def longWeekend : Schedule :=
  onDays ⟨5, by decide⟩ ⟨1, by decide⟩ [⟨81000, 21600⟩, ⟨25200, 86400⟩]

open Standard in
theorem longWeekend_by_grammar :
    AreTimes " Sat" "TUESDAY" "22:30; 7" "+6 ;24:00" ∧
      (∃ first last ws, Describes " Sat" "TUESDAY" "22:30; 7" "+6 ;24:00" longWeekend first last ws) ∧
      Rejects " Sat" "TUESDAY" "22:30; 7" "+6 ;24:01" (.hourOutOfRange "24:01") := by
  have weekend : read " Sat" "TUESDAY" "22:30; 7" "+6 ;24:00" = .ok longWeekend := rfl
  have late : read " Sat" "TUESDAY" "22:30; 7" "+6 ;24:01" = .error (.hourOutOfRange "24:01") := rfl
  have accepted := read_by_grammar " Sat" "TUESDAY" "22:30; 7" "+6 ;24:00"
  exact ⟨accepted.1.1 ⟨_, weekend⟩, (accepted.2.2 _ weekend).2, (read_by_grammar _ _ _ _).2.1 _ late⟩

end Schedule
end StreetMap
