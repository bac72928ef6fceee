import Mathlib.Tactic.Tauto
import StreetMap.Proofs.Computation
import StreetMap.Schedule
import StreetMap.Standard

/-!
When a schedule is active.  A moment is judged by the windows of its own weekday alone.  So the early hours of
a window past midnight count for the day on which the window opens, where its times put them on the day after
that; the two differ just where one of these days has windows and the other has none.
-/

namespace StreetMap

def Moment.seconds (m : Moment) : Int := m.day * Schedule.secondsPerDay + m.second

namespace Window

variable {w : Window} {s : Nat}

def IsOpen (w : Window) (s : Nat) : Prop := w.start ≤ s ∧ (w.stop < w.start ∨ s < w.stop)

def IsStillOpen (w : Window) (s : Nat) : Prop := w.stop < w.start ∧ s < w.stop

theorem covers_iff : w.covers s = true ↔ w.IsOpen s ∨ w.IsStillOpen s := by
  rw [covers, IsOpen, IsStillOpen]
  split <;> simp <;> omega

end Window

namespace Schedule

open Text

section Times

variable [Limits] (dayOn dayOff hourOn hourOff : String)

/-- A day whose weekday is in the cyclic range from one weekday to another. -/
def IsDay (day : Int) : Prop :=
  ∃ first last, readDay dayOn = .ok first ∧ readDay dayOff = .ok last ∧
    Moment.weekday ⟨day, 0⟩ - first ≤ last - first

/-- A window from an hour of opening to the hour of closing in the same place. -/
def Opens (w : Window) : Prop :=
  ∃ (i : Nat) (opening closing : String), (split ";" hourOn)[i]? = some opening ∧
    (split ";" hourOff)[i]? = some closing ∧ readHour opening = .ok w.start ∧ readHour closing = .ok w.stop

/-- A window of some day holds the moment.  One that stops before it starts runs into the next day. -/
def InForce (m : Moment) : Prop :=
  ∃ day w, IsDay dayOn dayOff day ∧ Opens hourOn hourOff w ∧ Moment.seconds ⟨day, w.start⟩ ≤ m.seconds ∧
    m.seconds < Moment.seconds ⟨if w.stop < w.start then day + 1 else day, w.stop⟩

/-- Early hours that count for another day than their own: the day on which their window opens has windows
and the day itself has none, or the other way round, with no other window of the day itself. -/
def IsMisdated (m : Moment) : Prop :=
  (∃ w, Opens hourOn hourOff w ∧ w.IsStillOpen m.second) ∧
    (IsDay dayOn dayOff (m.day - 1) ∧ ¬ IsDay dayOn dayOff m.day ∨
      IsDay dayOn dayOff m.day ∧ ¬ IsDay dayOn dayOff (m.day - 1) ∧
        ∀ w, Opens hourOn hourOff w → ¬ w.IsOpen m.second)

end Times

variable {dayOn dayOff hourOn hourOff : String} {ws : List Window} {w : Window} {m : Moment} {p : Schedule}

theorem mem_daysBetween (first last d : Weekday) : d ∈ daysBetween first last ↔ d - first ≤ last - first := by
  revert first last d
  decide

section Reading

theorem secondOf_le {text : String} {hours minutes : Int} {s : Nat} (h : secondOf text hours minutes = .ok s) :
    s ≤ secondsPerDay := by
  simp only [secondOf] at h
  split at h
  · split at h
    · cases h
      assumption
    · cases h
  · cases h

variable [Limits]

theorem readWindow_eq_ok {opening closing : String} :
    readWindow opening closing = .ok w ↔ readHour opening = .ok w.start ∧ readHour closing = .ok w.stop := by
  have unfolded : readWindow opening closing =
      (readHour opening).bind fun start => (readHour closing).map (Window.mk start) := by
    cases start : readHour opening <;> cases stop : readHour closing <;>
      simp [readWindow, start, stop, bind, Except.bind, Except.map, pure, Except.pure]
  simp only [unfolded, bind_eq_ok, map_eq_ok]
  constructor
  · rintro ⟨start, hstart, stop, hstop, rfl⟩
    exact ⟨hstart, hstop⟩
  · rintro ⟨hstart, hstop⟩
    exact ⟨_, hstart, _, hstop, rfl⟩

theorem mem_readWindows (h : readWindows hourOn hourOff = .ok ws) : w ∈ ws ↔ Opens hourOn hourOff w := by
  rw [readWindows] at h
  split at h
  · constructor
    · intro hw
      obtain ⟨⟨opening, closing⟩, hpair, hread⟩ := exists_of_mem_mapM h w hw
      obtain ⟨i, hi⟩ := List.mem_iff_getElem?.1 hpair
      obtain ⟨hopening, hclosing⟩ := List.getElem?_zip_eq_some.1 hi
      exact ⟨i, opening, closing, hopening, hclosing, readWindow_eq_ok.1 hread⟩
    · rintro ⟨i, opening, closing, hopening, hclosing, hread⟩
      have hpair : (opening, closing) ∈ (split ";" hourOn).zip (split ";" hourOff) :=
        List.mem_iff_getElem?.2 ⟨i, List.getElem?_zip_eq_some.2 ⟨hopening, hclosing⟩⟩
      obtain ⟨w', hw', hread'⟩ := exists_of_mapM h hpair
      cases (readWindow_eq_ok.2 hread).symm.trans hread'
      exact hw'
  · cases h

theorem readHour_le {text : String} {s : Nat} (h : readHour text = .ok s) : s ≤ secondsPerDay := by
  rw [readHour] at h
  split at h
  · obtain ⟨hours, -, h⟩ := bind_eq_ok.1 h
    exact secondOf_le h
  · obtain ⟨hours, -, h⟩ := bind_eq_ok.1 h
    obtain ⟨minutes, -, h⟩ := bind_eq_ok.1 h
    exact secondOf_le h
  · cases h

theorem read_eq_ok (h : read dayOn dayOff hourOn hourOff = .ok p) :
    ∃ ws first last, readWindows hourOn hourOff = .ok ws ∧ readDay dayOn = .ok first ∧
      readDay dayOff = .ok last ∧ p = onDays first last ws := by
  obtain ⟨ws, hws, h⟩ := bind_eq_ok.1 h
  obtain ⟨first, hfirst, h⟩ := bind_eq_ok.1 h
  obtain ⟨last, hlast, h⟩ := bind_eq_ok.1 h
  cases h
  exact ⟨ws, first, last, hws, hfirst, hlast, rfl⟩

end Reading

section Activity

variable [Limits]

theorem active_iff (h : read dayOn dayOff hourOn hourOff = .ok p) :
    active p m = true ↔
      IsDay dayOn dayOff m.day ∧ ∃ w, Opens hourOn hourOff w ∧ (w.IsOpen m.second ∨ w.IsStillOpen m.second) := by
  obtain ⟨ws, first, last, hws, hfirst, hlast, rfl⟩ := read_eq_ok h
  have day : IsDay dayOn dayOff m.day ↔ m.weekday ∈ daysBetween first last := by
    simp only [IsDay, hfirst, hlast, Except.ok.injEq, exists_and_left, exists_eq_left', mem_daysBetween]
    rfl
  rw [active, List.any_eq_true, day]
  simp only [onDays, Window.covers_iff, ← mem_readWindows hws]
  split <;> simp [*]

theorem inForce_iff (hm : m.second < secondsPerDay) :
    InForce dayOn dayOff hourOn hourOff m ↔
      (IsDay dayOn dayOff m.day ∧ ∃ w, Opens hourOn hourOff w ∧ w.IsOpen m.second) ∨
      (IsDay dayOn dayOff (m.day - 1) ∧ ∃ w, Opens hourOn hourOff w ∧ w.IsStillOpen m.second) := by
  have within {w : Window} (hw : Opens hourOn hourOff w) : w.start ≤ secondsPerDay ∧ w.stop ≤ secondsPerDay := by
    obtain ⟨_, _, _, _, _, hstart, hstop⟩ := hw
    exact ⟨readHour_le hstart, readHour_le hstop⟩
  simp only [secondsPerDay] at hm within
  simp only [InForce, Moment.seconds, Window.IsOpen, Window.IsStillOpen, secondsPerDay]
  constructor
  · rintro ⟨day, w, hday, hw, from_, to_⟩
    obtain ⟨hstart, hstop⟩ := within hw
    split at to_
    · obtain rfl | rfl : day = m.day ∨ day = m.day - 1 := by omega
      · exact .inl ⟨hday, w, hw, by omega⟩
      · exact .inr ⟨hday, w, hw, by omega⟩
    · obtain rfl : day = m.day := by omega
      exact .inl ⟨hday, w, hw, by omega⟩
  · rintro (⟨hday, w, hw, hopen⟩ | ⟨hday, w, hw, hopen⟩)
    · obtain ⟨hstart, hstop⟩ := within hw
      refine ⟨m.day, w, hday, hw, by omega, ?_⟩
      split <;> omega
    · obtain ⟨hstart, hstop⟩ := within hw
      refine ⟨m.day - 1, w, hday, hw, by omega, ?_⟩
      rw [if_pos hopen.1]
      omega

/-- A schedule is active when a window of the moment's own weekday covers its second.  That is when one of
its windows is in force, but for the early hours that count for another day than their own. -/
theorem active_unless_misdated (h : read dayOn dayOff hourOn hourOff = .ok p) (hm : m.second < secondsPerDay) :
    (active p m = true ↔
      IsDay dayOn dayOff m.day ∧ ∃ w, Opens hourOn hourOff w ∧ w.covers m.second = true) ∧
    ((active p m = true ↔ InForce dayOn dayOff hourOn hourOff m) ↔
      ¬ IsMisdated dayOn dayOff hourOn hourOff m) := by
  refine ⟨by simp only [active_iff h, Window.covers_iff], ?_⟩
  have none_open : (∀ w, Opens hourOn hourOff w → ¬ w.IsOpen m.second) ↔
      ¬ ∃ w, Opens hourOn hourOff w ∧ w.IsOpen m.second := by
    simp only [not_exists, not_and]
  rw [active_iff h, inForce_iff hm, IsMisdated, none_open]
  simp only [and_or_left, exists_or]
  generalize (∃ w, Opens hourOn hourOff w ∧ w.IsOpen m.second) = late
  generalize (∃ w, Opens hourOn hourOff w ∧ w.IsStillOpen m.second) = early
  generalize IsDay dayOn dayOff m.day = today, IsDay dayOn dayOff (m.day - 1) = before
  tauto

end Activity

section Nights

def mondayNight : Schedule := onDays ⟨0, by decide⟩ ⟨0, by decide⟩ [⟨22 * 3600, 6 * 3600⟩]

open Standard

theorem readWindows_night : readWindows "22:00" "06:00" = .ok [⟨22 * 3600, 6 * 3600⟩] := rfl

theorem read_mondayNight : read "mo" "mo" "22:00" "06:00" = .ok mondayNight := rfl

theorem mondayNight_inForce :
    InForce "mo" "mo" "22:00" "06:00" (Moment.ofDate 2024 1 1 23 0 0) ∧
      InForce "mo" "mo" "22:00" "06:00" (Moment.ofDate 2024 1 2 5 0 0) := by
  have monday : IsDay "mo" "mo" (Moment.ofDate 2024 1 1 0 0 0).day := ⟨0, 0, rfl, rfl, by decide⟩
  have night : Opens "22:00" "06:00" ⟨22 * 3600, 6 * 3600⟩ :=
    (mem_readWindows readWindows_night).1 (List.mem_singleton_self _)
  exact ⟨⟨_, _, monday, night, by decide, by decide⟩, ⟨_, _, monday, night, by decide, by decide⟩⟩

theorem mondayNight_misdated :
    (active mondayNight (Moment.ofDate 2024 1 1 23 0 0) = true ∧
      ¬ IsMisdated "mo" "mo" "22:00" "06:00" (Moment.ofDate 2024 1 1 23 0 0)) ∧
    (active mondayNight (Moment.ofDate 2024 1 2 5 0 0) = false ∧
      IsMisdated "mo" "mo" "22:00" "06:00" (Moment.ofDate 2024 1 2 5 0 0)) := by
  obtain ⟨evening, morning⟩ := mondayNight_inForce
  refine ⟨⟨rfl, ?_⟩, rfl, ?_⟩
  · have judged := active_unless_misdated read_mondayNight (m := Moment.ofDate 2024 1 1 23 0 0) (by decide)
    exact judged.2.1 ⟨fun _ => evening, fun _ => rfl⟩
  · have judged := active_unless_misdated read_mondayNight (m := Moment.ofDate 2024 1 2 5 0 0) (by decide)
    by_contra dated
    cases (judged.2.2 dated).2 morning

theorem mondayNight_ends_at_midnight :
    ∃ p, read "mo" "mo" "22:00" "06:00" = .ok p ∧
      InForce "mo" "mo" "22:00" "06:00" (Moment.ofDate 2024 1 2 5 0 0) ∧
      active p (Moment.ofDate 2024 1 2 5 0 0) = false :=
  ⟨mondayNight, read_mondayNight, mondayNight_inForce.2, rfl⟩

end Nights

end Schedule

end StreetMap
