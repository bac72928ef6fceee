import StreetMap.Number.Numeral
import StreetMap.Text.Case

/-!
Windows of time that recur every week.  A window belongs to the days of a cyclic range of weekdays and
runs from one second of the day up to, not including, another; one that ends before it starts runs past
midnight.
-/

namespace StreetMap

/-- Monday is 0. -/
abbrev Weekday := Fin 7

inductive ScheduleError
  | unpairedHours (opening closing : String) | malformedHour (text : String)
  | hourOutOfRange (text : String) | unknownDay (text : String) | number (e : NumeralError)
  deriving DecidableEq

def ScheduleError.message [Limits] : ScheduleError → String
  | .unpairedHours o c => "Mismatched hour_on '" ++ o ++ "' and hour_off '" ++ c ++ "'"
  | .malformedHour t => "Bad time '" ++ t ++ "'"
  | .hourOutOfRange t => "Time out of range '" ++ t ++ "'"
  | .unknownDay t => "Unknown day '" ++ t ++ "'"
  | .number e => e.message

/-- A moment of local time: the day counted from 1 January of the year 1, and the second of that day. -/
structure Moment where
  day : Int
  second : Nat
  deriving DecidableEq

namespace Moment

def isLeap (year : Int) : Bool := year % 4 = 0 && (year % 100 ≠ 0 || year % 400 = 0)

def daysBeforeMonth (year : Int) (month : Nat) : Int :=
  ([31, if isLeap year then 29 else 28, 31, 30, 31, 30, 31, 31, 30, 31, 30, 31].take (month - 1)).foldl (· + ·) 0

def ofDate (year : Int) (month day hour minute second : Nat) : Moment :=
  let y := year - 1
  { day := 365 * y + y / 4 - y / 100 + y / 400 + daysBeforeMonth year month + day
    second := 3600 * hour + 60 * minute + second }

def weekday (m : Moment) : Weekday := Fin.ofNat 7 ((m.day - 1) % 7).toNat

end Moment

/-- Start and end, in seconds of a day. -/
structure Window where
  start : Nat
  stop : Nat
  deriving DecidableEq

def Window.covers (w : Window) (second : Nat) : Bool :=
  if w.start ≤ w.stop then w.start ≤ second && second < w.stop
  else w.start ≤ second || second < w.stop

structure Schedule where
  windows : Weekday → List Window

namespace Schedule

open Text

def secondsPerDay : Nat := 24 * 3600

def dayNames : List String :=
  ["monday", "tuesday", "wednesday", "thursday", "friday", "saturday", "sunday"]

def isNamed (name word : String) : Bool :=
  word = name || word = (name.take 2).toString || word = (name.take 3).toString

def readDay (s : String) : Except ScheduleError Weekday :=
  let word := lower (trim s)
  match dayNames.findIdx? (isNamed · word) with
  | some i => .ok (Fin.ofNat 7 i)
  | none => .error (.unknownDay s)

def readPart [Limits] (s : String) : Except ScheduleError Int :=
  match Numeral.readInt s with
  | .ok n => .ok n
  | .error e => .error (.number e)

def secondOf (text : String) (hours minutes : Int) : Except ScheduleError Nat :=
  if 0 ≤ hours ∧ hours ≤ 24 ∧ 0 ≤ minutes ∧ minutes < 60 then
    let s := hours.toNat * 3600 + minutes.toNat * 60
    if s ≤ secondsPerDay then .ok s else .error (.hourOutOfRange text)
  else .error (.hourOutOfRange text)

def readHour [Limits] (s : String) : Except ScheduleError Nat :=
  match split ":" (trim s) with
  | [h] => do secondOf s (← readPart h) 0
  | [h, m] => do
    let hours ← readPart h
    secondOf s hours (← readPart m)
  | _ => .error (.malformedHour s)

def readWindow [Limits] (opening closing : String) : Except ScheduleError Window := do
  let start ← readHour opening
  return ⟨start, ← readHour closing⟩

def readWindows [Limits] (opening closing : String) : Except ScheduleError (List Window) :=
  let os := split ";" opening
  let cs := split ";" closing
  if os.length = cs.length then (os.zip cs).mapM fun (o, c) => readWindow o c
  else .error (.unpairedHours opening closing)

def daysOnward (last : Weekday) : Nat → Weekday → List Weekday
  | 0, d => [d]
  | n + 1, d => if d = last then [d] else d :: daysOnward last n (d + 1)

def daysBetween (first last : Weekday) : List Weekday := daysOnward last 6 first

def onDays (first last : Weekday) (ws : List Window) : Schedule :=
  ⟨fun d => if d ∈ daysBetween first last then ws else []⟩

def read [Limits] (dayOn dayOff hourOn hourOff : String) : Except ScheduleError Schedule := do
  let ws ← readWindows hourOn hourOff
  let first ← readDay dayOn
  let last ← readDay dayOff
  return onDays first last ws

def active (s : Schedule) (m : Moment) : Bool := (s.windows m.weekday).any (·.covers m.second)

def toList (s : Schedule) : List (List Window) := (List.finRange 7).map s.windows

end Schedule

end StreetMap
