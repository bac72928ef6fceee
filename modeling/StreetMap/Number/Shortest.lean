/-!
The shortest decimal that reads back as a given floating-point number, and its written form.

A finite number stands for every real that rounds to it: an interval, closed iff the significand is
even.  For each count of digits the two neighbours of the number on that decimal grid are tried; the
first grid with one of them in the interval gives the digits.
-/

namespace StreetMap.Shortest

structure Interval where
  low : Nat
  value : Nat
  high : Nat
  denominator : Nat
  closed : Bool

def Interval.of (m : Nat) (e : Int) : Interval :=
  let unit := Nat.pow 2 e.toNat
  let below := if m = Nat.pow 2 52 && e ≠ -1074 then 1 else 2
  { low := (4 * m - below) * unit, value := 4 * m * unit, high := (4 * m + 2) * unit
    denominator := 4 * Nat.pow 2 (-e).toNat, closed := m % 2 = 0 }

def powerOfTen (e : Int) : Nat := Nat.pow 10 e.toNat

def Interval.holds (i : Interval) (c : Nat) (q : Int) : Bool :=
  let x := c * powerOfTen q * i.denominator
  let low := i.low * powerOfTen (-q)
  let high := i.high * powerOfTen (-q)
  if i.closed then low ≤ x && x ≤ high else low < x && x < high

def Interval.onGrid? (i : Interval) (q : Int) : Option Nat :=
  let value := i.value * powerOfTen (-q)
  let unit := i.denominator * powerOfTen q
  let c := value / unit
  match i.holds c q && c ≠ 0, i.holds (c + 1) q with
  | true, true =>
    let twice := 2 * (value % unit)
    some (if twice < unit || (twice = unit && c % 2 = 0) then c else c + 1)
  | true, false => some c
  | false, true => some (c + 1)
  | false, false => none

def Interval.magnitude (i : Interval) : Nat → Int → Int
  | 0, p => p
  | steps + 1, p =>
    if i.value * powerOfTen (-p) < i.denominator * powerOfTen p then p
    else i.magnitude steps (p + 1)

def Interval.guess (i : Interval) : Int :=
  ((i.value.log2 : Int) - i.denominator.log2 - 1) * 30103 / 100000 - 1

def Interval.digitsFrom (i : Interval) (p : Int) : Nat → Nat × Int
  | 0 => (i.value / i.denominator, 0)
  | left + 1 =>
    let q := p - (17 - left : Nat)
    match i.onGrid? q with
    | some c => (c, q)
    | none => i.digitsFrom p left

def Interval.digits (i : Interval) : Nat × Int := i.digitsFrom (i.magnitude 5 i.guess) 17

def dropTrailingZeros (ds : List Char) : List Char :=
  match (ds.reverse.dropWhile (· = '0')).reverse with
  | [] => ['0']
  | ds => ds

/-- Digits with the point after the first `point` of them: positional from `10 ^ -4` up to, not
including, `10 ^ 16`, with at least one digit on each side; otherwise one digit before the point and
an exponent of at least two digits. -/
def layOut (ds : List Char) (point : Int) : List Char :=
  if -4 < point && point ≤ 16 then
    if point ≤ 0 then '0' :: '.' :: (List.replicate (-point).toNat '0' ++ ds)
    else
      let whole := ds.take point.toNat
      let fraction := ds.drop point.toNat
      whole ++ List.replicate (point.toNat - whole.length) '0' ++
        '.' :: (if fraction.isEmpty then ['0'] else fraction)
  else
    let e := point - 1
    let eDigits := (toString e.natAbs).toList
    let fraction := ds.drop 1
    ds.take 1 ++ (if fraction.isEmpty then [] else '.' :: fraction) ++
      'e' :: (if e < 0 then '-' else '+') :: (List.replicate (2 - eDigits.length) '0' ++ eDigits)

open Float.Model in
def write (x : Float) : String :=
  match x.toModel.unpack with
  | .notANumber => "nan"
  | .infinity sign => if sign == .negative then "-inf" else "inf"
  | .zero sign => if sign == .negative then "-0.0" else "0.0"
  | .finite sign m e _ =>
    let (c, q) := (Interval.of m e).digits
    let all := (toString c).toList
    let body := String.ofList (layOut (dropTrailingZeros all) (all.length + q))
    if sign == .negative then "-" ++ body else body

end StreetMap.Shortest
