/-!
Numbers of twice the precision.  A double word is the sum of two floating-point numbers, the second so
small that it is lost when the two are added; together they hold about 32 digits.
-/

namespace StreetMap

structure DoubleWord where
  high : Float
  low : Float

namespace DoubleWord

def ofFloat (x : Float) : DoubleWord := ⟨x, 0⟩

def toFloat (x : DoubleWord) : Float := x.high + x.low

def neg (x : DoubleWord) : DoubleWord := ⟨-x.high, -x.low⟩

def lostBySum (x y : Float) : Float :=
  let e := (x + y) - x
  (y - e) + (x - ((x + y) - e))

def add (x y : DoubleWord) : DoubleWord :=
  let s := x.high + y.high
  let t := x.low + y.low
  let e := lostBySum x.high y.high + t
  let h := s + e
  let r := lostBySum x.low y.low + (e + (s - h))
  ⟨h + r, r + (h - (h + r))⟩

def sub (x y : DoubleWord) : DoubleWord := x.add y.neg

def leading (x : Float) : Float :=
  let c := 134217729 * x
  c - (c - x)

def lostByProduct (x y : Float) : Float :=
  let a := leading x
  let b := leading y
  (((a * b - x * y) + a * (y - b)) + (x - a) * b) + (x - a) * (y - b)

def mul (x y : DoubleWord) : DoubleWord :=
  let p := x.high * y.high
  let e := lostByProduct x.high y.high + (x.high * y.low + x.low * y.high)
  ⟨p + e, e + (p - (p + e))⟩

def div (x y : DoubleWord) : DoubleWord :=
  let q := x.high / y.high
  let p := q * y.high
  let e := ((((x.high - p) - lostByProduct q y.high) + x.low) - q * y.low) / y.high
  ⟨q + e, (q - (q + e)) + e⟩

def isNegative (x : DoubleWord) : Bool := x.high < 0 || (x.high == 0 && x.low < 0)

end DoubleWord

end StreetMap
