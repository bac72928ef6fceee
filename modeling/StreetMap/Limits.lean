/-!
What bounds a load from outside: the settings of the system that it runs on, and how much of the stack is
left when it starts to read.
-/

namespace StreetMap

/-- The most digits of an integer that is read or written, if there is a limit at all, and how far the
lists and objects of a source may be inside one another. -/
class Limits where
  digits : Option Nat
  depth : Nat
  /-- A limit leaves room for every finite floating-point number. -/
  room : ∀ n ∈ digits, 640 ≤ n

end StreetMap
