/-!
Words compared without regard to case.  All words compared with are lower-case ASCII, and the only
characters whose lower-case form is one ASCII letter are the ASCII letters and the Kelvin sign.
-/

namespace StreetMap.Text

def lowerAscii (c : Char) : Char :=
  if c = '\u212a' then 'k' else c.toLower

def lower (s : String) : String := String.ofList (s.toList.map lowerAscii)

end StreetMap.Text
