/-!
# Capital letters

The capital form of a text, as far as it consists of ASCII letters. A few letters outside ASCII
(the sharp s, the dotless i, the long s and the ligatures) have capital forms inside it; any other
character is kept as it is.
-/

namespace ScriptBundle.Text

/-- The characters outside ASCII whose capital form consists of ASCII letters. -/
def asciiCapitals : List (Char × String) :=
  [('\u00df', "SS"),
   ('\u0131', "I"),
   ('\u017f', "S"),
   ('\ufb00', "FF"),
   ('\ufb01', "FI"),
   ('\ufb02', "FL"),
   ('\ufb03', "FFI"),
   ('\ufb04', "FFL"),
   ('\ufb05', "ST"),
   ('\ufb06', "ST")]

/-- The capital form of a character. -/
def upperChar (c : Char) : List Char :=
  match asciiCapitals.lookup c with
  | some s => s.toList
  | none => [c.toUpper]

/-- The capital form of a text. -/
def upper (s : String) : String :=
  String.ofList (s.toList.flatMap upperChar)

end ScriptBundle.Text
