/-!
# Blank characters and trimming

The characters that count as blank space, and the operations that strip them from the ends of a
text. `trim` removes blanks on both sides and `isBlankText` holds of a text that trims to
nothing.
-/

namespace ScriptBundle.Text

/-- The characters that count as blank: the ASCII control spaces, the four information
separators, and the spaces and separators of Unicode. -/
def isBlank (c : Char) : Bool :=
  let n := c.toNat
  (9 ≤ n && n ≤ 13) || (28 ≤ n && n ≤ 32) || n == 0x85 || n == 0xA0 || n == 0x1680 ||
    (0x2000 ≤ n && n ≤ 0x200A) || n == 0x2028 || n == 0x2029 || n == 0x202F || n == 0x205F ||
    n == 0x3000

/-- `cs` without the longest run at its end that satisfies `p`. -/
def dropRightWhile (p : Char → Bool) (cs : List Char) : List Char :=
  (cs.reverse.dropWhile p).reverse

/-- `cs` without the runs at both ends that satisfy `p`. -/
def strip (p : Char → Bool) (cs : List Char) : List Char :=
  dropRightWhile p (cs.dropWhile p)

/-- The text without the blanks at its ends. -/
def trim (s : String) : String :=
  String.ofList (strip isBlank s.toList)

/-- Holds of a text made of blanks only, the empty text included. -/
def isBlankText (s : String) : Bool :=
  s.toList.all isBlank

/-- The pieces of `s` between the occurrences of `c`; there is always one more piece than there
are occurrences. -/
def splitOnChar (c : Char) (s : String) : List String :=
  let rec go : List Char → List Char → List String
    | [], piece => [String.ofList piece.reverse]
    | d :: ds, piece =>
      if d = c then String.ofList piece.reverse :: go ds [] else go ds (d :: piece)
  go s.toList []

/-- The text with each occurrence of `c` replaced by `d`. -/
def replaceChar (c d : Char) (s : String) : String :=
  String.ofList (s.toList.map fun x => if x = c then d else x)

/-- The text with the capital letters of ASCII made small. -/
def asciiLower (s : String) : String :=
  String.ofList (s.toList.map Char.toLower)

/-- Codepoint order on texts, as a three-way comparison. -/
def compareCodepoints : List Char → List Char → Ordering
  | [], [] => .eq
  | [], _ :: _ => .lt
  | _ :: _, [] => .gt
  | c :: cs, d :: ds =>
    if c.toNat < d.toNat then .lt
    else if d.toNat < c.toNat then .gt
    else compareCodepoints cs ds

end ScriptBundle.Text
