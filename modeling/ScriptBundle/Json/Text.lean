/-!
# JSON texts

The characters between the quotes of a JSON text. Control characters may not stand in it. An
escape above U+FFFF is a pair of two, and neither half may stand alone.
-/

namespace ScriptBundle.Json

/-- The value of a hexadecimal digit. -/
def hexValue? (c : Char) : Option Nat :=
  if '0' ≤ c ∧ c ≤ '9' then some (c.toNat - 48)
  else if 'a' ≤ c ∧ c ≤ 'f' then some (c.toNat - 87)
  else if 'A' ≤ c ∧ c ≤ 'F' then some (c.toNat - 55)
  else none

/-- The value of hexadecimal digits. -/
def hexNumber? (cs : List Char) : Option Nat :=
  cs.foldlM (fun n c => (hexValue? c).map (16 * n + ·)) 0

/-- The character that a one-letter escape stands for. -/
def simpleEscape? : Char → Option Char
  | '"' => some '"'
  | '\\' => some '\\'
  | '/' => some '/'
  | 'b' => some '\x08'
  | 'f' => some '\x0c'
  | 'n' => some '\n'
  | 'r' => some '\r'
  | 't' => some '\t'
  | _ => none

/-- The first half of an escaped pair. -/
def isHighSurrogate (n : Nat) : Bool := 0xD800 ≤ n && n ≤ 0xDBFF

/-- The second half of an escaped pair. -/
def isLowSurrogate (n : Nat) : Bool := 0xDC00 ≤ n && n ≤ 0xDFFF

/-- The character of an escaped pair. -/
def pairedChar (high low : Nat) : Char :=
  Char.ofNat (0x10000 + (high - 0xD800) * 0x400 + (low - 0xDC00))

/-- The characters up to the closing quote, with escapes read, and what follows the quote. -/
def textBody? : List Char → Option (List Char × List Char)
  | [] => none
  | '"' :: rest => some ([], rest)
  | '\\' :: 'u' :: a :: b :: c :: d :: cs =>
    match hexNumber? [a, b, c, d] with
    | none => none
    | some n =>
      if isHighSurrogate n then
        match cs with
        | '\\' :: 'u' :: e :: f :: g :: h :: rest =>
          match hexNumber? [e, f, g, h] with
          | none => none
          | some m =>
            if isLowSurrogate m then
              (textBody? rest).map fun p => (pairedChar n m :: p.1, p.2)
            else none
        | _ => none
      else if isLowSurrogate n then none
      else (textBody? cs).map fun p => (Char.ofNat n :: p.1, p.2)
  | '\\' :: c :: cs =>
    match simpleEscape? c with
    | none => none
    | some e => (textBody? cs).map fun p => (e :: p.1, p.2)
  | c :: cs =>
    if c.toNat < 32 ∨ c = '\\' then none
    else (textBody? cs).map fun p => (c :: p.1, p.2)

end ScriptBundle.Json
