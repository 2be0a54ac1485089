import ScriptBundle.Toml.Number
/-!
# TOML documents

A document is a sequence of statements, one on a line: a key with its value, the header of a table,
or the header of a new table in an array of tables. Headers open a table for the keys that follow.
A table may be opened once, a key may be set once, and what is written as an inline table or an
array may not be extended afterwards; marks on the keys keep track of this.
-/

namespace ScriptBundle.Toml

/-- A key: the parts of a dotted name. -/
abbrev Key := List String

/-! ## Marks -/

/-- A mark on a key. -/
inductive Mark where
  /-- What stands at the key and below it may not change. -/
  | frozen
  /-- The table at the key may not be opened by a header. -/
  | opened
  deriving DecidableEq, Repr

/-- The marks set so far. -/
structure Marks where
  /-- The marks in force. -/
  active : List (Key × Mark)
  /-- Keys that count as opened from the next header on. -/
  pending : List Key

/-- Whether a key is frozen, by itself or by a part of it. -/
def Marks.isFrozen (m : Marks) (k : Key) : Bool :=
  m.active.any fun e => e.2 = .frozen && !e.1.isEmpty && e.1.isPrefixOf k

/-- Whether the table at a key has been opened. -/
def Marks.isOpened (m : Marks) (k : Key) : Bool := m.active.contains (k, .opened)

/-- The marks with one more. -/
def Marks.add (m : Marks) (k : Key) (mark : Mark) : Marks :=
  { m with active := (k, mark) :: m.active }

/-- The marks without those on a key and below it. -/
def Marks.release (m : Marks) (k : Key) : Marks :=
  { m with active := m.active.filter fun e => !k.isPrefixOf e.1 }

/-- The marks with the pending ones in force. -/
def Marks.settle (m : Marks) : Marks :=
  ⟨m.pending.map (fun k => (k, .opened)) ++ m.active, []⟩

/-! ## Tables -/

/-- The members of a table. -/
abbrev Members := List (String × Value)

/-- The members with those of the table at a key changed by `f`. Missing tables are created. In an
array of tables the last one is meant, if `intoArrays`. -/
def inTable (intoArrays : Bool) (f : Members → Option Members) : Key → Members → Option Members
  | [], ms => f ms
  | k :: ks, ms =>
    match ms.lookup k with
    | none => (inTable intoArrays f ks []).map fun sub => ms ++ [(k, .object sub)]
    | some (.object sub) =>
      (inTable intoArrays f ks sub).map fun sub => assign k (.object sub) ms
    | some (.array items) =>
      if intoArrays then
        match items.getLast? with
        | some (.object sub) =>
          (inTable intoArrays f ks sub).map fun sub =>
            assign k (.array (items.dropLast ++ [.object sub])) ms
        | _ => none
      else none
    | some _ => none

/-- The members with one more, unless the name is taken. -/
def addMember (name : String) (v : Value) (ms : Members) : Option Members :=
  if (ms.lookup name).isSome then none else some (ms ++ [(name, v)])

/-- The members with one more table in the array of tables of a name. -/
def addToArray (name : String) (ms : Members) : Option Members :=
  match ms.lookup name with
  | none => some (ms ++ [(name, .array [.object []])])
  | some (.array items) => some (assign name (.array (items ++ [.object []])) ms)
  | some _ => none

/-- Holds of arrays and tables. -/
def isContainer : Value → Bool
  | .array _ | .object _ => true
  | _ => false

/-! ## Keys and values -/

/-- Holds of the characters of a key without quotes. -/
def isBareKeyChar (c : Char) : Bool := c.isAlphanum || c == '-' || c == '_'

/-- One part of a key, and what follows after blanks. -/
def keyPart? (cs : List Char) : Option (String × List Char) :=
  match cs with
  | c :: _ =>
    if isBareKeyChar c then
      some (String.ofList (cs.takeWhile isBareKeyChar), skipSpaces (cs.dropWhile isBareKeyChar))
    else (lineText? cs).map fun p => (p.1, skipSpaces p.2)
  | [] => none

/-- A key, and what follows after blanks. -/
def key? : Nat → List Char → Option (Key × List Char)
  | 0, _ => none
  | fuel + 1, cs =>
    match keyPart? cs with
    | none => none
    | some (p, '.' :: rest) =>
      (key? fuel (skipSpaces rest)).map fun q => (p :: q.1, q.2)
    | some (p, rest) => some ([p], rest)

/-- What follows a comment, up to the end of its line. A control character in it is an error. -/
def skipComment? : List Char → Option (List Char)
  | '#' :: cs =>
    if (cs.takeWhile (· != '\n')).any isControl then none else some (cs.dropWhile (· != '\n'))
  | cs => some cs

/-- The text after blanks, newlines and comments. -/
def skipSpace? : Nat → List Char → Option (List Char)
  | 0, cs => some cs
  | fuel + 1, cs =>
    match cs.dropWhile isSpaceOrNewline with
    | '#' :: rest =>
      match skipComment? ('#' :: rest) with
      | some rest => skipSpace? fuel rest
      | none => none
    | cs => some cs

/-- A failure in the place of nothing. -/
def orInvalid {α : Type} : Option α → Except ReadError α
  | some a => .ok a
  | none => .error .invalid

mutual

/-- The value at the start of a text, and what follows. -/
def value : Nat → List Char → Except ReadError (Value × List Char)
  | 0, _ => .error .invalid
  | fuel + 1, cs =>
    match cs with
    | '"' :: _ | '\'' :: _ => orInvalid ((quotedText? cs).map fun p => (.string p.1, p.2))
    | 't' :: 'r' :: 'u' :: 'e' :: rest => .ok (.bool true, rest)
    | 'f' :: 'a' :: 'l' :: 's' :: 'e' :: rest => .ok (.bool false, rest)
    | '[' :: rest =>
      match items fuel rest with
      | .ok (vs, rest) => .ok (.array vs, rest)
      | .error e => .error e
    | '\x7b' :: rest =>
      match skipSpaces rest with
      | '\x7d' :: rest => .ok (.object [], rest)
      | rest =>
        match members fuel [] [] rest with
        | .ok (ms, rest) => .ok (.object ms, rest)
        | .error e => .error e
    | cs => plain cs

/-- The items of an array from after its opening bracket or a comma on, and what follows the closing
bracket. -/
def items : Nat → List Char → Except ReadError (List Value × List Char)
  | 0, _ => .error .invalid
  | fuel + 1, cs =>
    match skipSpace? (cs.length + 1) cs with
    | none => .error .invalid
    | some (']' :: rest) => .ok ([], rest)
    | some cs =>
      match value fuel cs with
      | .error e => .error e
      | .ok (v, rest) =>
        match skipSpace? (rest.length + 1) rest with
        | some (']' :: rest) => .ok ([v], rest)
        | some (',' :: rest) =>
          match items fuel rest with
          | .ok (vs, rest) => .ok (v :: vs, rest)
          | .error e => .error e
        | _ => .error .invalid

/-- The members of an inline table from a key on, and what follows the closing brace. The keys in
`frozen` may not be extended. -/
def members : Nat → Members → List Key → List Char → Except ReadError (Members × List Char)
  | 0, _, _, _ => .error .invalid
  | fuel + 1, ms, frozen, cs =>
    match key? (cs.length + 1) cs with
    | some (k, '=' :: rest) =>
      match value fuel (skipSpaces rest) with
      | .error e => .error e
      | .ok (v, rest) =>
        if frozen.any fun f => f.isPrefixOf k then .error .invalid
        else
          match inTable false (addMember (k.getLastD "") v) k.dropLast ms with
          | none => .error .invalid
          | some ms =>
            match skipSpaces rest with
            | '\x7d' :: rest => .ok (ms, rest)
            | ',' :: rest =>
              members fuel ms (if isContainer v then k :: frozen else frozen) (skipSpaces rest)
            | _ => .error .invalid
    | _ => .error .invalid

end

/-! ## Statements -/

/-- A document read in part. -/
structure Draft where
  /-- The members of the document. -/
  root : Members
  /-- The table that keys are set in. -/
  header : Key
  /-- The marks on keys. -/
  marks : Marks

/-- The keys of the tables that a dotted key passes through below a header. -/
def passedTables (header k : Key) : List Key :=
  (List.range (k.length - 1)).map fun i => header ++ k.take (i + 1)

/-- The draft with a key set to a value. -/
def Draft.set (d : Draft) (k : Key) (v : Value) : Option Draft :=
  let passed := passedTables d.header k
  let parent := d.header ++ k.dropLast
  if passed.any d.marks.isOpened || d.marks.isFrozen parent then none
  else
    let marks : Marks := { d.marks with pending := passed ++ d.marks.pending }
    (inTable true (addMember (k.getLastD "") v) parent d.root).map fun root =>
      { d with
        root := root
        marks := if isContainer v then marks.add (d.header ++ k) .frozen else marks }

/-- The draft with a table opened by a header. -/
def Draft.openTable (d : Draft) (k : Key) : Option Draft :=
  if d.marks.isOpened k || d.marks.isFrozen k then none
  else
    (inTable true some k d.root).map fun root =>
      { root := root, header := k, marks := d.marks.add k .opened }

/-- The draft with a new table in an array of tables. -/
def Draft.openArray (d : Draft) (k : Key) : Option Draft :=
  if d.marks.isFrozen k then none
  else
    (inTable true (addToArray (k.getLastD "")) k.dropLast d.root).map fun root =>
      { root := root, header := k, marks := (d.marks.release k).add k .opened }

/-- Holds of the characters that a key may start with. -/
def startsKey (c : Char) : Bool := isBareKeyChar c || c == '"' || c == '\''

/-- The statement at the start of a text, which is not blank, and what follows. -/
def statement (d : Draft) (cs : List Char) : Except ReadError (Draft × List Char) :=
  match cs with
  | '[' :: rest =>
    let d := { d with marks := d.marks.settle }
    match rest with
    | '[' :: rest => do
      let (k, rest) ← orInvalid (key? (rest.length + 1) (skipSpaces rest))
      let d ← orInvalid (d.openArray k)
      match rest with
      | ']' :: ']' :: rest => .ok (d, rest)
      | _ => .error .invalid
    | rest => do
      let (k, rest) ← orInvalid (key? (rest.length + 1) (skipSpaces rest))
      let d ← orInvalid (d.openTable k)
      match rest with
      | ']' :: rest => .ok (d, rest)
      | _ => .error .invalid
  | c :: _ =>
    if startsKey c then
      match key? (cs.length + 1) cs with
      | some (k, '=' :: rest) => do
        let (v, rest) ← value (2 * cs.length + 2) (skipSpaces rest)
        let d ← orInvalid (d.set k v)
        .ok (d, rest)
      | _ => .error .invalid
    else if c = '#' then .ok (d, cs)
    else .error .invalid
  | [] => .ok (d, [])

/-- The draft after all statements of a text. -/
def statements : Nat → Draft → List Char → Except ReadError Draft
  | 0, d, _ => .ok d
  | fuel + 1, d, cs =>
    match skipSpaces cs with
    | [] => .ok d
    | '\n' :: rest => statements fuel d rest
    | cs => do
      let (d, rest) ← statement d cs
      let rest ← orInvalid (skipComment? (skipSpaces rest))
      match rest with
      | [] => .ok d
      | '\n' :: rest => statements fuel d rest
      | _ => .error .invalid

/-- The text with each pair of carriage return and newline read as a newline. -/
def joinLineEnds : List Char → List Char
  | '\r' :: '\n' :: cs => '\n' :: joinLineEnds cs
  | c :: cs => c :: joinLineEnds cs
  | [] => []

/-- The members of the document that a text holds. -/
def read (cs : List Char) : Except ReadError Members :=
  let cs := joinLineEnds cs
  (statements (cs.length + 1) ⟨[], [], ⟨[], []⟩⟩ cs).map Draft.root

end ScriptBundle.Toml
