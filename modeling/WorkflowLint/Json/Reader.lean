import WorkflowLint.Json

/-!
Reading JSON strictly: one value and nothing but white space around it.
-/
namespace WorkflowLint.Json

def isSpace (c : Char) : Bool :=
  c == ' ' || c == '\t' || c == '\n' || c == '\r'

def skip (cs : List Char) : List Char :=
  cs.dropWhile isSpace

/-! ## Numbers -/

/-- Reads one or more digits, to the end of them. -/
def readDigits (cs : List Char) : Option (List Char × List Char) :=
  if (cs.takeWhile Char.isDigit).isEmpty then none
  else some (cs.takeWhile Char.isDigit, cs.dropWhile Char.isDigit)

/-- Reads the whole part of a number, which begins with no zero unless it is one. -/
def readWhole : List Char → Option (List Char × List Char)
  | '0' :: cs => if cs.head?.any Char.isDigit then none else some (['0'], cs)
  | cs => readDigits cs

def readFraction : List Char → Option (List Char × List Char)
  | '.' :: cs => (readDigits cs).map fun (ds, rest) => ('.' :: ds, rest)
  | cs => some ([], cs)

def readExponent : List Char → Option (List Char × List Char)
  | [] => some ([], [])
  | e :: cs =>
    if e = 'e' ∨ e = 'E' then
      match cs with
      | s :: rest =>
        if s = '+' ∨ s = '-' then
          (readDigits rest).map fun (ds, rest) => (e :: s :: ds, rest)
        else (readDigits cs).map fun (ds, rest) => (e :: ds, rest)
      | [] => none
    else some ([], e :: cs)

def readMagnitude (cs : List Char) : Option (List Char × List Char) := do
  let (whole, cs) ← readWhole cs
  let (fraction, cs) ← readFraction cs
  let (exponent, cs) ← readExponent cs
  return (whole ++ fraction ++ exponent, cs)

/-- Reads a number, of which the spelling is kept. -/
def readNumber : List Char → Option (Json × List Char)
  | '-' :: cs =>
    (readMagnitude cs).map fun (ds, rest) => (.number (String.ofList ('-' :: ds)), rest)
  | cs => (readMagnitude cs).map fun (ds, rest) => (.number (String.ofList ds), rest)

/-! ## Strings -/

def hexValue? (c : Char) : Option Nat :=
  if c.isDigit then some (c.toNat - 0x30)
  else if 'a' ≤ c ∧ c ≤ 'f' then some (c.toNat - 0x57)
  else if 'A' ≤ c ∧ c ≤ 'F' then some (c.toNat - 0x37)
  else none

def hex4? (a b c d : Char) : Option Nat := do
  return ((← hexValue? a) * 16 + (← hexValue? b)) * 256 + (← hexValue? c) * 16 + (← hexValue? d)

/-- The character that one letter behind a backslash stands for. -/
def unescape? : Char → Option Char
  | '"' => some '"'
  | '\\' => some '\\'
  | '/' => some '/'
  | 'b' => some '\x08'
  | 'f' => some '\x0c'
  | 'n' => some '\n'
  | 'r' => some '\r'
  | 't' => some '\t'
  | _ => none

/-- Reads a string to its closing quote, as code points and halves of surrogate pairs. What was
read before stands in `units`, last first. -/
def readUnits (units : List Nat) : List Char → Option (List Nat × List Char)
  | [] => none
  | '"' :: cs => some (units.reverse, cs)
  | '\\' :: 'u' :: a :: b :: c :: d :: cs =>
    match hex4? a b c d with
    | some n => readUnits (n :: units) cs
    | none => none
  | '\\' :: e :: cs =>
    match unescape? e with
    | some c => readUnits (c.toNat :: units) cs
    | none => none
  | c :: cs => if c.toNat < 0x20 ∨ c = '\\' then none else readUnits (c.toNat :: units) cs

def isHigh (n : Nat) : Bool :=
  0xD800 ≤ n && n < 0xDC00

def isLow (n : Nat) : Bool :=
  0xDC00 ≤ n && n < 0xE000

/-- The text of code points, in which surrogates must come in pairs. What was read before stands in
`text`, last first. -/
def textOf? (text : List Char) : List Nat → Option String
  | [] => some (String.ofList text.reverse)
  | n :: ns =>
    if isHigh n then
      match ns with
      | m :: ms =>
        if isLow m then
          textOf? (Char.ofNat (0x10000 + (n - 0xD800) * 0x400 + (m - 0xDC00)) :: text) ms
        else none
      | [] => none
    else if isLow n then none
    else textOf? (Char.ofNat n :: text) ns

/-- Reads a string behind its opening quote: its text, if it has one, and what follows. -/
def readText (cs : List Char) : Option (Option String × List Char) :=
  (readUnits [] cs).map fun (units, rest) => (textOf? [] units, rest)

/-! ## Values -/

/-- An object of which the members were read, last first. -/
def objectOf (members : List (Option String × Json)) : Json :=
  match members.reverse.mapM fun (name, j) => name.map (·, j) with
  | some ms => object ms
  | none => unreadable

mutual

/-- Reads a value. The fuel bounds the calls: of two in a row, one takes a character. -/
def readValue : Nat → List Char → Option (Json × List Char)
  | 0, _ => none
  | fuel + 1, cs =>
    match skip cs with
    | 'n' :: 'u' :: 'l' :: 'l' :: rest => some (null, rest)
    | 't' :: 'r' :: 'u' :: 'e' :: rest => some (bool true, rest)
    | 'f' :: 'a' :: 'l' :: 's' :: 'e' :: rest => some (bool false, rest)
    | '"' :: rest =>
      (readText rest).map fun (s, rest) => (s.elim unreadable string, rest)
    | '[' :: rest =>
      match skip rest with
      | ']' :: rest => some (array [], rest)
      | rest => readItems fuel [] rest
    | '\x7b' :: rest =>
      match skip rest with
      | '\x7d' :: rest => some (object [], rest)
      | rest => readMembers fuel [] rest
    | rest => readNumber rest

/-- Reads the items of an array to its end. Those read before stand in `items`, last first. -/
def readItems : Nat → List Json → List Char → Option (Json × List Char)
  | 0, _, _ => none
  | fuel + 1, items, cs =>
    match readValue fuel cs with
    | none => none
    | some (j, rest) =>
      match skip rest with
      | ',' :: rest => readItems fuel (j :: items) rest
      | ']' :: rest => some (array (j :: items).reverse, rest)
      | _ => none

/-- Reads the members of an object to its end. Those read before stand in `members`, last first. -/
def readMembers : Nat → List (Option String × Json) → List Char → Option (Json × List Char)
  | 0, _, _ => none
  | fuel + 1, members, cs =>
    match skip cs with
    | '"' :: rest =>
      match readText rest with
      | none => none
      | some (name, rest) =>
        match skip rest with
        | ':' :: rest =>
          match readValue fuel rest with
          | none => none
          | some (j, rest) =>
            match skip rest with
            | ',' :: rest => readMembers fuel ((name, j) :: members) rest
            | '\x7d' :: rest => some (objectOf ((name, j) :: members), rest)
            | _ => none
        | _ => none
    | _ => none

end

/-- The value that a text writes, if it is JSON. -/
def ofText? (cs : List Char) : Option Json :=
  match readValue (2 * cs.length + 1) cs with
  | some (j, rest) => if skip rest = [] then some j else none
  | none => none

end WorkflowLint.Json
