import WorkflowLint.Pattern.Bracket

/-!
Reading a pattern into a regular expression. The reader keeps the groups that are open; behind each
closing parenthesis the flags are again what they were before the group.
-/
namespace WorkflowLint.Pattern

structure Flags where
  /-- `i`: letters match in both cases. -/
  foldCase : Bool
  /-- `m`: `^` and `$` match at the ends of lines. -/
  multiline : Bool
  /-- `s`: a dot matches a newline too. -/
  dotNewline : Bool
  /-- `U`: repetitions prefer few rounds, and with a question mark many. -/
  swapGreed : Bool

/-- A group that is open, with what was read of it, last first. An item that sets flags is kept as
an absent one, for nothing can repeat it. -/
structure Group where
  choices : List Expr
  items : List (Option Expr)

/-- What was read so far: the innermost group, and those around it with the flags to go back to. -/
structure Reading where
  flags : Flags
  names : List (List Char)
  group : Group
  outer : List (Group × Flags)

def Group.start : Group :=
  ⟨[], []⟩

def Group.choice (g : Group) : Expr :=
  Expr.inOrder (g.items.reverse.filterMap id)

def Group.expr (g : Group) : Expr :=
  Expr.oneOf (g.choices.reverse ++ [g.choice])

namespace Reading

def start : Reading :=
  ⟨⟨false, false, false, false⟩, [], .start, []⟩

def add (r : Reading) (e : Expr) : Reading :=
  { r with group := { r.group with items := some e :: r.group.items } }

def addChar (r : Reading) (c : Char) : Reading :=
  let s := CharSet.singleton c
  r.add (.char (if r.flags.foldCase then .folded s else s))

def addEscape (r : Reading) : Escape → Reading
  | .char c => r.addChar c
  | .set s => r.add (.char s)
  | .anchor a => r.add (.anchor a)

def nextChoice (r : Reading) : Reading :=
  { r with group := ⟨r.group.choice :: r.group.choices, []⟩ }

def openGroup (r : Reading) (flags : Flags) : Reading :=
  { r with flags := flags, group := .start, outer := (r.group, r.flags) :: r.outer }

def closeGroup (r : Reading) : Option Reading :=
  match r.outer with
  | [] => none
  | (g, flags) :: outer =>
    some ({ r with flags := flags, group := g, outer := outer }.add r.group.expr)

def setFlags (r : Reading) (flags : Flags) : Reading :=
  { r with flags := flags, group := { r.group with items := none :: r.group.items } }

/-- Replaces the last item by what is made of it, if there is one that can be repeated. -/
def repeatLast (r : Reading) (f : Expr → Expr) : Option Reading :=
  match r.group.items with
  | some e :: items => some { r with group := { r.group with items := some (f e) :: items } }
  | _ => none

end Reading

/-! ## Groups -/

/-- Sets one flag, if there is one of that letter. -/
def Flags.set (on : Bool) (fs : Flags) : Char → Option Flags
  | 'i' => some { fs with foldCase := on }
  | 'm' => some { fs with multiline := on }
  | 's' => some { fs with dotNewline := on }
  | 'U' => some { fs with swapGreed := on }
  | 'u' => if on then some fs else none
  | _ => none

/-- Sets flags from their letters, each of which may be there once; those behind a dash are set
off. -/
def Flags.setAll (fs : Flags) (on : Bool) (seen : List Char) : List Char → Option Flags
  | [] => if on ∨ seen.head? ≠ some '-' then some fs else none
  | c :: cs =>
    if c ∈ seen then none
    else if c = '-' then fs.setAll false (c :: seen) cs
    else (fs.set on c).bind fun fs => fs.setAll on (c :: seen) cs

/-- Whether a group may have this name. -/
def isGroupName : List Char → Bool
  | [] => false
  | c :: cs =>
    (c == '_' || isLetter c) &&
      cs.all fun d => d == '_' || d == '.' || d == '[' || d == ']' || isLetter d || isNumber d
where
  isNumber (c : Char) : Bool := CharSet.digit.contains c
  isLetter (c : Char) : Bool := CharSet.word.contains c && !isNumber c && c ≠ '_'

/-- Opens a group with a name, of which the opening angle is read. -/
def readNamedGroup (r : Reading) (cs : List Char) : Option (Reading × List Char) :=
  match cs.takeWhile (· ≠ '>'), cs.dropWhile (· ≠ '>') with
  | _, [] => none
  | name, _ :: rest =>
    if isGroupName name ∧ name ∉ r.names then
      some ({ r with names := name :: r.names }.openGroup r.flags, rest)
    else none

/-- Opens a group of which the parenthesis is read, or sets the flags that stand in it. -/
def readGroup (r : Reading) (cs : List Char) : Option (Reading × List Char) :=
  match cs with
  | '?' :: '<' :: '=' :: _ | '?' :: '<' :: '!' :: _ => none
  | '?' :: 'P' :: '<' :: cs | '?' :: '<' :: cs => readNamedGroup r cs
  | '?' :: cs =>
    let isEnd (c : Char) := c == ':' || c == ')'
    let letters := cs.takeWhile (!isEnd ·)
    match cs.dropWhile (!isEnd ·) with
    | [] => none
    | c :: rest =>
      (r.flags.setAll true [] letters).bind fun flags =>
        if c = ':' then some (r.openGroup flags, rest)
        else if letters = [] then none
        else some (r.setFlags flags, rest)
  | cs => some (r.openGroup r.flags, cs)

/-! ## Repetitions -/

/-- Reads the question mark that turns the greed of a repetition around. -/
def readGreed (r : Reading) (cs : List Char) : Bool × List Char :=
  match cs with
  | '?' :: rest => (r.flags.swapGreed, rest)
  | _ => (!r.flags.swapGreed, cs)

/-- Reads the repetition of the last item. -/
def readRepeat (r : Reading) (f : Bool → Expr → Expr) (cs : List Char) :
    Option (Reading × List Char) :=
  let (greedy, rest) := readGreed r cs
  (r.repeatLast (f greedy)).map (·, rest)

/-- A number of rounds, with white space around it. -/
def count? (cs : List Char) : Option Nat :=
  (Numeral.unsigned? (Text.trim cs)).filter (· < UInt32.size)

/-- Reads the rounds in braces behind the last item. -/
def readCount (r : Reading) (cs : List Char) : Option (Reading × List Char) :=
  match cs.dropWhile (· ≠ '\x7d') with
  | [] => none
  | _ :: rest =>
    let written := cs.takeWhile (· ≠ '\x7d')
    match written.takeWhile (· ≠ ','), written.dropWhile (· ≠ ',') with
    | least, [] => (count? least).bind fun n => readRepeat r (fun g => Expr.between g n n) rest
    | least, [_] => (count? least).bind fun n => readRepeat r (fun g => Expr.atLeast g n) rest
    | least, _ :: most =>
      (count? least).bind fun n => (count? most).bind fun m =>
        if n ≤ m then readRepeat r (fun g => Expr.between g n m) rest else none

/-! ## Patterns -/

def readNext (r : Reading) (c : Char) (cs : List Char) : Option (Reading × List Char) :=
  match c with
  | '|' => some (r.nextChoice, cs)
  | '(' => readGroup r cs
  | ')' => r.closeGroup.map (·, cs)
  | '*' => readRepeat r Expr.star cs
  | '+' => readRepeat r Expr.plus cs
  | '?' => readRepeat r Expr.opt cs
  | '\x7b' => readCount r cs
  | '[' => (Bracket.read r.flags.foldCase cs).map fun (s, rest) => (r.add (.char s), rest)
  | '\\' => (Escape.read r.flags.foldCase cs).map fun (e, rest) => (r.addEscape e, rest)
  | '.' =>
    let stop := if r.flags.dotNewline then CharSet.empty else .singleton '\n'
    some (r.add (.char (.complement stop)), cs)
  | '^' => some (r.add (.anchor (if r.flags.multiline then .lineStart else .textStart)), cs)
  | '$' => some (r.add (.anchor (if r.flags.multiline then .lineEnd else .textEnd)), cs)
  | c => some (r.addChar c, cs)

/-- Reads a pattern to its end. Every round takes a character. -/
def readAll : Nat → Reading → List Char → Option Reading
  | _, r, [] => some r
  | 0, _, _ => none
  | fuel + 1, r, c :: cs => (readNext r c cs).bind fun (r, rest) => readAll fuel r rest

/-- The regular expression that a pattern writes, if it is well formed. A pattern is refused as well
if it uses what is documented but not read here: the flags `x`, `R` and `-u`, a boundary at one end
of a word, such as `\b{start}` and `\<`, and a class of characters by a property other than `Greek`,
`Nd`, `White_Space`, `ASCII` and `Any`, such as `\p{L}`. -/
def ofText? (cs : List Char) : Option Expr :=
  (readAll cs.length .start cs).bind fun r =>
    match r.outer with
    | [] => some r.group.expr
    | _ :: _ => none

end WorkflowLint.Pattern
