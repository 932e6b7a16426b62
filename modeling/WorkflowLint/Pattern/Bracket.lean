import WorkflowLint.Pattern.Escape

/-!
Reading a set of characters in brackets: single characters, ranges, named sets, sets in sets, and
the operations between them.
-/
namespace WorkflowLint.Pattern.Bracket

/-- The sets with names for the ASCII characters. -/
def named? : List Char → Option CharSet
  | ['a', 'l', 'n', 'u', 'm'] => some (.ranges [('0', '9'), ('A', 'Z'), ('a', 'z')])
  | ['a', 'l', 'p', 'h', 'a'] => some (.ranges [('A', 'Z'), ('a', 'z')])
  | ['a', 's', 'c', 'i', 'i'] => some (.ranges [('\x00', '\x7f')])
  | ['b', 'l', 'a', 'n', 'k'] => some (.ranges [('\t', '\t'), (' ', ' ')])
  | ['c', 'n', 't', 'r', 'l'] => some (.ranges [('\x00', '\x1f'), ('\x7f', '\x7f')])
  | ['d', 'i', 'g', 'i', 't'] => some (.ranges [('0', '9')])
  | ['g', 'r', 'a', 'p', 'h'] => some (.ranges [('!', '~')])
  | ['l', 'o', 'w', 'e', 'r'] => some (.ranges [('a', 'z')])
  | ['p', 'r', 'i', 'n', 't'] => some (.ranges [(' ', '~')])
  | ['p', 'u', 'n', 'c', 't'] =>
    some (.ranges [('!', '/'), (':', '@'), ('[', '\x60'), ('\x7b', '~')])
  | ['s', 'p', 'a', 'c', 'e'] => some (.ranges [('\t', '\r'), (' ', ' ')])
  | ['u', 'p', 'p', 'e', 'r'] => some (.ranges [('A', 'Z')])
  | ['w', 'o', 'r', 'd'] => some (.ranges [('0', '9'), ('A', 'Z'), ('_', '_'), ('a', 'z')])
  | ['x', 'd', 'i', 'g', 'i', 't'] => some (.ranges [('0', '9'), ('A', 'F'), ('a', 'f')])
  | _ => none

/-- Reads a named set behind its opening bracket, such as `:alpha:]`. -/
def readNamed (cs : List Char) : Option (CharSet × List Char) :=
  match cs with
  | ':' :: cs =>
    match cs.dropWhile (· ≠ ':') with
    | ':' :: ']' :: rest =>
      match cs.takeWhile (· ≠ ':') with
      | '^' :: name => (named? name).map fun s => (.complement s, rest)
      | name => (named? name).map fun s => (s, rest)
    | _ => none
  | _ => none

def readItem (foldCase : Bool) : List Char → Option (Escape × List Char)
  | [] => none
  | '\\' :: cs => Escape.read foldCase cs
  | c :: cs => some (.char c, cs)

/-- Reads a character, a range of characters, or an escaped set. -/
def readRange (foldCase : Bool) (cs : List Char) : Option (CharSet × List Char) := do
  let (first, rest) ← readItem foldCase cs
  match rest with
  | '-' :: after =>
    if after.head? ≠ some ']' ∧ after.head? ≠ some '-' then
      let (last, rest) ← readItem foldCase after
      match first, last with
      | .char c, .char d => if c ≤ d then some (.ranges [(c, d)], rest) else none
      | _, _ => none
    else single first rest
  | _ => single first rest
where
  single (item : Escape) (rest : List Char) : Option (CharSet × List Char) :=
    match item with
    | .char c => some (.singleton c, rest)
    | .set s => some (s, rest)
    | .anchor _ => none

/-- The operations between sets in brackets. -/
inductive Op
  | inter
  | diff
  | symmDiff

def Op.apply : Op → CharSet → CharSet → CharSet
  | inter => CharSet.inter
  | diff => CharSet.diff
  | symmDiff => CharSet.symmDiff

/-- An open bracket: what was read of it, and the operation that waits for its second set. -/
structure Open where
  negated : Bool
  pending : Option (Op × CharSet)
  set : CharSet

namespace Open

def add (b : Open) (s : CharSet) : Open :=
  { b with set := .union b.set s }

/-- The set so far, with the operation that was waiting. -/
def settled (foldCase : Bool) (b : Open) : CharSet :=
  let fold (s : CharSet) := if foldCase then CharSet.folded s else s
  match b.pending with
  | some (op, left) => op.apply (fold left) (fold b.set)
  | none => b.set

def await (foldCase : Bool) (b : Open) (op : Op) : Open :=
  { b with pending := some (op, b.settled foldCase), set := .empty }

def close (foldCase : Bool) (b : Open) : CharSet :=
  let s := if foldCase then .folded (b.settled foldCase) else b.settled foldCase
  if b.negated then .complement s else s

end Open

/-- Reads the dashes at the start of a bracket, which stand for themselves, and a closing bracket
if it comes first, which does so too. -/
def readStart (negated : Bool) (cs : List Char) : Open × List Char :=
  let rest := cs.dropWhile (· = '-')
  let start : Open := ⟨negated, none, .empty⟩
  if rest.length < cs.length then (start.add (.singleton '-'), rest)
  else
    match cs with
    | ']' :: rest => (start.add (.singleton ']'), rest)
    | _ => (start, cs)

/-- Opens a bracket, of which the first character is read. -/
def openBracket : List Char → Open × List Char
  | '^' :: cs => readStart true cs
  | cs => readStart false cs

/-- Reads on in the innermost of the open brackets, up to the end of the outermost one. -/
def readOpen (foldCase : Bool) : Nat → Open → List Open → List Char → Option (CharSet × List Char)
  | 0, _, _, _ => none
  | _, _, _, [] => none
  | fuel + 1, b, outer, ']' :: cs =>
    match outer with
    | [] => some (b.close foldCase, cs)
    | o :: outer => readOpen foldCase fuel (o.add (b.close foldCase)) outer cs
  | fuel + 1, b, outer, '[' :: cs =>
    match readNamed cs with
    | some (s, rest) => readOpen foldCase fuel (b.add s) outer rest
    | none =>
      let (inner, rest) := openBracket cs
      readOpen foldCase fuel inner (b :: outer) rest
  | fuel + 1, b, outer, '&' :: '&' :: cs =>
    readOpen foldCase fuel (b.await foldCase .inter) outer cs
  | fuel + 1, b, outer, '-' :: '-' :: cs =>
    readOpen foldCase fuel (b.await foldCase .diff) outer cs
  | fuel + 1, b, outer, '~' :: '~' :: cs =>
    readOpen foldCase fuel (b.await foldCase .symmDiff) outer cs
  | fuel + 1, b, outer, cs =>
    match readRange foldCase cs with
    | some (s, rest) => readOpen foldCase fuel (b.add s) outer rest
    | none => none

/-- Reads a set behind its opening bracket. Every round of reading takes a character. -/
def read (foldCase : Bool) (cs : List Char) : Option (CharSet × List Char) :=
  let (b, rest) := openBracket cs
  readOpen foldCase (cs.length + 1) b [] rest

end WorkflowLint.Pattern.Bracket
