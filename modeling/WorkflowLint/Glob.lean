import WorkflowLint.Pattern.Expr
import WorkflowLint.Text.Utf8

/-!
Globs on paths. A glob is read into a regular expression on the bytes of a path, each of which is
written as the character of its number.
-/
namespace WorkflowLint.Glob

open Pattern (CharSet Expr)

def byteChars (cs : List Char) : List Char :=
  (Text.Utf8.encode cs).map fun b => Char.ofNat b.toNat

/-! ## Expressions -/

def literal (c : Char) : Expr :=
  .inOrder ((byteChars [c]).map fun b => .char (.singleton b))

def anyByte : Expr :=
  .char (.complement .empty)

def anyBytes : Expr :=
  .star true anyByte

def slash : Expr :=
  .char (.singleton '/')

/-- Any number of folders, each with its separator. -/
def folders : Expr :=
  .alt (.opt true slash) (.seq anyBytes slash)

/-- A separator, and any number of folders after it. -/
def innerFolders : Expr :=
  .alt slash (.seq slash (.seq anyBytes slash))

/-- The bytes of a range. Of characters with several bytes, the last byte of the lower one and the
first byte of the upper one make the range, and the others stand for themselves. -/
def rangeBytes (c d : Char) : List (Char × Char) :=
  let single (b : Char) := (b, b)
  if c = d then (byteChars [c]).map single
  else
    match (byteChars [c]).reverse, byteChars [d] with
    | low :: before, high :: after => before.map single ++ [(low, high)] ++ after.map single
    | _, _ => []

/-! ## Reading -/

/-- The pieces of a glob. The pieces for folders are kept apart from others, for they join with
what stands next to them. -/
inductive Piece
  | plain (e : Expr)
  /-- Braces with nothing in them. -/
  | blank
  /-- `**/` at the start. -/
  | leadingFolders
  /-- `/**` at the end. -/
  | trailingFolders
  /-- `/**/` between others. -/
  | innerFolders

def Piece.expr : Piece → Expr
  | plain e => e
  | blank => .empty
  | leadingFolders => folders
  | trailingFolders => .seq slash anyBytes
  | innerFolders => Glob.innerFolders

def Piece.isBlank : Piece → Bool
  | blank => true
  | _ => false

/-- The alternative that is being read, pieces last first, and the finished ones of its braces. -/
structure Branch where
  finished : List (List Piece)
  pieces : List Piece

/-- What was read of a glob: the innermost alternative, those that it stands in, and the character
before the next one. -/
structure Reading where
  branch : Branch
  outer : List Branch
  before : Option Char

namespace Reading

def add (r : Reading) (p : Piece) : Reading :=
  { r with branch := { r.branch with pieces := p :: r.branch.pieces } }

def replaceLast (r : Reading) (p : Piece) : Reading :=
  { r with branch := { r.branch with pieces := p :: r.branch.pieces.tail } }

def openBraces (r : Reading) : Reading :=
  { r with branch := ⟨[], []⟩, outer := r.branch :: r.outer }

def nextBranch (r : Reading) : Reading :=
  { r with branch := ⟨r.branch.pieces :: r.branch.finished, []⟩ }

/-- What some alternatives make. An empty one is left out. -/
def choice (branches : List (List Piece)) : Piece :=
  let full := branches.filter fun ps => !ps.all (·.isBlank)
  match full.map fun ps => Expr.inOrder (ps.reverse.map Piece.expr) with
  | [] => .blank
  | es => .plain (.oneOf es)

/-- Closes braces, if some are open. -/
def closeBraces (r : Reading) : Option Reading :=
  match r.outer with
  | [] => none
  | b :: outer =>
    let inner := choice (r.branch.pieces :: r.branch.finished).reverse
    some { r with branch := { b with pieces := inner :: b.pieces }, outer := outer }

end Reading

/-- The set that is read in brackets. -/
structure Ranges where
  ranges : List (Char × Char)
  /-- Whether a dash waits for the end of its range. -/
  pending : Bool
  first : Bool

/-- Adds the next character of a set in brackets, unless a range would run backwards. -/
def Ranges.add (rs : Ranges) (c : Char) : Option Ranges :=
  match rs.pending, rs.ranges with
  | true, (low, _) :: ranges => if low ≤ c then some ⟨(low, c) :: ranges, false, false⟩ else none
  | _, ranges =>
    if c = '-' ∧ ¬rs.first then some ⟨ranges, true, false⟩
    else some ⟨(c, c) :: ranges, false, false⟩

/-- Reads a set to its closing bracket, which must not come first. -/
def readRanges (rs : Ranges) : List Char → Option (List (Char × Char) × List Char)
  | [] => none
  | c :: cs =>
    if c = ']' ∧ ¬rs.first then
      some (if rs.pending then ('-', '-') :: rs.ranges else rs.ranges, cs)
    else (rs.add c).bind fun rs => readRanges rs cs

/-- Reads a set behind its opening bracket. -/
def readSet (cs : List Char) : Option (Expr × List Char) :=
  let start : Ranges := ⟨[], false, true⟩
  let set (ranges : List (Char × Char)) : CharSet :=
    .ranges (ranges.flatMap fun r => rangeBytes r.1 r.2)
  match cs with
  | '!' :: cs | '^' :: cs =>
    (readRanges start cs).map fun (ranges, rest) => (.char (.complement (set ranges)), rest)
  | cs => (readRanges start cs).map fun (ranges, rest) => (.char (set ranges), rest)

def twoStars (r : Reading) : Reading :=
  (r.add (.plain anyBytes)).add (.plain anyBytes)

/-- Reads on behind two stars. They stand for folders where separators are around them. -/
def readFolders (r : Reading) (cs : List Char) : Reading × List Char :=
  let inBraces := !r.outer.isEmpty
  let join (r : Reading) (p : Piece) : Reading :=
    match r.branch.pieces with
    | .leadingFolders :: _ => r
    | .trailingFolders :: _ => r
    | _ => r.replaceLast p
  if r.branch.pieces.isEmpty then
    match cs with
    | [] => (r.add .leadingFolders, [])
    | '/' :: rest => (r.add .leadingFolders, rest)
    | _ => (twoStars r, cs)
  else if r.before ≠ some '/' ∧ (!inBraces ∨ (r.before ≠ some ',' ∧ r.before ≠ some '\x7b')) then
    (twoStars r, cs)
  else
    match cs with
    | [] => (join r .trailingFolders, [])
    | '/' :: rest => (join r .innerFolders, rest)
    | c :: _ =>
      if inBraces ∧ (c = ',' ∨ c = '\x7d') then (join r .trailingFolders, cs) else (twoStars r, cs)

def readNext (r : Reading) (c : Char) (cs : List Char) : Option (Reading × List Char) :=
  match c with
  | '?' => some (r.add (.plain anyByte), cs)
  | '*' =>
    match cs with
    | '*' :: cs =>
      let (r, rest) := readFolders r cs
      some (r, rest)
    | cs => some (r.add (.plain anyBytes), cs)
  | '[' => (readSet cs).map fun (e, rest) => (r.add (.plain e), rest)
  | '\x7b' => some (r.openBraces, cs)
  | '\x7d' => r.closeBraces.map (·, cs)
  | ',' => some (if r.outer.isEmpty then r.add (.plain (literal ',')) else r.nextBranch, cs)
  | '\\' =>
    match cs with
    | [] => none
    | c :: cs => some (r.add (.plain (literal c)), cs)
  | c => some (r.add (.plain (literal c)), cs)

def lastOf (cs rest : List Char) : Option Char :=
  cs[cs.length - rest.length - 1]?

/-- Reads a glob to its end. Every round takes a character. -/
def readAll : Nat → Reading → List Char → Option Reading
  | _, r, [] => some r
  | 0, _, _ => none
  | fuel + 1, r, c :: cs =>
    (readNext r c cs).bind fun (next, rest) =>
      readAll fuel { next with before := lastOf (c :: cs) rest } rest

/-- The expression of a glob, if it is well formed. -/
def ofText? (cs : List Char) : Option Expr :=
  (readAll cs.length ⟨⟨[], []⟩, [], none⟩ cs).bind fun r =>
    match r.outer, r.branch.pieces with
    | [], [.leadingFolders] => some anyBytes
    | [], ps => some (.inOrder (ps.reverse.map Piece.expr))
    | _ :: _, _ => none

/-- Whether a glob matches a path from end to end. -/
def covers (e : Expr) (path : String) : Bool :=
  Pattern.matchesAll e (byteChars path.toList)

end WorkflowLint.Glob
