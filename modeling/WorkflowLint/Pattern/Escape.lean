import WorkflowLint.Numeral
import WorkflowLint.Pattern.Expr

/-!
Reading what stands behind a backslash in a pattern: a character, a named set, or an anchor.
-/
namespace WorkflowLint.Pattern

inductive Escape
  | char (c : Char)
  | set (s : CharSet)
  | anchor (a : Anchor)

namespace Escape

def hexValue? (c : Char) : Option Nat :=
  if c.isDigit then some (c.toNat - '0'.toNat)
  else if 'a' ≤ c ∧ c ≤ 'f' then some (c.toNat - 'a'.toNat + 10)
  else if 'A' ≤ c ∧ c ≤ 'F' then some (c.toNat - 'A'.toNat + 10)
  else none

/-- The character with a code point in hexadecimal notation. -/
def codePoint? (digits : List Char) : Option Char := do
  if digits = [] then none
  let n ← digits.foldlM (fun n c => (hexValue? c).map (16 * n + ·)) 0
  if n.isValidChar then some (Char.ofNat n) else none

/-- Reads a code point in braces, or one of a fixed number of digits. -/
def readHex (count : Nat) (cs : List Char) : Option (Escape × List Char) :=
  match cs with
  | '\x7b' :: cs =>
    match cs.dropWhile (· ≠ '\x7d') with
    | [] => none
    | _ :: rest => (codePoint? (cs.takeWhile (· ≠ '\x7d'))).map fun c => (.char c, rest)
  | _ =>
    if count ≤ cs.length then
      (codePoint? (cs.take count)).map fun c => (.char c, cs.drop count)
    else none

/-- The name of a property without what its spelling may vary in. -/
def propertyName (cs : List Char) : String :=
  let cs := (cs.map Char.toLower).filter fun c => c ≠ ' ' ∧ c ≠ '_' ∧ c ≠ '-'
  match cs with
  | 'i' :: 's' :: rest => String.ofList rest
  | _ => String.ofList cs

def property? (cs : List Char) : Option CharSet :=
  match propertyName cs with
  | "greek" | "grek" | "script=greek" | "script=grek" | "sc=greek" | "sc=grek" | "script:greek"
  | "sc:greek" => some .greek
  | "nd" | "decimalnumber" | "digit" | "gc=nd" | "generalcategory=nd" => some .digit
  | "whitespace" | "wspace" | "space" => some .space
  | "any" => some (.complement .empty)
  | "ascii" => some (.ranges [('\x00', '\x7f')])
  | _ => none

/-- Reads the name of a property, of one letter or in braces. -/
def readProperty (cs : List Char) : Option (CharSet × List Char) :=
  match cs with
  | '\x7b' :: cs =>
    match cs.takeWhile (· ≠ '\x7d'), cs.dropWhile (· ≠ '\x7d') with
    | _, [] => none
    | '^' :: name, _ :: rest => (property? name).map fun s => (.complement s, rest)
    | name, _ :: rest => (property? name).map fun s => (s, rest)
  | c :: rest => (property? [c]).map fun s => (s, rest)
  | [] => none

/-- Whether a backslash makes the character stand for itself. -/
def isPlain (c : Char) : Bool :=
  c.toNat < 0x80 && !c.isAlphanum && c ≠ '<' && c ≠ '>'

/-- Reads what stands behind a backslash. -/
def read (foldCase : Bool) : List Char → Option (Escape × List Char)
  | [] => none
  | c :: cs =>
    match c with
    | 'd' => some (.set .digit, cs)
    | 'D' => some (.set (.complement .digit), cs)
    | 's' => some (.set .space, cs)
    | 'S' => some (.set (.complement .space), cs)
    | 'w' => some (.set .word, cs)
    | 'W' => some (.set (.complement .word), cs)
    | 'p' => (readProperty cs).map fun (s, rest) => (.set (fold s), rest)
    | 'P' => (readProperty cs).map fun (s, rest) => (.set (.complement (fold s)), rest)
    | 'x' => readHex 2 cs
    | 'u' => readHex 4 cs
    | 'U' => readHex 8 cs
    | 'a' => some (.char '\x07', cs)
    | 'f' => some (.char '\x0c', cs)
    | 't' => some (.char '\t', cs)
    | 'n' => some (.char '\n', cs)
    | 'r' => some (.char '\r', cs)
    | 'v' => some (.char '\x0b', cs)
    | 'A' => some (.anchor .textStart, cs)
    | 'z' => some (.anchor .textEnd, cs)
    | 'b' => some (.anchor .wordBoundary, cs)
    | 'B' => some (.anchor .noWordBoundary, cs)
    | _ => if isPlain c then some (.char c, cs) else none
where
  fold (s : CharSet) : CharSet := if foldCase then .folded s else s

end Escape

end WorkflowLint.Pattern
