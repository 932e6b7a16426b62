import WorkflowLint.Json

/-!
Writing JSON, without any white space or indented by two columns. Strings keep all characters but
quotes, backslashes and control characters.
-/
namespace WorkflowLint.Json

def hexDigit (n : Nat) : Char :=
  if n < 10 then Char.ofNat (0x30 + n) else Char.ofNat (0x57 + n)

/-- A character as it stands in a string. -/
def escape (c : Char) : List Char :=
  match c with
  | '"' => ['\\', '"']
  | '\\' => ['\\', '\\']
  | '\x08' => ['\\', 'b']
  | '\x0c' => ['\\', 'f']
  | '\n' => ['\\', 'n']
  | '\r' => ['\\', 'r']
  | '\t' => ['\\', 't']
  | c =>
    if c.toNat < 0x20 then ['\\', 'u', '0', '0', hexDigit (c.toNat / 16), hexDigit (c.toNat % 16)]
    else [c]

def quote (s : String) : List Char :=
  '"' :: (s.toList.flatMap escape ++ ['"'])

/-- How a writer lays out the items of arrays and objects. -/
structure Layout where
  /-- What stands before an item, given how deep it is. -/
  lead : Nat → List Char
  /-- What stands after the name of a member. -/
  colon : List Char

def Layout.compact : Layout :=
  ⟨fun _ => [], [':']⟩

def Layout.pretty : Layout :=
  ⟨fun depth => '\n' :: List.replicate (2 * depth) ' ', [':', ' ']⟩

/-- Items in brackets, each on a line of its own if the layout has lines. -/
def enclose (l : Layout) (depth : Nat) (opening closing : Char) (items : List (List Char)) :
    List Char :=
  match items with
  | [] => [opening, closing]
  | _ =>
    opening :: ([','].intercalate (items.map (l.lead (depth + 1) ++ ·)) ++
      l.lead depth ++ [closing])

mutual

/-- The text of a value that stands at the given depth. What is unreadable is written as null. -/
def render (l : Layout) (depth : Nat) : Json → List Char
  | null | unreadable => ['n', 'u', 'l', 'l']
  | bool true => ['t', 'r', 'u', 'e']
  | bool false => ['f', 'a', 'l', 's', 'e']
  | number literal => literal.toList
  | string s => quote s
  | array items => enclose l depth '[' ']' (renderItems l (depth + 1) items)
  | object members => enclose l depth '\x7b' '\x7d' (renderMembers l (depth + 1) members)

def renderItems (l : Layout) (depth : Nat) : List Json → List (List Char)
  | [] => []
  | j :: js => render l depth j :: renderItems l depth js

def renderMembers (l : Layout) (depth : Nat) : List (String × Json) → List (List Char)
  | [] => []
  | (name, j) :: ms => (quote name ++ l.colon ++ render l depth j) :: renderMembers l depth ms

end

def compact (j : Json) : String :=
  String.ofList (j.render .compact 0)

def pretty (j : Json) : String :=
  String.ofList (j.render .pretty 0)

end WorkflowLint.Json
