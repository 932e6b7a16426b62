import WorkflowLint.Text.CaseTable

/-!
Lower case of a text after the Unicode character database. One character may become two, and a
capital sigma becomes the final form at the end of a word.
-/
namespace WorkflowLint.Text

/-- The character that a table maps `c` to, which is `c` itself where no run holds it. -/
def CaseShift.apply (table : List CaseShift) (c : Char) : Char :=
  match table.find? (·.covers c.toNat) with
  | some s => Char.ofNat (c.toNat + s.offset).toNat
  | none => c

/-- The lower case of one character, whatever stands around it. -/
def lowerChar (c : Char) : List Char :=
  if c.toNat < 0x80 then [c.toLower]
  else if c = 'İ' then ['i', '\u0307']
  else [CaseShift.apply lowercaseShifts c]

/-- Whether the first character that is not ignored for casing is a cased one. -/
def beginsCased (cs : List Char) : Bool :=
  (cs.find? fun c => !inRanges caseIgnorableRanges c.toNat).any fun c =>
    inRanges casedRanges c.toNat

/-- The lower case of a text that follows `before`, whose characters stand last first. -/
def lowerFrom (before : List Char) : List Char → List Char
  | [] => []
  | c :: cs =>
    let here :=
      if c = 'Σ' then [if beginsCased before && !beginsCased cs then 'ς' else 'σ']
      else lowerChar c
    here ++ lowerFrom (c :: before) cs

def lowercase (text : String) : String :=
  String.ofList (lowerFrom [] text.toList)

example : lowercase "DB_Password" = "db_password" := by decide +kernel

example : lowercase "CLÉ À Þ×" = "clé à þ×" := by decide +kernel

example : lowercase "ΟΔΟΣ" = "οδος" := by decide +kernel

end WorkflowLint.Text
