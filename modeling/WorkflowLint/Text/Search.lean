/-!
Looking for one text inside another. The main statements say that the two tests are the relations
`<:+:` (a text occurs somewhere) and `<+:` (a text starts with another).
-/
namespace WorkflowLint.Text

/-- Whether `needle` stands somewhere in the text. -/
def occurs (needle : List Char) : List Char → Bool
  | [] => needle.isEmpty
  | c :: cs => needle.isPrefixOf (c :: cs) || occurs needle cs

def mentions (text marker : String) : Bool :=
  occurs marker.toList text.toList

/-- Whether some marker stands somewhere in `text`. -/
def mentionsAny (text : String) (markers : List String) : Bool :=
  markers.any (mentions text)

def startsWith (text opening : String) : Bool :=
  opening.toList.isPrefixOf text.toList

theorem occurs_iff {needle cs : List Char} : occurs needle cs ↔ needle <:+: cs := by
  induction cs with
  | nil => simp [occurs]
  | cons c cs ih => simp [occurs, ih, List.infix_cons_iff]

theorem mentions_iff {text marker : String} :
    mentions text marker ↔ marker.toList <:+: text.toList :=
  occurs_iff

theorem mentionsAny_iff {text : String} {markers : List String} :
    mentionsAny text markers ↔ ∃ m ∈ markers, m.toList <:+: text.toList := by
  simp [mentionsAny, mentions_iff]

theorem startsWith_iff {text opening : String} :
    startsWith text opening ↔ opening.toList <+: text.toList :=
  List.isPrefixOf_iff_prefix

end WorkflowLint.Text
