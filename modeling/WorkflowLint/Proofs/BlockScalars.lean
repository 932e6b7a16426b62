import Mathlib
import WorkflowLint.Proofs.Confinement
import WorkflowLint.Proofs.Folding
import WorkflowLint.Proofs.Numbers

/-!
# Block scalars carry scripts

A script that is written below a field, deeper than it, is the value of the field. Reading goes on
below the script, and no other field is read from the lines of the script, whatever they look like:
a comment, a section or a step.
-/
namespace WorkflowLint

open Text

/-! ## Rows of a document -/

namespace Line

variable {tabWidth : Nat} {f : Nat → Nat} {rows : List (List Char)} {text : List Char}

/-- The lines that a document shows as the given rows, and their numbers. -/
def ofRows (tabWidth : Nat) (f : Nat → Nat) (rows : List (List Char)) : List Line :=
  rows.mapIdx fun i raw => ofRaw tabWidth (f i) raw

theorem drop_ofText (n : Nat) :
    (ofText tabWidth text).drop n = ofRows tabWidth (· + n + 1) ((Text.lines text).drop n) := by
  refine (List.mapIdx_eq_iff.mpr fun i => ?_).symm
  rw [List.getElem?_drop, List.getElem?_drop, ofText, List.getElem?_mapIdx, Nat.add_comm n i]

theorem ofRows_append (f : Nat → Nat) (rows rows' : List (List Char)) :
    ofRows tabWidth f (rows ++ rows') =
      ofRows tabWidth f rows ++ ofRows tabWidth (fun i => f (i + rows.length)) rows' :=
  List.mapIdx_append

theorem exists_of_mem_ofRows {l : Line} (h : l ∈ ofRows tabWidth f rows) :
    ∃ n, ∃ raw ∈ rows, l = ofRaw tabWidth n raw := by
  obtain ⟨i, hi, rfl⟩ := List.mem_mapIdx.mp h
  exact ⟨f i, rows[i], List.getElem_mem hi, rfl⟩

theorem exists_of_mem_head?_ofRows {l : Line} (h : l ∈ (ofRows tabWidth f rows).head?) :
    ∃ n, ∃ raw ∈ rows.head?, l = ofRaw tabWidth n raw := by
  cases rows with
  | nil => cases h
  | cons raw rows =>
      rw [ofRows, List.mapIdx_cons] at h
      cases h
      exact ⟨f 0, raw, rfl, rfl⟩

end Line

/-! ## Rows of a script -/

namespace Text

/-- Rows below a line with the given indentation that write a script: its lines, all of them deeper
by the same number of spaces, blank lines below them, and what ends the block. -/
structure Writes (tabWidth edge : Nat) (script : List Char) (rows blanks rest : List (List Char)) :
    Prop where
  isScript : IsScript (script.splitOn '\n')
  lines : ∃ depth, edge < depth ∧ List.Forall₂ (IsRowAt depth) (script.splitOn '\n') rows
  blank : ∀ raw ∈ blanks, trim raw = []
  ends : ∀ raw ∈ rest.head?, trim raw ≠ [] ∧ Line.width tabWidth raw ≤ edge

variable {tabWidth edge depth : Nat} {head : Line} {lines rows blanks rest : List (List Char)}
  {script : List Char}

theorem ofRows_script (h : List.Forall₂ (IsRowAt depth) lines rows)
    (hs : ∀ l ∈ lines, trimStart l = l.dropWhile (· = ' ')) (he : ∀ l ∈ lines, trimEnd l = l)
    (f : Nat → Nat) : (Line.ofRows tabWidth f rows).map (BlockStyle.row depth) = lines ∧
      ∀ l ∈ Line.ofRows tabWidth f rows, l.isBlank = false → depth ≤ l.indent := by
  induction h generalizing f with
  | nil => exact ⟨rfl, List.forall_mem_nil _⟩
  | @cons line raw lines rows hr t ih =>
      obtain ⟨hs, hss⟩ := List.forall_mem_cons.mp hs
      obtain ⟨he, hes⟩ := List.forall_mem_cons.mp he
      have hc : Line.ofRows tabWidth f (raw :: rows) =
          Line.ofRaw tabWidth (f 0) raw :: Line.ofRows tabWidth (fun i => f (i + 1)) rows :=
        List.mapIdx_cons
      obtain ⟨hm, hd⟩ := ih hss hes fun i => f (i + 1)
      obtain ⟨hi, hrow⟩ := hr.ofRaw hs he tabWidth (f 0)
      rw [hc, List.map_cons, hm, hrow]
      exact ⟨rfl, List.forall_mem_cons.mpr ⟨hi, hd⟩⟩

namespace Writes

theorem isBlank_of_mem (h : Writes tabWidth edge script rows blanks rest) {f : Nat → Nat} {l : Line}
    (hl : l ∈ Line.ofRows tabWidth f blanks) : l.isBlank = true := by
  obtain ⟨n, raw, hr, rfl⟩ := Line.exists_of_mem_ofRows hl
  exact List.isEmpty_iff.mpr (h.blank raw hr)

theorem deeper (h : Writes tabWidth edge script rows blanks rest) (f : Nat → Nat) :
    ∀ l ∈ Line.ofRows tabWidth f (rows ++ blanks), l.isBlank = true ∨ edge < l.indent := by
  obtain ⟨depth, hd, hr⟩ := h.lines
  intro l hl
  rw [Line.ofRows_append] at hl
  rcases List.mem_append.mp hl with hl | hl
  · cases hb : l.isBlank with
    | true => exact .inl rfl
    | false =>
        have hle := (ofRows_script hr h.isScript.start h.isScript.stop f).2 l hl hb
        exact .inr (Nat.lt_of_lt_of_le hd hle)
  · exact .inl (h.isBlank_of_mem hl)

theorem ends_ofRows (h : Writes tabWidth edge script rows blanks rest) (f : Nat → Nat) :
    ∀ l ∈ (Line.ofRows tabWidth f rest).head?, l.isBlank = false ∧ l.indent ≤ edge := by
  intro l hl
  obtain ⟨n, raw, hr, rfl⟩ := Line.exists_of_mem_head?_ofRows hl
  obtain ⟨hb, hi⟩ := h.ends raw hr
  exact ⟨Bool.eq_false_iff.mpr fun he => hb (List.isEmpty_iff.mp he), hi⟩

/-- A line with the given indentation that may be that of a block scalar owns the rows, and no
more. -/
theorem cut_eq (h : Writes tabWidth head.indent script rows blanks rest)
    {extent : Line → Extent} (he : extent head = .scalar) (f : Nat → Nat) :
    ∃ g, Section.cut extent head (Line.ofRows tabWidth f (rows ++ blanks ++ rest)) =
      (⟨head, Line.ofRows tabWidth f (rows ++ blanks)⟩, Line.ofRows tabWidth g rest) := by
  refine ⟨fun i => f (i + (rows ++ blanks).length), ?_⟩
  rw [Line.ofRows_append]
  refine Section.cut_append_below (fun l hl => ?_) fun l hl => ?_
  · rw [he]
    simpa [Extent.owns] using h.deeper f l hl
  · obtain ⟨hb, hi⟩ := h.ends_ofRows _ l hl
    rw [he]
    simp [Extent.owns, hb, hi]

theorem text_eq (h : Writes tabWidth edge script rows blanks rest) (style : BlockStyle)
    (f : Nat → Nat) :
    style.text (Line.ofRows tabWidth f (rows ++ blanks)) = style.shown script := by
  obtain ⟨depth, -, hr⟩ := h.lines
  obtain ⟨hm, hd⟩ := ofRows_script hr h.isScript.start h.isScript.stop f
  rw [Line.ofRows_append, style.text_eq_shown hd (hm ▸ h.isScript)
    (hm ▸ fun r => not_mem_of_mem_splitOn) fun l => h.isBlank_of_mem, hm, List.intercalate_splitOn]

theorem shown_ne_nil (h : Writes tabWidth edge script rows blanks rest) (style : BlockStyle) :
    style.shown script ≠ [] := by
  have hn : script ≠ [] := by
    rintro rfl
    obtain ⟨l, hl, hn, -⟩ := h.isScript.flush
    exact hn (List.mem_singleton.mp hl)
  cases style with
  | literal => exact hn
  | folded => exact fun he => hn (List.mapIdx_eq_nil_iff.mp he)

end Writes

end Text

/-! ## Fields -/

namespace ScalarField

variable {field : ScalarField} {tabWidth : Nat} {p : Place} {value : List Char}

/-- The place is the field, and the value stands behind its colon. -/
def IsWritten (p : Place) (value : List Char) : ScalarField → Prop
  | jobCondition => p.role = .jobField ∧ Job.field? p.head = some (.condition, value)
  | command => p.role = .stepField ∧ Step.field? p.head = some (.run, value)
  | stepCondition => p.role = .stepField ∧ Step.field? p.head = some (.condition, value)

/-- Reading a section sets the field, and changes nothing else. -/
def Sets (tabWidth : Nat) (s : Section) (text : String) : ScalarField → Prop
  | jobCondition => ∀ j, Job.readField tabWidth j s = .ok { j with condition := some text }
  | command => ∀ x, Step.readField x s = { x with run := some text }
  | stepCondition => ∀ x, Step.readField x s = { x with condition := some text }

theorem IsWritten.role_ne (h : field.IsWritten p value) : p.role ≠ .document := by
  cases field <;> simp [h.1]

theorem IsWritten.extent_eq (h : field.IsWritten p value) :
    p.role.extent p.head = .ofValue value := by
  cases field with
  | jobCondition => simp [h.1, Role.extent, Job.extent, h.2, Job.Key.extent]
  | command => simp [h.1, Role.extent, Step.extent, h.2, Step.Key.extent]
  | stepCondition => simp [h.1, Role.extent, Step.extent, h.2, Step.Key.extent]

theorem IsWritten.sets (h : field.IsWritten p value) {text : List Char} (hn : text ≠ [])
    (ht : scalar value p.body = text) : field.Sets tabWidth p.toSection (String.ofList text) := by
  cases field with
  | jobCondition => simp [Sets, Job.readField, h.2, Job.Key.set, ht, nonEmpty, hn]
  | command => simp [Sets, Step.readField, h.2, Step.Key.set, ht, nonEmpty, hn]
  | stepCondition => simp [Sets, Step.readField, h.2, Step.Key.set, ht, nonEmpty, hn]

theorem IsWritten.confines (h : field.IsWritten p value) : p.Confines tabWidth field p := by
  refine ⟨[], [], p.embeds_refl, "", 0, fun other _ => ?_⟩
  obtain ⟨⟨head, body⟩, role⟩ := p
  cases field with
  | jobCondition =>
      obtain ⟨rfl, hk⟩ := h
      intro j j' hj
      simp only [Job.readField, hk, Job.Key.set]
      exact congrArg Except.ok hj
  | command =>
      obtain ⟨rfl, hk⟩ := h
      intro x x' hx
      simp only [Step.readField, hk, Step.Key.set]
      exact hx
  | stepCondition =>
      obtain ⟨rfl, hk⟩ := h
      intro x x' hx
      simp only [Step.readField, hk, Step.Key.set]
      exact hx

end ScalarField

theorem Place.length_of_embeds {tabWidth : Nat} {text : List Char} {p : Place}
    {above below : List Line}
    (h : (document (Line.ofText tabWidth text)).Embeds p above below) :
    above.length = p.head.number := by
  have hb : Line.ofText tabWidth text = above ++ (p.body ++ below) := h.body
  rcases above.eq_nil_or_concat with rfl | ⟨ls, l, rfl⟩
  · exact h.number _ rfl
  · -- The place's own line is the last one above its body, and lines are numbered from one on.
    rw [List.concat_eq_append] at h hb ⊢
    have hl : (Line.ofText tabWidth text)[ls.length]? = some l := by simp [hb]
    have hlast : l ∈ ((document (Line.ofText tabWidth text)).head :: (ls ++ [l])).getLast? := by
      rw [List.getLast?_cons, List.getLast?_concat]
      rfl
    rw [← h.number l hlast, Line.number_of_getElem? hl, List.length_append, List.length_singleton]

theorem Place.Embeds.cut_eq {tabWidth : Nat} {text : List Char} {p : Place} {above below : List Line}
    (h : (document (Line.ofText tabWidth text)).Embeds p above below)
    (hb : ∀ l ∈ p.body, p.Owns l) (hr : p.role ≠ .document) :
    above = (Line.ofText tabWidth text).take p.head.number ∧
      Section.cut p.role.extent p.head ((Line.ofText tabWidth text).drop p.head.number) =
        (p.toSection, below) := by
  have hls : Line.ofText tabWidth text = above ++ (p.body ++ below) := h.body
  rw [hls, ← length_of_embeds h, List.take_left, List.drop_left]
  refine ⟨rfl, Section.cut_append_below (fun l hl => (hb l hl).resolve_left hr) fun l hl => ?_⟩
  exact Bool.eq_false_iff.mpr fun ho => h.stops l hl (.inr ho)

/-- A place with a line of its own reaches over lines that it owns, up to the first one that it does
not own. -/
theorem Place.body_eq_of_drop {tabWidth : Nat} {text : List Char} {p : Place}
    {shown below : List Line} (hp : (document (Line.ofText tabWidth text)).Holds tabWidth p)
    (hr : p.role ≠ .document) (hd : (Line.ofText tabWidth text).drop p.head.number = shown ++ below)
    (ho : ∀ l ∈ shown, (p.role.extent p.head).owns p.head l = true)
    (hb : ∀ l ∈ below.head?, (p.role.extent p.head).owns p.head l = false) : p.body = shown := by
  obtain ⟨above, rest, hem⟩ := exists_embeds .refl hp
  have hcut := (hem.cut_eq (owns_of_mem_body hp) hr).2
  rw [hd, Section.cut_append_below ho hb] at hcut
  exact (congrArg (·.1.body) hcut).symm

/-- What reading a field comes to under which a number of rows write a value. -/
structure ScalarField.Reads (tabWidth : Nat) (ls : List Line) (p : Place) (size : Nat)
    (value : String) (field : ScalarField) : Prop where
  sets : field.Sets tabWidth p.toSection value
  /-- Reading goes on below the rows. -/
  goesOn : Section.cut p.role.extent p.head (ls.drop p.head.number) =
    (p.toSection, ls.drop (p.head.number + size))
  /-- Whatever rows stand there, as long as they belong to the field, they change the field of one
  job or step at most. -/
  confined : ∃ id k, ∀ other : List Line,
    (∀ l ∈ other, l.isBlank = true ∨ p.head.indent < l.indent) →
      (Workflow.read tabWidth (ls.take p.head.number ++
        (other ++ ls.drop (p.head.number + size)))).map (field.clear id k) =
          (Workflow.read tabWidth ls).map (field.clear id k)

/-- A script below a field is its value, and is of no account for anything else. -/
theorem ScalarField.reads_script {tabWidth : Nat} {text hints script : List Char} {p : Place}
    {field : ScalarField} {style : BlockStyle} {rows blanks rest : List (List Char)}
    (hp : (Place.document (Line.ofText tabWidth text)).Holds tabWidth p)
    (hv : field.IsWritten p (style.sign :: hints))
    (hh : ∀ c ∈ hints, c = '-' ∨ c = '+' ∨ c.isDigit = true)
    (hw : Text.Writes tabWidth p.head.indent script rows blanks rest)
    (hl : (Text.lines text).drop p.head.number = rows ++ blanks ++ rest) :
    field.Reads tabWidth (Line.ofText tabWidth text) p (rows ++ blanks).length
      (String.ofList (style.shown script)) := by
  have he : p.role.extent p.head = .scalar := by
    rw [hv.extent_eq, Extent.ofValue, style.of?_sign hh]
    rfl
  obtain ⟨above, below, hem, id, k, hsame⟩ := Place.confines_of_holds .refl hp hv.confines
  obtain ⟨rfl, hcut⟩ := hem.cut_eq (Place.owns_of_mem_body hp) hv.role_ne
  have hrows : (Line.ofText tabWidth text).drop p.head.number =
      Line.ofRows tabWidth (· + p.head.number + 1) (rows ++ blanks ++ rest) := by
    rw [Line.drop_ofText, hl]
  -- What the field owns of the lines below it are the rows, and they are what is read with it.
  obtain ⟨f, hcut'⟩ := hw.cut_eq he (· + p.head.number + 1)
  rw [← hrows, hcut] at hcut'
  have hbody : p.body = Line.ofRows tabWidth (· + p.head.number + 1) (rows ++ blanks) :=
    congrArg (·.1.body) hcut'
  have hbelow :
      below = (Line.ofText tabWidth text).drop (p.head.number + (rows ++ blanks).length) := by
    have hd := Section.body_append_cut p.role.extent p.head
      ((Line.ofText tabWidth text).drop p.head.number)
    have hs : p.body.length = (rows ++ blanks).length := by
      rw [hbody, Line.ofRows, List.length_mapIdx]
    rw [hcut] at hd
    rw [← List.drop_drop, ← hd, ← hs, List.drop_left]
  refine ⟨hv.sets (hw.shown_ne_nil style) ?_, hbelow ▸ hcut, id, k, fun other ho => ?_⟩
  · rw [scalar, style.of?_sign hh, hbody]
    exact hw.text_eq style _
  · rw [← hbelow]
    refine (hsame other fun l hl => .inr ?_).symm
    rw [he]
    simpa [Extent.owns] using ho l hl

/-- A command behind the dash of its step, with lines that look like a comment, a section and a step
were they read as such. -/
def lookalike : List Char :=
  "jobs:\n b:\n  steps:\n  - run: >-2 # folded\n     # a\n     jobs:\n   \n      - run: x\n\n    if: y\n".toList

def lookalikeScript : List Char :=
  "# a\njobs:\n\n - run: x".toList

/-- The command, which stands in the column behind the dash. -/
def lookalikeCommand : Place :=
  ⟨⟨⟨4, 4, "run: >-2 # folded".toList⟩, ((Line.ofText 2 lookalike).drop 4).take 5⟩, .stepField⟩

theorem lookalike_read :
    (Place.document (Line.ofText 2 lookalike)).Holds 2 lookalikeCommand ∧
      ScalarField.command.IsWritten lookalikeCommand ">-2".toList ∧
        ScalarField.command.Reads 2 (Line.ofText 2 lookalike) lookalikeCommand 5
          (String.ofList "# a jobs:\n\n - run: x".toList) := by
  have hf : (Place.document (Line.ofText 2 lookalike)).follow 2 [0, 0, 0, 0, 0] =
      some lookalikeCommand := by cbv
  have hv : ScalarField.command.IsWritten lookalikeCommand (BlockStyle.folded.sign :: ['-', '2']) :=
    ⟨rfl, rfl⟩
  have hs : lookalikeScript.splitOn '\n' =
      ["# a".toList, "jobs:".toList, [], " - run: x".toList] := by decide
  have hw : Text.Writes 2 lookalikeCommand.head.indent lookalikeScript
      [row 5 "# a".toList, row 5 "jobs:".toList, row 3 [], row 5 " - run: x".toList] [[]]
      ["    if: y".toList] := by
    refine ⟨hs ▸ by decide, ⟨5, by decide, hs ▸ ?_⟩, by decide, by decide⟩
    exact .cons (isRowAt_row 5 (by decide)) (.cons (isRowAt_row 5 (by decide))
      (.cons (isRowAt_blank 5 3) (.cons (isRowAt_row 5 (by decide)) .nil)))
  have hl : (Text.lines lookalike).drop lookalikeCommand.head.number =
      [row 5 "# a".toList, row 5 "jobs:".toList, row 3 [], row 5 " - run: x".toList] ++ [[]] ++
        ["    if: y".toList] := by decide +kernel
  have hh : ∀ c ∈ ['-', '2'], c = '-' ∨ c = '+' ∨ c.isDigit = true :=
    List.forall_mem_cons.mpr ⟨.inl rfl, List.forall_mem_singleton.mpr (.inr (.inr rfl))⟩
  have hr := ScalarField.reads_script (Place.holds_of_follow hf) hv hh hw hl
  have hfold : BlockStyle.folded.shown lookalikeScript = "# a jobs:\n\n - run: x".toList := by
    decide +kernel
  rw [hfold] at hr
  exact ⟨Place.holds_of_follow hf, hv, hr⟩

end WorkflowLint
