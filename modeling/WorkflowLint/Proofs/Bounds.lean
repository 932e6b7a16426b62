import WorkflowLint.Proofs.Lines
import WorkflowLint.Proofs.Spacing
import WorkflowLint.Workflow.Bounded

/-!
# Reading within bounds

What a machine reads in a document is what the document describes, or the reading is abandoned
because some columns cannot be counted. Where there is room for all columns it is not abandoned, and
there always is for documents and tabs of a moderate size.
-/
namespace WorkflowLint

variable {f : Nat → Nat} {k tabWidth : Nat} {ls ms body : List Line}

/-! ## What is read unless it is abandoned -/

/-- The machine reads what is to be read, or does not come to an end. -/
def Stop.Follows {α : Type} (machine : Except Stop α) (ideal : Except SyntaxError α) : Prop :=
  machine = .error .overflow ∨ machine = ideal.mapError .malformed

namespace Stop.Follows

variable {α β γ : Type} {machine : Except Stop α} {ideal : Except SyntaxError α}

theorem of_ite {c : Prop} [Decidable c] (h : Follows machine ideal) :
    Follows (if c then .error .overflow else machine) ideal := by
  split
  · exact .inl rfl
  · exact h

theorem map (g : α → β) (h : Follows machine ideal) : Follows (machine.map g) (ideal.map g) := by
  rcases h with rfl | rfl
  · exact .inl rfl
  · cases ideal <;> exact .inr rfl

theorem foldlM {g : α → β → Except Stop α} {g' : α → β → Except SyntaxError α}
    (h : ∀ a b, Follows (g a b) (g' a b)) (bs : List β) (a : α) :
    Follows (bs.foldlM g a) (bs.foldlM g' a) := by
  induction bs generalizing a with
  | nil => exact .inr rfl
  | cons b bs ih =>
      rw [List.foldlM_cons, List.foldlM_cons]
      rcases h a b with hs | hs
      · exact .inl (by rw [hs]; rfl)
      · rw [hs]
        cases g' a b with
        | error e => exact .inr rfl
        | ok a' => exact ih a'

theorem eq_of_ne (h : Follows machine ideal) (hn : machine ≠ .error .overflow) :
    machine = ideal.mapError .malformed :=
  h.resolve_left hn

end Stop.Follows

theorem Job.parseField_follows (j : Job) (field : Section) :
    Stop.Follows (parseField tabWidth j field) (readField tabWidth j field) :=
  .of_ite (.inr rfl)

theorem Job.parse_follows (body : List Line) :
    Stop.Follows (parse tabWidth body) (read tabWidth body) :=
  .foldlM parseField_follows (fields body) blank

theorem Job.parseTo_follows (jobs : Table Job) (s : Section) :
    Stop.Follows (parseTo tabWidth jobs s) (addTo tabWidth jobs s) := by
  unfold parseTo addTo
  cases Entry.of? s.head.text with
  | none => exact .inr rfl
  | some e => exact (parse_follows s.body).map _

theorem Job.parseAll_follows (body : List Line) (jobs : Table Job) :
    Stop.Follows (parseAll tabWidth body jobs) (readAll tabWidth body jobs) :=
  .foldlM parseTo_follows _ jobs

theorem Workflow.parseSection_follows (w : Workflow) (s : Section) :
    Stop.Follows (parseSection tabWidth w s) (readSection tabWidth w s) := by
  unfold parseSection
  split
  · rename_i value hf
    simp only [readSection, hf]
    exact (Job.parseAll_follows s.body w.jobs).map _
  · exact .inr rfl

theorem Workflow.parseLines_follows (ls : List Line) :
    Stop.Follows (parseLines tabWidth ls) (read tabWidth ls) :=
  .of_ite (.foldlM parseSection_follows _ blank)

/-- A document is read as what it describes, unless the reading is abandoned. -/
theorem Workflow.parse_eq_ofText {text : List Char} (h : parse tabWidth text ≠ .error .overflow) :
    parse tabWidth text = (ofText tabWidth text).mapError .malformed :=
  (parseLines_follows (Line.ofText tabWidth text)).eq_of_ne h

theorem Workflow.ofText_of_parse {text : List Char} {w : Workflow}
    (h : parse tabWidth text = .ok w) : ofText tabWidth text = .ok w := by
  have hp := parse_eq_ofText (h.trans_ne nofun)
  rw [h] at hp
  cases ho : ofText tabWidth text with
  | error e => simp [ho, Except.mapError] at hp
  | ok w' =>
      rw [ho] at hp
      exact congrArg Except.ok (Except.ok.inj hp).symm

theorem Workflow.ofText_of_parse_error {text : List Char} {e : SyntaxError}
    (h : parse tabWidth text = .error (.malformed e)) : ofText tabWidth text = .error e := by
  have hp := parse_eq_ofText (h.trans_ne nofun)
  rw [h] at hp
  cases ho : ofText tabWidth text with
  | error e' =>
      rw [ho] at hp
      exact congrArg Except.error (Stop.malformed.inj (Except.error.inj hp)).symm
  | ok w => simp [ho, Except.mapError] at hp

/-! ## Room for the columns -/

/-- The column of what stands behind a dash can be counted, if there is anything. -/
def Step.CountsContent (tabWidth : Nat) (dash : Line) : Prop :=
  (contentLine tabWidth dash).isBlank = false →
    (contentLine tabWidth dash).indent < Line.columnLimit

def Step.CountsContents (tabWidth : Nat) (ls : List Line) : Prop :=
  ∀ l ∈ ls, l.isItem = true → CountsContent tabWidth l

theorem Step.CountsContents.of_subset (h : CountsContents tabWidth ls) (hs : body ⊆ ls) :
    CountsContents tabWidth body :=
  fun l hl => h l (hs hl)

/-- The columns of the lines can be counted, those of what stands behind their dashes too, and no
line stands too far to the right of another one. -/
structure Line.Room (tabWidth : Nat) (ls : List Line) : Prop where
  line : ∀ l ∈ ls, l.indent < columnLimit
  content : Step.CountsContents tabWidth ls
  padding : ∀ l ∈ ls, ∀ m ∈ ls, l.isBlank = false → m.isBlank = false →
    l.indent - m.indent < Text.lengthLimit

theorem Line.Room.of_subset (h : Line.Room tabWidth ls) (hs : body ⊆ ls) :
    Line.Room tabWidth body where
  line l hl := h.line l (hs hl)
  content := h.content.of_subset hs
  padding l hl m hm := h.padding l (hs hl) m (hs hm)

theorem BlockStyle.exists_margin {l : Line} (hl : l ∈ ls) (hb : l.isBlank = false) :
    ∃ m ∈ ls, m.isBlank = false ∧ margin ls = m.indent := by
  have hm : l.indent ∈ (ls.filter (!·.isBlank)).map (·.indent) :=
    List.mem_map_of_mem (List.mem_filter.mpr ⟨hl, by simp [hb]⟩)
  cases hi : ((ls.filter (!·.isBlank)).map (·.indent)).min? with
  | none => simp [List.min?_eq_none_iff.mp hi] at hm
  | some i =>
      obtain ⟨m, hf, rfl⟩ := List.mem_map.mp (List.min?_eq_some_iff.mp hi).1
      obtain ⟨hm, hmb⟩ := List.mem_filter.mp hf
      exact ⟨m, hm, by simpa using hmb, by rw [margin, hi]; rfl⟩

theorem Step.subset_of_mem_fields {item field : Section} (h : field ∈ fields tabWidth item) :
    field.body ⊆ item.body := by
  simp only [fields] at h
  split at h
  · exact Section.subset_of_mem_cutAll (Section.mem_of_mem_level h)
  · rcases List.mem_cons.mp (Section.mem_of_mem_level h) with rfl | h
    · exact List.takeWhile_subset _
    · exact fun l hl => List.dropWhile_subset _ (Section.subset_of_mem_cutAll h hl)

namespace Line.Room

theorem scalar (h : Line.Room tabWidth ls) (value : List Char) :
    scalarOverflows value ls = false := by
  have ho : BlockStyle.overflows ls = false := by
    refine List.any_eq_false.mpr fun l hl => ?_
    have hl := BlockStyle.body_subset ls hl
    cases hb : l.isBlank with
    | true => simp
    | false =>
        obtain ⟨m, hm, hmb, he⟩ := BlockStyle.exists_margin hl hb
        have hd := h.padding l hl m hm hb hmb
        rw [he]
        simp only [Bool.not_false, Bool.true_and, decide_eq_true_eq]
        omega
  rw [scalarOverflows, ho, Bool.and_false]

theorem stepField {field : Section} (h : Line.Room tabWidth field.body) :
    Step.fieldOverflows field = false := by
  unfold Step.fieldOverflows
  split
  · exact h.scalar _
  · exact h.scalar _
  · rfl

theorem step {item : Section} (h : Line.Room tabWidth ls) (hh : item.head ∈ ls)
    (hi : item.head.isItem = true) (hb : item.body ⊆ ls) :
    Step.overflows tabWidth item = false := by
  have hc : (!(Step.contentLine tabWidth item.head).isBlank &&
      decide (columnLimit ≤ (Step.contentLine tabWidth item.head).indent)) = false := by
    cases hc : (Step.contentLine tabWidth item.head).isBlank with
    | true => rfl
    | false =>
        have hl := h.content item.head hh hi hc
        simp only [Bool.not_false, Bool.true_and, decide_eq_false_iff_not]
        omega
  rw [Step.overflows, hc, Bool.false_or]
  exact List.any_eq_false.mpr fun field hf =>
    by simp [stepField (h.of_subset fun l hl => hb (Step.subset_of_mem_fields hf hl))]

theorem steps (h : Line.Room tabWidth ls) : Step.anyOverflows tabWidth ls = false := by
  refine List.any_eq_false.mpr fun item hm => ?_
  obtain ⟨hm, hi⟩ := List.mem_filter.mp hm
  simp [h.step (Section.head_of_mem_cutAll hm).1 hi (Section.subset_of_mem_cutAll hm)]

theorem jobField {field : Section} (h : Line.Room tabWidth field.body) :
    Job.fieldOverflows tabWidth field = false := by
  unfold Job.fieldOverflows
  split
  · exact h.scalar _
  · exact h.steps
  · rfl

end Line.Room

/-- A fold whose steps on the elements of a list fail with translated errors. -/
theorem foldlM_mapError_of_mem {α δ ε ε' : Type} {as : List α} {g : δ → α → Except ε δ}
    {g' : δ → α → Except ε' δ} {e : ε → ε'} (h : ∀ a ∈ as, ∀ x, g' x a = (g x a).mapError e)
    (x : δ) : as.foldlM g' x = (as.foldlM g x).mapError e :=
  have hs : List.Forall₂ (fun a b => a ∈ as ∧ b = a) as as :=
    List.forall₂_same.mpr fun _ ha => ⟨ha, rfl⟩
  foldlM_mapError_of_forall₂ hs (fun x a b ⟨ha, hb⟩ => by rw [hb, h a ha]) x

theorem Job.parseField_of_room {field : Section} (h : Line.Room tabWidth field.body) (j : Job) :
    parseField tabWidth j field = (readField tabWidth j field).mapError .malformed := by
  rw [parseField, h.jobField]
  rfl

theorem Job.parse_of_room (h : Line.Room tabWidth body) :
    parse tabWidth body = (read tabWidth body).mapError .malformed :=
  foldlM_mapError_of_mem (fun _ hf j => parseField_of_room
    (h.of_subset (Section.subset_of_mem_cutAll (Section.mem_of_mem_level hf))) j) blank

theorem Job.parseTo_of_room {s : Section} (h : Line.Room tabWidth s.body) (jobs : Table Job) :
    parseTo tabWidth jobs s = (addTo tabWidth jobs s).mapError .malformed := by
  simp only [parseTo, addTo, parse_of_room h]
  cases Entry.of? s.head.text with
  | none => rfl
  | some e => cases read tabWidth s.body <;> rfl

theorem Job.parseAll_of_room (h : Line.Room tabWidth body) (jobs : Table Job) :
    parseAll tabWidth body jobs = (readAll tabWidth body jobs).mapError .malformed :=
  foldlM_mapError_of_mem (fun _ hs jobs =>
    parseTo_of_room (h.of_subset (Section.subset_of_mem_cutAll hs)) jobs) jobs

theorem Workflow.parseSection_of_room {s : Section} (h : Line.Room tabWidth s.body) (w : Workflow) :
    parseSection tabWidth w s = (readSection tabWidth w s).mapError .malformed := by
  unfold parseSection
  split
  · rename_i value hf
    simp only [readSection, hf, Key.set, Job.parseAll_of_room h]
    cases Job.readAll tabWidth s.body w.jobs <;> rfl
  · rfl

theorem Workflow.parseLines_of_room (h : Line.Room tabWidth ls) :
    parseLines tabWidth ls = (read tabWidth ls).mapError .malformed := by
  have hl : Line.overflows ls = false :=
    List.any_eq_false.mpr fun l hl => by simpa using h.line l hl
  rw [parseLines, hl]
  exact foldlM_mapError_of_mem (fun _ hs w =>
    parseSection_of_room (h.of_subset (Section.subset_of_mem_cutAll hs)) w) blank

/-- Where there is room for all columns, a document is read as what it describes. -/
theorem Workflow.parse_of_room {text : List Char}
    (h : Line.Room tabWidth (Line.ofText tabWidth text)) :
    parse tabWidth text = (ofText tabWidth text).mapError .malformed :=
  parseLines_of_room h

theorem Workflow.parse_ne_overflow {text : List Char}
    (h : Line.Room tabWidth (Line.ofText tabWidth text)) :
    parse tabWidth text ≠ .error .overflow := by
  rw [parse_of_room h]
  cases ofText tabWidth text <;> simp [Except.mapError]

/-! ## Documents that resemble each other -/

theorem any_eq_of_forall₂ {α β : Type} {R : α → β → Prop} {p : α → Bool} {q : β → Bool}
    {as : List α} {bs : List β} (h : List.Forall₂ R as bs)
    (hq : ∀ a ∈ as, ∀ b, R a b → q b = p a) : bs.any q = as.any p := by
  have hm : bs.map q = as.map p := map_eq_of_forall₂ h hq
  rw [← Function.id_comp q, ← Function.id_comp p, ← List.any_map, ← List.any_map, hm]

theorem BlockStyle.overflows_resembles (h : Resemble f k ls ms)
    (hd : ∀ l ∈ ls, l.isBlank = true ∨ 0 < l.indent) : overflows ms = overflows ls := by
  refine any_eq_of_forall₂ (body_resembles h) fun l hl m hm => ?_
  have hl := body_subset ls hl
  rw [hm.isBlank_eq]
  cases hb : l.isBlank with
  | true => rfl
  | false =>
      have hi : 0 < l.indent := (hd l hl).resolve_left (by simp [hb])
      rw [hm.eq_move_of_pos hb hi, margin_eq_add h hd hl hb, Line.indent_move,
        Nat.add_sub_add_right]

theorem scalarOverflows_resembles {value : List Char} {head : Line} (h : Resemble f k ls ms)
    (ho : ∀ l ∈ ls, (Extent.ofValue value).owns head l = true) :
    scalarOverflows value ms = scalarOverflows value ls := by
  cases hs : (BlockStyle.of? value).isSome with
  | false => simp only [scalarOverflows, hs, Bool.false_and]
  | true =>
      simp only [scalarOverflows]
      rw [BlockStyle.overflows_resembles h fun l hl => ?_]
      have hl := ho l hl
      simp only [Extent.ofValue, hs, if_true, Extent.owns, Bool.or_eq_true,
        decide_eq_true_eq] at hl
      exact hl.imp_right Nat.zero_lt_of_lt

namespace Step

theorem fieldOverflows_resembles {field other : Section} (h : field.Resembles f k extent other) :
    fieldOverflows other = fieldOverflows field := by
  have hf : field? other.head = field? field.head := by rw [h.head]; rfl
  have ho := h.owned
  unfold fieldOverflows
  rw [hf]
  unfold extent at ho
  split <;> simp_all only [Key.extent]
  · exact scalarOverflows_resembles h.body ho
  · exact scalarOverflows_resembles h.body ho

theorem overflows_resembles {item other : Section}
    (h : item.Resembles f 0 (fun _ => .nested) other) :
    overflows tabWidth other = overflows tabWidth item := by
  rw [overflows, overflows, any_eq_of_forall₂ (fields_resembles h) fun field _ other hf =>
    fieldOverflows_resembles hf, h.head, contentLine_move]
  rfl

theorem anyOverflows_resembles (h : Resemble f 0 ls ms) :
    anyOverflows tabWidth ms = anyOverflows tabWidth ls :=
  any_eq_of_forall₂ (Section.filter_resembles Line.isItem_move
    (Section.cutAll_const_resembles .nested h)) fun _ _ _ ho => overflows_resembles ho

end Step

def Stop.renumber (f : Nat → Nat) : Stop → Stop
  | malformed e => malformed (e.renumber f)
  | overflow => overflow

theorem Stop.mapError_renumber {α : Type} (r : Except SyntaxError α) :
    (r.mapError (SyntaxError.renumber f)).mapError malformed =
      (r.mapError malformed).mapError (renumber f) := by
  cases r <;> rfl

namespace Job

theorem fieldOverflows_resembles {field other : Section} (h : field.Resembles f 0 extent other) :
    fieldOverflows tabWidth other = fieldOverflows tabWidth field := by
  have hf : field? other.head = field? field.head := by rw [h.head]; rfl
  have ho := h.owned
  unfold fieldOverflows
  rw [hf]
  unfold extent at ho
  split <;> simp_all only [Key.extent]
  · exact scalarOverflows_resembles h.body ho
  · exact Step.anyOverflows_resembles h.body

theorem parseField_resembles {field other : Section} (h : field.Resembles f 0 extent other)
    (j : Job) : parseField tabWidth j other =
      (parseField tabWidth j field).mapError (Stop.renumber f) := by
  rw [parseField, parseField, fieldOverflows_resembles h]
  split
  · rfl
  · rw [readField_resembles h, Stop.mapError_renumber]

theorem parse_resembles (h : Resemble f 0 ls ms) :
    parse tabWidth ms = (parse tabWidth ls).mapError (Stop.renumber f) :=
  foldlM_mapError_of_forall₂ (Section.level_resembles (Section.cutAll_resembles (fun _ => rfl) h))
    (fun j _ _ hf => parseField_resembles hf j) blank

theorem parseTo_resembles {s u : Section} (h : s.Resembles f 0 (fun _ => .nested) u)
    (jobs : Table Job) : parseTo tabWidth jobs u =
      (parseTo tabWidth jobs s).mapError (Stop.renumber f) := by
  simp only [parseTo, h.head, Line.text_move, parse_resembles h.body]
  cases Entry.of? s.head.text with
  | none => rfl
  | some e => cases parse tabWidth s.body <;> rfl

theorem parseAll_resembles (h : Resemble f 0 ls ms) (jobs : Table Job) :
    parseAll tabWidth ms jobs = (parseAll tabWidth ls jobs).mapError (Stop.renumber f) :=
  foldlM_mapError_of_forall₂ (Section.cutAll_const_resembles .nested h)
    (fun jobs _ _ hs => parseTo_resembles hs jobs) jobs

end Job

theorem Workflow.parseSection_resembles {s u : Section} (h : s.Resembles f 0 extent u)
    (w : Workflow) : parseSection tabWidth w u =
      (parseSection tabWidth w s).mapError (Stop.renumber f) := by
  have hf : field? u.head = field? s.head := by rw [h.head]; rfl
  simp only [parseSection, hf, readSection_resembles h, Stop.mapError_renumber]
  split
  · rw [Job.parseAll_resembles h.body]
    cases Job.parseAll tabWidth s.body w.jobs <;> rfl
  · rfl

/-- Documents that resemble each other, without being further to the right, are abandoned alike if
all their lines can be measured alike. -/
theorem Workflow.parseLines_resembles (h : Resemble f 0 ls ms)
    (hw : Line.overflows ms = Line.overflows ls) :
    parseLines tabWidth ms = (parseLines tabWidth ls).mapError (Stop.renumber f) := by
  rw [parseLines, parseLines, hw]
  split
  · rfl
  · exact foldlM_mapError_of_forall₂ (Section.cutAll_resembles (fun _ => rfl) h)
      (fun w _ _ hs => parseSection_resembles hs w) blank

theorem Workflow.parseLines_renumber (tabWidth : Nat) (ls : List Line) :
    parseLines tabWidth (ls.map (Line.renumber f)) =
      (parseLines tabWidth ls).mapError (Stop.renumber f) :=
  parseLines_resembles (Resemble.map_move f 0 ls) List.any_map

/-- Lines that show the same are read as the same workflow. -/
theorem Workflow.parseLines_eq_ok_iff (h : ls.map Line.content = ms.map Line.content)
    (w : Workflow) : parseLines tabWidth ls = .ok w ↔ parseLines tabWidth ms = .ok w := by
  have hok : ∀ (f : Nat → Nat) (r : Except Stop Workflow),
      r.mapError (Stop.renumber f) = .ok w ↔ r = .ok w := by
    intro f r
    cases r <;> simp [Except.mapError]
  rw [← Line.map_renumber_indices ls, ← Line.map_renumber_indices ms, h, parseLines_renumber,
    parseLines_renumber, hok, hok]

theorem Step.anyOverflows_of_content_eq (h : ls.map Line.content = ms.map Line.content) :
    anyOverflows tabWidth ls = anyOverflows tabWidth ms := by
  rw [← Line.map_renumber_indices ls, ← Line.map_renumber_indices ms, h]
  exact (anyOverflows_resembles (.map_move _ 0 _)).trans
    (anyOverflows_resembles (.map_move _ 0 _)).symm

/-! ## Documents of a moderate size -/

theorem Line.width_le (tabWidth : Nat) (cs : List Char) :
    width tabWidth cs ≤ (tabWidth + 1) * cs.length := by
  fun_induction width tabWidth cs with
  | case1 cs ih =>
      rw [List.length_cons, Nat.mul_succ]
      omega
  | case2 cs ih =>
      rw [List.length_cons, Nat.mul_succ]
      omega
  | case3 => exact Nat.zero_le _

theorem Text.length_le_of_mem_lines {raw cs : List Char} (h : raw ∈ lines cs) :
    raw.length ≤ cs.length := by
  have hd : ∀ r, (dropReturn r).length ≤ r.length := by
    intro r
    unfold dropReturn
    split
    · exact r.length_dropLast ▸ Nat.sub_le _ _
    · exact Nat.le_refl _
  have hr : ∀ rows : List (List Char), ∀ r ∈ rows, r.length ≤ (unlines rows).length := by
    intro rows
    induction rows with
    | nil => simp
    | cons r rs ih =>
        have hu : unlines (r :: rs) = r ++ '\n' :: unlines rs := by simp [unlines]
        rw [hu]
        simp only [List.forall_mem_cons, List.length_append, List.length_cons]
        exact ⟨by omega, fun r hr => by have := ih r hr; omega⟩
  obtain ⟨rows, rest, rfl, hn, hn'⟩ := exists_rows cs
  rw [lines_unlines_append hn hn'] at h
  rw [List.length_append]
  rcases List.mem_append.mp h with h | h
  · obtain ⟨r, hm, rfl⟩ := List.mem_map.mp h
    have := hr rows r hm
    have := hd r
    omega
  · unfold lastRow at h
    split at h
    · cases h
    · rw [List.mem_singleton.mp h]
      omega

theorem Text.length_trim_le (cs : List Char) : (trim cs).length ≤ cs.length := by
  rw [trim, trimEnd, trimStart, List.length_reverse]
  refine ((List.dropWhile_suffix _).length_le).trans ?_
  rw [List.length_reverse]
  exact (List.dropWhile_suffix _).length_le

/-- There is room in a document if tabs in the place of all its characters do not make half of what
a word can count. -/
theorem Line.room_ofText {text : List Char}
    (h : 2 * (tabWidth + 1) * (text.length + 1) ≤ Text.lengthLimit) :
    Line.Room tabWidth (ofText tabWidth text) := by
  -- Both the width before a text and the one behind its dash count characters of the text at most.
  have hw : ∀ l ∈ ofText tabWidth text,
      l.indent ≤ (tabWidth + 1) * text.length ∧ l.text.length ≤ text.length := by
    intro l hl
    obtain ⟨i, hi, rfl⟩ := List.mem_mapIdx.mp hl
    have hr := Text.length_le_of_mem_lines (List.getElem_mem hi)
    exact ⟨(width_le _ _).trans (Nat.mul_le_mul_left _ hr), (Text.length_trim_le _).trans hr⟩
  have hm : 2 * ((tabWidth + 1) * text.length) + 2 * (tabWidth + 1) ≤ Text.lengthLimit := by
    rw [← Nat.mul_assoc]
    exact (Nat.mul_succ _ _).symm.trans_le h
  have hlimit : 2 * Text.lengthLimit = columnLimit := rfl
  refine ⟨fun l hl => ?_, fun l hl _ _ => ?_, fun l hl m _ _ _ => ?_⟩
  · have := hw l hl
    omega
  · have hd : width tabWidth (l.text.drop 1) ≤ (tabWidth + 1) * text.length := by
      refine (width_le _ _).trans (Nat.mul_le_mul_left _ ?_)
      rw [List.length_drop]
      exact (Nat.sub_le _ _).trans (hw l hl).2
    have := hw l hl
    simp only [Step.contentLine]
    omega
  · have := hw l hl
    omega

/-! ## Documents without room -/

/-- A script of which the second line stands behind a tab, which may be far to the right. -/
def Workflow.farRight : List Char :=
  ("name: CI\non: push\njobs:\n  a:\n    runs-on: ubuntu-latest\n    steps:\n" ++
    "      - run: |\n            x\n\ty\n").toList

theorem Workflow.parse_farRight : parse (2 ^ 64 - 1) farRight = .error .overflow := by
  decide +kernel

end WorkflowLint
