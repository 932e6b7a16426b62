import Mathlib
import WorkflowLint.Proofs.Cursors
import WorkflowLint.Workflow.Document

/-!
# Reading line by line

The readers of a workflow, each of which goes on from where the one before it has left the cursor.
A reader that goes one line too far takes it back. They read what the sections of a document are
read as, and each of them leaves the cursor where its block ends. Where they take the content behind
a dash to stand is left open.
-/
namespace WorkflowLint

namespace Cursor

/-! ## The readers -/

/-- Whether a line ends a block that may have list items at the depth of its header. -/
def endsBlock (header l : Line) : Bool :=
  l.indent < header.indent || (l.indent == header.indent && !l.isItem)

def endsNested (header l : Line) : Bool :=
  l.indent ≤ header.indent

/-- Goes over all that is deeper than a line. -/
def skipNested (header : Line) (c : Cursor) : Reading c Unit :=
  match _h : c.peek.1 with
  | none => ⟨(), c.peek.2, c.ahead_peek ▸ List.suffix_rfl⟩
  | some l =>
    if header.indent < l.indent then
      (skipNested header c.peek.2.next.2).since (c.ahead_peek ▸ c.peek.2.ahead_next_suffix)
    else ⟨(), c.peek.2, c.ahead_peek ▸ List.suffix_rfl⟩
termination_by c.ahead.length
decreasing_by
  rw [← c.ahead_peek]
  exact length_ahead_next ((c.next_peek).trans ‹_›)

/-- The lines of a block scalar, comments and blank lines with them. -/
def scalarLines (header : Line) (c : Cursor) : Reading c (List Line) :=
  match _h : c.nextRaw.1 with
  | none => ⟨[], c.nextRaw.2, c.ahead_nextRaw_suffix⟩
  | some l =>
    if !l.isBlank && l.indent ≤ header.indent then
      ⟨[], c.nextRaw.2.unread, c.nextRaw_eq.2.2 ▸ List.suffix_rfl⟩
    else ((scalarLines header c.nextRaw.2).map (l :: ·)).since c.ahead_nextRaw_suffix
termination_by c.ahead.length
decreasing_by exact length_ahead_nextRaw ‹_›

def readScalar (header : Line) (value : List Char) (c : Cursor) : Reading c (List Char) :=
  match BlockStyle.of? value with
  | some style => (scalarLines header c).map style.text
  | none => .stay c value

/-- Adds the entry of a line, if it is one. -/
def insertEntry (t : Table String) (l : Line) : Table String :=
  match Entry.of? l.text with
  | some e => t.insert e.key (String.ofList e.value)
  | none => t

def readMapping (header : Line) (value : List Char) (t : Table String) (c : Cursor) :
    Reading c (Table String) :=
  let t := t.insertMany ((Flow.map? value).getD [])
  Id.run (eachAtLevel (endsBlock header) (fun t l c => pure (.stay c (insertEntry t l))) none t c)

/-- Adds a line of the events. The first one tells the depth at which they stand. -/
def insertEvent (s : Events × Option Nat) (l : Line) : Events × Option Nat :=
  let depth := s.2.getD l.indent
  (s.1.addLine depth l, some depth)

def readTriggers (header : Line) (value : List Char) (t : Table String) (c : Cursor) :
    Reading c (Table String) :=
  let inline := if value = [] then [] else Flow.names value
  let t := t.insertMany (inline.map (·, ""))
  (Id.run (each (endsBlock header) (fun s l c => pure (.stay c (insertEvent s l)))
    (⟨t, none⟩, none) c)).map (·.1.table)

/-- The names with that of an item. -/
def insertItem (names : List String) (l : Line) : List String :=
  if l.isItem then names ++ (nonEmpty (Entry.clean (itemContent l.text))).toList else names

def readItems (header : Line) (c : Cursor) : Reading c (List String) :=
  Id.run (each (endsBlock header) (fun names l c => pure (.stay c (insertItem names l))) [] c)

def readStepKey (s : Step) (l : Line) (value : List Char) (c : Cursor) : Step.Key → Reading c Step
  | .name => .stay c { s with name := nonEmpty value }
  | .uses => .stay c { s with uses := nonEmpty value }
  | .run => (readScalar l value c).map fun v => { s with run := nonEmpty v }
  | .condition => (readScalar l value c).map fun v => { s with condition := nonEmpty v }
  | .arguments => (readMapping l value s.arguments c).map fun t => { s with arguments := t }
  | .env => (readMapping l value s.env c).map fun t => { s with env := t }

def readStepField (s : Step) (l : Line) (c : Cursor) : Id (Reading c Step) :=
  match Step.field? l with
  | some (key, value) => pure (readStepKey s l value c key)
  | none => pure ((skipNested l c).map fun _ => s)

/-- Reads the step of a dash. The content behind the dash is a field, and sets the level. -/
def readStepAt (place : Line → Line) (dash : Line) (c : Cursor) : Reading c Step :=
  let first := place dash
  if first.text = [] then
    Id.run (eachAtLevel (endsNested dash) readStepField none Step.blank c)
  else
    let field := Id.run (readStepField Step.blank first c)
    (Id.run (eachAtLevel (endsNested dash) readStepField (some first.indent) field.value
      field.after)).since field.onward

def readStep (tabWidth : Nat) (dash : Line) (c : Cursor) : Reading c Step :=
  readStepAt (Step.contentLine tabWidth) dash c

section

variable (place : Line → Line)

def addStep (steps : List Step) (l : Line) (c : Cursor) :
    Id (Reading c (List Step)) :=
  if l.isItem then pure ((readStepAt place l c).map fun step => steps ++ [step])
  else pure ((skipNested l c).map fun _ => steps)

def readSteps (header : Line) (c : Cursor) : Reading c (List Step) :=
  Id.run (each (endsBlock header) (addStep place) [] c)

def readJobKey (j : Job) (l : Line) (value : List Char) (c : Cursor) :
    Job.Key → Except SyntaxError (Reading c Job)
  | .name => pure (.stay c { j with name := nonEmpty value })
  | .runsOn =>
    if value = [] then
      pure ((readItems l c).map fun names => { j with runsOn := ", ".intercalate names })
    else pure (.stay c { j with runsOn := String.ofList value })
  | .timeout =>
    (fun minutes => .stay c { j with timeoutMinutes := minutes }) <$> Job.timeout l value
  | .condition => pure ((readScalar l value c).map fun v => { j with condition := nonEmpty v })
  | .needs =>
    if value = [] then pure ((readItems l c).map fun names => { j with needs := names })
    else pure (.stay c { j with needs := Flow.names value })
  | .permissions =>
    pure ((readMapping l value j.permissions c).map fun t => { j with permissions := t })
  | .env => pure ((readMapping l value j.env c).map fun t => { j with env := t })
  | .steps => pure ((readSteps place l c).map fun steps => { j with steps := steps })

def readJobField (j : Job) (l : Line) (c : Cursor) :
    Except SyntaxError (Reading c Job) :=
  match Job.field? l with
  | some (key, value) => readJobKey place j l value c key
  | none => pure ((skipNested l c).map fun _ => j)

def readJob (header : Line) (c : Cursor) : Except SyntaxError (Reading c Job) :=
  eachAtLevel (endsNested header) (readJobField place) none Job.blank c

def addJob (jobs : Table Job) (l : Line) (c : Cursor) :
    Except SyntaxError (Reading c (Table Job)) :=
  match Entry.of? l.text with
  | some e => Reading.map (fun job => jobs.insert e.key job) <$> readJob place l c
  | none => pure ((skipNested l c).map fun _ => jobs)

def readJobs (header : Line) (jobs : Table Job) (c : Cursor) :
    Except SyntaxError (Reading c (Table Job)) :=
  each (endsNested header) (addJob place) jobs c

def readWorkflowKey (w : Workflow) (l : Line) (value : List Char) (c : Cursor) :
    Workflow.Key → Except SyntaxError (Reading c Workflow)
  | .name => pure (.stay c { w with name := String.ofList value })
  | .triggers => pure ((readTriggers l value w.triggers c).map fun t => { w with triggers := t })
  | .permissions =>
    pure ((readMapping l value w.permissions c).map fun t => { w with permissions := t })
  | .jobs =>
    Reading.map (fun jobs => { w with jobs := jobs }) <$> readJobs place l w.jobs c
  | .env => pure ((readMapping l value w.env c).map fun t => { w with env := t })

def readSection (w : Workflow) (l : Line) (c : Cursor) :
    Except SyntaxError (Reading c Workflow) :=
  match Workflow.field? l with
  | some (key, value) => readWorkflowKey place w l value c key
  | none => pure ((skipNested l c).map fun _ => w)

def readWorkflow (c : Cursor) : Except SyntaxError (Reading c Workflow) :=
  each (fun _ => false) (readSection place) Workflow.blank c

end

/-! ## What they read -/

theorem owns_block (header l : Line) :
    (Extent.block).owns header l = (!l.isSignificant || !endsBlock header l) := by
  rcases Nat.lt_trichotomy header.indent l.indent with h | h | h
  · simp [Extent.owns, endsBlock, h, Nat.lt_asymm h, Nat.ne_of_gt h]
  · simp [Extent.owns, endsBlock, h]
  · simp [Extent.owns, endsBlock, h, Nat.lt_asymm h, Nat.ne_of_gt h]

theorem owns_nested (header l : Line) :
    (Extent.nested).owns header l = (!l.isSignificant || !endsNested header l) := by
  simp [Extent.owns, endsNested, ← decide_not]

theorem encloses_block (header : Line) (extent : Line → Extent) :
    Encloses ((Extent.block).owns header) (endsBlock header) extent where
  own_eq := owns_block header
  inner _ _ hl ho := Extent.owns_of_owns (.inr rfl) (.inr ⟨ho, hl⟩)

theorem encloses_nested (header : Line) (extent : Line → Extent) :
    Encloses ((Extent.nested).owns header) (endsNested header) extent where
  own_eq := owns_nested header
  inner _ _ hl ho := Extent.owns_of_owns (.inl rfl) (.inr ⟨ho, hl⟩)

end Cursor

namespace Reading

variable {α β : Type} {c : Cursor} {r : Reading c α} {own : Line → Bool} {f : List Line → α}

/-- What is read is what a function makes of the lines that are told, and no more of the lines than
those is gone, but for some without meaning. -/
def Spans (r : Reading c α) (own : Line → Bool) (f : List Line → α) : Prop :=
  r.shown = (f (c.ahead.takeWhile own), skim (c.ahead.dropWhile own))

theorem Spans.map (h : r.Spans own f) (g : α → β) : (r.map g).Spans own fun body => g (f body) := by
  obtain ⟨hv, ha⟩ := Prod.mk.inj h
  exact Prod.ext (congrArg g hv) ha

theorem Spans.takes {m : Type → Type} [Monad m] [LawfulMonad m] (h : r.Spans own f) :
    Cursor.Takes (pure r : m (Reading c α)) own fun body => pure (f body) := by
  rw [Cursor.Takes, map_pure, map_pure, h]

theorem spans_stay (c : Cursor) (head : Line) (a : α) :
    (stay c a).Spans ((Extent.alone).owns head) fun _ => a := by
  have hc : Section.cut (fun _ => .alone) head c.ahead = (⟨head, []⟩, c.ahead) :=
    Section.cut_alone rfl c.ahead
  exact congrArg (fun p => (a, skim p.2)) hc.symm

end Reading

namespace Cursor

section Loops

variable {σ : Type} {ends own : Line → Bool} {turn : σ → Line → (c : Cursor) → Id (Reading c σ)}
  {extent : Line → Extent} {read : σ → Section → σ}

/-- Each turn goes over the section of its line, and cannot fail. -/
def SpansSections (turn : σ → Line → (c : Cursor) → Id (Reading c σ)) (extent : Line → Extent)
    (read : σ → Section → σ) : Prop :=
  ∀ s l c, Reading.Spans (Id.run (turn s l c)) ((extent l).owns l) fun body => read s ⟨l, body⟩

theorem SpansSections.takes (ht : SpansSections turn extent read) :
    TakesSections turn extent fun s sec => pure (read s sec) :=
  ht

theorem spans_of_takes {c : Cursor} {x : Id (Reading c σ)} {cutting : List Line → List Section}
    {s : σ} (h : Takes x own fun body => (cutting body).foldlM (fun s sec => pure (read s sec)) s) :
    Reading.Spans (Id.run x) own fun body => (cutting body).foldl read s := by
  simp only [List.foldlM_pure] at h
  exact h

theorem spans_each (h : Encloses own ends extent) (ht : SpansSections turn extent read) (s : σ)
    (c : Cursor) : Reading.Spans (Id.run (each ends turn s c)) own
      fun body => (Section.cutAll extent body).foldl read s :=
  spans_of_takes (takes_each h ht.takes s c)

theorem spans_eachAtLevel (h : Encloses own ends extent) (ht : SpansSections turn extent read)
    (s : σ) (c : Cursor) : Reading.Spans (Id.run (eachAtLevel ends turn none s c)) own
      fun body => (Section.level (Section.cutAll extent body)).foldl read s :=
  spans_of_takes (takes_eachAtLevel h ht.takes s c)

theorem spans_eachAtLevel_some (h : Encloses own ends extent) (ht : SpansSections turn extent read)
    (level : Nat) (s : σ) (c : Cursor) :
    Reading.Spans (Id.run (eachAtLevel ends turn (some level) s c)) own
      fun body => ((Section.cutAll extent body).filter (·.head.indent ≤ level)).foldl read s :=
  spans_of_takes (takes_eachAtLevel_some h ht.takes level s c)

/-- A loop that goes on from behind a section goes over what is left of the block. -/
theorem spans_since {α : Type} {c : Cursor} {first : Line} {g : List Line → α} {field : Reading c α}
    {loop : Reading field.after σ} (f : List Section → σ) (h : Encloses own ends extent)
    (hin : ∀ k, (extent first).owns first k = true → own k = true)
    (hfield : field.Spans ((extent first).owns first) g)
    (hloop : loop.Spans own fun body => f (Section.cutAll extent body)) :
    (loop.since field.onward).Spans own
      fun body => f (Section.cutAll extent (Section.cut extent first body).2) := by
  have hi : ∀ l, l.isSignificant = false → own l = true := fun _ => h.own_of_not_significant
  obtain ⟨hcut, hbelow⟩ := Section.cut_takeWhile hin c.ahead
  have hafter : skim field.after.ahead = skim (Section.cut extent first c.ahead).2 :=
    (Prod.mk.inj hfield).2
  refine hloop.trans (Prod.ext (congrArg f ?_) ?_)
  · rw [hcut, ← Section.cutAll_skim, skim_takeWhile hi, hafter, ← skim_takeWhile hi,
      Section.cutAll_skim]
  · show skim (field.after.ahead.dropWhile own) = skim (c.ahead.dropWhile own)
    rw [← dropWhile_skim hi, hafter, dropWhile_skim hi, hbelow]

end Loops

section Lines

variable {σ : Type} (header : Line) (f : σ → Line → σ)

theorem spansSections_line : SpansSections (fun s l c => pure (.stay c (f s l))) (fun _ => .alone)
    fun s sec => f s sec.head :=
  fun s l c => Reading.spans_stay c l (f s l)

variable (s : σ) (c : Cursor)

/-- A loop of which no turn reads further lines. -/
theorem spans_eachLine :
    Reading.Spans (Id.run (each (endsBlock header) (fun s l c => pure (.stay c (f s l))) s c))
      ((Extent.block).owns header) fun body => (body.filter (·.isSignificant)).foldl f s := by
  have h := spans_each (encloses_block header _) (spansSections_line f) s c
  simp only [Section.cutAll_alone, List.foldl_map] at h
  exact h

theorem spans_eachLineAtLevel : Reading.Spans
    (Id.run (eachAtLevel (endsBlock header) (fun s l c => pure (.stay c (f s l))) none s c))
      ((Extent.block).owns header) fun body => (entryLines body).foldl f s := by
  have h := spans_eachAtLevel (encloses_block header _) (spansSections_line f) s c
  simp only [entryLines, List.foldl_map]
  exact h

end Lines

theorem spans_skipNested (header : Line) (c : Cursor) :
    (skipNested header c).Spans ((Extent.nested).owns header) fun _ => () := by
  obtain ⟨own, hown⟩ : ∃ own, own = fun l => (Extent.nested).owns header l := ⟨_, rfl⟩
  have hi : ∀ l, l.isSignificant = false → own l = true := fun l hl => by
    simp [hown, Extent.owns, hl]
  suffices h : skim (skipNested header c).after.ahead = skim (c.ahead.dropWhile own) from
    Prod.ext rfl (hown ▸ h)
  fun_induction skipNested header c with
  | case1 c hpeek =>
      rw [ahead_peek, ← dropWhile_skim hi, skim_of_next_eq_none hpeek]
      rfl
  | case2 c l hpeek hd ih =>
      obtain ⟨below, hs, -⟩ := exists_skim hpeek
      have hahead : c.peek.2.next.2.ahead = below := by
        rw [ahead_next, ahead_peek, hs, List.tail_cons]
      have ho : own l = true := by simp [hown, Extent.owns, hd]
      rw [hahead] at ih
      rw [← dropWhile_skim hi, hs, List.dropWhile_cons_of_pos ho]
      exact ih
  | case3 c l hpeek hd =>
      obtain ⟨below, hs, -⟩ := exists_skim hpeek
      have hl := isSignificant_of_skim hs
      have ho : ¬own l = true := by simp [hown, Extent.owns, hl, hd]
      rw [ahead_peek, ← dropWhile_skim hi, hs, List.dropWhile_cons_of_neg ho, skim_cons_of_pos hl]

theorem scalarLines_eq (header : Line) (c : Cursor) :
    ((scalarLines header c).value, (scalarLines header c).after.ahead) =
      (c.ahead.takeWhile fun l => (Extent.scalar).owns header l,
        c.ahead.dropWhile fun l => (Extent.scalar).owns header l) := by
  obtain ⟨own, hown⟩ : ∃ own, own = fun l => (Extent.scalar).owns header l := ⟨_, rfl⟩
  rw [← hown]
  fun_induction scalarLines header c with
  | case1 c hraw =>
      obtain ⟨hfst, hahead, -⟩ := c.nextRaw_eq
      have hs : c.ahead = [] := List.head?_eq_none_iff.mp (hfst.symm.trans hraw)
      rw [hahead, hs]
      rfl
  | case2 c l hraw hd =>
      obtain ⟨hfst, -, hunread⟩ := c.nextRaw_eq
      obtain ⟨below, hs⟩ := List.head?_eq_some_iff.mp (hfst.symm.trans hraw)
      have ho : ¬own l = true := by simpa [hown, Extent.owns] using hd
      rw [hunread, hs, List.takeWhile_cons_of_neg ho, List.dropWhile_cons_of_neg ho]
  | case3 c l hraw hd ih =>
      obtain ⟨hfst, hahead, -⟩ := c.nextRaw_eq
      obtain ⟨below, hs⟩ := List.head?_eq_some_iff.mp (hfst.symm.trans hraw)
      have ho : own l = true := by simpa [hown, Extent.owns, or_iff_not_imp_left] using hd
      rw [hahead, hs, List.tail_cons] at ih
      rw [hs, List.takeWhile_cons_of_pos ho, List.dropWhile_cons_of_pos ho]
      exact congrArg (fun p => (l :: p.1, p.2)) ih

theorem spans_scalarLines (header : Line) (c : Cursor) :
    (scalarLines header c).Spans ((Extent.scalar).owns header) id := by
  obtain ⟨hv, ha⟩ := Prod.mk.inj (scalarLines_eq header c)
  exact Prod.ext hv (congrArg skim ha)

theorem spans_readScalar (header : Line) (value : List Char) (c : Cursor) :
    (readScalar header value c).Spans ((Extent.ofValue value).owns header) (scalar value) := by
  unfold readScalar scalar Extent.ofValue
  cases BlockStyle.of? value with
  | none => exact Reading.spans_stay c header value
  | some style => exact (spans_scalarLines header c).map style.text

theorem spans_readMapping (header : Line) (value : List Char) (t : Table String) (c : Cursor) :
    (readMapping header value t c).Spans ((Extent.block).owns header)
      fun body => mapping value body t := by
  have hm (body : List Line) : mapping value body t =
      (entryLines body).foldl insertEntry (t.insertMany ((Flow.map? value).getD [])) := by
    rw [mapping, Table.insertMany, List.foldl_map, List.foldl_filterMap]
    refine congrArg (fun f => List.foldl f _ _) (funext fun t => funext fun l => ?_)
    unfold insertEntry
    cases Entry.of? l.text <;> rfl
  rw [funext hm]
  exact spans_eachLineAtLevel header insertEntry _ c

theorem foldl_insertEvent (depth : Nat) (ls : List Line) (es : Events) :
    ls.foldl insertEvent (es, some depth) = (ls.foldl (Events.addLine depth) es, some depth) := by
  induction ls generalizing es with
  | nil => rfl
  | cons l ls ih => exact ih (es.addLine depth l)

theorem spans_readTriggers (header : Line) (value : List Char) (t : Table String) (c : Cursor) :
    (readTriggers header value t c).Spans ((Extent.block).owns header)
      fun body => triggers value body t := by
  have ht (body : List Line) : triggers value body t =
      ((body.filter (·.isSignificant)).foldl insertEvent
        (⟨t.insertMany ((if value = [] then [] else Flow.names value).map (·, "")), none⟩,
          none)).1.table := by
    unfold triggers
    cases body.filter (·.isSignificant) with
    | nil => rfl
    | cons l ls =>
        simp only [List.foldl_cons, insertEvent, Option.getD_none, foldl_insertEvent]
  rw [funext ht]
  exact (spans_eachLine header insertEvent _ c).map (·.1.table)

theorem spans_readItems (header : Line) (c : Cursor) :
    (readItems header c).Spans ((Extent.block).owns header) items := by
  have hi (body : List Line) : items body =
      (body.filter (·.isSignificant)).foldl insertItem [] := by
    have hf : (body.filter fun l => l.isSignificant && l.isItem) =
        (body.filter (·.isSignificant)).filter (·.isItem) := by
      simp only [List.filter_filter, Bool.and_comm]
    rw [items, hf, List.filterMap_eq_flatMap_toList, List.flatMap_eq_foldl, List.foldl_filter]
    rfl
  rw [funext hi]
  exact spans_eachLine header insertItem [] c

theorem spans_readStepKey (s : Step) (l : Line) (value : List Char) (c : Cursor) (key : Step.Key) :
    (readStepKey s l value c key).Spans ((key.extent value).owns l)
      fun body => key.set value body s := by
  cases key with
  | name => exact Reading.spans_stay c l _
  | uses => exact Reading.spans_stay c l _
  | run => exact (spans_readScalar l value c).map _
  | condition => exact (spans_readScalar l value c).map _
  | arguments => exact (spans_readMapping l value _ c).map _
  | env => exact (spans_readMapping l value _ c).map _

theorem spans_readStepField : SpansSections readStepField Step.extent Step.readField := by
  intro s l c
  cases hk : Step.field? l with
  | none =>
      simp only [readStepField, Step.extent, Step.readField, hk]
      exact (spans_skipNested l c).map fun _ => s
  | some field =>
      simp only [readStepField, Step.extent, Step.readField, hk]
      exact spans_readStepKey s l field.2 c field.1

theorem indent_lt_contentLine (tabWidth : Nat) (dash : Line) :
    dash.indent < (Step.contentLine tabWidth dash).indent := by
  rw [Step.contentLine]
  show dash.indent < dash.indent + 1 + _
  omega

theorem spans_readStep (tabWidth : Nat) (dash : Line) (c : Cursor) :
    (readStep tabWidth dash c).Spans ((Extent.nested).owns dash)
      fun body => Step.read tabWidth ⟨dash, body⟩ := by
  have he := encloses_nested dash Step.extent
  unfold readStep readStepAt Step.read Step.fields
  by_cases ht : (Step.contentLine tabWidth dash).text = []
  · simp only [if_pos ht]
    exact spans_eachAtLevel he spans_readStepField _ c
  · simp only [if_neg ht]
    obtain ⟨first, hf⟩ : ∃ first, first = Step.contentLine tabWidth dash := ⟨_, rfl⟩
    rw [← hf]
    have hin : ∀ k, (Step.extent first).owns first k = true → (Extent.nested).owns dash k = true :=
      fun _ => Extent.owns_of_owns (.inl rfl) (.inl (hf ▸ indent_lt_contentLine tabWidth dash))
    have hfield := spans_readStepField Step.blank first c
    have hloop := spans_eachAtLevel_some he spans_readStepField first.indent
      (Id.run (readStepField Step.blank first c)).value
      (Id.run (readStepField Step.blank first c)).after
    refine (spans_since (fun ss => (ss.filter (·.head.indent ≤ first.indent)).foldl _ _) he hin
      hfield hloop).trans (Prod.ext ?_ rfl)
    simp only [(Prod.mk.inj hfield).1, (Section.cut_takeWhile hin c.ahead).1, Section.level_cons,
      List.foldl_cons]
    rfl

theorem spans_addStep (tabWidth : Nat) :
    SpansSections (addStep (Step.contentLine tabWidth)) (fun _ => .nested) fun steps s => if s.head.isItem then steps ++ [Step.read tabWidth s] else steps := by
  intro steps l c
  unfold addStep
  split
  · rename_i hi
    simp only [if_pos hi]
    exact (spans_readStep tabWidth l c).map _
  · rename_i hi
    simp only [if_neg hi]
    exact (spans_skipNested l c).map _

theorem spans_readSteps (tabWidth : Nat) (header : Line) (c : Cursor) :
    (readSteps (Step.contentLine tabWidth) header c).Spans ((Extent.block).owns header)
      (Step.readAll tabWidth) := by
  have hs (body : List Line) : Step.readAll tabWidth body =
      (Section.cutAll (fun _ => .nested) body).foldl
        (fun steps s => if s.head.isItem then steps ++ [Step.read tabWidth s] else steps) [] := by
    rw [← List.foldl_filter, ← List.flatMap_eq_foldl, Step.readAll, List.map_eq_flatMap]
  rw [funext hs]
  exact spans_each (encloses_block header _) (spans_addStep tabWidth) [] c

theorem takes_readJobKey (tabWidth : Nat) (j : Job) (l : Line) (value : List Char) (c : Cursor)
    (key : Job.Key) :
    Takes (readJobKey (Step.contentLine tabWidth) j l value c key) ((key.extent value).owns l)
      fun body => key.set tabWidth l value body j := by
  cases key with
  | name => exact (Reading.spans_stay c l _).takes
  | runsOn =>
      by_cases hv : value = []
      · simp only [readJobKey, Job.Key.extent, Job.Key.set, Extent.ofList, Job.runner, if_pos hv]
        exact ((spans_readItems l c).map _).takes
      · simp only [readJobKey, Job.Key.extent, Job.Key.set, Extent.ofList, Job.runner, if_neg hv]
        exact (Reading.spans_stay c l _).takes
  | timeout =>
      have hs (j : Job) : (Reading.stay c j).shown = _ := Reading.spans_stay c l j
      rw [Takes, readJobKey, Job.Key.set]
      cases Job.timeout l value with
      | error e => rfl
      | ok minutes => exact congrArg Except.ok (hs _)
  | condition => exact ((spans_readScalar l value c).map _).takes
  | needs =>
      by_cases hv : value = []
      · simp only [readJobKey, Job.Key.extent, Job.Key.set, Extent.ofList, Job.needed, if_pos hv]
        exact ((spans_readItems l c).map _).takes
      · simp only [readJobKey, Job.Key.extent, Job.Key.set, Extent.ofList, Job.needed, if_neg hv]
        exact (Reading.spans_stay c l _).takes
  | permissions => exact ((spans_readMapping l value _ c).map _).takes
  | env => exact ((spans_readMapping l value _ c).map _).takes
  | steps => exact ((spans_readSteps tabWidth l c).map _).takes

theorem takes_readJobField (tabWidth : Nat) :
    TakesSections (readJobField (Step.contentLine tabWidth)) Job.extent
      (Job.readField tabWidth) := by
  intro j l c
  cases hk : Job.field? l with
  | none =>
      simp only [readJobField, Job.extent, Job.readField, hk]
      exact ((spans_skipNested l c).map fun _ => j).takes
  | some field =>
      simp only [readJobField, Job.extent, Job.readField, hk]
      exact takes_readJobKey tabWidth j l field.2 c field.1

theorem takes_readJob (tabWidth : Nat) (header : Line) (c : Cursor) :
    Takes (readJob (Step.contentLine tabWidth) header c) ((Extent.nested).owns header)
      (Job.read tabWidth) :=
  takes_eachAtLevel (encloses_nested header _) (takes_readJobField tabWidth) Job.blank c

theorem takes_addJob (tabWidth : Nat) :
    TakesSections (addJob (Step.contentLine tabWidth)) (fun _ => .nested) (Job.addTo tabWidth) := by
  intro jobs l c
  cases he : Entry.of? l.text with
  | none =>
      simp only [addJob, Job.addTo, he]
      exact ((spans_skipNested l c).map fun _ => jobs).takes
  | some e =>
      simp only [addJob, Job.addTo, he]
      exact (takes_readJob tabWidth l c).map _

theorem takes_readJobs (tabWidth : Nat) (header : Line) (jobs : Table Job) (c : Cursor) :
    Takes (readJobs (Step.contentLine tabWidth) header jobs c) ((Extent.nested).owns header)
      fun body => Job.readAll tabWidth body jobs :=
  takes_each (encloses_nested header _) (takes_addJob tabWidth) jobs c

theorem takes_readWorkflowKey (tabWidth : Nat) (w : Workflow) (l : Line) (value : List Char)
    (c : Cursor) (key : Workflow.Key) :
    Takes (readWorkflowKey (Step.contentLine tabWidth) w l value c key) (key.extent.owns l)
      fun body => key.set tabWidth value body w := by
  cases key with
  | name => exact (Reading.spans_stay c l _).takes
  | triggers => exact ((spans_readTriggers l value _ c).map _).takes
  | permissions => exact ((spans_readMapping l value _ c).map _).takes
  | jobs => exact (takes_readJobs tabWidth l _ c).map _
  | env => exact ((spans_readMapping l value _ c).map _).takes

theorem takes_readSection (tabWidth : Nat) :
    TakesSections (readSection (Step.contentLine tabWidth)) Workflow.extent
      (Workflow.readSection tabWidth) := by
  intro w l c
  cases hk : Workflow.field? l with
  | none =>
      simp only [readSection, Workflow.extent, Workflow.readSection, hk]
      exact ((spans_skipNested l c).map fun _ => w).takes
  | some field =>
      simp only [readSection, Workflow.extent, Workflow.readSection, hk]
      exact takes_readWorkflowKey tabWidth w l field.2 c field.1

theorem takes_readWorkflow (tabWidth : Nat) (c : Cursor) :
    Takes (readWorkflow (Step.contentLine tabWidth) c) (fun _ => true) (Workflow.read tabWidth) :=
  takes_each ⟨fun l => by simp, fun _ _ _ _ _ => rfl⟩ (takes_readSection tabWidth) Workflow.blank c

/-! ## Where they stop -/

variable {ends own : Line → Bool}

theorem dropWhile_eq_of_ends (hown : ∀ l, own l = (!l.isSignificant || !ends l)) (ls : List Line) :
    skim (ls.dropWhile own) = ls.dropWhile own ∧
      (ls.dropWhile own).head? = ls.find? fun l => l.isSignificant && ends l := by
  induction ls with
  | nil => exact ⟨rfl, rfl⟩
  | cons l ls ih =>
      rw [List.find?_cons, List.dropWhile_cons, hown]
      by_cases hl : l.isSignificant = true
      · by_cases he : ends l = true
        · simp [hl, he, skim_cons_of_pos hl]
        · simpa [hl, he] using ih
      · simpa [hl] using ih

/-- The lines before the first one that ends the block come to what a function makes of them, and
the lines from that one on are left. -/
structure ReadsBlock {α : Type} {c : Cursor} (ends : Line → Bool)
    (x : Except SyntaxError (Reading c α)) (f : List Line → Except SyntaxError α) : Prop where
  value : (·.value) <$> x = f (c.ahead.takeWhile fun l => !(l.isSignificant && ends l))
  left : ∀ r, x = .ok r →
    skim r.after.ahead = c.ahead.dropWhile fun l => !(l.isSignificant && ends l)
  next : ∀ r, x = .ok r → r.after.next.1 = c.ahead.find? fun l => l.isSignificant && ends l

theorem Takes.readsBlock {α : Type} {c : Cursor} {x : Except SyntaxError (Reading c α)}
    {f : List Line → Except SyntaxError α} (h : Takes x own f)
    (hown : ∀ l, own l = (!l.isSignificant || !ends l)) : ReadsBlock ends x f := by
  have ho : own = fun l => !(l.isSignificant && ends l) := by
    funext l
    rw [hown, Bool.not_and]
  obtain ⟨hskim, hhead⟩ := dropWhile_eq_of_ends hown c.ahead
  have hleft : ∀ r, x = .ok r → skim r.after.ahead = c.ahead.dropWhile own := by
    intro r hr
    rw [Takes, hr] at h
    cases hf : f (c.ahead.takeWhile own) with
    | error e =>
        rw [hf] at h
        cases h
    | ok v =>
        rw [hf] at h
        exact (congrArg (·.2) (Except.ok.inj h)).trans hskim
  refine ⟨?_, ho ▸ hleft, fun r hr => ?_⟩
  · have hv := congrArg ((·.1) <$> ·) h
    rw [← comp_map, ← comp_map] at hv
    rw [← ho]
    exact hv.trans (id_map _)
  · rw [next_fst, hleft r hr, hhead]

theorem significant_lines_cutAll (extent : Line → Extent) (ls : List Line) :
    ((Section.cutAll extent ls).flatMap Section.lines).filter (·.isSignificant) =
      ls.filter (·.isSignificant) := by
  fun_induction Section.cutAll extent ls with
  | case1 => rfl
  | case2 l ls hl ih =>
      have hb := Section.body_append_cut extent l ls
      rw [List.flatMap_cons, List.filter_append, ih, ← List.filter_append, Section.lines,
        List.cons_append, hb]
      rfl
  | case3 l ls hl ih => rw [ih, List.filter_cons_of_neg hl]

end Cursor

end WorkflowLint
