import Mathlib
import WorkflowLint.Proofs.Bounds
import WorkflowLint.Proofs.LineByLine

/-!
# Columns in a word

A machine that does not check its sums goes on with what is left of a column in a word. As long as
the columns of what stands behind the dashes fit, its readers are those that count any number of
columns, and each of them leaves the cursor where its block ends.
-/
namespace WorkflowLint

variable {tabWidth : Nat} {ls : List Line}

/-- The line with what is left of its column in a word. -/
def Line.wrap (l : Line) : Line :=
  { l with indent := l.indent % columnLimit }

theorem Line.wrap_eq_self {l : Line} (h : l.indent < columnLimit) : l.wrap = l := by
  rw [wrap, Nat.mod_eq_of_lt h]

/-- The line that the content after a dash is taken to be on. -/
def Step.wrappedLine (tabWidth : Nat) (dash : Line) : Line :=
  (contentLine tabWidth dash).wrap

theorem Step.wrappedLine_eq {dash : Line} (h : CountsContent tabWidth dash)
    (hn : (contentLine tabWidth dash).text ≠ []) :
    wrappedLine tabWidth dash = contentLine tabWidth dash :=
  Line.wrap_eq_self (h (by simpa [Line.isBlank] using hn))

namespace Cursor

/-! ## Loops with the same turns -/

section

variable {σ : Type} {m : Type → Type} [Monad m] {ends : Line → Bool}
  {turn turn' : σ → Line → (c : Cursor) → m (Reading c σ)}

/-- Loops are the same if their turns are, on the lines that are to come. -/
theorem each_congr (s : σ) (c : Cursor) (h : ∀ s l (d : Cursor), l ∈ c.ahead → d.ahead <:+ c.ahead →
    turn s l d = turn' s l d) : each ends turn s c = each ends turn' s c := by
  induction s, c using each.induct ends with
  | case1 s c hnext => rw [each_of_none hnext, each_of_none hnext]
  | case2 s c l hnext he => rw [each_of_ends hnext he, each_of_ends hnext he]
  | case3 s c l hnext he ih =>
      have hl : l ∈ c.ahead := by
        rw [next_fst] at hnext
        exact List.dropWhile_subset _ (List.mem_of_head? hnext)
      rw [each_of_not_ends hnext he, each_of_not_ends hnext he, h s l _ hl c.ahead_next_suffix]
      refine congrArg _ (funext fun r => congrArg _ (ih r fun s l d hm hd => ?_))
      have hr := r.onward.trans c.ahead_next_suffix
      exact h s l d (hr.subset hm) (hd.trans hr)

theorem eachAtLevel_congr (level : Option Nat) (s : σ) (c : Cursor)
    (h : ∀ s l (d : Cursor), l ∈ c.ahead → d.ahead <:+ c.ahead → turn s l d = turn' s l d) :
    eachAtLevel ends turn level s c = eachAtLevel ends turn' level s c := by
  rw [eachAtLevel, eachAtLevel, each_congr]
  intro s l d hl hd
  rw [atLevel, atLevel, h s.1 l d hl hd]

end

/-- A loop for which there is no line leaves none. -/
theorem eachAtLevel_of_none {σ : Type} {ends : Line → Bool}
    {turn : σ → Line → (c : Cursor) → Id (Reading c σ)} {c : Cursor} (h : c.next.1 = none)
    (level : Option Nat) (s : σ) :
    (Id.run (eachAtLevel ends turn level s c)).after.next.1 = none := by
  rw [eachAtLevel, each_of_none h]
  show c.next.2.next.1 = none
  rw [next_fst, ahead_next_eq_nil h]
  rfl

/-! ## Readers that wrap -/

theorem readStepAt_wrapped {dash : Line} (h : Step.CountsContent tabWidth dash) (c : Cursor) :
    readStepAt (Step.wrappedLine tabWidth) dash c = readStep tabWidth dash c := by
  by_cases ht : (Step.contentLine tabWidth dash).text = []
  · have hw : (Step.wrappedLine tabWidth dash).text = [] := ht
    simp only [readStep, readStepAt, if_pos ht, if_pos hw]
  · have hw := Step.wrappedLine_eq h ht
    unfold readStep readStepAt
    generalize Step.wrappedLine tabWidth dash = first at hw
    rw [hw]

theorem readSteps_wrapped (header : Line) (c : Cursor) (h : Step.CountsContents tabWidth c.ahead) :
    readSteps (Step.wrappedLine tabWidth) header c =
      readSteps (Step.contentLine tabWidth) header c := by
  rw [readSteps, readSteps, each_congr]
  intro steps l d hl _
  unfold addStep
  split
  · rename_i hi
    rw [readStepAt_wrapped (h l hl hi)]
    rfl
  · rfl

theorem readJobField_wrapped (j : Job) (l : Line) (c : Cursor)
    (h : Step.CountsContents tabWidth c.ahead) :
    readJobField (Step.wrappedLine tabWidth) j l c =
      readJobField (Step.contentLine tabWidth) j l c := by
  unfold readJobField
  split
  · rename_i key value _
    cases key with
    | steps => rw [readJobKey, readJobKey, readSteps_wrapped l c h]
    | _ => rfl
  · rfl

theorem readJob_wrapped (header : Line) (c : Cursor) (h : Step.CountsContents tabWidth c.ahead) :
    readJob (Step.wrappedLine tabWidth) header c = readJob (Step.contentLine tabWidth) header c :=
  eachAtLevel_congr none Job.blank c fun j l d _ hd =>
    readJobField_wrapped j l d (h.of_subset hd.subset)

theorem readJobs_wrapped (header : Line) (jobs : Table Job) (c : Cursor)
    (h : Step.CountsContents tabWidth c.ahead) :
    readJobs (Step.wrappedLine tabWidth) header jobs c =
      readJobs (Step.contentLine tabWidth) header jobs c := by
  refine each_congr jobs c fun jobs l d _ hd => ?_
  rw [addJob, addJob, readJob_wrapped l d (h.of_subset hd.subset)]

theorem readWorkflow_wrapped (c : Cursor) (h : Step.CountsContents tabWidth c.ahead) :
    readWorkflow (Step.wrappedLine tabWidth) c = readWorkflow (Step.contentLine tabWidth) c := by
  refine each_congr Workflow.blank c fun w l d _ hd => ?_
  unfold readSection
  split
  · rename_i key value _
    cases key with
    | jobs =>
        rw [readWorkflowKey, readWorkflowKey, readJobs_wrapped l w.jobs d (h.of_subset hd.subset)]
    | _ => rfl
  · rfl

/-- The cursor at the beginning of a document whose lines are measured in words. -/
def ofWrappedText (tabWidth : Nat) (text : List Char) : Cursor :=
  ⟨(Line.ofText tabWidth text).map Line.wrap, 0, 0⟩

theorem ofWrappedText_eq {text : List Char} (h : Line.Room tabWidth (Line.ofText tabWidth text)) :
    ofWrappedText tabWidth text = ofText tabWidth text := by
  have hm : (Line.ofText tabWidth text).map Line.wrap = Line.ofText tabWidth text :=
    (List.map_congr_left fun l hl => Line.wrap_eq_self (h.line l hl)).trans (List.map_id _)
  rw [ofWrappedText, hm, ofText]

/-! ## Where they stop -/

/-- How the readers go on from a cursor, for which a header has been read. -/
structure ReadsBlocks (tabWidth : Nat) (header : Line) (c : Cursor) : Prop where
  triggers : ∀ value t, ReadsBlock (endsBlock header) (.ok (readTriggers header value t c))
    fun body => .ok (triggers value body t)
  mapping : ∀ value t, ReadsBlock (endsBlock header) (.ok (readMapping header value t c))
    fun body => .ok (mapping value body t)
  items : ReadsBlock (endsBlock header) (.ok (readItems header c)) fun body => .ok (items body)
  nested : ReadsBlock (endsNested header) (.ok (skipNested header c)) fun _ => .ok ()
  step : Step.CountsContent tabWidth header →
    ReadsBlock (endsNested header) (.ok (readStepAt (Step.wrappedLine tabWidth) header c))
      fun body => .ok (Step.read tabWidth ⟨header, body⟩)
  steps : Step.CountsContents tabWidth c.ahead →
    ReadsBlock (endsBlock header) (.ok (readSteps (Step.wrappedLine tabWidth) header c))
      fun body => .ok (Step.readAll tabWidth body)
  job : Step.CountsContents tabWidth c.ahead →
    ReadsBlock (endsNested header) (readJob (Step.wrappedLine tabWidth) header c)
      (Job.read tabWidth)
  jobs : Step.CountsContents tabWidth c.ahead → ∀ jobs,
    ReadsBlock (endsNested header) (readJobs (Step.wrappedLine tabWidth) header jobs c)
      fun body => Job.readAll tabWidth body jobs
  /-- The sections over which a loop makes its turns have all lines with a meaning, each of them
  once. -/
  lines : ∀ extent ls, ((Section.cutAll extent ls).flatMap Section.lines).filter (·.isSignificant) =
    ls.filter (·.isSignificant)
  /-- Whatever a turn reads, it leaves fewer lines than there were before. -/
  advances : ∀ {α : Type} {l : Line} (r : Reading c.next.2 α), c.next.1 = some l →
    r.after.ahead.length < c.ahead.length
  advancesRaw : ∀ {l : Line}, c.nextRaw.1 = some l → c.nextRaw.2.ahead.length < c.ahead.length

/-- Where there is room for its columns, a document is read line by line as what the machine reads
in it. No line is left of a document that is read. -/
structure ReadsDocument (tabWidth : Nat) (text : List Char) : Prop where
  value : Line.Room tabWidth (Line.ofText tabWidth text) →
    ((·.value) <$> readWorkflow (Step.wrappedLine tabWidth)
      (ofWrappedText tabWidth text)).mapError .malformed = Workflow.parse tabWidth text
  ahead : ∀ r, readWorkflow (Step.wrappedLine tabWidth) (ofWrappedText tabWidth text) = .ok r →
    r.after.ahead = []

theorem readsBlocks (tabWidth : Nat) (header : Line) (c : Cursor) :
    ReadsBlocks tabWidth header c where
  triggers value t := (spans_readTriggers header value t c).takes.readsBlock (owns_block header)
  mapping value t := (spans_readMapping header value t c).takes.readsBlock (owns_block header)
  items := (spans_readItems header c).takes.readsBlock (owns_block header)
  nested := (spans_skipNested header c).takes.readsBlock (owns_nested header)
  step h := by
    rw [readStepAt_wrapped h]
    exact (spans_readStep tabWidth header c).takes.readsBlock (owns_nested header)
  steps h := by
    rw [readSteps_wrapped header c h]
    exact (spans_readSteps tabWidth header c).takes.readsBlock (owns_block header)
  job h := by
    rw [readJob_wrapped header c h]
    exact (takes_readJob tabWidth header c).readsBlock (owns_nested header)
  jobs h jobs := by
    rw [readJobs_wrapped header jobs c h]
    exact (takes_readJobs tabWidth header jobs c).readsBlock (owns_nested header)
  lines := significant_lines_cutAll
  advances r h := Nat.lt_of_le_of_lt r.onward.length_le (length_ahead_next h)
  advancesRaw := length_ahead_nextRaw

theorem value_readWorkflow (tabWidth : Nat) (text : List Char) :
    (·.value) <$> readWorkflow (Step.contentLine tabWidth) (ofText tabWidth text) =
      Workflow.ofText tabWidth text := by
  have h : ReadsBlock (fun _ => false)
      (readWorkflow (Step.contentLine tabWidth) (ofText tabWidth text)) (Workflow.read tabWidth) :=
    (takes_readWorkflow tabWidth _).readsBlock fun l => by simp
  have hall : (ofText tabWidth text).ahead.takeWhile
      (fun l => !(l.isSignificant && false)) = Line.ofText tabWidth text :=
    List.takeWhile_eq_self_iff.mpr fun l _ => by simp
  rw [h.value, hall]
  rfl

theorem readsDocument (tabWidth : Nat) (text : List Char) : ReadsDocument tabWidth text where
  value h := by
    rw [ofWrappedText_eq h, readWorkflow_wrapped (ofText tabWidth text) h.content,
      value_readWorkflow, Workflow.parse_of_room h]
  ahead r hr := by
    have h := each_ends_ahead (readSection (Step.wrappedLine tabWidth)) Workflow.blank
      (ofWrappedText tabWidth text)
    rw [show each _ _ _ _ = _ from hr] at h
    exact Except.ok.inj h

/-- All readers go over their blocks, and that of documents over the whole document. -/
theorem reads_blocks (tabWidth : Nat) :
    (∀ header c, ReadsBlocks tabWidth header c) ∧ ∀ text, ReadsDocument tabWidth text :=
  ⟨readsBlocks tabWidth, readsDocument tabWidth⟩

/-- A job that ends in a block scalar, with a comment before the next job. -/
def twoJobs : List Char :=
  "jobs:\n a:\n  steps:\n  - run: |\n     x\n # c\n b:\n  name: y".toList

/-- The place below the line of the first job. -/
def inFirstJob : Cursor :=
  ⟨Line.ofText 2 twoJobs, 2, 1⟩

theorem readJob_inFirstJob : ∃ r,
    readJob (Step.wrappedLine 2) ⟨2, 1, "a:".toList⟩ inFirstJob = .ok r ∧
      r.after.next.1 = some ⟨7, 1, "b:".toList⟩ := by
  have hroom : Line.Room 2 (Line.ofText 2 twoJobs) := Line.room_ofText (by decide +kernel)
  have hcounts : Step.CountsContents 2 inFirstJob.ahead := fun l hl =>
    hroom.content l (List.mem_of_mem_drop hl)
  have h := ((reads_blocks 2).1 ⟨2, 1, "a:".toList⟩ inFirstJob).job hcounts
  have hok : (Job.read 2 (inFirstJob.ahead.takeWhile fun l =>
      !(l.isSignificant && endsNested ⟨2, 1, "a:".toList⟩ l))).isOk = true := by cbv
  have hnext : (inFirstJob.ahead.find? fun l => l.isSignificant &&
      endsNested ⟨2, 1, "a:".toList⟩ l) = some ⟨7, 1, "b:".toList⟩ := by cbv
  rw [← h.value] at hok
  cases hr : readJob (Step.wrappedLine 2) ⟨2, 1, "a:".toList⟩ inFirstJob with
  | error e =>
      rw [hr] at hok
      cases hok
  | ok r => exact ⟨r, rfl, (h.next r hr).trans hnext⟩

/-- The place below the first dash of two steps, with a tab behind it. -/
def behindTab : Cursor :=
  ⟨[⟨4, 6, "-\twith:".toList⟩, ⟨5, 6, "- run: x".toList⟩], 1, 0⟩

/-- With tabs of the greatest width, the content behind the dash has come to stand in the column of
the dash, and the reader of the step takes the next step with it. -/
theorem readStepAt_behindTab :
    (behindTab.ahead.find? fun l => l.isSignificant && endsNested ⟨4, 6, "-\twith:".toList⟩ l) =
        some ⟨5, 6, "- run: x".toList⟩ ∧
      (readStepAt (Step.wrappedLine (2 ^ 64 - 1)) ⟨4, 6, "-\twith:".toList⟩
        behindTab).after.next.1 = none := by
  let first : Line := ⟨4, 6, "with:".toList⟩
  have hw : Step.wrappedLine (2 ^ 64 - 1) ⟨4, 6, "-\twith:".toList⟩ = first := by cbv
  -- The mapping takes the line below, so that nothing is left for the loop over the fields.
  have hfield : (Id.run (readStepField Step.blank first behindTab)).after.next.1 = none := by
    rw [next_fst, (Prod.mk.inj (spans_readStepField Step.blank first behindTab)).2]
    cbv
  refine ⟨by cbv, ?_⟩
  unfold readStepAt
  generalize Step.wrappedLine (2 ^ 64 - 1) ⟨4, 6, "-\twith:".toList⟩ = line at hw
  subst hw
  exact eachAtLevel_of_none hfield (some first.indent) _

end Cursor

end WorkflowLint
