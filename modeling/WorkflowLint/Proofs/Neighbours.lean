import WorkflowLint.Proofs.BlockScalars
import WorkflowLint.Proofs.Bounds
import WorkflowLint.Proofs.Composition

/-!
# Neighbours

Jobs that stand below each other are read as if each of them stood there alone, and so are steps.
Whatever the last lines of a job or step are, the next one begins at its own first line.
-/
namespace WorkflowLint

variable {tabWidth depth : Nat} {head : Line} {ss : List Section}

/-! ## Blocks at one depth -/

namespace Section

/-- A line at a depth, and lines below it that are deeper or without meaning. -/
structure IsBlock (depth : Nat) (s : Section) : Prop where
  indent_eq : s.head.indent = depth
  below : ∀ l ∈ s.body, l.isSignificant = false ∨ depth < l.indent

structure IsJobBlock (depth : Nat) (s : Section) : Prop extends IsBlock depth s where
  isSignificant : s.head.isSignificant = true
  isEntry : (Entry.of? s.head.text).isSome = true

structure IsStepBlock (depth : Nat) (s : Section) : Prop extends IsBlock depth s where
  isItem : s.head.isItem = true

theorem cutAll_blocks (h : ∀ s ∈ ss, s.IsBlock depth)
    (hs : ∀ s ∈ ss, s.head.isSignificant = true) :
    cutAll (fun _ => .nested) (ss.flatMap lines) = ss := by
  refine cutAll_flatMap_lines hs (fun s hm l hl => ?_) fun s hm t ht => ?_
  · simpa [Extent.owns, (h s hm).indent_eq] using (h s hm).below l hl
  · refine Extent.owns_eq_false (hs t ht) ?_ (.inr (by simp))
    rw [(h s hm).indent_eq, (h t ht).indent_eq]

/-- A line that is not deeper than the blocks reaches over all of them, if it reaches over their
first lines. -/
theorem owns_blocks {e : Extent} (he : e = .nested ∨ e = .block)
    (h : ∀ s ∈ ss, s.IsBlock depth) (hd : head.indent ≤ depth)
    (ho : ∀ s ∈ ss, e.owns head s.head = true) :
    ∀ l ∈ ss.flatMap lines, e.owns head l = true := by
  intro l hl
  obtain ⟨s, hs, hm⟩ := List.mem_flatMap.mp hl
  rcases List.mem_cons.mp hm with rfl | hm
  · exact ho s hs
  · have hb : l.isSignificant = false ∨ head.indent < l.indent :=
      ((h s hs).below l hm).imp_right (Nat.lt_of_le_of_lt hd)
    rcases he with rfl | rfl <;> rcases hb with hb | hb <;> simp [Extent.owns, hb]

end Section

theorem Line.isSignificant_of_isItem {l : Line} (h : l.isItem = true) : l.isSignificant = true := by
  unfold isItem at h
  split at h <;> simp_all [isSignificant, isBlank, isComment]

/-! ## Texts that show lines -/

/-- The lines of a text are the given ones, but for their numbers. -/
def Text.Shows (tabWidth : Nat) (text : List Char) (ls : List Line) : Prop :=
  (Line.ofText tabWidth text).map Line.content = ls.map Line.content

instance (tabWidth : Nat) (text : List Char) (ls : List Line) :
    Decidable (Text.Shows tabWidth text ls) :=
  inferInstanceAs (Decidable (_ = _))

theorem Text.Shows.parse_eq_ok_iff {text : List Char} {ls : List Line}
    (h : Text.Shows tabWidth text ls) (w : Workflow) :
    Workflow.parse tabWidth text = .ok w ↔ Workflow.parseLines tabWidth ls = .ok w :=
  Workflow.parseLines_eq_ok_iff h w

theorem exists_error_iff {ε α : Type} {x : Except ε α} : (∃ e, x = .error e) ↔ ∀ a, x ≠ .ok a := by
  cases x <;> simp

/-! ## Jobs -/

namespace Job

theorem parseTo_eq_map (tabWidth : Nat) (jobs : Table Job) (s : Section) :
    parseTo tabWidth jobs s = (parseTo tabWidth ∅ s).map jobs.overlay := by
  simp only [parseTo]
  split
  · cases parse tabWidth s.body with
    | error _ => rfl
    | ok job => exact congrArg Except.ok (jobs.overlay_insert ∅ _ job).symm
  · rfl

/-- The jobs of blocks, where the last of equal names wins. -/
theorem exists_foldlM_parseTo {ts : List (Table Job)}
    (h : List.Forall₂ (fun s t => parseTo tabWidth ∅ s = .ok t) ss ts) (jobs : Table Job) :
    ∃ t, ss.foldlM (parseTo tabWidth) jobs = .ok t ∧
      ∀ id, t.get? id = (ts.filterMap (·.get? id)).getLast?.or (jobs.get? id) := by
  induction h generalizing jobs with
  | nil => exact ⟨jobs, rfl, fun id => rfl⟩
  | @cons s t ss ts hs _ ih =>
      obtain ⟨u, hu, hg⟩ := ih (jobs.overlay t)
      refine ⟨u, ?_, fun id => ?_⟩
      · rw [List.foldlM_cons, parseTo_eq_map, hs]
        exact hu
      · rw [hg, Table.get?_overlay, List.filterMap_cons]
        cases t.get? id with
        | none => rfl
        | some job =>
            rw [List.getLast?_cons]
            cases (ts.filterMap (·.get? id)).getLast? <;> rfl

theorem foldlM_parseTo_ne_ok {s : Section} (hs : s ∈ ss) (h : ∀ t, parseTo tabWidth ∅ s ≠ .ok t)
    (jobs t : Table Job) : ss.foldlM (parseTo tabWidth) jobs ≠ .ok t := by
  induction ss generalizing jobs with
  | nil => cases hs
  | cons u ss ih =>
      rw [List.foldlM_cons, parseTo_eq_map]
      cases hu : parseTo tabWidth ∅ u with
      | error e => exact fun hn => (nomatch hn)
      | ok t' =>
          rcases List.mem_cons.mp hs with rfl | hs
          · exact absurd hu (h t')
          · exact ih hs _

theorem names_of_parseTo {s : Section} {t : Table Job} {e : Entry}
    (he : Entry.of? s.head.text = some e) (h : parseTo tabWidth ∅ s = .ok t) :
    t.names = [e.key] := by
  simp only [parseTo, he] at h
  cases hr : parse tabWidth s.body with
  | error _ =>
      rw [hr] at h
      cases h
  | ok job =>
      rw [hr] at h
      cases h
      rfl

end Job

/-- The line that opens the jobs of a workflow, which are deeper. -/
structure Workflow.IsJobsLine (depth : Nat) (l : Line) : Prop where
  isSignificant : l.isSignificant = true
  named : ∃ value, field? l = some (.jobs, value)
  indent_lt : l.indent < depth

/-- A document that is one section of jobs. -/
theorem Workflow.parseLines_jobs (hh : IsJobsLine depth head) (h : ∀ s ∈ ss, s.IsJobBlock depth) :
    parseLines tabWidth (head :: ss.flatMap Section.lines) =
      if Line.overflows (head :: ss.flatMap Section.lines) then .error .overflow
      else (ss.foldlM (Job.parseTo tabWidth) ∅).map fun jobs => { blank with jobs := jobs } := by
  obtain ⟨hi, ⟨value, hk⟩, hd⟩ := hh
  have hb : ∀ s ∈ ss, s.IsBlock depth := fun s hs => (h s hs).toIsBlock
  have he : extent head = .nested := by simp only [extent, hk, Key.extent]
  have ho : ∀ l ∈ ss.flatMap Section.lines, (extent head).owns head l = true := by
    rw [he]
    refine Section.owns_blocks (.inl rfl) hb (Nat.le_of_lt hd) fun s hs => ?_
    simp [Extent.owns, (hb s hs).indent_eq, hd]
  have hc : Section.cut extent head (ss.flatMap Section.lines) =
      (⟨head, ss.flatMap Section.lines⟩, []) := by
    have hc := Section.cut_append_below ho fun l (hl : l ∈ ([] : List Line).head?) =>
      absurd hl (Option.not_mem_none l)
    rwa [List.append_nil] at hc
  have hj : Job.parseAll tabWidth (ss.flatMap Section.lines) ∅ =
      ss.foldlM (Job.parseTo tabWidth) ∅ := by
    rw [Job.parseAll, Section.cutAll_blocks hb fun s hs => (h s hs).isSignificant]
  rw [parseLines, Section.cutAll, if_pos hi, hc, Section.cutAll, List.foldlM_cons, parseSection, hk]
  congr 1
  show ((Job.parseAll tabWidth (ss.flatMap Section.lines) ∅).map _ >>= _) = _
  rw [hj]
  cases ss.foldlM (Job.parseTo tabWidth) ∅ <;> rfl

/-- A text in which a job is alone, under some line that opens the jobs. -/
def Workflow.ShowsAlone (tabWidth depth : Nat) (s : Section) (text : List Char) : Prop :=
  ∃ head, IsJobsLine depth head ∧ Text.Shows tabWidth text (head :: s.lines)

/-- The columns of a job can be counted if those of its lines can, as the line that opens the jobs
is less deep. -/
theorem Workflow.overflows_job {s : Section} (hh : IsJobsLine depth head)
    (h : s.IsJobBlock depth) : Line.overflows (head :: s.lines) = Line.overflows s.lines := by
  have hd := hh.indent_lt
  have hi := h.indent_eq
  simp only [Line.overflows, Section.lines, List.any_cons]
  by_cases hw : Line.columnLimit ≤ head.indent
  · have hs : Line.columnLimit ≤ s.head.indent := by omega
    simp [hs]
  · simp [hw]

theorem Workflow.ShowsAlone.parse_eq_ok_iff {s : Section} {text : List Char}
    (ha : ShowsAlone tabWidth depth s text) (h : s.IsJobBlock depth) (w : Workflow) :
    parse tabWidth text = .ok w ↔ Line.overflows s.lines = false ∧
      ∃ jobs, Job.parseTo tabWidth ∅ s = .ok jobs ∧ w = { blank with jobs := jobs } := by
  obtain ⟨head, hh, ht⟩ := ha
  have hr : parseLines tabWidth (head :: [s].flatMap Section.lines) = _ :=
    parseLines_jobs hh (List.forall_mem_singleton.mpr h)
  rw [List.flatMap_singleton, overflows_job hh h, List.foldlM_cons] at hr
  rw [ht.parse_eq_ok_iff, hr]
  cases Line.overflows s.lines with
  | true => simp
  | false => cases Job.parseTo tabWidth ∅ s <;> simp [Except.map, bind, Except.bind, pure,
      Except.pure, eq_comm]

/-- What is read of jobs that stand below each other, and of texts in which each of them is
alone. -/
structure Workflow.JobsApart (tabWidth : Nat) (ss : List Section) (text : List Char)
    (alone : List (List Char)) : Prop where
  /-- If all can be read alone, each of them makes one job, and under each name there is the last
  one that is made under it. -/
  reads : ∀ ws, List.Forall₂ (fun t w => parse tabWidth t = .ok w) alone ws →
    List.Forall₂ (fun s w => ∃ e, Entry.of? s.head.text = some e ∧ w.jobs.names = [e.key]) ss ws ∧
      ∃ w, parse tabWidth text = .ok w ∧
        ∀ id, w.jobs.get? id = (ws.filterMap (·.jobs.get? id)).getLast?
  fails : ∀ t ∈ alone, (∃ e, parse tabWidth t = .error e) → ∃ e, parse tabWidth text = .error e

theorem Workflow.jobsApart {text : List Char} {alone : List (List Char)}
    (hh : IsJobsLine depth head) (hc : head.indent < Line.columnLimit)
    (h : ∀ s ∈ ss, s.IsJobBlock depth)
    (ht : Text.Shows tabWidth text (head :: ss.flatMap Section.lines))
    (ha : List.Forall₂ (ShowsAlone tabWidth depth) ss alone) :
    JobsApart tabWidth ss text alone where
  reads ws hw := by
    have hadd : List.Forall₂ (fun s t => Line.overflows s.lines = false ∧
        Job.parseTo tabWidth ∅ s = .ok t) ss (ws.map (·.jobs)) := by
      clear ht
      induction ha generalizing ws with
      | nil =>
          cases hw
          exact .nil
      | cons hs _ ih =>
          cases hw with
          | cons hw hws =>
              obtain ⟨hj, hjs⟩ := List.forall_mem_cons.mp h
              obtain ⟨hf, jobs, hx, rfl⟩ := (hs.parse_eq_ok_iff hj _).mp hw
              exact .cons ⟨hf, hx⟩ (ih hjs _ hws)
    have hread := hadd.imp fun _ _ hs => hs.2
    obtain ⟨jobs, hj, hg⟩ := Job.exists_foldlM_parseTo hread ∅
    refine ⟨?_, { blank with jobs := jobs }, (ht.parse_eq_ok_iff _).mpr ?_, fun id => ?_⟩
    · have hnames := List.forall₂_map_right_iff.mp hread
      refine ((List.forall₂_and_left ss ws).mpr ⟨h, hnames⟩).imp fun s w hs => ?_
      obtain ⟨e, he⟩ := Option.isSome_iff_exists.mp hs.1.isEntry
      exact ⟨e, he, Job.names_of_parseTo he hs.2⟩
    · have hf : Line.overflows (head :: ss.flatMap Section.lines) = false := by
        refine List.any_eq_false.mpr fun l hl => ?_
        rcases List.mem_cons.mp hl with rfl | hl
        · simpa using hc
        · obtain ⟨s, hs, hm⟩ := List.mem_flatMap.mp hl
          obtain ⟨i, hi, rfl⟩ := List.getElem_of_mem hs
          exact List.any_eq_false.mp (hadd.get hi (hadd.length_eq ▸ hi)).1 l hm
      rw [parseLines_jobs hh h, hf, hj]
      rfl
    · rw [hg, Table.get?_empty, Option.or_none, List.filterMap_map]
      rfl
  fails t hm he := by
    obtain ⟨i, hi, rfl⟩ := List.getElem_of_mem hm
    have hl : i < ss.length := ha.length_eq ▸ hi
    have hs := List.getElem_mem hl
    have halone := (ha.get hl hi).parse_eq_ok_iff (h _ hs)
    refine exists_error_iff.mpr fun w hw => ?_
    rw [ht.parse_eq_ok_iff, parseLines_jobs hh h] at hw
    split at hw
    · cases hw
    · rename_i hf
      have hf : Line.overflows ss[i].lines = false := by
        rw [Bool.not_eq_true] at hf
        exact List.any_eq_false.mpr fun l hl => List.any_eq_false.mp hf l
          (List.mem_cons_of_mem head (List.mem_flatMap.mpr ⟨_, hs, hl⟩))
      have hadd : ∀ jobs, Job.parseTo tabWidth ∅ ss[i] ≠ .ok jobs := fun jobs hj =>
        exists_error_iff.mp he _ ((halone _).mpr ⟨hf, jobs, hj, rfl⟩)
      cases hr : ss.foldlM (Job.parseTo tabWidth) ∅ with
      | error _ =>
          rw [hr] at hw
          cases hw
      | ok jobs => exact Job.foldlM_parseTo_ne_ok hs hadd ∅ jobs hr

/-! ## Steps -/

theorem Extent.owns_congr {l m : Line} (h : l.content = m.content) (e : Extent) (head : Line) :
    e.owns head l = e.owns head m := by
  have hi : l.indent = m.indent := congrArg Prod.fst h
  have ht : l.text = m.text := congrArg Prod.snd h
  have hs := Line.isSignificant_congr h
  cases e <;> simp only [owns, Line.isItem, Line.isBlank, hi, ht, hs]

theorem Step.readAll_of_content_eq {ls ms : List Line}
    (h : ls.map Line.content = ms.map Line.content) :
    readAll tabWidth ls = readAll tabWidth ms := by
  rw [← Line.map_renumber_indices ls, ← Line.map_renumber_indices ms, h]
  exact (readAll_resembles (.map_move _ 0 _)).trans (readAll_resembles (.map_move _ 0 _)).symm

theorem Step.items_blocks (h : ∀ s ∈ ss, s.IsStepBlock depth) :
    (Section.cutAll (fun _ => .nested) (ss.flatMap Section.lines)).filter (·.head.isItem) = ss := by
  have hs : ∀ s ∈ ss, s.head.isSignificant = true :=
    fun s hs => Line.isSignificant_of_isItem (h s hs).isItem
  rw [Section.cutAll_blocks (fun s hs => (h s hs).toIsBlock) hs]
  exact List.filter_eq_self.mpr fun s hs => (h s hs).isItem

/-- In a text, a field of a job that opens its steps and has the given lines below it, which it
reaches over no further. -/
structure Place.OpensSteps (tabWidth depth : Nat) (text : List Char) (ls : List Line) (p : Place) :
    Prop where
  holds : (document (Line.ofText tabWidth text)).Holds tabWidth p
  role_eq : p.role = .jobField
  named : ∃ value, Job.field? p.head = some (.steps, value)
  indent_le : p.head.indent ≤ depth
  followed : ∃ shown below, (Line.ofText tabWidth text).drop p.head.number = shown ++ below ∧
    shown.map Line.content = ls.map Line.content ∧
      ∀ l ∈ below.head?, (Extent.block).owns p.head l = false

theorem Place.OpensSteps.parseField_eq {text : List Char} {p : Place}
    (hp : p.OpensSteps tabWidth depth text (ss.flatMap Section.lines))
    (h : ∀ s ∈ ss, s.IsStepBlock depth) (j : Job) :
    Job.parseField tabWidth j p.toSection =
      if ss.any (Step.overflows tabWidth) then .error .overflow
      else .ok { j with steps := ss.map (Step.read tabWidth) } := by
  obtain ⟨hp, hr, ⟨value, hk⟩, hd, shown, below, hb, hc, hn⟩ := hp
  have he : p.role.extent p.head = .block := by
    simp only [hr, Role.extent, Job.extent, hk, Job.Key.extent]
  have ho : ∀ l ∈ shown, (p.role.extent p.head).owns p.head l = true := by
    intro l hl
    obtain ⟨m, hm, hml⟩ : ∃ m ∈ ss.flatMap Section.lines, m.content = l.content :=
      List.mem_map.mp (hc ▸ List.mem_map_of_mem hl)
    rw [he, Extent.owns_congr hml.symm]
    refine Section.owns_blocks (.inr rfl) (fun s hs => (h s hs).toIsBlock) hd (fun s hs => ?_) m hm
    rcases Nat.lt_or_eq_of_le hd with hd | hd <;>
      simp [Extent.owns, (h s hs).indent_eq, (h s hs).isItem, hd]
  have hbody : p.body = shown := Place.body_eq_of_drop hp (by simp [hr]) hb ho (he ▸ hn)
  have hover : Job.fieldOverflows tabWidth p.toSection = ss.any (Step.overflows tabWidth) := by
    simp only [Job.fieldOverflows, hk, hbody]
    rw [Step.anyOverflows_of_content_eq hc, Step.anyOverflows, Step.items_blocks h]
  have hread : Job.readField tabWidth j p.toSection =
      .ok { j with steps := ss.map (Step.read tabWidth) } := by
    simp only [Job.readField, hk, Job.Key.set, hbody]
    rw [Step.readAll_of_content_eq hc, Step.readAll, Step.items_blocks h]
  rw [Job.parseField, hover, hread]
  rfl

/-- What a field of a job sets the steps to, whatever the job has been so far. -/
def Job.GivesSteps (tabWidth : Nat) (p : Place) (steps : List Step) : Prop :=
  ∀ j, parseField tabWidth j p.toSection = .ok { j with steps := steps }

def Job.Abandons (tabWidth : Nat) (p : Place) : Prop :=
  ∀ j, parseField tabWidth j p.toSection = .error .overflow

/-- What is read of steps that stand below each other, and where each of them is alone. -/
structure Job.StepsApart (tabWidth : Nat) (p : Place) (alone : List Place) : Prop where
  /-- A step alone is read as one step, or not at all. -/
  one : ∀ q ∈ alone, (∃ step, GivesSteps tabWidth q [step]) ∨ Abandons tabWidth q
  /-- If all can be read alone, there are as many steps as there are places, and the same ones. -/
  reads : ∀ steps, List.Forall₂ (fun q step => GivesSteps tabWidth q [step]) alone steps →
    GivesSteps tabWidth p steps
  fails : ∀ q ∈ alone, Abandons tabWidth q → Abandons tabWidth p

theorem Job.stepsApart {text : List Char} {p : Place} {alone : List Place}
    (h : ∀ s ∈ ss, s.IsStepBlock depth)
    (hp : p.OpensSteps tabWidth depth text (ss.flatMap Section.lines))
    (ha : List.Forall₂ (fun s q => ∃ t, q.OpensSteps tabWidth depth t s.lines) ss alone) :
    StepsApart tabWidth p alone := by
  -- What is read in a place where a step is alone tells whether the step overflows.
  have halone : List.Forall₂ (fun s q => ∀ j, parseField tabWidth j q.toSection =
      if Step.overflows tabWidth s then .error .overflow
      else .ok { j with steps := [Step.read tabWidth s] }) ss alone := by
    refine ((List.forall₂_and_left ss alone).mpr ⟨h, ha⟩).imp fun s q hs j => ?_
    obtain ⟨hs, t, hq⟩ := hs
    rw [← List.flatMap_singleton Section.lines s] at hq
    rw [hq.parseField_eq (List.forall_mem_singleton.mpr hs) j, List.any_cons, List.any_nil,
      Bool.or_false]
    rfl
  refine ⟨fun q hq => ?_, fun steps hs j => ?_, fun q hq hf j => ?_⟩
  · obtain ⟨i, hi, rfl⟩ := List.getElem_of_mem hq
    have hl : i < ss.length := halone.length_eq ▸ hi
    have hr : ∀ j, parseField tabWidth j alone[i].toSection = _ := halone.get hl hi
    cases ho : Step.overflows tabWidth ss[i] with
    | true => exact .inr fun j => (hr j).trans (if_pos ho)
    | false => exact .inl ⟨_, fun j => (hr j).trans (if_neg (by simp [ho]))⟩
  · have hsteps : ss.any (Step.overflows tabWidth) = false ∧
        ss.map (Step.read tabWidth) = steps := by
      clear h hp ha
      induction halone generalizing steps with
      | nil =>
          cases hs
          exact ⟨rfl, rfl⟩
      | @cons s q ss alone hr _ ih =>
          cases hs with
          | @cons _ step _ steps hg hs =>
              have hj := (hr .blank).symm.trans (hg .blank)
              cases ho : Step.overflows tabWidth s with
              | true => simp [ho] at hj
              | false =>
                  obtain ⟨hn, rfl⟩ := ih steps hs
                  simp only [ho, Bool.false_eq_true, if_false] at hj
                  have he : [Step.read tabWidth s] = [step] :=
                    congrArg Job.steps (Except.ok.inj hj)
                  rw [List.any_cons, ho, hn, List.map_cons, List.singleton_inj.mp he]
                  exact ⟨rfl, rfl⟩
    rw [hp.parseField_eq h, hsteps.1, hsteps.2]
    rfl
  · obtain ⟨i, hi, rfl⟩ := List.getElem_of_mem hq
    have hl : i < ss.length := halone.length_eq ▸ hi
    have hj := (halone.get hl hi .blank).symm.trans (hf .blank)
    have ho : Step.overflows tabWidth ss[i] = true := by
      by_contra ho
      simp [ho] at hj
    rw [hp.parseField_eq h, if_pos (List.any_eq_true.mpr ⟨_, List.getElem_mem hl, ho⟩)]

/-! ## Both -/

namespace Section

/-- Jobs that stand below each other, and steps that do, are read as if each of them stood alone. -/
theorem parse_apart (tabWidth depth : Nat) (ss : List Section) (text : List Char) :
    (∀ head alone, Workflow.IsJobsLine depth head → head.indent < Line.columnLimit →
      (∀ s ∈ ss, s.IsJobBlock depth) →
        Text.Shows tabWidth text (head :: ss.flatMap lines) →
          List.Forall₂ (Workflow.ShowsAlone tabWidth depth) ss alone →
            Workflow.JobsApart tabWidth ss text alone) ∧
      ∀ (p : Place) alone, (∀ s ∈ ss, s.IsStepBlock depth) →
        p.OpensSteps tabWidth depth text (ss.flatMap lines) →
          List.Forall₂ (fun s q => ∃ t, q.OpensSteps tabWidth depth t s.lines) ss alone →
            Job.StepsApart tabWidth p alone :=
  ⟨fun _ _ hh hc h => Workflow.jobsApart hh hc h, fun _ _ => Job.stepsApart⟩

/-- A command that ends with a blank line. -/
def commandStep : Section :=
  ⟨⟨4, 2, "- run: |".toList⟩, [⟨5, 5, "x".toList⟩, ⟨6, 0, []⟩]⟩

def actionStep (number : Nat) : Section :=
  ⟨⟨number, 2, "- uses: y".toList⟩, []⟩

/-- The line that opens some steps, and is as deep as they are. -/
def opening (steps : List Section) : Place :=
  ⟨⟨⟨3, 2, "steps:".toList⟩, steps.flatMap lines⟩, .jobField⟩

def jobOf (steps : List Section) : Section :=
  ⟨⟨2, 1, "a:".toList⟩, (opening steps).lines⟩

def commandAlone : List Char :=
  "jobs:\n a:\n  steps:\n  - run: |\n     x\n\n".toList

def actionAlone : List Char :=
  "jobs:\n a:\n  steps:\n  - uses: y\n".toList

def bothSteps : List Char :=
  "jobs:\n a:\n  steps:\n  - run: |\n     x\n\n  - uses: y\n".toList

/-- The same name is given to two jobs. -/
def bothJobs : List Char :=
  bothSteps ++ " a:\n  steps:\n  - uses: y\n".toList

theorem isJobBlock_jobOf {steps : List Section} (h : ∀ s ∈ steps, s.IsStepBlock 2) :
    (jobOf steps).IsJobBlock 1 := by
  refine ⟨⟨rfl, fun l hl => ?_⟩, rfl, rfl⟩
  rcases List.mem_cons.mp hl with rfl | hl
  · exact .inr (by show 1 < 2; decide)
  · have ho : (Extent.nested).owns ⟨2, 1, "a:".toList⟩ l = true :=
      owns_blocks (.inl rfl) (fun s hs => (h s hs).toIsBlock) (by decide)
        (fun s hs => by simp [Extent.owns, (h s hs).indent_eq]) l hl
    simpa [Extent.owns, jobOf] using ho

theorem opensSteps_opening {text : List Char} {steps : List Section} {ls : List Line}
    (hf : (Place.document (Line.ofText 2 text)).follow 2 [0, 0, 0] = some (opening steps))
    (hd : (Line.ofText 2 text).drop 3 = steps.flatMap lines)
    (hl : (steps.flatMap lines).map Line.content = ls.map Line.content) :
    (opening steps).OpensSteps 2 2 text ls where
  holds := Place.holds_of_follow hf
  role_eq := rfl
  named := ⟨[], by cbv⟩
  indent_le := Nat.le_refl 2
  followed := ⟨_, [], by rw [List.append_nil]; exact hd, hl, fun _ hn => (nomatch hn)⟩

theorem parse_both_apart :
    Workflow.JobsApart 2 [jobOf [commandStep, actionStep 7], jobOf [actionStep 4]] bothJobs
        [bothSteps, actionAlone] ∧
      Job.StepsApart 2 (opening [commandStep, actionStep 7])
        [opening [commandStep], opening [actionStep 4]] := by
  have hhead : Workflow.IsJobsLine 1 ⟨1, 0, "jobs:".toList⟩ := ⟨rfl, ⟨[], by cbv⟩, by decide⟩
  have hcommand : commandStep.IsStepBlock 2 := ⟨⟨rfl, by decide⟩, rfl⟩
  have haction (n : Nat) : (actionStep n).IsStepBlock 2 := ⟨⟨rfl, by simp [actionStep]⟩, rfl⟩
  have hboth : ∀ s ∈ [commandStep, actionStep 7], s.IsStepBlock 2 :=
    List.forall_mem_cons.mpr ⟨hcommand, List.forall_mem_singleton.mpr (haction 7)⟩
  have hjobs : ∀ s ∈ [jobOf [commandStep, actionStep 7], jobOf [actionStep 4]], s.IsJobBlock 1 :=
    List.forall_mem_cons.mpr ⟨isJobBlock_jobOf hboth,
      List.forall_mem_singleton.mpr (isJobBlock_jobOf (List.forall_mem_singleton.mpr (haction 4)))⟩
  refine ⟨(parse_apart 2 1 _ bothJobs).1 _ _ hhead (by decide) hjobs (by decide +kernel) ?_,
    (parse_apart 2 2 _ bothSteps).2 _ _ hboth (opensSteps_opening (by cbv) (by cbv) rfl) ?_⟩
  · exact .cons ⟨_, hhead, by decide +kernel⟩ (.cons ⟨_, hhead, by decide +kernel⟩ .nil)
  · exact .cons ⟨commandAlone, opensSteps_opening (by cbv) (by cbv) (by cbv)⟩
      (.cons ⟨actionAlone, opensSteps_opening (by cbv) (by cbv) (by cbv)⟩ .nil)

/-- A script behind a dash and a tab, of which the second line stands behind a tab. -/
def farStep : Section :=
  ⟨⟨4, 6, "-\trun: |".toList⟩,
    [⟨5, 10, "x".toList⟩, ⟨6, 2 ^ 64 - 1, "y".toList⟩]⟩

def nearStep : Section :=
  ⟨⟨7, 6, "- run: z".toList⟩, []⟩

def farSteps : List Char :=
  "jobs:\n  a:\n    steps:\n      -\trun: |\n          x\n\ty\n      - run: z\n".toList

/-- With tabs of the greatest width, two steps that stand below each other are not read. -/
theorem parse_farSteps : ∃ p : Place,
    (∀ s ∈ [farStep, nearStep], s.IsStepBlock 6) ∧
      p.OpensSteps (2 ^ 64 - 1) 6 farSteps ([farStep, nearStep].flatMap lines) ∧
      Workflow.parse (2 ^ 64 - 1) farSteps = .error .overflow ∧
      ∀ steps, ¬Job.GivesSteps (2 ^ 64 - 1) p steps := by
  have hs : ∀ s ∈ [farStep, nearStep], s.IsStepBlock 6 :=
    List.forall_mem_cons.mpr ⟨⟨⟨rfl, by decide +kernel⟩, rfl⟩,
      List.forall_mem_singleton.mpr ⟨⟨rfl, by decide⟩, rfl⟩⟩
  let p : Place := ⟨⟨⟨3, 4, "steps:".toList⟩, [farStep, nearStep].flatMap lines⟩, .jobField⟩
  have hf : (Place.document (Line.ofText (2 ^ 64 - 1) farSteps)).follow (2 ^ 64 - 1) [0, 0, 0] =
      some p := by cbv
  have hp : p.OpensSteps (2 ^ 64 - 1) 6 farSteps ([farStep, nearStep].flatMap lines) :=
    ⟨Place.holds_of_follow hf, rfl, ⟨[], by cbv⟩, by decide, _, [], by cbv, rfl, by simp⟩
  refine ⟨p, hs, hp, by decide +kernel, fun steps hg => ?_⟩
  have ho : [farStep, nearStep].any (Step.overflows (2 ^ 64 - 1)) = true := by decide +kernel
  have hg := hg .blank
  rw [hp.parseField_eq hs, if_pos ho] at hg
  cases hg

end Section

end WorkflowLint
