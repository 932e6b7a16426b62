import WorkflowLint.Proofs.OneLine.Entries

/-!
# Which parts of a workflow hold no line break

Commands, conditions and the settings of triggers may be texts of several lines. What else a
document gives a workflow stands on one line each, and so does the value that a document is refused
for: this is what findings may quote. Lines hold no line break, so what every single field keeps on
such lines holds of all that is read.
-/
namespace WorkflowLint

/-! ## Lines and sections -/

def OneLines (ls : List Line) : Prop :=
  ∀ l ∈ ls, '\n' ∉ l.text

theorem oneLines_ofText (tabWidth : Nat) (text : List Char) :
    OneLines (Line.ofText tabWidth text) := by
  intro l hl
  obtain ⟨i, hi, rfl⟩ := List.mem_mapIdx.mp hl
  exact fun hm => Text.newline_not_mem_of_mem_lines (List.getElem_mem hi) (Text.trim_subset _ hm)

namespace Section

/-- No line of the section holds a line break. -/
def OneLines (s : Section) : Prop :=
  '\n' ∉ s.head.text ∧ WorkflowLint.OneLines s.body

variable {extent : Line → Extent} {ls : List Line} {ss : List Section}

theorem oneLines_cut (extent : Line → Extent) {head : Line} (hh : '\n' ∉ head.text)
    (h : WorkflowLint.OneLines ls) :
    (cut extent head ls).1.OneLines ∧ WorkflowLint.OneLines (cut extent head ls).2 :=
  ⟨⟨hh, fun l hl => h l (List.takeWhile_subset _ hl)⟩, fun l hl => h l (List.dropWhile_subset _ hl)⟩

theorem oneLines_cutAll (h : WorkflowLint.OneLines ls) : ∀ s ∈ cutAll extent ls, s.OneLines := by
  fun_induction cutAll extent ls with
  | case1 => simp
  | case2 l ls _ ih =>
    obtain ⟨hl, hls⟩ := List.forall_mem_cons.mp h
    obtain ⟨hs, hr⟩ := oneLines_cut extent hl hls
    exact List.forall_mem_cons.mpr ⟨hs, ih hr⟩
  | case3 l ls _ ih => exact ih (List.forall_mem_cons.mp h).2

theorem oneLines_level (h : ∀ s ∈ ss, s.OneLines) : ∀ s ∈ level ss, s.OneLines := by
  cases ss with
  | nil => exact h
  | cons first ss => exact fun s hs => h s (List.mem_filter.mp hs).1

end Section

/-! ## Tables -/

namespace Table

variable {α : Type}

theorem forall_mem_entries_insert {P : String × α → Prop} {t : Table α} {name : String} {value : α}
    (ht : ∀ e ∈ t.entries, P e) (h : P (name, value)) :
    ∀ e ∈ (t.insert name value).entries, P e := by
  intro e he
  obtain rfl | he := mem_insertEntry he
  · exact h
  · exact ht e he

theorem forall_mem_entries_insertMany {P : String × α → Prop} {t : Table α}
    {es : List (String × α)} (ht : ∀ e ∈ t.entries, P e) (h : ∀ e ∈ es, P e) :
    ∀ e ∈ (t.insertMany es).entries, P e := by
  induction es generalizing t with
  | nil => exact ht
  | cons e es ih =>
    obtain ⟨he, hes⟩ := List.forall_mem_cons.mp h
    exact ih (forall_mem_entries_insert ht he) hes

/-- No name and no value of the table holds a line break. -/
def Quotable (t : Table String) : Prop :=
  ∀ e ∈ t.entries, OneLine e.1 ∧ OneLine e.2

theorem quotable_empty : (∅ : Table String).Quotable := by
  simp [Quotable]

end Table

theorem quotable_mapping {value : List Char} {body : List Line} {t : Table String}
    (hv : '\n' ∉ value) (hb : OneLines body) (ht : t.Quotable) :
    (mapping value body t).Quotable := by
  refine Table.forall_mem_entries_insertMany (Table.forall_mem_entries_insertMany ht ?_) ?_
  · cases hm : Flow.map? value with
    | none => simp
    | some pairs =>
      intro e he
      obtain ⟨hk, hs⟩ := Flow.map?_subset hm e he
      exact ⟨.of_subset hk hv, .of_subset hs hv⟩
  · intro e he
    obtain ⟨entry, hm, rfl⟩ := List.mem_map.mp he
    obtain ⟨l, hl, ho⟩ := List.mem_filterMap.mp hm
    obtain ⟨s, hs, rfl⟩ := List.mem_map.mp hl
    have hn := (Section.oneLines_level (Section.oneLines_cutAll hb) s hs).1
    obtain ⟨hk, hval⟩ := Entry.of?_subset ho
    exact ⟨.of_subset hk hn, oneLine_ofList.mpr fun hm => hn (hval hm)⟩

/-! ## Steps -/

namespace Step

theorem oneLines_fields {tabWidth : Nat} {item : Section} (h : item.OneLines) :
    ∀ field ∈ fields tabWidth item, field.OneLines := by
  have hc : '\n' ∉ (contentLine tabWidth item.head).text :=
    fun hm => h.1 (itemContent_subset _ hm)
  unfold fields
  dsimp only
  split
  · exact Section.oneLines_level (Section.oneLines_cutAll h.2)
  · obtain ⟨hf, hr⟩ := Section.oneLines_cut extent hc h.2
    exact Section.oneLines_level (List.forall_mem_cons.mpr ⟨hf, Section.oneLines_cutAll hr⟩)

/-- A property of a step of which nothing is said, which no field on lines without a line break
takes away. -/
structure Kept (P : Step → Prop) : Prop where
  blank : P blank
  set (key : Key) {s : Step} {value : List Char} {body : List Line} (hs : P s) (hv : '\n' ∉ value)
    (hb : OneLines body) : P (key.set value body s)

namespace Kept

variable {P : Step → Prop} (h : Kept P)
include h

theorem readField {s : Step} {field : Section} (hs : P s) (hf : field.OneLines) :
    P (s.readField field) := by
  unfold Step.readField
  split
  · rename_i key value hk
    exact h.set key hs (fun hm => hf.1 (Entry.value_subset hk hm)) hf.2
  · exact hs

theorem read {tabWidth : Nat} {item : Section} (hi : item.OneLines) : P (read tabWidth item) :=
  List.foldlRecOn _ Step.readField h.blank fun _ hs field hf =>
    h.readField hs (oneLines_fields hi field hf)

theorem readAll {tabWidth : Nat} {body : List Line} (hb : OneLines body) :
    ∀ s ∈ readAll tabWidth body, P s := by
  intro s hs
  obtain ⟨item, hi, rfl⟩ := List.mem_map.mp hs
  exact h.read (Section.oneLines_cutAll hb item (List.mem_filter.mp hi).1)

end Kept

structure Quotable (s : Step) : Prop where
  uses : ∀ uses, s.uses = some uses → OneLine uses
  arguments : s.arguments.Quotable
  env : s.env.Quotable

theorem quotable_blank : blank.Quotable where
  uses _ h := by cases h
  arguments := Table.quotable_empty
  env := Table.quotable_empty

theorem kept_quotable : Kept Quotable where
  blank := quotable_blank
  set key s value body hs hv hb := by
    cases key with
    | name => exact { hs with }
    | uses => exact { hs with uses := fun _ h => .of_subset (nonEmpty_subset h) hv }
    | run => exact { hs with }
    | condition => exact { hs with }
    | arguments => exact { hs with arguments := quotable_mapping hv hb hs.arguments }
    | env => exact { hs with env := quotable_mapping hv hb hs.env }

end Step

/-! ## Results -/

/-- What reading comes to: something with a property, or a value on one line that is refused. -/
def Yields {α : Type} (P : α → Prop) : Except SyntaxError α → Prop
  | .ok a => P a
  | .error e => '\n' ∉ e.value

theorem Yields.map {α β : Type} {P : α → Prop} {Q : β → Prop} {r : Except SyntaxError α} {f : α → β}
    (h : Yields P r) (hf : ∀ a, P a → Q (f a)) : Yields Q (r.map f) := by
  cases r with
  | error e => exact h
  | ok a => exact hf a h

/-- What every step of a reading keeps holds of its result. -/
theorem yields_foldlM {α β : Type} {P : α → Prop} {f : α → β → Except SyntaxError α} {bs : List β}
    {a : α} (ha : P a) (hf : ∀ a, P a → ∀ b ∈ bs, Yields P (f a b)) : Yields P (bs.foldlM f a) := by
  induction bs generalizing a with
  | nil => exact ha
  | cons b bs ih =>
    have hb := hf a ha b List.mem_cons_self
    rw [List.foldlM_cons]
    cases hr : f a b with
    | error e => rw [hr] at hb; exact hb
    | ok a' =>
      rw [hr] at hb
      exact ih hb fun a ha b hm => hf a ha b (List.mem_cons_of_mem _ hm)

/-! ## Jobs -/

namespace Job

/-- A property of a job of which nothing is said, which no field on lines without a line break takes
away. -/
structure Kept (tabWidth : Nat) (P : Job → Prop) : Prop where
  blank : P blank
  set (key : Key) {head : Line} {j : Job} {value : List Char} {body : List Line} (hj : P j)
    (hv : '\n' ∉ value) (hb : OneLines body) : Yields P (key.set tabWidth head value body j)

namespace Kept

variable {tabWidth : Nat} {P : Job → Prop} {Named : String → Prop} {jobs : Table Job}
  {body : List Line} (h : Kept tabWidth P)
include h

theorem readField {j : Job} {field : Section} (hj : P j) (hf : field.OneLines) :
    Yields P (j.readField tabWidth field) := by
  unfold Job.readField
  split
  · rename_i key value hk
    exact h.set key hj (fun hm => hf.1 (Entry.value_subset hk hm)) hf.2
  · exact hj

theorem read (hb : OneLines body) : Yields P (read tabWidth body) :=
  yields_foldlM h.blank fun _ hj field hf =>
    h.readField hj (Section.oneLines_level (Section.oneLines_cutAll hb) field hf)

/-- If keys on one line are named in a way, all jobs are. -/
theorem addTo {s : Section}
    (hn : ∀ {text e}, '\n' ∉ text → Entry.of? text = some e → Named e.key)
    (hj : ∀ e ∈ jobs.entries, Named e.1 ∧ P e.2) (hs : s.OneLines) :
    Yields (fun jobs => ∀ e ∈ jobs.entries, Named e.1 ∧ P e.2) (addTo tabWidth jobs s) := by
  unfold Job.addTo
  split
  · rename_i e he
    refine (h.read hs.2).map fun job hq => ?_
    exact Table.forall_mem_entries_insert hj ⟨hn hs.1 he, hq⟩
  · exact hj

theorem readAll (hn : ∀ {text e}, '\n' ∉ text → Entry.of? text = some e → Named e.key)
    (hj : ∀ e ∈ jobs.entries, Named e.1 ∧ P e.2) (hb : OneLines body) :
    Yields (fun jobs => ∀ e ∈ jobs.entries, Named e.1 ∧ P e.2) (readAll tabWidth body jobs) :=
  yields_foldlM hj fun _ hj s hs => h.addTo hn hj (Section.oneLines_cutAll hb s hs)

end Kept

structure Quotable (j : Job) : Prop where
  runsOn : OneLine j.runsOn
  needs : ∀ n ∈ j.needs, OneLine n
  permissions : j.permissions.Quotable
  env : j.env.Quotable
  steps : ∀ s ∈ j.steps, s.Quotable

theorem quotable_blank : blank.Quotable where
  runsOn := by decide
  needs := by simp [blank]
  permissions := Table.quotable_empty
  env := Table.quotable_empty
  steps := by simp [blank]

variable {j : Job} {value : List Char} {body : List Line}

theorem oneLine_items (hb : OneLines body) : ∀ i ∈ items body, OneLine i := by
  intro i hi
  obtain ⟨l, hl, hs⟩ := items_subset hi
  exact .of_subset hs (hb l hl)

theorem oneLine_needed (hv : '\n' ∉ value) (hb : OneLines body) :
    ∀ n ∈ needed value body, OneLine n := by
  unfold needed
  split
  · exact oneLine_items hb
  · exact fun n hn => .of_subset (Flow.names_subset value n hn) hv

theorem oneLine_runner (hv : '\n' ∉ value) (hb : OneLines body) : OneLine (runner value body) := by
  unfold runner
  split
  · exact oneLine_intercalate (by decide) (oneLine_items hb)
  · exact oneLine_ofList.mpr hv

theorem yields_timeout (l : Line) (hv : '\n' ∉ value) :
    Yields (fun _ => True) (timeout l value) := by
  unfold timeout
  split
  · trivial
  · exact hv

theorem kept_quotable (tabWidth : Nat) : Kept tabWidth Quotable where
  blank := quotable_blank
  set key head j value body hj hv hb := by
    cases key with
    | name => exact { hj with }
    | runsOn => exact { hj with runsOn := oneLine_runner hv hb }
    | timeout => exact (yields_timeout head hv).map fun _ _ => { hj with }
    | condition => exact { hj with }
    | needs => exact { hj with needs := oneLine_needed hv hb }
    | permissions => exact { hj with permissions := quotable_mapping hv hb hj.permissions }
    | env => exact { hj with env := quotable_mapping hv hb hj.env }
    | steps => exact { hj with steps := Step.kept_quotable.readAll hb }

/-- The jobs can be quoted, and so can what they are called. -/
def QuotableAll (jobs : Table Job) : Prop :=
  ∀ e ∈ jobs.entries, OneLine e.1 ∧ e.2.Quotable

end Job

/-! ## Workflows -/

namespace Workflow

/-- A property of a workflow of which nothing is said, which no section on lines without a line
break takes away. -/
structure Kept (tabWidth : Nat) (P : Workflow → Prop) : Prop where
  blank : P blank
  set (key : Key) {w : Workflow} {value : List Char} {body : List Line} (hw : P w)
    (hv : '\n' ∉ value) (hb : OneLines body) : Yields P (key.set tabWidth value body w)

namespace Kept

variable {tabWidth : Nat} {P : Workflow → Prop} (h : Kept tabWidth P)
include h

theorem readSection {w : Workflow} {s : Section} (hw : P w) (hs : s.OneLines) :
    Yields P (w.readSection tabWidth s) := by
  unfold Workflow.readSection
  split
  · rename_i key value hk
    exact h.set key hw (fun hm => hs.1 (Entry.value_subset hk hm)) hs.2
  · exact hw

/-- What no section takes away holds of whatever a document describes. -/
theorem ofText (text : List Char) : Yields P (ofText tabWidth text) :=
  yields_foldlM h.blank fun _ hw s hs =>
    h.readSection hw (Section.oneLines_cutAll (oneLines_ofText tabWidth text) s hs)

end Kept

structure Quotable (w : Workflow) : Prop where
  permissions : w.permissions.Quotable
  jobs : Job.QuotableAll w.jobs

theorem kept_quotable (tabWidth : Nat) : Kept tabWidth Quotable where
  blank := ⟨Table.quotable_empty, List.forall_mem_nil _⟩
  set key w value body hw hv hb := by
    cases key with
    | name => exact { hw with }
    | triggers => exact { hw with }
    | permissions => exact { hw with permissions := quotable_mapping hv hb hw.permissions }
    | jobs =>
        have hn {text : List Char} {e : Entry} (ht : '\n' ∉ text) (he : Entry.of? text = some e) :
            OneLine e.key := .of_subset (Entry.of?_subset he).1 ht
        exact ((Job.kept_quotable tabWidth).readAll hn hw.jobs hb).map fun _ hj =>
          { hw with jobs := hj }
    | env => exact { hw with }

/-- Whatever a document says, what its workflow has to quote is on one line each. -/
theorem yields_ofText (tabWidth : Nat) (text : List Char) :
    Yields Quotable (ofText tabWidth text) :=
  (kept_quotable tabWidth).ofText text

end Workflow

end WorkflowLint
