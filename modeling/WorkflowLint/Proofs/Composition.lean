import Mathlib
import WorkflowLint.Proofs.Lines

/-!
# Documents put together from parts

Where a line at the margin opens a section, whatever section stands above it is at its end. So the
sections of a document are those of its parts, and since a section adds to the workflow without
asking what is there, the document describes what its first part describes, overlaid with what the
rest does. The order of parts matters only where they define the same thing.
-/
namespace WorkflowLint

/-! ## Overlaid tables -/

namespace Table

variable {α : Type} {s t : Table α}

/-- The first table with the entries of the second one, which win. -/
def overlay (s t : Table α) : Table α :=
  s.insertMany t.entries

def Disjoint (s t : Table α) : Prop :=
  ∀ name, s.get? name = none ∨ t.get? name = none

theorem Disjoint.symm (h : s.Disjoint t) : t.Disjoint s :=
  fun name => (h name).symm

theorem get?_insertMany {es : List (String × α)} (h : es.Pairwise fun a b => a.1 < b.1)
    (t : Table α) (name : String) : (t.insertMany es).get? name =
      ((es.find? fun e => e.1 = name).map (·.2)).or (t.get? name) := by
  induction es generalizing t with
  | nil => rfl
  | cons e es ih =>
      obtain ⟨he, hs⟩ := List.pairwise_cons.mp h
      have hi : t.insertMany (e :: es) = (t.insert e.1 e.2).insertMany es := rfl
      rw [hi, ih hs, get?_insert]
      by_cases hn : e.1 = name
      · -- The names go up, so that this one does not come again.
        have hf : es.find? (fun f => f.1 = name) = none := by
          refine List.find?_eq_none.mpr fun f hf => ?_
          have hlt := he f hf
          rw [hn] at hlt
          simpa using fun hname : f.1 = name => String.lt_irrefl name (hname ▸ hlt)
        simp [hf, hn]
      · simp [hn]

@[simp] theorem get?_overlay (s t : Table α) (name : String) :
    (s.overlay t).get? name = (t.get? name).or (s.get? name) :=
  get?_insertMany t.sorted s name

@[simp] theorem overlay_empty (s : Table α) : s.overlay ∅ = s := rfl

theorem overlay_insert (s t : Table α) (name : String) (value : α) :
    s.overlay (t.insert name value) = (s.overlay t).insert name value := by
  refine ext_get? fun n => ?_
  simp only [get?_overlay, get?_insert]
  split <;> rfl

theorem overlay_insertMany (s t : Table α) (es : List (String × α)) :
    s.overlay (t.insertMany es) = (s.overlay t).insertMany es := by
  induction es generalizing t with
  | nil => rfl
  | cons e es ih => exact (ih (t.insert e.1 e.2)).trans (by rw [overlay_insert]; rfl)

end Table

/-! ## What a section adds -/

section Steps

variable {α δ ε : Type} {step : δ → α → Except ε δ} {g : δ → δ}

theorem foldlM_comm_map (h : ∀ x a, step (g x) a = (step x a).map g) (as : List α) (x : δ) :
    as.foldlM step (g x) = (as.foldlM step x).map g := by
  induction as generalizing x with
  | nil => rfl
  | cons a as ih =>
      rw [List.foldlM_cons, List.foldlM_cons, h]
      cases step x a with
      | error _ => rfl
      | ok y => exact ih y

end Steps

theorem mapping_overlay (value : List Char) (body : List Line) (s t : Table String) :
    mapping value body (s.overlay t) = s.overlay (mapping value body t) := by
  simp only [mapping, Table.overlay_insertMany]

namespace Events

variable {es : Events} {s : Table String}

/-- The event that settings would be added to is in the table. -/
def Listed (es : Events) : Prop :=
  ∀ name, es.current = some name → (es.table.get? name).isSome = true

/-- The events as they are read below those of a table. -/
def below (s : Table String) (es : Events) : Events :=
  ⟨s.overlay es.table, es.current⟩

theorem listed_none (t : Table String) : Listed ⟨t, none⟩ := by
  intro name hn
  cases hn

theorem listed_insert (t : Table String) (name text : String) :
    Listed ⟨t.insert name text, some name⟩ := by
  intro n hn
  simp [Option.some.inj hn]

theorem addSetting_below (h : es.Listed) (l : Line) :
    (es.below s).addSetting l = (es.addSetting l).below s ∧ (es.addSetting l).Listed := by
  cases hc : es.current with
  | none =>
      simp only [addSetting, below, hc, true_and]
      exact h
  | some name =>
      obtain ⟨text, ht⟩ := Option.isSome_iff_exists.mp (h name hc)
      have hb : (s.overlay es.table).get? name = some text := by
        rw [Table.get?_overlay, ht, Option.some_or]
      simp only [addSetting, below, hc, ht, hb, Table.overlay_insert, true_and]
      exact listed_insert _ _ _

theorem addEvent_below (h : es.Listed) (l : Line) :
    (es.below s).addEvent l = (es.addEvent l).below s ∧ (es.addEvent l).Listed := by
  simp only [addEvent]
  split
  · exact ⟨rfl, h⟩
  · exact ⟨by simp only [below, Table.overlay_insert], listed_insert _ _ _⟩

theorem addLine_below (h : es.Listed) (depth : Nat) (l : Line) :
    (es.below s).addLine depth l = (es.addLine depth l).below s ∧ (es.addLine depth l).Listed := by
  unfold addLine
  split
  · exact addSetting_below h l
  · exact addEvent_below h l

theorem foldl_below (h : es.Listed) (depth : Nat) (ls : List Line) :
    ls.foldl (addLine depth) (es.below s) = (ls.foldl (addLine depth) es).below s := by
  induction ls generalizing es with
  | nil => rfl
  | cons l ls ih =>
      obtain ⟨hl, hn⟩ := addLine_below (s := s) h depth l
      rw [List.foldl_cons, List.foldl_cons, hl, ih hn]

end Events

theorem triggers_overlay (value : List Char) (body : List Line) (s t : Table String) :
    triggers value body (s.overlay t) = s.overlay (triggers value body t) := by
  simp only [triggers, ← Table.overlay_insertMany]
  split
  · rfl
  · rename_i first rest _
    exact congrArg Events.table (Events.foldl_below (Events.listed_none _) first.indent _)

theorem Job.addTo_overlay (tabWidth : Nat) (s jobs : Table Job) (j : Section) :
    addTo tabWidth (s.overlay jobs) j = (addTo tabWidth jobs j).map s.overlay := by
  simp only [addTo]
  split
  · cases Job.read tabWidth j.body with
    | error _ => rfl
    | ok job => exact congrArg Except.ok (s.overlay_insert jobs _ job).symm
  · rfl

theorem Job.readAll_overlay (tabWidth : Nat) (body : List Line) (s jobs : Table Job) :
    readAll tabWidth body (s.overlay jobs) = (readAll tabWidth body jobs).map s.overlay :=
  foldlM_comm_map (addTo_overlay tabWidth s) _ jobs

namespace Workflow

variable {w u : Workflow} {tabWidth : Nat}

/-- The first workflow with what the second one defines, which wins. A workflow does not show
whether its name was given. -/
def overlay (named : Bool) (w u : Workflow) : Workflow where
  name := if named then u.name else w.name
  triggers := w.triggers.overlay u.triggers
  permissions := w.permissions.overlay u.permissions
  jobs := w.jobs.overlay u.jobs
  env := w.env.overlay u.env

def givesName (s : Section) : Bool :=
  match field? s.head with
  | some (.name, _) => true
  | _ => false

theorem readSection_overlay (named : Bool) (w u : Workflow) (s : Section) :
    readSection tabWidth (w.overlay named u) s =
      (readSection tabWidth u s).map (w.overlay (named || givesName s)) := by
  simp only [readSection, givesName]
  cases field? s.head with
  | none => simp [Except.map]
  | some e =>
      obtain ⟨key, value⟩ := e
      cases key with
      | name => simp [Key.set, Except.map, overlay]
      | triggers => simp [Key.set, Except.map, overlay, triggers_overlay]
      | permissions | env => simp [Key.set, Except.map, overlay, mapping_overlay]
      | jobs =>
          simp only [Key.set, overlay, Job.readAll_overlay, Bool.or_false]
          cases Job.readAll tabWidth s.body u.jobs <;> rfl

theorem foldlM_overlay (named : Bool) (w u : Workflow) (ss : List Section) :
    ss.foldlM (readSection tabWidth) (w.overlay named u) =
      (ss.foldlM (readSection tabWidth) u).map (w.overlay (named || ss.any givesName)) := by
  induction ss generalizing named u with
  | nil => simp [Except.map, pure, Except.pure]
  | cons s ss ih =>
      rw [List.foldlM_cons, List.foldlM_cons, readSection_overlay, List.any_cons,
        ← Bool.or_assoc]
      cases readSection tabWidth u s with
      | error _ => rfl
      | ok x => exact ih _ x

end Workflow

/-! ## The sections of a document -/

/-- A line that no section above it can reach. -/
structure Line.AtMargin (l : Line) : Prop where
  isSignificant : l.isSignificant = true
  indent_eq : l.indent = 0
  isItem : l.isItem = false

instance (l : Line) : Decidable l.AtMargin :=
  decidable_of_iff (l.isSignificant = true ∧ l.indent = 0 ∧ l.isItem = false)
    ⟨fun ⟨hs, hi, hn⟩ => ⟨hs, hi, hn⟩, fun ⟨hs, hi, hn⟩ => ⟨hs, hi, hn⟩⟩

def OpensAtMargin (ls : List Line) : Prop :=
  ∀ l ∈ ls.head?, l.AtMargin

instance (ls : List Line) : Decidable (OpensAtMargin ls) :=
  inferInstanceAs (Decidable (∀ l ∈ ls.head?, l.AtMargin))

namespace Section

variable {extent : Line → Extent} {ls ms : List Line}

theorem cut_append {head : Line} (h : ∀ m ∈ ms.head?, (extent head).owns head m = false)
    (ls : List Line) :
    cut extent head (ls ++ ms) = ((cut extent head ls).1, (cut extent head ls).2 ++ ms) := by
  simp only [cut, Prod.mk.injEq, Section.mk.injEq, true_and]
  induction ls with
  | nil =>
      cases ms with
      | nil => simp
      | cons m ms => simp [h m rfl]
  | cons l ls ih =>
      rw [List.cons_append, List.takeWhile_cons, List.dropWhile_cons, List.takeWhile_cons,
        List.dropWhile_cons]
      split
      · exact ⟨congrArg (l :: ·) ih.1, ih.2⟩
      · exact ⟨rfl, rfl⟩

/-- Lines none of which can reach the next ones are cut without them. -/
theorem cutAll_append_of_stops (h : ∀ l ∈ ls, l.isSignificant = true →
    ∀ m ∈ ms.head?, (extent l).owns l m = false) :
    cutAll extent (ls ++ ms) = cutAll extent ls ++ cutAll extent ms := by
  fun_induction cutAll extent ls with
  | case1 => rfl
  | case2 l ls hs ih =>
      have hrest : ∀ k ∈ (cut extent l ls).2, k ∈ l :: ls := fun k hk =>
        List.mem_cons_of_mem l ((List.dropWhile_subset _) hk)
      rw [List.cons_append, cutAll, if_pos hs, cut_append (h l List.mem_cons_self hs),
        ih fun k hk => h k (hrest k hk), List.cons_append]
  | case3 l ls hs ih =>
      rw [List.cons_append, cutAll, if_neg hs, ih fun k hk => h k (List.mem_cons_of_mem l hk)]

end Section

theorem OpensAtMargin.renumber {ms : List Line} (h : OpensAtMargin ms) (f : Nat → Nat) :
    OpensAtMargin (ms.map (Line.renumber f)) := by
  intro l hl
  rw [List.head?_map] at hl
  obtain ⟨m, hm, rfl⟩ := Option.map_eq_some_iff.mp hl
  exact ⟨(h m hm).isSignificant, (h m hm).indent_eq, (h m hm).isItem⟩

theorem OpensAtMargin.append {ls ms : List Line} (hl : OpensAtMargin ls) (hm : OpensAtMargin ms) :
    OpensAtMargin (ls ++ ms) := by
  cases ls with
  | nil => exact hm
  | cons l ls => exact hl

namespace Workflow

variable {tabWidth : Nat} {ls ms : List Line}

/-- Whether a line of the document gives the workflow its name. -/
def isNamedIn (ms : List Line) : Bool :=
  (Section.cutAll extent ms).any givesName

theorem read_append_of_cutAll (h : Section.cutAll extent (ls ++ ms) =
    Section.cutAll extent ls ++ Section.cutAll extent ms) :
    read tabWidth (ls ++ ms) = (read tabWidth ls).bind fun w =>
      (read tabWidth ms).map (w.overlay (isNamedIn ms)) := by
  rw [read, h, List.foldlM_append, ← read]
  cases read tabWidth ls with
  | error _ => rfl
  | ok w => exact foldlM_overlay false w blank (Section.cutAll extent ms)

theorem isNamedIn_renumber (f : Nat → Nat) (ms : List Line) :
    isNamedIn (ms.map (Line.renumber f)) = isNamedIn ms := by
  have hx : ∀ l : Line, extent (l.move f 0) = extent l := fun _ => rfl
  have hs := Section.cutAll_resembles hx (Resemble.map_move f 0 ms)
  have hm : (Section.cutAll extent (ms.map (Line.renumber f))).map givesName =
      (Section.cutAll extent ms).map givesName :=
    map_eq_of_forall₂ hs fun s _ u h => by rw [givesName, h.head]; rfl
  simpa [isNamedIn, Function.comp_def] using congrArg (List.any · id) hm

end Workflow

/-! ## Texts -/

namespace Workflow

open Text

variable {tabWidth : Nat} {above below : List Char} {w u : Workflow}

/-- A text that can stand between the sections of a document. -/
structure Passage (tabWidth : Nat) (text : List Char) : Prop where
  opens : OpensAtMargin (Line.ofText tabWidth text)
  ends : EndsLine text

theorem Passage.append {a b : List Char} (ha : Passage tabWidth a) (hb : Passage tabWidth b) :
    Passage tabWidth (a ++ b) where
  opens := by
    rw [Line.ofText_append ha.ends]
    exact ha.opens.append (hb.opens.renumber _)
  ends := ha.ends.append hb.ends

/-- Apart from a name, the workflows define nothing in common. -/
structure Disjoint (w u : Workflow) : Prop where
  triggers : w.triggers.Disjoint u.triggers
  permissions : w.permissions.Disjoint u.permissions
  jobs : w.jobs.Disjoint u.jobs
  env : w.env.Disjoint u.env

/-- Both texts are without error, and neither defines what the other one defines. -/
def Apart (tabWidth : Nat) (a b : List Char) : Prop :=
  (isNamedIn (Line.ofText tabWidth a) = false ∨ isNamedIn (Line.ofText tabWidth b) = false) ∧
    ∃ w u, ofText tabWidth a = .ok w ∧ ofText tabWidth b = .ok u ∧ w.Disjoint u

theorem Apart.symm {a b : List Char} (h : Apart tabWidth a b) : Apart tabWidth b a := by
  obtain ⟨hn, w, u, hw, hu, hd⟩ := h
  exact ⟨hn.symm, u, w, hu, hw, hd.triggers.symm, hd.permissions.symm, hd.jobs.symm, hd.env.symm⟩

end Workflow

end WorkflowLint
