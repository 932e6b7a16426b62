import WorkflowLint.Proofs.Cursors
import WorkflowLint.Proofs.Neighbours
import WorkflowLint.Proofs.SimpleTexts
import WorkflowLint.Proofs.Spacing

/-!
# Flow and block forms

What belongs to a key stands behind it in brackets, or below it with a line for each item, or behind
it as it is where there is one name alone. If the items are simple texts, all forms are read alike,
wherever in a document they stand.
-/
namespace WorkflowLint

open Text

/-! ## Forms -/

/-- What stands behind a key and below it if names are listed there. -/
inductive NamesForm : List String → List Char → List (List Char) → Prop
  | flow (xs : List String) : NamesForm xs (Flow.wrapped '[' ']' (xs.map (·.toList))) []
  | block (xs : List String) : NamesForm xs [] (xs.map fun x => '-' :: ' ' :: x.toList)
  | bare (x : String) : NamesForm [x] x.toList []

/-- What stands behind a key and below it if entries are listed there. -/
inductive EntriesForm : List (String × String) → List Char → List (List Char) → Prop
  | flow (es : List (String × String)) :
      EntriesForm es (Flow.wrapped '\x7b' '\x7d' (es.map fun e => entry e.1 e.2.toList)) []
  | block (es : List (String × String)) :
      EntriesForm es [] (es.map fun e => entry e.1 e.2.toList)

/-- The lines with a meaning show rows, all at one depth. -/
def ShowsRows (depth : Nat) (rows : List (List Char)) (body : List Line) : Prop :=
  (significant body).map Line.content = rows.map fun r => (depth, trim r)

instance (depth : Nat) (rows : List (List Char)) (body : List Line) :
    Decidable (ShowsRows depth rows body) :=
  inferInstanceAs (Decidable (_ = _))

variable {depth : Nat} {rows : List (List Char)} {body : List Line} {inline : List Char}

/-- Lines at one depth that all name an event insert these events. -/
theorem Events.foldl_addLine_level {ls : List Line}
    (h : ∀ l ∈ ls, l.indent = depth ∧ (event l).1 ≠ "") (es : Events) :
    (ls.foldl (addLine depth) es).table = es.table.insertMany (ls.map event) := by
  induction ls generalizing es with
  | nil => rfl
  | cons l ls ih =>
      obtain ⟨⟨hi, hn⟩, hs⟩ := List.forall_mem_cons.mp h
      have hl : es.addLine depth l = ⟨es.table.insert (event l).1 (event l).2, some (event l).1⟩ := by
        rw [addLine, if_neg (by omega), addEvent]
        exact if_neg hn
      rw [List.foldl_cons, hl, ih hs]
      rfl

namespace ShowsRows

theorem exists_row (h : ShowsRows depth rows body) {l : Line}
    (hl : l ∈ significant body) : ∃ r ∈ rows, l.indent = depth ∧ l.text = trim r := by
  have hm : l.content ∈ rows.map fun r => (depth, trim r) := h ▸ List.mem_map_of_mem hl
  obtain ⟨r, hr, he⟩ := List.mem_map.mp hm
  exact ⟨r, hr, (congrArg Prod.fst he).symm, (congrArg Prod.snd he).symm⟩

theorem texts (h : ShowsRows depth rows body) :
    (significant body).map (·.text) = rows.map trim := by
  have hs := congrArg (List.map Prod.snd) h
  rw [List.map_map, List.map_map] at hs
  exact hs

section Items

variable {xs : List String} (h : ShowsRows depth (xs.map fun x => '-' :: ' ' :: x.toList) body)
  (hx : ∀ x ∈ xs, IsSimple x.toList)
include h hx

theorem isItem {l : Line} (hl : l ∈ significant body) : l.isItem = true := by
  obtain ⟨r, hr, -, ht⟩ := h.exists_row hl
  obtain ⟨x, hm, rfl⟩ := List.mem_map.mp hr
  rw [(hx x hm).trim_item] at ht
  simp [Line.isItem, ht]

theorem texts_items :
    (significant body).map (·.text) = xs.map fun x => '-' :: ' ' :: x.toList := by
  rw [h.texts, List.map_map]
  exact List.map_congr_left fun x hm => (hx x hm).trim_item

theorem items_eq : items body = xs := by
  have hf : (significant body).filter (fun l => l.isSignificant && l.isItem) = significant body :=
    List.filter_eq_self.mpr fun l hl => by
      rw [(List.mem_filter.mp hl).2, h.isItem hx hl]
      rfl
  have hi : ∀ x ∈ xs, nonEmpty (Entry.clean (itemContent ('-' :: ' ' :: x.toList))) = some x := by
    intro x hm
    rw [(hx x hm).clean_itemContent, nonEmpty, if_neg (hx x hm).nonempty, String.ofList_toList]
  have ht : (significant body).filterMap (fun l => nonEmpty (Entry.clean (itemContent l.text))) =
      ((significant body).map (·.text)).filterMap
        fun cs => nonEmpty (Entry.clean (itemContent cs)) := by
    rw [List.filterMap_map]
    rfl
  rw [← items_significant, items, hf, ht, h.texts_items hx, List.filterMap_map]
  exact (List.filterMap_congr hi).trans List.filterMap_some

theorem events_eq : (significant body).map event = xs.map (·, "") := by
  have he : ∀ l ∈ significant body,
      event l = (String.ofList (Entry.clean (itemContent l.text)), "") := fun l hl => by
    rw [event, if_pos (h.isItem hx hl)]
  have ht : (significant body).map (fun l => (String.ofList (Entry.clean (itemContent l.text)), "")) =
      ((significant body).map (·.text)).map fun cs =>
        (String.ofList (Entry.clean (itemContent cs)), "") := by
    rw [List.map_map]
    rfl
  rw [List.map_congr_left he, ht, h.texts_items hx, List.map_map]
  refine List.map_congr_left fun x hm => ?_
  rw [Function.comp_apply, (hx x hm).clean_itemContent, String.ofList_toList]

end Items

theorem triggers_eq (h : ShowsRows depth rows body)
    (hn : ∀ l ∈ significant body, (event l).1 ≠ "") (value : List Char) (t : Table String) :
    triggers value body t =
      (t.insertMany ((if value = [] then [] else Flow.names value).map (·, ""))).insertMany
        ((significant body).map event) := by
  have hd : ∀ l ∈ significant body, l.indent = depth ∧ (event l).1 ≠ "" := fun l hl =>
    ⟨(h.exists_row hl).elim fun _ hr => hr.2.1, hn l hl⟩
  rw [triggers]
  cases hb : significant body with
  | nil =>
      have hf : body.filter (·.isSignificant) = [] := hb
      rw [hf]
      rfl
  | cons first rest =>
      have hf : body.filter (·.isSignificant) = first :: rest := hb
      rw [hb] at hd
      rw [hf]
      show ((first :: rest).foldl (Events.addLine first.indent) _).table = _
      rw [(hd first List.mem_cons_self).1, Events.foldl_addLine_level hd]

theorem entryLines_eq (h : ShowsRows depth rows body) :
    entryLines body = significant body := by
  have hc : Section.cutAll (fun _ => .alone) body = (significant body).map (⟨·, []⟩) :=
    Section.cutAll_alone body
  have hd : ∀ s ∈ (significant body).map (Section.mk · []), s.head.indent = depth := by
    intro s hs
    obtain ⟨l, hl, rfl⟩ := List.mem_map.mp hs
    exact (h.exists_row hl).elim fun _ hr => hr.2.1
  rw [entryLines, hc, Section.level_of_indent hd, List.map_map]
  exact List.map_id' _

end ShowsRows

/-! ## Names -/

namespace NamesForm

variable {xs : List String}

theorem rows_eq_nil (hf : NamesForm xs inline rows) (hi : inline ≠ []) : rows = [] := by
  cases hf with
  | flow | bare => rfl
  | block => exact absurd rfl hi

variable (hf : NamesForm xs inline rows) (hx : ∀ x ∈ xs, IsSimple x.toList)
include hf hx

theorem clean_eq : Entry.clean inline = inline := by
  cases hf with
  | flow =>
      refine Flow.clean_wrapped (by decide) (by decide) fun i hi => ?_
      obtain ⟨x, hm, rfl⟩ := List.mem_map.mp hi
      exact Flow.isPart_of_isSimple (hx x hm)
  | block => rfl
  | bare x => exact (hx x List.mem_cons_self).clean_eq

theorem needed_eq (h : ShowsRows depth rows body) : Job.needed inline body = xs := by
  cases hf with
  | flow => rw [Job.needed, if_neg (Flow.wrapped_ne_nil _ _ _), Flow.names_wrapped hx]
  | block => rw [Job.needed, if_pos rfl, h.items_eq hx]
  | bare x =>
      have hs := hx x List.mem_cons_self
      rw [Job.needed, if_neg hs.nonempty, Flow.names_of_isSimple hs]

theorem triggers_eq (h : ShowsRows depth rows body) (t : Table String) :
    triggers inline body t = t.insertMany (xs.map (·, "")) := by
  cases hf with
  | flow =>
      have hs : significant body = [] := List.map_eq_nil_iff.mp h
      rw [h.triggers_eq (by simp [hs]), if_neg (Flow.wrapped_ne_nil _ _ _), Flow.names_wrapped hx,
        hs]
      rfl
  | block =>
      have he := h.events_eq hx
      have hn : ∀ l ∈ significant body, (event l).1 ≠ "" := by
        intro l hl
        have hm : event l ∈ xs.map (·, "") := he ▸ List.mem_map_of_mem hl
        obtain ⟨x, hm, hxl⟩ := List.mem_map.mp hm
        rw [← hxl]
        exact mt String.toList_eq_nil_iff.mpr (hx x hm).nonempty
      rw [h.triggers_eq hn, if_pos rfl, he]
      rfl
  | bare x =>
      have hb := hx x List.mem_cons_self
      have hs : significant body = [] := List.map_eq_nil_iff.mp h
      rw [h.triggers_eq (by simp [hs]), if_neg hb.nonempty, Flow.names_of_isSimple hb, hs]
      rfl

end NamesForm

/-! ## Entries -/

namespace EntriesForm

variable {es : List (String × String)} (hf : EntriesForm es inline rows)
  (he : ∀ e ∈ es, IsSimpleEntry e)
include hf he

theorem clean_eq : Entry.clean inline = inline := by
  cases hf with
  | flow =>
      refine Flow.clean_wrapped (by decide) (by decide) fun i hi => ?_
      obtain ⟨e, hm, rfl⟩ := List.mem_map.mp hi
      exact (he e hm).isPart
  | block => rfl

theorem mapping_eq (h : ShowsRows depth rows body) (t : Table String) :
    mapping inline body t = t.insertMany es := by
  have hb : (entryLines body).filterMap (fun l => Entry.of? l.text) =
      (rows.map trim).filterMap Entry.of? := by
    rw [h.entryLines_eq, ← h.texts, List.filterMap_map]
    rfl
  cases hf with
  | flow =>
      rw [mapping, Flow.map?_of_isSimpleEntry he, hb]
      rfl
  | block =>
      have hrows : ((es.map fun e => entry e.1 e.2.toList).map trim).filterMap Entry.of? =
          es.map fun e => ⟨e.1, e.2.toList⟩ := by
        rw [List.map_map, List.filterMap_map, ← List.filterMap_eq_map]
        exact List.filterMap_congr fun e hm => (he e hm).of?_trim
      have hm : (es.map fun e => Entry.mk e.1 e.2.toList).map
          (fun e => (e.key, String.ofList e.value)) = es := by
        rw [List.map_map]
        refine (List.map_congr_left fun e _ => ?_).trans (List.map_id' es)
        rw [Function.comp_apply, String.ofList_toList]
      rw [mapping, hb, hrows, hm]
      rfl

end EntriesForm

/-- Of entries with one name the last one that is inserted counts. -/
theorem Table.get?_insertMany_eq_getLast? {α : Type} (t : Table α) (es : List (String × α))
    (name : String) : (t.insertMany es).get? name =
      ((es.filter (·.1 = name)).getLast?.map (·.2)).or (t.get? name) := by
  induction es generalizing t with
  | nil => rfl
  | cons e es ih =>
      have hi : t.insertMany (e :: es) = (t.insert e.1 e.2).insertMany es := rfl
      rw [hi, ih, get?_insert, List.filter_cons]
      by_cases hn : e.1 = name
      · rw [if_pos hn, if_pos (decide_eq_true hn), List.getLast?_cons]
        cases (es.filter (·.1 = name)).getLast? <;> rfl
      · rw [if_neg hn, if_neg (by simpa using hn)]

/-! ## Places -/

/-- The fields that hold entries. -/
inductive MappingField
  | permissions
  | env
  | jobPermissions
  | jobEnv
  | arguments
  | stepEnv

namespace MappingField

def role : MappingField → Role
  | permissions | env => .setting
  | jobPermissions | jobEnv => .jobField
  | arguments | stepEnv => .stepField

def key : MappingField → String
  | permissions | jobPermissions => "permissions"
  | env | jobEnv | stepEnv => "env"
  | arguments => "with"

/-- Reading a section inserts entries into the field, one after another. -/
def Inserts (field : MappingField) (tabWidth : Nat) (es : List (String × String)) (s : Section) :
    Prop :=
  match field with
  | permissions => ∀ w, Workflow.readSection tabWidth w s =
      .ok { w with permissions := w.permissions.insertMany es }
  | env => ∀ w, Workflow.readSection tabWidth w s = .ok { w with env := w.env.insertMany es }
  | jobPermissions => ∀ j, Job.readField tabWidth j s =
      .ok { j with permissions := j.permissions.insertMany es }
  | jobEnv => ∀ j, Job.readField tabWidth j s = .ok { j with env := j.env.insertMany es }
  | arguments => ∀ t, Step.readField t s = { t with arguments := t.arguments.insertMany es }
  | stepEnv => ∀ t, Step.readField t s = { t with env := t.env.insertMany es }

end MappingField

namespace Place

variable {tabWidth : Nat} {text : List Char} {key : String} {p : Place}

/-- In a text, a line with a key and what stands behind it, and rows at a depth below it. The line
reaches over the rows and no further. Blank lines and comments may stand among the rows. -/
structure Writes (tabWidth depth : Nat) (text : List Char) (key : String) (inline : List Char)
    (rows : List (List Char)) (p : Place) : Prop where
  holds : (document (Line.ofText tabWidth text)).Holds tabWidth p
  text_eq : p.head.text = trim (entry key inline)
  followed : ∃ shown below, (Line.ofText tabWidth text).drop p.head.number = shown ++ below ∧
    ShowsRows depth rows shown ∧ ∀ l ∈ below.head?, Extent.block.owns p.head l = false

namespace Writes

variable (h : p.Writes tabWidth depth text key inline rows)
include h

theorem of?_head (hk : Entry.IsBareKey key) (hc : Entry.clean inline = inline) :
    Entry.of? p.head.text = some ⟨key, inline⟩ := by
  rw [h.text_eq, entry, Entry.of?_trim_append hk, clean_cons_space, hc]

theorem body_eq_nil (hr : p.role ≠ .document) (he : p.role.extent p.head = .alone) :
    p.body = [] := by
  refine List.eq_nil_iff_forall_not_mem.mpr fun l hl => ?_
  have ho := (owns_of_mem_body h.holds l hl).resolve_left hr
  rw [he] at ho
  cases ho

theorem showsRows_body (hr : p.role ≠ .document) (he : p.role.extent p.head = .block)
    (hd : ∀ r ∈ rows, p.head.indent < depth ∨
      p.head.indent = depth ∧ (Line.mk 0 depth (trim r)).isItem = true) :
    ShowsRows depth rows p.body := by
  obtain ⟨shown, below, hdrop, hs, hb⟩ := h.followed
  have ho : ∀ l ∈ shown, (p.role.extent p.head).owns p.head l = true := by
    intro l hl
    rw [he]
    cases hm : l.isSignificant with
    | false => simp [Extent.owns, hm]
    | true =>
        obtain ⟨r, hr, hi, ht⟩ := hs.exists_row (List.mem_filter.mpr ⟨hl, hm⟩)
        rcases hd r hr with hd | ⟨hd, hitem⟩
        · simp [Extent.owns, hi, hd]
        · have hl : l.isItem = (Line.mk 0 depth (trim r)).isItem := by rw [Line.isItem, ht, Line.isItem]
          simp [Extent.owns, hi, hd, hl, hitem]
  rwa [body_eq_of_drop h.holds hr hdrop ho (he ▸ hb)]

end Writes

section Names

variable {xs : List String} (hf : NamesForm xs inline rows) (hx : ∀ x ∈ xs, IsSimple x.toList)
  (hd : p.head.indent ≤ depth)
include hf hx hd

theorem reaches_names : ∀ r ∈ rows, p.head.indent < depth ∨
    p.head.indent = depth ∧ (Line.mk 0 depth (trim r)).isItem = true := by
  intro r hr
  refine (Nat.lt_or_eq_of_le hd).imp_right fun hd => ⟨hd, ?_⟩
  cases hf with
  | flow | bare => cases hr
  | block =>
      obtain ⟨x, hm, rfl⟩ := List.mem_map.mp hr
      rw [(hx x hm).trim_item]
      rfl

theorem Writes.readField_needs (h : p.Writes tabWidth depth text "needs" inline rows)
    (hr : p.role = .jobField) (j : Job) :
    Job.readField tabWidth j p.toSection = .ok { j with needs := xs } := by
  have hk : Job.field? p.head = some (.needs, inline) := by
    rw [Job.field?, h.of?_head (by decide) (hf.clean_eq hx)]
    rfl
  have hne : p.role ≠ .document := by simp [hr]
  have he : p.role.extent p.head = .ofList inline := by
    simp only [hr, Role.extent, Job.extent, hk, Job.Key.extent]
  have hb : ShowsRows depth rows p.body := by
    by_cases hi : inline = []
    · rw [hi] at he
      exact h.showsRows_body hne he (reaches_names hf hx hd)
    · rw [h.body_eq_nil hne (he.trans (if_neg hi)), hf.rows_eq_nil hi]
      rfl
  simp only [Job.readField, hk, Job.Key.set, hf.needed_eq hx hb]

theorem Writes.readSection_on (h : p.Writes tabWidth depth text "on" inline rows)
    (hr : p.role = .setting) (w : Workflow) : Workflow.readSection tabWidth w p.toSection =
      .ok { w with triggers := w.triggers.insertMany (xs.map (·, "")) } := by
  have hk : Workflow.field? p.head = some (.triggers, inline) := by
    rw [Workflow.field?, h.of?_head (by decide) (hf.clean_eq hx)]
    rfl
  have he : p.role.extent p.head = .block := by
    simp only [hr, Role.extent, Workflow.extent, hk, Workflow.Key.extent]
  have hb := h.showsRows_body (by simp [hr]) he (reaches_names hf hx hd)
  simp only [Workflow.readSection, hk, Workflow.Key.set, hf.triggers_eq hx hb]

end Names

theorem Writes.inserts {field : MappingField} {es : List (String × String)}
    (h : p.Writes tabWidth depth text field.key inline rows) (hf : EntriesForm es inline rows)
    (he : ∀ e ∈ es, IsSimpleEntry e) (hd : p.head.indent < depth) (hr : p.role = field.role) :
    field.Inserts tabWidth es p.toSection := by
  have hk : Entry.of? p.head.text = some ⟨field.key, inline⟩ :=
    h.of?_head (by cases field <;> decide) (hf.clean_eq he)
  have hx : p.role.extent p.head = .block := by
    rw [hr]
    cases field <;>
      simp only [MappingField.role, Role.extent, Workflow.extent, Workflow.field?, Job.extent,
        Job.field?, Step.extent, Step.field?, hk] <;> rfl
  have hne : p.role ≠ .document := by cases field <;> simp [hr, MappingField.role]
  have hb := h.showsRows_body hne hx fun _ _ => .inl hd
  have hm := hf.mapping_eq he hb
  cases field with
  | permissions | env =>
      intro w
      simp only [Workflow.readSection, Workflow.field?, hk, Option.bind_some, MappingField.key,
        Workflow.Key.ofName?, Option.map_some, Workflow.Key.set, hm]
  | jobPermissions | jobEnv =>
      intro j
      simp only [Job.readField, Job.field?, hk, Option.bind_some, MappingField.key,
        Job.Key.ofName?, Option.map_some, Job.Key.set, hm]
  | arguments | stepEnv =>
      intro t
      simp only [Step.readField, Step.field?, hk, Option.bind_some, MappingField.key,
        Step.Key.ofName?, Option.map_some, Step.Key.set, hm]

/-- Whatever forms they are written in, the same names are needed or trigger a workflow, and the same
entries are inserted, where the last of equal keys counts. -/
theorem forms_agree (tabWidth depth : Nat) (text inline : List Char) (rows : List (List Char))
    (p : Place) :
    (∀ xs, NamesForm xs inline rows → (∀ x ∈ xs, IsSimple x.toList) → p.head.indent ≤ depth →
      (p.role = .jobField → p.Writes tabWidth depth text "needs" inline rows →
        ∀ j, Job.readField tabWidth j p.toSection = .ok { j with needs := xs }) ∧
      (p.role = .setting → p.Writes tabWidth depth text "on" inline rows →
        ∀ w, Workflow.readSection tabWidth w p.toSection =
          .ok { w with triggers := w.triggers.insertMany (xs.map (·, "")) })) ∧
    ∀ es, EntriesForm es inline rows → (∀ e ∈ es, IsSimpleEntry e) → p.head.indent < depth →
      (∀ field : MappingField, p.role = field.role →
        p.Writes tabWidth depth text field.key inline rows →
          field.Inserts tabWidth es p.toSection) ∧
      ∀ (t : Table String) (name : String), (t.insertMany es).get? name =
        ((es.filter (·.1 = name)).getLast?.map (·.2)).or (t.get? name) := by
  refine ⟨fun xs hf hx hd => ⟨fun hr h => ?_, fun hr h => ?_⟩,
    fun es hf he hd => ⟨fun field hr h => ?_, fun t => t.get?_insertMany_eq_getLast? es⟩⟩
  · exact h.readField_needs hf hx hd hr
  · exact h.readSection_on hf hx hd hr
  · exact h.inserts hf he hd hr

/-- Needs and variables of a job in flow form. -/
def inFlow : List Char :=
  "jobs:\n a:\n  needs: [x, y: 'z]\n  env: \x7bA: 1, B: , A: 2\x7d\n".toList

def inBlocks : List Char :=
  "jobs:\n a:\n  needs:\n  - x\n\n# b\n  - y: 'z\n  env:\n   A: 1\n   B:\n   A: 2\n".toList

def needsInFlow : Place :=
  ⟨⟨⟨3, 2, "needs: [x, y: 'z]".toList⟩, []⟩, .jobField⟩

def needsInBlock : Place :=
  ⟨⟨⟨3, 2, "needs:".toList⟩, [⟨4, 2, "- x".toList⟩, ⟨5, 0, []⟩, ⟨6, 0, "# b".toList⟩,
    ⟨7, 2, "- y: 'z".toList⟩]⟩, .jobField⟩

def envInFlow : Place :=
  ⟨⟨⟨4, 2, "env: \x7bA: 1, B: , A: 2\x7d".toList⟩, []⟩, .jobField⟩

def envInBlock : Place :=
  ⟨⟨⟨8, 2, "env:".toList⟩, [⟨9, 3, "A: 1".toList⟩, ⟨10, 3, "B:".toList⟩, ⟨11, 3, "A: 2".toList⟩]⟩,
    .jobField⟩

theorem read_inFlow_inBlocks :
    (Job.readField 2 Job.blank needsInFlow.toSection =
        .ok { Job.blank with needs := ["x", "y: 'z"] } ∧
      Job.readField 2 Job.blank needsInBlock.toSection =
        .ok { Job.blank with needs := ["x", "y: 'z"] }) ∧
    Job.readField 2 Job.blank envInFlow.toSection =
        .ok { Job.blank with env := .ofList [("A", "2"), ("B", "")] } ∧
      Job.readField 2 Job.blank envInBlock.toSection =
        .ok { Job.blank with env := .ofList [("A", "2"), ("B", "")] } := by
  have hx : ∀ x ∈ ["x", "y: 'z"], IsSimple x.toList := by decide +kernel
  have he : ∀ e ∈ [("A", "1"), ("B", ""), ("A", "2")], IsSimpleEntry e := by decide +kernel
  have hlast : (∅ : Table String).insertMany [("A", "1"), ("B", ""), ("A", "2")] =
      .ofList [("A", "2"), ("B", "")] := by decide
  have hfn : (document (Line.ofText 2 inFlow)).follow 2 [0, 0, 0] = some needsInFlow := by cbv
  have hfe : (document (Line.ofText 2 inFlow)).follow 2 [0, 0, 1] = some envInFlow := by cbv
  have hbn : (document (Line.ofText 2 inBlocks)).follow 2 [0, 0, 0] = some needsInBlock := by cbv
  have hbe : (document (Line.ofText 2 inBlocks)).follow 2 [0, 0, 1] = some envInBlock := by cbv
  have hnf : needsInFlow.Writes 2 2 inFlow "needs"
      (Flow.wrapped '[' ']' (["x", "y: 'z"].map (·.toList))) [] :=
    ⟨holds_of_follow hfn, by cbv, [], envInFlow.lines, by cbv, by cbv, by decide +kernel⟩
  have hnb : needsInBlock.Writes 2 2 inBlocks "needs" []
      (["x", "y: 'z"].map fun x => '-' :: ' ' :: x.toList) :=
    ⟨holds_of_follow hbn, by cbv, needsInBlock.body, envInBlock.lines, by cbv, by cbv,
      by decide +kernel⟩
  have hef : envInFlow.Writes 2 3 inFlow (MappingField.key .jobEnv) (Flow.wrapped '\x7b' '\x7d'
      ([("A", "1"), ("B", ""), ("A", "2")].map fun e => entry e.1 e.2.toList)) [] :=
    ⟨holds_of_follow hfe, by cbv, [], [], by cbv, by cbv, by simp⟩
  have heb : envInBlock.Writes 2 3 inBlocks (MappingField.key .jobEnv) []
      ([("A", "1"), ("B", ""), ("A", "2")].map fun e => entry e.1 e.2.toList) :=
    ⟨holds_of_follow hbe, by cbv, envInBlock.body, [], by cbv, by cbv, by simp⟩
  refine ⟨⟨?_, ?_⟩, ?_, ?_⟩
  · exact ((forms_agree 2 2 _ _ _ needsInFlow).1 _ (.flow _) hx (by decide)).1 rfl hnf _
  · exact ((forms_agree 2 2 _ _ _ needsInBlock).1 _ (.block _) hx (by decide)).1 rfl hnb _
  · rw [← hlast]
    exact ((forms_agree 2 3 _ _ _ envInFlow).2 _ (.flow _) he (by decide)).1 .jobEnv rfl hef _
  · rw [← hlast]
    exact ((forms_agree 2 3 _ _ _ envInBlock).2 _ (.block _) he (by decide)).1 .jobEnv rfl heb _

end Place

end WorkflowLint
