import WorkflowLint.Proofs.ReadBack.Job
import WorkflowLint.Proofs.Resemblance

/-!
# A workflow that is written is read back

What a layout writes for a workflow is read as that workflow, at every tab width.
-/
namespace WorkflowLint

open Text

namespace Workflow

variable {o : Layout} {tabWidth depth : Nat} {key : String} {k : Key} {w x y : Workflow}

/-! ## Sections -/

theorem Key.isKey (h : ofName? key = some k) : IsKey key := by
  unfold ofName? at h
  split at h
  case h_6 => cases h
  all_goals decide

theorem field?_quoted (h : Key.ofName? key = some k) (number indent : Nat) (v : String) :
    field? ⟨number, indent, entry key (quoted v)⟩ = some (k, v.toList) := by
  rw [field?, of?_entry_quoted (Key.isKey h), Option.bind_some, h, Option.map_some]

theorem field?_header (h : Key.ofName? key = some k) (number indent : Nat) :
    field? ⟨number, indent, header key⟩ = some (k, []) := by
  rw [field?, of?_header (Key.isKey h), Option.bind_some, h, Option.map_some]

theorem isField_of_mem_collection (hn : Key.ofName? key = some k) (hx : k.extent ≠ .alone)
    {rows : List (List Char)} (hr : ∀ r ∈ rows, IsRow r) (hd : ∀ r ∈ rows, IsDeeper depth r) :
    ∀ b ∈ Block.collection key rows, b.IsField extent depth := by
  refine Block.isField_of_mem_collection (Key.isKey hn) hr hd ?_
  rw [extent, field?_header hn]
  exact hx

theorem isField_of_mem_blocks (h : w.Printable) : ∀ b ∈ o.blocks w, b.IsField extent 0 := by
  have hd : 0 < o.unit := o.unit_pos
  intro b hb
  simp only [Layout.blocks, List.mem_append] at hb
  rcases hb with (((hb | hb) | hb) | hb) | hb
  · rw [List.mem_singleton.mp hb]
    exact Block.isField_quoted (by decide) h.name
  · have hf : ∀ b ∈ w.triggers.entries.map fun e => o.event o.unit e.1 e.2,
        b.Fits (fun _ => .nested) o.unit :=
      fun b hb => (Layout.isField_of_mem_events h.triggers b hb).toFits
    exact isField_of_mem_collection (k := .triggers) rfl (by decide)
      (fun r hr => Block.isRow_of_fits hf hr) (fun r hr => Block.isDeeper_of_fits hf hd hr) b hb
  · exact isField_of_mem_collection (k := .permissions) rfl (by decide)
      (Block.isRow_of_mem_mapping h.permissions) (Block.isDeeper_of_mem_mapping hd) b hb
  · exact isField_of_mem_collection (k := .env) rfl (by decide)
      (Block.isRow_of_mem_mapping h.env) (Block.isDeeper_of_mem_mapping hd) b hb
  · have hf : ∀ b ∈ w.jobs.entries.map fun e => o.job o.unit e.1 e.2,
        b.Fits (fun _ => .nested) o.unit :=
      fun b hb => (Job.isField_of_mem_jobs h.jobs b hb).toFits
    exact isField_of_mem_collection (k := .jobs) rfl (by decide)
      (fun r hr => Block.isRow_of_fits hf hr) (fun r hr => Block.isDeeper_of_fits hf hd hr) b hb

theorem makes_collection (hn : Key.ofName? key = some k) {rows : List (List Char)}
    (h0 : rows = [] → y = x)
    (h1 : k.set tabWidth [] (rows.map (Line.ofRaw tabWidth 0)) x = .ok y) :
    Block.Makes (readSection tabWidth) tabWidth depth x (Block.collection key rows) y := by
  refine Block.makes_collection h0 ?_
  rw [readSection, field?_header hn]
  exact h1

/-- The blocks of a workflow make it, section by section. -/
theorem makes_blocks (h : w.Printable) :
    Block.Makes (readSection tabWidth) tabWidth 0 blank (o.blocks w) w := by
  have hname : Block.Makes (readSection tabWidth) tabWidth 0 blank
      [Block.line "name" (quoted w.name)] ⟨w.name, ∅, ∅, ∅, ∅⟩ := by
    refine Block.makes_singleton ?_
    rw [readSection, Block.line, Block.toSection, field?_quoted (k := .name) rfl]
    simp only [Key.set, String.ofList_toList]
    rfl
  have hon : Block.Makes (readSection tabWidth) tabWidth 0 ⟨w.name, ∅, ∅, ∅, ∅⟩
      (Block.collection "on" (o.events o.unit w.triggers)) ⟨w.name, w.triggers, ∅, ∅, ∅⟩ := by
    refine makes_collection (k := .triggers) rfl (fun hn => ?_) ?_
    · have he := List.map_eq_nil_iff.mp (Block.eq_nil_of_flatMap_rows hn)
      rw [show w.triggers = ∅ from Table.ext he]
    · rw [Key.set, Layout.triggers_rows h.triggers]
  have hperm : Block.Makes (readSection tabWidth) tabWidth 0 ⟨w.name, w.triggers, ∅, ∅, ∅⟩
      (Block.collection "permissions" (Block.mapping o.unit w.permissions))
      ⟨w.name, w.triggers, w.permissions, ∅, ∅⟩ := by
    refine makes_collection (k := .permissions) rfl (fun hn => ?_) ?_
    · rw [Block.eq_empty_of_mapping_eq_nil hn]
    · rw [Key.set, Block.mapping_rows h.permissions]
  have henv : Block.Makes (readSection tabWidth) tabWidth 0
      ⟨w.name, w.triggers, w.permissions, ∅, ∅⟩
      (Block.collection "env" (Block.mapping o.unit w.env))
      ⟨w.name, w.triggers, w.permissions, ∅, w.env⟩ := by
    refine makes_collection (k := .env) rfl (fun hn => ?_) ?_
    · rw [Block.eq_empty_of_mapping_eq_nil hn]
    · rw [Key.set, Block.mapping_rows h.env]
  have hjobs : Block.Makes (readSection tabWidth) tabWidth 0
      ⟨w.name, w.triggers, w.permissions, ∅, w.env⟩
      (Block.collection "jobs" (o.jobs o.unit w.jobs)) w := by
    refine makes_collection (k := .jobs) rfl (fun hn => ?_) ?_
    · have he := List.map_eq_nil_iff.mp (Block.eq_nil_of_flatMap_rows hn)
      rw [← show w.jobs = ∅ from Table.ext he]
    · rw [Key.set, Job.readAll_rows h.jobs]
      rfl
  exact (((hname.append hon).append hperm).append henv).append hjobs

theorem read_rows (h : w.Printable) :
    read tabWidth (((o.blocks w).flatMap (Block.rows 0)).map (Line.ofRaw tabWidth 0)) = .ok w := by
  rw [read, Block.cutAll_fields (isField_of_mem_blocks h)]
  exact makes_blocks h

/-! ## Documents -/

theorem renumber_ofText (tabWidth : Nat) (text : List Char) :
    (Line.ofText tabWidth text).map (Line.renumber fun _ => 0) =
      (lines text).map (Line.ofRaw tabWidth 0) := by
  refine List.ext_getElem? fun i => ?_
  rw [Line.ofText, List.getElem?_map, List.getElem?_mapIdx, List.getElem?_map, Option.map_map]
  rfl

/-- A document that is written in a layout is read as the workflow that it was written for. -/
theorem ofText_render (o : Layout) (tabWidth : Nat) (h : w.Printable) :
    ofText tabWidth (o.render w) = .ok w := by
  have hf : ∀ b ∈ o.blocks w, b.Fits extent 0 := fun b hb => (isField_of_mem_blocks h b hb).toFits
  have hl : lines (o.render w) = (o.blocks w).flatMap (Block.rows 0) :=
    lines_unlines fun r hr => Block.isRow_of_fits hf hr
  -- Blocks do not know on which lines they come to stand, so every line is given the number 0.
  have hr := read_renumber (f := fun _ => 0) tabWidth (Line.ofText tabWidth (o.render w))
  rw [renumber_ofText, hl, read_rows h] at hr
  rw [ofText]
  cases hw : read tabWidth (Line.ofText tabWidth (o.render w)) with
  | error e =>
      rw [hw] at hr
      cases hr
  | ok v =>
      rw [hw] at hr
      exact hr.symm

/-- A workflow with most of what can be written. -/
def release : Workflow where
  name := "\"release\": # not a comment"
  triggers := .ofList [("push", "branches:\n- main"), ("schedule", "")]
  permissions := .ofList [("contents", "read")]
  jobs := .ofList [("build", { Job.blank with
      runsOn := "ubuntu-latest"
      timeoutMinutes := -9223372036854775808
      steps := [
        { Step.blank with uses := some "actions/checkout@v4", arguments := .ofList [("ref", "")] },
        { Step.blank with name := some "test", run := some "if x; then\n\n  # deep\n  make\nfi" }] }),
    ("publish", { Job.blank with
      needs := ["build", "a, b"]
      condition := some "github.ref == 'refs/heads/main'"
      steps := [Step.blank,
        { Step.blank with run := some "exit 1", env := .ofList [("A.b_c", "#")] }] })]
  env := .ofList [("LEVEL", "' \"")]

theorem ofText_render_release : release.Printable ∧
    ofText 2 (Layout.narrow.render release) = .ok release ∧
      ofText 8 (Layout.wide.render release) = .ok release := by
  have h : release.Printable := by decide +kernel
  exact ⟨h, ofText_render .narrow 2 h, ofText_render .wide 8 h⟩

end Workflow

end WorkflowLint
