import WorkflowLint.Proofs.ReadBack.Step

/-!
# Jobs that are read back

The blocks of a job make it, one field after another, and the jobs below their key are put into a
table one after another.
-/
namespace WorkflowLint

open Text

namespace Job

variable {o : Layout} {tabWidth depth : Nat} {key : String} {k : Key} {j x y : Job}

/-! ## Fields -/

theorem Key.isKey (h : ofName? key = some k) : IsKey key := by
  unfold ofName? at h
  split at h
  case h_9 => cases h
  all_goals decide

theorem field?_quoted (h : Key.ofName? key = some k) (number indent : Nat) (v : String) :
    field? ⟨number, indent, entry key (quoted v)⟩ = some (k, v.toList) := by
  rw [field?, of?_entry_quoted (Key.isKey h), Option.bind_some, h, Option.map_some]

theorem field?_header (h : Key.ofName? key = some k) (number indent : Nat) :
    field? ⟨number, indent, header key⟩ = some (k, []) := by
  rw [field?, of?_header (Key.isKey h), Option.bind_some, h, Option.map_some]

theorem field?_timeout (number indent : Nat) (i : Int) :
    field? ⟨number, indent, entry "timeout-minutes" (toString i).toList⟩ =
      some (.timeout, (toString i).toList) := by
  rw [field?, of?_entry (by decide), Numeral.clean_toString]
  rfl

theorem isField_of_mem_collection (hn : Key.ofName? key = some k) (hx : k.extent [] ≠ .alone)
    {rows : List (List Char)} (hr : ∀ r ∈ rows, IsRow r) (hd : ∀ r ∈ rows, IsDeeper depth r) :
    ∀ b ∈ Block.collection key rows, b.IsField extent depth := by
  refine Block.isField_of_mem_collection (Key.isKey hn) hr hd ?_
  rw [extent, field?_header hn]
  exact hx

theorem isField_timeout (i : Int) :
    (Block.line "timeout-minutes" (toString i).toList).IsField extent depth := by
  obtain ⟨c, hc⟩ := Option.ne_none_iff_exists'.mp
    (mt List.getLast?_eq_none_iff.mp (Numeral.toString_ne_nil i))
  have hk : ∀ c ∈ (toString i).toList, IsKeyChar c := fun _ => Numeral.forall_mem_toString
  refine Block.isField_line (by decide) ⟨c, hc, ?_⟩ fun hm => absurd (hk _ hm) (by decide)
  exact isBlank_of_isKeyChar (hk c (List.mem_of_getLast? hc))

theorem isField_of_mem_jobBlocks (h : j.Printable) :
    ∀ b ∈ o.jobBlocks depth j, b.IsField extent depth := by
  have hd : depth < depth + o.unit := Nat.lt_add_of_pos_right o.unit_pos
  intro b hb
  simp only [Layout.jobBlocks, List.mem_append] at hb
  rcases hb with ((((((hb | hb) | hb) | hb) | hb) | hb) | hb) | hb
  · exact Block.isField_of_mem_value (by decide) h.name b hb
  · rw [List.mem_singleton.mp hb]
    exact Block.isField_quoted (by decide) h.runsOn
  · exact isField_of_mem_collection (k := .needs) rfl (by decide)
      (Block.isRow_of_mem_list h.needs) (Block.isDeeper_of_mem_list hd) b hb
  · exact isField_of_mem_collection (k := .permissions) rfl (by decide)
      (Block.isRow_of_mem_mapping h.permissions) (Block.isDeeper_of_mem_mapping hd) b hb
  · exact Block.isField_of_mem_value (by decide) (fun c hc => (h.condition c hc).1) b hb
  · rw [List.mem_singleton.mp hb]
    exact isField_timeout _
  · exact isField_of_mem_collection (k := .env) rfl (by decide)
      (Block.isRow_of_mem_mapping h.env) (Block.isDeeper_of_mem_mapping hd) b hb
  · have hf : ∀ b ∈ j.steps.map (o.step (depth + o.unit)),
        b.Fits (fun _ => .nested) (depth + o.unit) := Step.fits_of_mem_steps h.steps
    exact isField_of_mem_collection (k := .steps) rfl (by decide)
      (fun r hr => Block.isRow_of_fits hf hr) (fun r hr => Block.isDeeper_of_fits hf hd hr) b hb

/-! ## Reading -/

theorem makes_value (hn : Key.ofName? key = some k) {v : Option String} (h0 : v = none → y = x)
    (h1 : ∀ w head, v = some w → k.set tabWidth head w.toList [] x = .ok y) :
    Block.Makes (readField tabWidth) tabWidth depth x (Block.value key v) y := by
  refine Block.makes_value h0 fun w hw => ?_
  rw [readField, Block.line, Block.toSection, field?_quoted hn]
  exact h1 w _ hw

theorem makes_collection (hn : Key.ofName? key = some k) {rows : List (List Char)}
    (h0 : rows = [] → y = x)
    (h1 : ∀ head, k.set tabWidth head [] (rows.map (Line.ofRaw tabWidth 0)) x = .ok y) :
    Block.Makes (readField tabWidth) tabWidth depth x (Block.collection key rows) y := by
  refine Block.makes_collection h0 ?_
  rw [readField, field?_header hn]
  exact h1 _

theorem runner_toList (s : String) : runner s.toList [] = s := by
  rw [runner]
  split
  · rename_i hs
    rw [String.toList_eq_nil_iff.mp hs]
    rfl
  · exact String.ofList_toList

theorem timeout_toString (l : Line) (w : Int64) : timeout l (toString w.toInt).toList = .ok w := by
  have hk : ∀ c ∈ (toString w.toInt).toList, isBlank c = false := fun c hc =>
    isBlank_of_isKeyChar (Numeral.forall_mem_toString hc)
  have ht := isTight_of_forall (Numeral.toString_ne_nil w.toInt) hk
  rw [timeout, trim, ht.trimStart_eq, ht.trimEnd_eq, Numeral.signed?_toString, Option.bind_some,
    Numeral.int64?_toInt]

/-- The blocks of a job make it, field by field. -/
theorem makes_jobBlocks (h : j.Printable) :
    Block.Makes (readField tabWidth) tabWidth depth blank (o.jobBlocks depth j) j := by
  have hname : Block.Makes (readField tabWidth) tabWidth depth blank (Block.value "name" j.name)
      ⟨j.name, "", [], ∅, [], ∅, none, 360⟩ := by
    refine makes_value (k := .name) rfl (fun hn => by rw [hn]; rfl) fun n _ hn => ?_
    rw [hn, Key.set, Block.nonEmpty_toList (h.name n hn).nonempty]
    rfl
  have hrunner : Block.Makes (readField tabWidth) tabWidth depth
      ⟨j.name, "", [], ∅, [], ∅, none, 360⟩ [Block.line "runs-on" (quoted j.runsOn)]
      ⟨j.name, j.runsOn, [], ∅, [], ∅, none, 360⟩ := by
    refine Block.makes_singleton ?_
    rw [readField, Block.line, Block.toSection, field?_quoted (k := .runsOn) rfl]
    simp only [Key.set, List.map_nil, runner_toList]
  have hneeds : Block.Makes (readField tabWidth) tabWidth depth
      ⟨j.name, j.runsOn, [], ∅, [], ∅, none, 360⟩
      (Block.collection "needs" (Block.list (depth + o.unit) j.needs))
      ⟨j.name, j.runsOn, j.needs, ∅, [], ∅, none, 360⟩ := by
    refine makes_collection (k := .needs) rfl (fun hn => ?_) fun head => ?_
    · rw [List.map_eq_nil_iff.mp hn]
    · rw [Key.set, needed, if_pos rfl, Block.items_rows h.needs]
  have hperm : Block.Makes (readField tabWidth) tabWidth depth
      ⟨j.name, j.runsOn, j.needs, ∅, [], ∅, none, 360⟩
      (Block.collection "permissions" (Block.mapping (depth + o.unit) j.permissions))
      ⟨j.name, j.runsOn, j.needs, j.permissions, [], ∅, none, 360⟩ := by
    refine makes_collection (k := .permissions) rfl (fun hn => ?_) fun head => ?_
    · rw [Block.eq_empty_of_mapping_eq_nil hn]
    · rw [Key.set, Block.mapping_rows h.permissions]
  have hif : Block.Makes (readField tabWidth) tabWidth depth
      ⟨j.name, j.runsOn, j.needs, j.permissions, [], ∅, none, 360⟩
      (Block.value "if" j.condition)
      ⟨j.name, j.runsOn, j.needs, j.permissions, [], ∅, j.condition, 360⟩ := by
    refine makes_value (k := .condition) rfl (fun hn => by rw [hn]) fun c _ hc => ?_
    obtain ⟨hw, hb⟩ := h.condition c hc
    simp only [hc, Key.set, scalar, hb, Block.nonEmpty_toList hw.nonempty]
  have htime : Block.Makes (readField tabWidth) tabWidth depth
      ⟨j.name, j.runsOn, j.needs, j.permissions, [], ∅, j.condition, 360⟩
      [Block.line "timeout-minutes" (toString j.timeoutMinutes.toInt).toList]
      ⟨j.name, j.runsOn, j.needs, j.permissions, [], ∅, j.condition, j.timeoutMinutes⟩ := by
    refine Block.makes_singleton ?_
    rw [readField, Block.line, Block.toSection, field?_timeout]
    simp only [Key.set, timeout_toString]
    rfl
  have henv : Block.Makes (readField tabWidth) tabWidth depth
      ⟨j.name, j.runsOn, j.needs, j.permissions, [], ∅, j.condition, j.timeoutMinutes⟩
      (Block.collection "env" (Block.mapping (depth + o.unit) j.env))
      ⟨j.name, j.runsOn, j.needs, j.permissions, [], j.env, j.condition, j.timeoutMinutes⟩ := by
    refine makes_collection (k := .env) rfl (fun hn => ?_) fun head => ?_
    · rw [Block.eq_empty_of_mapping_eq_nil hn]
    · rw [Key.set, Block.mapping_rows h.env]
  have hsteps : Block.Makes (readField tabWidth) tabWidth depth
      ⟨j.name, j.runsOn, j.needs, j.permissions, [], j.env, j.condition, j.timeoutMinutes⟩
      (Block.collection "steps" (o.steps (depth + o.unit) j.steps)) j := by
    refine makes_collection (k := .steps) rfl (fun hn => ?_) fun head => ?_
    · rw [← List.map_eq_nil_iff.mp (Block.eq_nil_of_flatMap_rows hn)]
    · rw [Key.set, Step.readAll_rows h.steps]
  exact ((((((hname.append hrunner).append hneeds).append hperm).append hif).append htime).append
    henv).append hsteps

theorem read_rows (h : j.Printable) :
    read tabWidth (((o.jobBlocks depth j).flatMap (Block.rows depth)).map (Line.ofRaw tabWidth 0)) =
      .ok j := by
  rw [read, fields, Block.cutAll_fields (isField_of_mem_jobBlocks h), Block.level_map_toSection]
  exact makes_jobBlocks h

/-! ## Jobs of a workflow -/

theorem isField_job {id : String} (hk : IsKey id) (h : j.Printable) :
    (o.job depth id j).IsField (fun _ => .nested) depth := by
  have hf : ∀ b ∈ o.jobBlocks (depth + o.unit) j, b.Fits extent (depth + o.unit) :=
    fun b hb => (isField_of_mem_jobBlocks h b hb).toFits
  refine ⟨⟨hk.isHead_header.1, fun r hr => Block.isRow_of_fits hf hr, fun r hr => ?_,
    Or.inr (by simp)⟩, hk.isHead_header.2⟩
  exact Block.isDeeper_of_fits hf (Nat.lt_add_of_pos_right o.unit_pos) hr

theorem isField_of_mem_jobs {entries : List (String × Job)}
    (h : ∀ e ∈ entries, IsKey e.1 ∧ e.2.Printable) :
    ∀ b ∈ entries.map fun e => o.job depth e.1 e.2, b.IsField (fun _ => .nested) depth := by
  intro b hb
  obtain ⟨e, he, rfl⟩ := List.mem_map.mp hb
  exact isField_job (h e he).1 (h e he).2

theorem addTo_job {id : String} (hk : IsKey id) (h : j.Printable) (jobs : Table Job) :
    addTo tabWidth jobs ((o.job depth id j).toSection tabWidth depth) = .ok (jobs.insert id j) := by
  rw [addTo, Layout.job, Block.toSection]
  simp only [of?_header hk, read_rows h]
  rfl

/-- The sections of some jobs add them one after another. -/
theorem makes_jobs {entries : List (String × Job)} (h : ∀ e ∈ entries, IsKey e.1 ∧ e.2.Printable)
    (jobs : Table Job) : Block.Makes (addTo tabWidth) tabWidth depth jobs
      (entries.map fun e => o.job depth e.1 e.2) (jobs.insertMany entries) := by
  induction entries generalizing jobs with
  | nil => exact Block.makes_nil
  | cons e entries ih =>
      have he := h e List.mem_cons_self
      exact (Block.makes_singleton (addTo_job he.1 he.2 jobs)).append
        (ih (fun f hf => h f (List.mem_cons_of_mem e hf)) (jobs.insert e.1 e.2))

/-- The jobs are read back from the rows below their key. -/
theorem readAll_rows {t : Table Job} (h : ∀ e ∈ t.entries, IsKey e.1 ∧ e.2.Printable) :
    readAll tabWidth ((o.jobs depth t).map (Line.ofRaw tabWidth 0)) ∅ = .ok t := by
  rw [readAll, Layout.jobs, Block.cutAll_fields (isField_of_mem_jobs h)]
  exact (makes_jobs h ∅).trans (by rw [t.insertMany_entries])

end Job

end WorkflowLint
