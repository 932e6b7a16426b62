import WorkflowLint.Proofs.Collections

/-!
# Steps that are read back

The blocks of a step make it, one field after another, whether the first of them stands on the line
of the dash or below it.
-/
namespace WorkflowLint

open Text

namespace Step

variable {o : Layout} {tabWidth depth : Nat} {key : String} {k : Key} {s x y : Step}

/-! ## Fields -/

theorem Key.isKey (h : ofName? key = some k) : IsKey key := by
  unfold ofName? at h
  split at h
  case h_7 => cases h
  all_goals decide

theorem field?_quoted (h : Key.ofName? key = some k) (number indent : Nat) (v : String) :
    field? ⟨number, indent, entry key (quoted v)⟩ = some (k, v.toList) := by
  rw [field?, of?_entry_quoted (Key.isKey h), Option.bind_some, h, Option.map_some]

theorem field?_header (h : Key.ofName? key = some k) (number indent : Nat) :
    field? ⟨number, indent, header key⟩ = some (k, []) := by
  rw [field?, of?_header (Key.isKey h), Option.bind_some, h, Option.map_some]

theorem field?_script (number indent : Nat) :
    field? ⟨number, indent, entry "run" ['|']⟩ = some (.run, ['|']) := by
  rw [field?, of?_entry (by decide)]
  rfl

theorem isField_command {r : String} (hr : IsCommand r) :
    (o.command depth r).IsField extent depth := by
  obtain ⟨-, h⟩ := hr
  rw [Layout.command]
  split
  · rename_i hn
    rw [if_pos hn] at h
    have hh : IsHead (entry "run" ['|']) ∧ (entry "run" ['|']).head? ≠ some '-' :=
      IsKey.isHead_entry (by decide) ⟨'|', rfl, by decide⟩ (by decide)
    have hx : extent ⟨0, depth, entry "run" ['|']⟩ = .scalar := by
      rw [extent, field?_script]
      rfl
    refine ⟨⟨hh.1, fun r hr => ?_, fun r hr => ?_, Or.inr (by rw [hx]; decide)⟩, hh.2⟩
    · obtain ⟨l, hl, rfl⟩ := List.mem_map.mp hr
      exact Layout.isRow_scriptRow (not_mem_of_mem_splitOn hl) (h.stop l hl)
    · obtain ⟨l, -, rfl⟩ := List.mem_map.mp hr
      exact Layout.isDeeper_scriptRow (Nat.lt_add_of_pos_right o.unit_pos)
  · rename_i hn
    exact Block.isField_quoted (by decide) hn

theorem isField_of_mem_collection (hn : Key.ofName? key = some k) (hx : k.extent [] ≠ .alone)
    {rows : List (List Char)} (hr : ∀ r ∈ rows, IsRow r) (hd : ∀ r ∈ rows, IsDeeper depth r) :
    ∀ b ∈ Block.collection key rows, b.IsField extent depth := by
  refine Block.isField_of_mem_collection (Key.isKey hn) hr hd ?_
  rw [extent, field?_header hn]
  exact hx

theorem isField_of_mem_stepBlocks (h : s.Printable) :
    ∀ b ∈ o.stepBlocks depth s, b.IsField extent depth := by
  have hd : depth < depth + o.unit := Nat.lt_add_of_pos_right o.unit_pos
  intro b hb
  simp only [Layout.stepBlocks, List.mem_append] at hb
  rcases hb with ((((hb | hb) | hb) | hb) | hb) | hb
  · exact Block.isField_of_mem_value (by decide) h.name b hb
  · exact Block.isField_of_mem_value (by decide) h.uses b hb
  · obtain ⟨r, hr, rfl⟩ := List.mem_map.mp hb
    exact isField_command (h.run r (Option.mem_toList.mp hr))
  · exact Block.isField_of_mem_value (by decide) (fun c hc => (h.condition c hc).1) b hb
  · exact isField_of_mem_collection (k := .arguments) rfl (by decide)
      (Block.isRow_of_mem_mapping h.arguments) (Block.isDeeper_of_mem_mapping hd) b hb
  · exact isField_of_mem_collection (k := .env) rfl (by decide) (Block.isRow_of_mem_mapping h.env)
      (Block.isDeeper_of_mem_mapping hd) b hb

/-! ## Reading -/

/-- Reading a field of a step, which cannot fail. -/
def addField (s : Step) (field : Section) : Except SyntaxError Step :=
  .ok (readField s field)

theorem makes_value (hn : Key.ofName? key = some k) {v : Option String} (h0 : v = none → y = x)
    (h1 : ∀ w, v = some w → k.set w.toList [] x = y) :
    Block.Makes addField tabWidth depth x (Block.value key v) y := by
  refine Block.makes_value h0 fun w hw => ?_
  rw [addField, readField, Block.line, Block.toSection, field?_quoted hn]
  exact congrArg Except.ok (h1 w hw)

theorem makes_collection (hn : Key.ofName? key = some k) {rows : List (List Char)}
    (h0 : rows = [] → y = x) (h1 : k.set [] (rows.map (Line.ofRaw tabWidth 0)) x = y) :
    Block.Makes addField tabWidth depth x (Block.collection key rows) y := by
  refine Block.makes_collection h0 ?_
  rw [addField, readField, field?_header hn]
  exact congrArg Except.ok h1

theorem makes_command (hr : ∀ r ∈ s.run, IsCommand r) (hx : x.run = none) :
    Block.Makes addField tabWidth depth x (s.run.toList.map (o.command depth))
      { x with run := s.run } := by
  cases hs : s.run with
  | none =>
      have hy : { x with run := none } = x := by rw [← hx]
      rw [hy]
      exact Block.makes_nil
  | some r =>
      obtain ⟨hn, h⟩ := hr r hs
      refine Block.makes_singleton (congrArg Except.ok ?_)
      rw [Layout.command]
      split
      · rw [if_pos ‹_›] at h
        have ht : scalar ['|'] (((r.toList.splitOn '\n').map (o.scriptRow (depth + o.unit))).map
            (Line.ofRaw tabWidth 0)) = r.toList :=
          (Layout.text_scriptRows h).trans (List.intercalate_splitOn '\n')
        rw [Block.toSection, readField, field?_script]
        simp only [Key.set, ht, Block.nonEmpty_toList hn]
      · rw [if_neg ‹_›] at h
        rw [Block.line, Block.toSection, readField, field?_quoted (k := .run) rfl]
        simp only [Key.set, scalar, h, Block.nonEmpty_toList hn]

/-- The blocks of a step make it, field by field. -/
theorem makes_stepBlocks (h : s.Printable) :
    Block.Makes addField tabWidth depth blank (o.stepBlocks depth s) s := by
  have hname : Block.Makes addField tabWidth depth blank (Block.value "name" s.name)
      ⟨s.name, none, none, ∅, ∅, none⟩ := by
    refine makes_value (k := .name) rfl (fun hn => by rw [hn]; rfl) fun n hn => ?_
    rw [hn, Key.set, Block.nonEmpty_toList (h.name n hn).nonempty]
    rfl
  have huses : Block.Makes addField tabWidth depth ⟨s.name, none, none, ∅, ∅, none⟩
      (Block.value "uses" s.uses) ⟨s.name, s.uses, none, ∅, ∅, none⟩ := by
    refine makes_value (k := .uses) rfl (fun hn => by rw [hn]) fun u hu => ?_
    rw [hu, Key.set, Block.nonEmpty_toList (h.uses u hu).nonempty]
  have hrun : Block.Makes addField tabWidth depth ⟨s.name, s.uses, none, ∅, ∅, none⟩
      (s.run.toList.map (o.command depth)) ⟨s.name, s.uses, s.run, ∅, ∅, none⟩ :=
    makes_command h.run rfl
  have hif : Block.Makes addField tabWidth depth ⟨s.name, s.uses, s.run, ∅, ∅, none⟩
      (Block.value "if" s.condition) ⟨s.name, s.uses, s.run, ∅, ∅, s.condition⟩ := by
    refine makes_value (k := .condition) rfl (fun hn => by rw [hn]) fun c hc => ?_
    obtain ⟨hw, hb⟩ := h.condition c hc
    simp only [hc, Key.set, scalar, hb, Block.nonEmpty_toList hw.nonempty]
  have hwith : Block.Makes addField tabWidth depth ⟨s.name, s.uses, s.run, ∅, ∅, s.condition⟩
      (Block.collection "with" (Block.mapping (depth + o.unit) s.arguments))
      ⟨s.name, s.uses, s.run, s.arguments, ∅, s.condition⟩ := by
    refine makes_collection (k := .arguments) rfl (fun hn => ?_) ?_
    · rw [Block.eq_empty_of_mapping_eq_nil hn]
    · rw [Key.set, Block.mapping_rows h.arguments]
  have henv : Block.Makes addField tabWidth depth
      ⟨s.name, s.uses, s.run, s.arguments, ∅, s.condition⟩
      (Block.collection "env" (Block.mapping (depth + o.unit) s.env)) s := by
    refine makes_collection (k := .env) rfl (fun hn => ?_) ?_
    · rw [← Block.eq_empty_of_mapping_eq_nil hn]
    · rw [Key.set, Block.mapping_rows h.env]
  exact ((((hname.append huses).append hrun).append hif).append hwith).append henv

/-! ## Items -/

theorem fields_eq_level (item : Section) (h : IsHead (contentLine tabWidth item.head).text) :
    fields tabWidth item =
      Section.level (Section.cutAll extent (contentLine tabWidth item.head :: item.body)) := by
  rw [fields, if_neg h.ne_nil, Section.cutAll, if_pos (Line.isSignificant_of_isHead h)]

theorem contentLine_item {cs : List Char} (h : IsTight cs) (n : Nat) :
    contentLine tabWidth ⟨0, depth, '-' :: row n cs⟩ = ⟨0, depth + 1 + n, cs⟩ := by
  have ht : itemContent ('-' :: row n cs) = cs := by
    rw [itemContent, trimStart_row, h.trimStart_eq]
  have hw : Line.width tabWidth (row n cs) = n := h.width_row tabWidth
  rw [contentLine, ht]
  exact congrArg (fun i => (⟨0, depth + 1 + i, cs⟩ : Line)) hw

theorem fields_item {bs : List Block} (h : ∀ b ∈ bs, b.IsField extent (depth + o.gap)) :
    fields tabWidth ((o.item depth bs).toSection tabWidth depth) =
      bs.map (Block.toSection tabWidth (depth + o.gap)) := by
  cases bs with
  | nil => simp [Layout.item, Block.toSection, fields, contentLine, itemContent, Section.cutAll,
      Section.level]
  | cons b bs =>
      have hb := (h b List.mem_cons_self).head
      rw [← Block.level_map_toSection, ← Block.cutAll_fields h, Layout.item]
      split
      · rename_i hd
        -- Behind the dash, the first field is as deep as it would be on a line of its own.
        have hg : depth + 1 + (o.gap - 1) = depth + o.gap := by
          have := o.gap_pos
          omega
        have hc : contentLine tabWidth ⟨0, depth, '-' :: row (o.gap - 1) b.head⟩ =
            ⟨0, depth + o.gap, b.head⟩ := by
          rw [contentLine_item hb.toIsTight, hg]
        rw [Block.toSection, fields_eq_level _ (by rw [hc]; exact hb), hc, List.flatMap_cons,
          Block.rows, List.cons_append, List.map_cons, Line.ofRaw_row hb.toIsTight]
      · rw [Block.toSection, fields, if_pos (by rfl)]

theorem isHead_dash : IsHead ['-'] :=
  ⟨⟨⟨'-', rfl, by decide⟩, '-', rfl, by decide⟩, by decide, by decide⟩

theorem isHead_item {cs : List Char} (h : IsHead cs) (n : Nat) : IsHead ('-' :: row n cs) := by
  obtain ⟨c, hc, hb⟩ := h.last
  refine ⟨⟨⟨'-', rfl, by decide⟩, c, ?_, hb⟩, by simp, by simp [row, h.oneLine]⟩
  rw [row, ← List.cons_append, List.getLast?_append_of_ne_nil _ h.ne_nil, hc]

theorem fits_item {bs : List Block} (h : ∀ b ∈ bs, b.IsField extent (depth + o.gap)) :
    (o.item depth bs).Fits (fun _ => .nested) depth := by
  have hd : depth < depth + o.gap := Nat.lt_add_of_pos_right o.gap_pos
  have hf : ∀ b ∈ bs, b.Fits extent (depth + o.gap) := fun b hb => (h b hb).toFits
  cases bs with
  | nil => exact ⟨isHead_dash, by simp [Layout.item], by simp [Layout.item], Or.inl rfl⟩
  | cons b bs =>
      rw [Layout.item]
      split
      · have hm : ∀ r ∈ b.body ++ bs.flatMap (Block.rows (depth + o.gap)),
            r ∈ (b :: bs).flatMap (Block.rows (depth + o.gap)) := fun r hr => by
          rw [List.flatMap_cons, Block.rows, List.cons_append]
          exact List.mem_cons_of_mem _ hr
        exact ⟨isHead_item (hf b List.mem_cons_self).head _,
          fun r hr => Block.isRow_of_fits hf (hm r hr),
          fun r hr => Block.isDeeper_of_fits hf hd (hm r hr), Or.inr (by simp)⟩
      · exact ⟨isHead_dash, fun r hr => Block.isRow_of_fits hf hr,
          fun r hr => Block.isDeeper_of_fits hf hd hr, Or.inr (by simp)⟩

theorem isItem_item (bs : List Block) :
    ((o.item depth bs).toSection tabWidth depth).head.isItem = true := by
  cases bs with
  | nil => rfl
  | cons b bs =>
      rw [Layout.item]
      split
      · rename_i hd
        obtain ⟨n, hn⟩ := Nat.exists_eq_add_of_le (o.two_le_gap hd)
        rw [hn, show 2 + n - 1 = n + 1 by omega]
        rfl
      · rfl

theorem read_step (h : s.Printable) :
    read tabWidth ((o.step depth s).toSection tabWidth depth) = s := by
  have hm : Block.Makes addField tabWidth (depth + o.gap) blank
      (o.stepBlocks (depth + o.gap) s) s := makes_stepBlocks h
  rw [Block.Makes] at hm
  rw [read, Layout.step, fields_item (isField_of_mem_stepBlocks h)]
  exact Except.ok.inj (List.foldlM_pure.symm.trans hm)

theorem fits_of_mem_steps {ss : List Step} (h : ∀ s ∈ ss, s.Printable) :
    ∀ b ∈ ss.map (o.step depth), b.Fits (fun _ => .nested) depth := by
  intro b hb
  obtain ⟨s, hs, rfl⟩ := List.mem_map.mp hb
  exact fits_item (isField_of_mem_stepBlocks (h s hs))

/-- The steps are read back from the rows below their key. -/
theorem readAll_rows {ss : List Step} (h : ∀ s ∈ ss, s.Printable) :
    readAll tabWidth ((o.steps depth ss).map (Line.ofRaw tabWidth 0)) = ss := by
  have hi : ((ss.map (o.step depth)).map (Block.toSection tabWidth depth)).filter
      (·.head.isItem) = (ss.map (o.step depth)).map (Block.toSection tabWidth depth) := by
    refine List.filter_eq_self.mpr fun t ht => ?_
    rw [List.map_map] at ht
    obtain ⟨s, -, rfl⟩ := List.mem_map.mp ht
    exact isItem_item _
  rw [readAll, Layout.steps, Block.cutAll_rows (fits_of_mem_steps h) (Or.inr (by simp)), hi,
    List.map_map, List.map_map]
  exact (List.map_congr_left fun s hs => read_step (h s hs)).trans (List.map_id' ss)

end Step

end WorkflowLint
