import WorkflowLint.Proofs.Values

/-!
# Blocks and collections that are read back

A block that begins with a key fits where it is written. Maps, lists and events are read back from
the rows below their keys.
-/
namespace WorkflowLint

open Text

namespace Block

variable {extent : Line → Extent} {tabWidth depth : Nat} {key : String} {bs cs : List Block}
  {rows : List (List Char)}

/-! ## Blocks that begin with a key -/

structure IsField (extent : Line → Extent) (depth : Nat) (b : Block) : Prop
    extends Fits extent depth b where
  noDash : b.head.head? ≠ some '-'

theorem isField_line (hk : IsKey key) {value : List Char}
    (hl : ∃ c, value.getLast? = some c ∧ isBlank c = false) (hn : '\n' ∉ value) :
    (line key value).IsField extent depth :=
  ⟨⟨(hk.isHead_entry hl hn).1, by simp [line], by simp [line], Or.inl rfl⟩,
    (hk.isHead_entry hl hn).2⟩

theorem isField_quoted (hk : IsKey key) {s : String} (h : '\n' ∉ s.toList) :
    (line key (quoted s)).IsField extent depth :=
  isField_line hk ⟨'"', getLast?_quoted s, by decide⟩ (not_mem_quoted h)

theorem isField_of_mem_value (hk : IsKey key) {v : Option String} (h : ∀ s, v = some s → IsWord s) :
    ∀ b ∈ value key v, b.IsField extent depth := by
  intro b hb
  obtain ⟨s, hs, rfl⟩ := List.mem_map.mp hb
  exact isField_quoted hk (h s (Option.mem_toList.mp hs)).oneLine

theorem isField_of_mem_collection (hk : IsKey key) (hr : ∀ r ∈ rows, IsRow r)
    (hd : ∀ r ∈ rows, IsDeeper depth r) (hx : extent ⟨0, depth, header key⟩ ≠ .alone) :
    ∀ b ∈ collection key rows, b.IsField extent depth := by
  intro b hb
  rw [collection] at hb
  split at hb
  · cases hb
  · cases List.mem_singleton.mp hb
    exact ⟨⟨hk.isHead_header.1, hr, hd, Or.inr hx⟩, hk.isHead_header.2⟩

theorem cutAll_fields (h : ∀ b ∈ bs, b.IsField extent depth) :
    Section.cutAll extent ((bs.flatMap (Block.rows depth)).map (Line.ofRaw tabWidth 0)) =
      bs.map (toSection tabWidth depth) :=
  cutAll_rows (fun b hb => (h b hb).toFits) (Or.inl fun b hb => (h b hb).noDash)

/-! ## What blocks make -/

section Makes

variable {β : Type} {read : β → Section → Except SyntaxError β} {x y z : β}

/-- Reading the blocks one after another makes the first value into the second. -/
def Makes (read : β → Section → Except SyntaxError β) (tabWidth depth : Nat) (x : β)
    (bs : List Block) (y : β) : Prop :=
  (bs.map (toSection tabWidth depth)).foldlM read x = .ok y

theorem Makes.append (h : Makes read tabWidth depth x bs y) (k : Makes read tabWidth depth y cs z) :
    Makes read tabWidth depth x (bs ++ cs) z := by
  rw [Makes, List.map_append, List.foldlM_append, h]
  exact k

theorem makes_nil : Makes read tabWidth depth x [] x := rfl

theorem makes_singleton {b : Block} (h : read x (b.toSection tabWidth depth) = .ok y) :
    Makes read tabWidth depth x [b] y := by
  rw [Makes, List.map_singleton, List.foldlM_cons, h]
  rfl

theorem makes_value {v : Option String} (hn : v = none → y = x)
    (hs : ∀ s, v = some s → read x ((line key (quoted s)).toSection tabWidth depth) = .ok y) :
    Makes read tabWidth depth x (value key v) y := by
  cases v with
  | none =>
      rw [hn rfl]
      exact makes_nil
  | some s => exact makes_singleton (hs s rfl)

theorem makes_collection (hn : rows = [] → y = x)
    (hs : read x ⟨⟨0, depth, header key⟩, rows.map (Line.ofRaw tabWidth 0)⟩ = .ok y) :
    Makes read tabWidth depth x (collection key rows) y := by
  rw [collection]
  split
  · rw [hn ‹_›]
    exact makes_nil
  · exact makes_singleton hs

end Makes

/-! ## Maps -/

section Mapping

variable {t : Table String}

theorem mapping_eq_flatMap : mapping depth t =
    (t.entries.map fun e => line e.1 (quoted e.2)).flatMap (Block.rows depth) := by
  rw [mapping, List.flatMap_map]
  exact List.map_eq_flatMap

theorem eq_empty_of_mapping_eq_nil (h : mapping depth t = []) : t = ∅ :=
  Table.ext (List.map_eq_nil_iff.mp h)

theorem isField_of_mem_entries (h : t.Printable) :
    ∀ b ∈ t.entries.map fun e => line e.1 (quoted e.2), b.IsField extent depth := by
  intro b hb
  obtain ⟨e, he, rfl⟩ := List.mem_map.mp hb
  exact isField_quoted (h e he).1 (h e he).2

theorem isRow_of_mem_mapping (h : t.Printable) : ∀ r ∈ mapping depth t, IsRow r := by
  intro r hr
  rw [mapping_eq_flatMap] at hr
  have hf : ∀ b ∈ t.entries.map fun e => line e.1 (quoted e.2), b.Fits (fun _ => .alone) depth :=
    fun b hb => (isField_of_mem_entries h b hb).toFits
  exact isRow_of_fits hf hr

theorem isDeeper_of_mem_mapping {e : Nat} (he : e < depth) :
    ∀ r ∈ mapping depth t, IsDeeper e r := by
  intro r hr
  obtain ⟨entry, -, rfl⟩ := List.mem_map.mp hr
  exact isDeeper_row he _

/-- A map is read back from the rows below its key. -/
theorem mapping_rows (h : t.Printable) :
    WorkflowLint.mapping [] ((mapping depth t).map (Line.ofRaw tabWidth 0)) ∅ = t := by
  have hl : entryLines ((mapping depth t).map (Line.ofRaw tabWidth 0)) =
      t.entries.map fun e => ⟨0, depth, entry e.1 (quoted e.2)⟩ := by
    rw [entryLines, mapping_eq_flatMap, cutAll_fields (isField_of_mem_entries h),
      level_map_toSection]
    simp only [List.map_map]
    rfl
  have he : ∀ e ∈ t.entries, Entry.of? (entry e.1 (quoted e.2)) = some ⟨e.1, e.2.toList⟩ :=
    fun e hm => of?_entry_quoted (h e hm).1 e.2
  have hm : (t.entries.map fun e => (⟨0, depth, entry e.1 (quoted e.2)⟩ : Line)).filterMap
      (fun l => Entry.of? l.text) = t.entries.map fun e => ⟨e.1, e.2.toList⟩ := by
    rw [List.filterMap_map, ← List.filterMap_eq_map]
    exact List.filterMap_congr he
  have hp : (fun e : Entry => (e.key, String.ofList e.value)) ∘
      (fun e : String × String => (⟨e.1, e.2.toList⟩ : Entry)) = fun e => e := by
    funext e
    simp
  rw [WorkflowLint.mapping, hl, hm, List.map_map, hp, List.map_id']
  exact t.insertMany_entries

end Mapping

/-! ## Lists -/

section List

variable {ns : List String}

theorem getLast?_item (n : String) : ('-' :: ' ' :: quoted n).getLast? = some '"' :=
  List.getLast?_concat (l := '-' :: ' ' :: '"' :: n.toList)

theorem ofRaw_item (n : String) : Line.ofRaw tabWidth 0 (row depth ('-' :: ' ' :: quoted n)) =
    ⟨0, depth, '-' :: ' ' :: quoted n⟩ :=
  Line.ofRaw_row ⟨⟨'-', rfl, by decide⟩, '"', getLast?_item n, by decide⟩

theorem isRow_of_mem_list (h : ∀ n ∈ ns, IsWord n) : ∀ r ∈ list depth ns, IsRow r := by
  intro r hr
  obtain ⟨n, hn, rfl⟩ := List.mem_map.mp hr
  refine isRow_row ?_ (by rw [getLast?_item]; decide)
  simp [not_mem_quoted (h n hn).oneLine]

theorem isDeeper_of_mem_list {e : Nat} (he : e < depth) : ∀ r ∈ list depth ns, IsDeeper e r := by
  intro r hr
  obtain ⟨n, -, rfl⟩ := List.mem_map.mp hr
  exact isDeeper_row he _

theorem itemContent_item (n : String) : itemContent ('-' :: ' ' :: quoted n) = quoted n := by
  have hs : trimStart (row 1 (quoted n)) = quoted n := by
    rw [trimStart_row, (isTight_quoted n).trimStart_eq]
  exact hs

theorem nonEmpty_toList {s : String} (h : s ≠ "") : nonEmpty s.toList = some s := by
  rw [nonEmpty, if_neg (mt String.toList_eq_nil_iff.mp h), String.ofList_toList]

theorem items_rows (h : ∀ n ∈ ns, IsWord n) :
    items ((list depth ns).map (Line.ofRaw tabWidth 0)) = ns := by
  have hl : (list depth ns).map (Line.ofRaw tabWidth 0) =
      ns.map fun n => ⟨0, depth, '-' :: ' ' :: quoted n⟩ := by
    rw [list, List.map_map]
    exact List.map_congr_left fun n _ => ofRaw_item n
  have hf : (ns.map fun n => (⟨0, depth, '-' :: ' ' :: quoted n⟩ : Line)).filter
      (fun l => l.isSignificant && l.isItem) =
      ns.map fun n => ⟨0, depth, '-' :: ' ' :: quoted n⟩ := by
    refine List.filter_eq_self.mpr fun l hm => ?_
    obtain ⟨n, -, rfl⟩ := List.mem_map.mp hm
    rfl
  have hn : ∀ n ∈ ns, nonEmpty (Entry.clean (itemContent ('-' :: ' ' :: quoted n))) = some n := by
    intro n hm
    have hc : Entry.clean (quoted n) = n.toList := clean_row_quoted 0 n
    rw [itemContent_item, hc, nonEmpty_toList (h n hm).nonempty]
  rw [items, hl, hf, List.filterMap_map]
  exact (List.filterMap_congr hn).trans List.filterMap_some

end List

end Block

/-! ## Triggers -/

theorem foldl_appendLine {acc : String} (ha : acc ≠ "") (lines : List (List Char)) :
    lines.foldl appendLine acc = String.ofList (['\n'].intercalate (acc.toList :: lines)) := by
  induction lines generalizing acc with
  | nil => simp
  | cons l ls ih =>
      have hl : appendLine acc l = acc ++ "\n" ++ String.ofList l := if_neg ha
      rw [List.foldl_cons, hl, ih (by simp [ha])]
      cases ls <;> simp [List.intercalate_cons_cons]

/-- The lines of a setting are put together again. -/
theorem foldl_settingLines {setting : String} (h : IsSetting setting) :
    (Layout.settingLines setting).foldl appendLine "" = setting := by
  rw [IsSetting] at h
  rw [Layout.settingLines] at h ⊢
  split at h
  · simp_all
  · rename_i hs
    rw [if_neg hs]
    obtain ⟨l, ls, hl⟩ := List.exists_cons_of_ne_nil (List.splitOn_ne_nil '\n' setting.toList)
    have hn : String.ofList l ≠ "" :=
      mt String.ofList_eq_empty_iff.mp (h l (hl ▸ List.mem_cons_self)).1
    rw [hl, List.foldl_cons, show appendLine "" l = String.ofList l from rfl,
      foldl_appendLine hn, String.toList_ofList, ← hl, List.intercalate_splitOn,
      String.ofList_toList]

namespace Events

variable {es : Events} {name text : String} {tabWidth depth : Nat} {o : Layout}

theorem foldl_addSetting {t : Table String} {ls : List Line} (hd : ∀ l ∈ ls, depth < l.indent) :
    ls.foldl (addLine depth) ⟨t.insert name text, some name⟩ =
      ⟨t.insert name ((ls.map (·.text)).foldl appendLine text), some name⟩ := by
  induction ls generalizing text with
  | nil => rfl
  | cons l ls ih =>
      have hl : addLine depth ⟨t.insert name text, some name⟩ l =
          ⟨t.insert name (appendLine text l.text), some name⟩ := by
        simp [addLine, hd l List.mem_cons_self, addSetting, Table.insert_insert]
      rw [List.foldl_cons, hl, ih fun k hk => hd k (List.mem_cons_of_mem l hk)]
      rfl

theorem addLine_header (h : IsKey name) (number : Nat) :
    addLine depth es ⟨number, depth, header name⟩ = ⟨es.table.insert name "", some name⟩ := by
  have hi : (⟨number, depth, header name⟩ : Line).isItem = false :=
    Line.isItem_of_head? h.isHead_header.2
  have he : event ⟨number, depth, header name⟩ = (name, "") := by
    rw [event, hi, of?_header h]
    rfl
  have hn : name ≠ "" := fun hn => h.nonempty (by rw [hn]; rfl)
  simp [addLine, addEvent, he, hn]

/-- The lines of an event add it with its setting. -/
theorem foldl_event (h : IsKey name) {setting : String}
    (hs : IsSetting setting) :
    (((o.event depth name setting).rows depth).map (Line.ofRaw tabWidth 0)).foldl
      (addLine depth) es = ⟨es.table.insert name setting, some name⟩ := by
  have hl : ((Layout.settingLines setting).map (row (depth + o.unit))).map (Line.ofRaw tabWidth 0) =
      (Layout.settingLines setting).map fun l => ⟨0, depth + o.unit, l⟩ := by
    rw [List.map_map]
    refine List.map_congr_left fun l hm => ?_
    exact Line.ofRaw_row (isTight_of_trim_eq (hs l hm).1 (hs l hm).2.1)
  rw [Block.rows, List.map_cons, Layout.event, Line.ofRaw_row h.isHead_header.1.toIsTight, hl,
    List.foldl_cons, addLine_header h, foldl_addSetting, List.map_map]
  · rw [show (fun l : Line => l.text) ∘ (fun l => ⟨0, depth + o.unit, l⟩) = fun l => l from rfl,
      List.map_id', foldl_settingLines hs]
  · intro l hm
    obtain ⟨cs, -, rfl⟩ := List.mem_map.mp hm
    exact Nat.lt_add_of_pos_right o.unit_pos

theorem foldl_events {entries : List (String × String)}
    (h : ∀ e ∈ entries, IsKey e.1 ∧ IsSetting e.2) :
    ((((entries.map fun e => o.event depth e.1 e.2).flatMap (Block.rows depth)).map
      (Line.ofRaw tabWidth 0)).foldl (addLine depth) es).table = es.table.insertMany entries := by
  induction entries generalizing es with
  | nil => rfl
  | cons e entries ih =>
      have he := h e List.mem_cons_self
      rw [List.map_cons, List.flatMap_cons, List.map_append, List.foldl_append,
        foldl_event he.1 he.2, ih fun f hf => h f (List.mem_cons_of_mem e hf)]
      rfl

end Events

namespace Layout

variable {o : Layout} {depth tabWidth : Nat} {t : Table String}

theorem not_mem_of_mem_settingLines {setting : String} {l : List Char}
    (h : l ∈ settingLines setting) : '\n' ∉ l := by
  rw [settingLines] at h
  split at h
  · cases h
  · exact not_mem_of_mem_splitOn h

theorem isField_event {name setting : String} (h : IsKey name)
    (hs : IsSetting setting) :
    (o.event depth name setting).IsField (fun _ => .nested) depth := by
  refine ⟨⟨h.isHead_header.1, fun r hr => ?_, fun r hr => ?_, Or.inr (by simp)⟩, h.isHead_header.2⟩
  · obtain ⟨l, hl, rfl⟩ := List.mem_map.mp hr
    have ht := isTight_of_trim_eq (hs l hl).1 (hs l hl).2.1
    exact isRow_row (not_mem_of_mem_settingLines hl) ht.getLast?_ne
  · obtain ⟨l, -, rfl⟩ := List.mem_map.mp hr
    exact isDeeper_row (Nat.lt_add_of_pos_right o.unit_pos) l

theorem isField_of_mem_events (h : ∀ e ∈ t.entries, IsKey e.1 ∧ IsSetting e.2) :
    ∀ b ∈ t.entries.map fun e => o.event depth e.1 e.2, b.IsField (fun _ => .nested) depth := by
  intro b hb
  obtain ⟨e, he, rfl⟩ := List.mem_map.mp hb
  exact isField_event (h e he).1 (h e he).2

theorem isSignificant_of_mem_events
    (h : ∀ e ∈ t.entries, IsKey e.1 ∧ IsSetting e.2) :
    ∀ l ∈ (o.events depth t).map (Line.ofRaw tabWidth 0), l.isSignificant = true := by
  intro l hl
  rw [events, List.flatMap_map, List.map_flatMap] at hl
  obtain ⟨e, he, hl⟩ := List.mem_flatMap.mp hl
  rw [Block.rows, List.map_cons] at hl
  rcases List.mem_cons.mp hl with rfl | hl
  · have hh := (h e he).1.isHead_header.1
    rw [event, Line.ofRaw_row hh.toIsTight]
    exact Line.isSignificant_of_isHead hh
  · rw [event, List.map_map] at hl
    obtain ⟨cs, hcs, rfl⟩ := List.mem_map.mp hl
    obtain ⟨hn, ht, hc⟩ := (h e he).2 cs hcs
    rw [Function.comp_apply, Line.ofRaw_row (isTight_of_trim_eq hn ht)]
    exact Line.isSignificant_of_isHead ⟨isTight_of_trim_eq hn ht, hc, not_mem_of_mem_settingLines hcs⟩

/-- The triggers are read back from the rows below their key. -/
theorem triggers_rows (h : ∀ e ∈ t.entries, IsKey e.1 ∧ IsSetting e.2) :
    triggers [] ((o.events depth t).map (Line.ofRaw tabWidth 0)) ∅ = t := by
  have hf : ((o.events depth t).map (Line.ofRaw tabWidth 0)).filter (·.isSignificant) =
      (o.events depth t).map (Line.ofRaw tabWidth 0) :=
    List.filter_eq_self.mpr (isSignificant_of_mem_events h)
  have ht : (((o.events depth t).map (Line.ofRaw tabWidth 0)).foldl (Events.addLine depth)
      ⟨∅, none⟩).table = t := (Events.foldl_events h).trans t.insertMany_entries
  have hi : ∀ l, ((o.events depth t).map (Line.ofRaw tabWidth 0)).head? = some l →
      l.indent = depth := by
    intro l hl
    rw [events] at hl
    cases he : t.entries with
    | nil => simp [he] at hl
    | cons e es =>
        have hh := (h e (he ▸ List.mem_cons_self)).1.isHead_header.1
        rw [he, List.map_cons, List.flatMap_cons, Block.rows, List.cons_append, List.map_cons,
          List.head?_cons, event, Line.ofRaw_row hh.toIsTight] at hl
        cases hl
        rfl
  rw [triggers, hf]
  cases hL : (o.events depth t).map (Line.ofRaw tabWidth 0) with
  | nil =>
      rw [hL] at ht
      exact ht
  | cons first rest =>
      rw [hL] at ht hi
      simp only [hi first rfl]
      exact ht

end Layout

end WorkflowLint
