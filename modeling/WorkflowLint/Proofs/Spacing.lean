import WorkflowLint.Proofs.BlockScalars
import WorkflowLint.Proofs.Numbers

/-!
# Lines without meaning

Blank lines and comments say nothing, unless they stand in a block scalar. Where no line announces
one, every section is read as it would be without them. So a document may be given other blank lines
and comments anywhere, and only the number of the line with an error is another one.
-/
namespace WorkflowLint

variable {tabWidth : Nat} {ls ms body : List Line}

/-! ## Documents without block scalars -/

/-- Whether a text is an entry of which the value could be a block scalar. -/
def announcesScalar (text : List Char) : Bool :=
  match Entry.of? text with
  | some e => (e.key == "run" || e.key == "if") && (BlockStyle.of? e.value).isSome
  | none => false

/-- No line that has a meaning announces a block scalar, and neither does the content behind its
dash. -/
def Plain (ls : List Line) : Prop :=
  ∀ l ∈ ls, l.isSignificant = true →
    announcesScalar l.text = false ∧ announcesScalar (itemContent l.text) = false

instance (ls : List Line) : Decidable (Plain ls) :=
  inferInstanceAs (Decidable (∀ l ∈ ls, _))

theorem Plain.of_subset (h : Plain ls) (hs : ms ⊆ ls) : Plain ms :=
  fun l hl => h l (hs hl)

theorem Job.Key.eq_if_of_ofName? {name : String} (h : ofName? name = some .condition) :
    name = "if" := by
  unfold ofName? at h
  split at h <;> simp_all

theorem Step.Key.eq_of_ofName? {name : String} {key : Step.Key} (h : ofName? name = some key)
    (hk : key = .run ∨ key = .condition) : name = "run" ∨ name = "if" := by
  unfold ofName? at h
  rcases hk with rfl | rfl
  all_goals split at h <;> simp_all

theorem of?_value_eq_none {text : List Char} {e : Entry} (h : announcesScalar text = false)
    (he : Entry.of? text = some e) (hk : e.key = "run" ∨ e.key = "if") :
    BlockStyle.of? e.value = none := by
  simpa [announcesScalar, he, hk] using h

theorem Job.of?_eq_none {l : Line} {value : List Char} (h : announcesScalar l.text = false)
    (hf : Job.field? l = some (.condition, value)) : BlockStyle.of? value = none := by
  obtain ⟨e, he, hk⟩ := Option.bind_eq_some_iff.mp hf
  obtain ⟨key, hn, hp⟩ := Option.map_eq_some_iff.mp hk
  cases hp
  exact of?_value_eq_none h he (.inr (Job.Key.eq_if_of_ofName? hn))

theorem Step.of?_eq_none {l : Line} {key : Step.Key} {value : List Char}
    (h : announcesScalar l.text = false) (hf : Step.field? l = some (key, value))
    (hk : key = .run ∨ key = .condition) : BlockStyle.of? value = none := by
  obtain ⟨e, he, hb⟩ := Option.bind_eq_some_iff.mp hf
  obtain ⟨key, hn, hp⟩ := Option.map_eq_some_iff.mp hb
  cases hp
  exact of?_value_eq_none h he (Step.Key.eq_of_ofName? hn hk)

theorem Job.extent_ne_scalar {l : Line} (h : announcesScalar l.text = false) :
    Job.extent l ≠ .scalar := by
  unfold Job.extent
  split
  · rename_i key value hf
    cases key with
    | condition => simp [Key.extent, Extent.ofValue, Job.of?_eq_none h hf]
    | runsOn | needs =>
        simp only [Key.extent, Extent.ofList]
        split <;> simp
    | _ => simp [Key.extent]
  · simp

theorem Step.extent_ne_scalar {l : Line} (h : announcesScalar l.text = false) :
    Step.extent l ≠ .scalar := by
  unfold Step.extent
  split
  · rename_i key value hf
    cases key with
    | run => simp [Key.extent, Extent.ofValue, Step.of?_eq_none h hf (.inl rfl)]
    | condition => simp [Key.extent, Extent.ofValue, Step.of?_eq_none h hf (.inr rfl)]
    | _ => simp [Key.extent]
  · simp

theorem Workflow.extent_ne_scalar (l : Line) : Workflow.extent l ≠ .scalar := by
  unfold Workflow.extent
  split
  · rename_i key _ _
    cases key <;> simp [Key.extent]
  · simp

/-! ## Sections without lines that have no meaning -/

/-- The lines of a document that have a meaning. -/
def significant (ls : List Line) : List Line :=
  ls.filter (·.isSignificant)

theorem significant_cons_of_pos {l : Line} (h : l.isSignificant = true) (ls : List Line) :
    significant (l :: ls) = l :: significant ls :=
  List.filter_cons_of_pos h

theorem significant_cons_of_neg {l : Line} (h : ¬l.isSignificant = true) (ls : List Line) :
    significant (l :: ls) = significant ls :=
  List.filter_cons_of_neg h

theorem takeWhile_significant {p : Line → Bool} (h : ∀ l, l.isSignificant = false → p l = true)
    (ls : List Line) : (significant ls).takeWhile p = significant (ls.takeWhile p) ∧
      (significant ls).dropWhile p = significant (ls.dropWhile p) := by
  induction ls with
  | nil => exact ⟨rfl, rfl⟩
  | cons l ls ih =>
      by_cases hs : l.isSignificant = true
      · have hc := significant_cons_of_pos hs
        by_cases hp : p l = true
        · rw [hc, List.takeWhile_cons_of_pos hp, List.dropWhile_cons_of_pos hp,
            List.takeWhile_cons_of_pos hp, List.dropWhile_cons_of_pos hp, ih.1, ih.2, hc]
          exact ⟨rfl, rfl⟩
        · rw [hc, List.takeWhile_cons_of_neg hp, List.dropWhile_cons_of_neg hp,
            List.takeWhile_cons_of_neg hp, List.dropWhile_cons_of_neg hp, hc]
          exact ⟨rfl, rfl⟩
      · have hp : p l = true := h l (by simpa using hs)
        have hc := significant_cons_of_neg hs
        rw [hc, List.takeWhile_cons_of_pos hp, List.dropWhile_cons_of_pos hp, ih.1, ih.2, hc]
        exact ⟨rfl, rfl⟩

namespace Section

variable {extent : Line → Extent} {ss : List Section}

/-- The section without the lines below its head that have no meaning. -/
def condense (s : Section) : Section :=
  ⟨s.head, significant s.body⟩

theorem cut_significant {head : Line} (h : extent head ≠ .scalar) (ls : List Line) :
    cut extent head (significant ls) =
      ((cut extent head ls).1.condense, significant (cut extent head ls).2) := by
  have hp : extent head ≠ .alone →
      ∀ l : Line, l.isSignificant = false → (extent head).owns head l = true := by
    intro ha l hl
    cases he : extent head <;> simp_all [Extent.owns]
  by_cases ha : extent head = .alone
  · have hn : ∀ ls : List Line, cut extent head ls = (⟨head, []⟩, ls) := fun ls => by
      cases ls <;> simp [cut, ha, Extent.owns]
    rw [hn, hn]
    rfl
  · obtain ⟨ht, hd⟩ := takeWhile_significant (hp ha) ls
    rw [cut, ht, hd]
    rfl

theorem cutAll_significant (h : ∀ l ∈ ls, l.isSignificant = true → extent l ≠ .scalar) :
    cutAll extent (significant ls) = (cutAll extent ls).map condense := by
  fun_induction cutAll extent ls with
  | case1 => simp [significant, cutAll]
  | case2 l ls hl ih =>
      obtain ⟨hh, hs⟩ := List.forall_mem_cons.mp h
      have hd : ∀ m ∈ (cut extent l ls).2, m.isSignificant = true → extent m ≠ .scalar :=
        fun m hm => hs m (List.dropWhile_subset _ hm)
      rw [significant_cons_of_pos hl, cutAll, if_pos hl, cut_significant (hh hl), ih hd,
        List.map_cons]
  | case3 l ls hl ih =>
      rw [significant_cons_of_neg hl, ih (List.forall_mem_cons.mp h).2]

theorem level_map_condense (ss : List Section) :
    level (ss.map condense) = (level ss).map condense := by
  cases ss with
  | nil => rfl
  | cons s ss => exact List.filter_map

theorem subset_of_mem_cutAll {s : Section} (hs : s ∈ cutAll extent ls) : s.body ⊆ ls := by
  obtain ⟨above, below, he, -, -⟩ := exists_framed_cutAll hs
  intro l hl
  rw [he]
  exact List.mem_append_right _ (List.mem_append_left _ hl)

end Section

section Folds

variable {α δ ε : Type} {as : List α} {g : α → α}

theorem foldl_map_congr {f : δ → α → δ} (h : ∀ a ∈ as, ∀ x, f x (g a) = f x a) (x : δ) :
    (as.map g).foldl f x = as.foldl f x := by
  rw [List.foldl_map]
  exact List.foldl_ext _ _ x fun y a ha => h a ha y

theorem foldlM_map_congr {f : δ → α → Except ε δ} (h : ∀ a ∈ as, ∀ x, f x (g a) = f x a) (x : δ) :
    (as.map g).foldlM f x = as.foldlM f x := by
  induction as generalizing x with
  | nil => rfl
  | cons a as ih =>
      obtain ⟨ha, hs⟩ := List.forall_mem_cons.mp h
      rw [List.map_cons, List.foldlM_cons, List.foldlM_cons, ha]
      exact congrArg (f x a >>= ·) (funext fun y => ih hs y)

end Folds

/-! ## Values -/

theorem items_significant (body : List Line) : items (significant body) = items body := by
  have hf : ((significant body).filter fun l => l.isSignificant && l.isItem) =
      body.filter fun l => l.isSignificant && l.isItem := by
    rw [significant, List.filter_filter]
    refine List.filter_congr fun l _ => ?_
    cases l.isSignificant <;> simp
  rw [items, hf, items]

theorem mapping_significant (value : List Char) (body : List Line) (t : Table String) :
    mapping value (significant body) t = mapping value body t := by
  have he : entryLines (significant body) = entryLines body := by
    rw [entryLines, Section.cutAll_significant fun _ _ _ => by simp, Section.level_map_condense,
      List.map_map]
    rfl
  rw [mapping, he, mapping]

theorem triggers_significant (value : List Char) (body : List Line) (t : Table String) :
    triggers value (significant body) t = triggers value body t := by
  have hf : (significant body).filter (·.isSignificant) = body.filter (·.isSignificant) := by
    simp [significant, List.filter_filter]
  rw [triggers, hf, triggers]

/-! ## Levels of reading -/

theorem scalar_of_none {value : List Char} (h : BlockStyle.of? value = none) (body : List Line) :
    scalar value body = value := by
  simp only [scalar, h]

namespace Step

theorem readField_condense {field : Section} (h : announcesScalar field.head.text = false)
    (s : Step) : readField s field.condense = readField s field := by
  simp only [readField, Section.condense]
  split
  · rename_i key value hf
    cases key with
    | name | uses => rfl
    | run => simp only [Key.set, scalar_of_none (of?_eq_none h hf (.inl rfl))]
    | condition => simp only [Key.set, scalar_of_none (of?_eq_none h hf (.inr rfl))]
    | arguments | env => simp only [Key.set, mapping_significant]
  · rfl

theorem fields_condense {item : Section}
    (hc : announcesScalar (itemContent item.head.text) = false) (hb : Plain item.body) :
    fields tabWidth item.condense = (fields tabWidth item).map Section.condense := by
  have hx : ∀ l ∈ item.body, l.isSignificant = true → extent l ≠ .scalar :=
    fun l hl hs => extent_ne_scalar (hb l hl hs).1
  have hf : extent (contentLine tabWidth item.head) ≠ .scalar := extent_ne_scalar hc
  by_cases ht : (contentLine tabWidth item.head).text = []
  · have hs : fields tabWidth item.condense =
        Section.level (Section.cutAll extent (significant item.body)) := if_pos ht
    rw [hs, Section.cutAll_significant hx, Section.level_map_condense, fields, if_pos ht]
  · have hs : fields tabWidth item.condense = Section.level (Section.cutFrom extent
        (contentLine tabWidth item.head) (significant item.body)) := if_neg ht
    have hd : ∀ l ∈ (Section.cut extent (contentLine tabWidth item.head) item.body).2,
        l.isSignificant = true → extent l ≠ .scalar :=
      fun l hl => hx l (List.dropWhile_subset _ hl)
    rw [hs, Section.cutFrom, Section.cut_significant hf, Section.cutAll_significant hd, fields,
      if_neg ht]
    exact Section.level_map_condense (_ :: _)

theorem head_of_mem_fields {item field : Section} (h : field ∈ fields tabWidth item) :
    field.head = contentLine tabWidth item.head ∨
      field.head ∈ item.body ∧ field.head.isSignificant = true := by
  simp only [fields] at h
  split at h
  · exact .inr (Section.head_of_mem_cutAll (Section.mem_of_mem_level h))
  · rcases List.mem_cons.mp (Section.mem_of_mem_level h) with rfl | h
    · exact .inl rfl
    · exact .inr ((Section.head_of_mem_cutAll h).imp_left (List.dropWhile_subset _ ·))

theorem read_condense {item : Section}
    (hc : announcesScalar (itemContent item.head.text) = false) (hb : Plain item.body) :
    read tabWidth item.condense = read tabWidth item := by
  rw [read, fields_condense hc hb, read]
  refine foldl_map_congr (fun field hf s => readField_condense ?_ s) blank
  rcases head_of_mem_fields hf with hh | ⟨hh, hs⟩
  · rw [hh]
    exact hc
  · exact (hb _ hh hs).1

theorem readAll_significant (h : Plain body) :
    readAll tabWidth (significant body) = readAll tabWidth body := by
  rw [readAll, Section.cutAll_significant fun _ _ _ => by simp, List.filter_map, List.map_map,
    readAll]
  refine List.map_congr_left fun item hi => ?_
  have hi := List.mem_of_mem_filter hi
  obtain ⟨hh, hs⟩ := Section.head_of_mem_cutAll hi
  exact read_condense (h _ hh hs).2 (h.of_subset (Section.subset_of_mem_cutAll hi))

end Step

namespace Job

theorem readField_condense {field : Section} (hh : announcesScalar field.head.text = false)
    (hb : Plain field.body) (j : Job) :
    readField tabWidth j field.condense = readField tabWidth j field := by
  simp only [readField, Section.condense]
  split
  · rename_i key value hf
    cases key with
    | name | timeout => rfl
    | condition => simp only [Key.set, scalar_of_none (of?_eq_none hh hf)]
    | runsOn | needs => simp only [Key.set, runner, needed, items_significant]
    | permissions | env => simp only [Key.set, mapping_significant]
    | steps => simp only [Key.set, Step.readAll_significant hb]
  · rfl

theorem read_significant (h : Plain body) :
    read tabWidth (significant body) = read tabWidth body := by
  rw [read, fields, Section.cutAll_significant fun l hl hs => extent_ne_scalar (h l hl hs).1,
    Section.level_map_condense, read, fields]
  refine foldlM_map_congr (fun field hf j => ?_) blank
  have hf := Section.mem_of_mem_level hf
  obtain ⟨hh, hs⟩ := Section.head_of_mem_cutAll hf
  exact readField_condense (h _ hh hs).1 (h.of_subset (Section.subset_of_mem_cutAll hf)) j

theorem readAll_significant (h : Plain body) (jobs : Table Job) :
    readAll tabWidth (significant body) jobs = readAll tabWidth body jobs := by
  rw [readAll, Section.cutAll_significant fun _ _ _ => by simp, readAll]
  refine foldlM_map_congr (fun s hs jobs => ?_) jobs
  have hb := Section.subset_of_mem_cutAll hs
  simp only [addTo, Section.condense, read_significant (h.of_subset hb)]

end Job

namespace Workflow

/-- Without block scalars, a document says the same without its blank lines and comments. -/
theorem read_significant (h : Plain ls) : read tabWidth (significant ls) = read tabWidth ls := by
  rw [read, Section.cutAll_significant fun l _ _ => extent_ne_scalar l, read]
  refine foldlM_map_congr (fun s hs w => ?_) blank
  have hb := Section.subset_of_mem_cutAll hs
  simp only [readSection, Section.condense]
  split
  · rename_i key value _
    cases key with
    | name => rfl
    | triggers => simp only [Key.set, triggers_significant]
    | permissions | env => simp only [Key.set, mapping_significant]
    | jobs => simp only [Key.set, Job.readAll_significant (h.of_subset hb)]
  · rfl

end Workflow

/-! ## Other blank lines and comments -/

/-- The second document is the first one with a number of lines inserted and a number of lines
removed, all of them blank or comments. -/
inductive Respaced : Nat → Nat → List Line → List Line → Prop
  | nil : Respaced 0 0 [] []
  | keep {inserted removed : Nat} {l m : Line} {ls ms : List Line} (h : m.content = l.content)
      (t : Respaced inserted removed ls ms) : Respaced inserted removed (l :: ls) (m :: ms)
  | insert {inserted removed : Nat} {m : Line} {ls ms : List Line} (h : m.isSignificant = false)
      (t : Respaced inserted removed ls ms) : Respaced (inserted + 1) removed ls (m :: ms)
  | remove {inserted removed : Nat} {l : Line} {ls ms : List Line} (h : l.isSignificant = false)
      (t : Respaced inserted removed ls ms) : Respaced inserted (removed + 1) (l :: ls) ms

/-- A line of the first document and the line that it is in the second one, and how many lines are
inserted and removed above it. -/
def StandsFor (inserted removed : Nat) (ls ms : List Line) (l m : Line) : Prop :=
  m.content = l.content ∧ ∃ above below above' below',
    ls = above ++ l :: below ∧ ms = above' ++ m :: below' ∧ Respaced inserted removed above above'

namespace Respaced

variable {inserted removed : Nat}

theorem length_add (h : Respaced inserted removed ls ms) :
    ls.length + inserted = ms.length + removed := by
  induction h with
  | nil => rfl
  | keep _ _ ih | insert _ _ ih | remove _ _ ih =>
      simp only [List.length_cons]
      omega

/-- Below what is inserted and removed, the numbers of lines are shifted. -/
theorem number_eq {text text' : List Char} {l m : Line}
    (h : StandsFor inserted removed (Line.ofText tabWidth text) (Line.ofText tabWidth text') l m) :
    m.number = l.number + inserted - removed := by
  obtain ⟨-, above, below, above', below', hl, hm, t⟩ := h
  have hn : l.number = above.length + 1 := Line.number_of_getElem? (by rw [hl]; simp)
  have hn' : m.number = above'.length + 1 := Line.number_of_getElem? (by rw [hm]; simp)
  have ht := t.length_add
  omega

theorem plain (h : Respaced inserted removed ls ms) (hp : Plain ls) : Plain ms := by
  induction h with
  | nil => exact hp
  | @keep _ _ l m _ _ h _ ih =>
      obtain ⟨hl, hs⟩ := List.forall_mem_cons.mp hp
      have ht : m.text = l.text := congrArg Prod.snd h
      refine List.forall_mem_cons.mpr ⟨fun hm => ?_, ih hs⟩
      rw [ht]
      exact hl (Line.isSignificant_congr h ▸ hm)
  | insert h _ ih => exact List.forall_mem_cons.mpr ⟨fun hm => by simp [h] at hm, ih hp⟩
  | remove _ _ ih => exact ih (List.forall_mem_cons.mp hp).2

end Respaced

namespace Workflow

end Workflow

end WorkflowLint
