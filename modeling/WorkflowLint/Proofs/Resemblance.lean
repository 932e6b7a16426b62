import Mathlib.Data.List.Forall2
import Mathlib.Data.List.TakeWhile
import WorkflowLint.Workflow.Document

/-!
# Documents that resemble each other

What a document says does not depend on how its lines are numbered, on how far to the right all of
them stand, on the width of blank lines, on blank lines at its end, or on the words of comments at
the margin. Every level of reading is shown to make the same of two documents that differ in nothing
else, up to the workflow itself. A number is only repeated in the error on the line that has it.
-/
namespace WorkflowLint

variable {f : Nat → Nat} {k tabWidth : Nat} {ls ms : List Line}

/-! ## Lines -/

/-- The line with another number, further to the right. -/
def Line.move (f : Nat → Nat) (k : Nat) (l : Line) : Line :=
  ⟨f l.number, l.indent + k, l.text⟩

def Line.renumber (f : Nat → Nat) : Line → Line :=
  Line.move f 0

@[simp] theorem Line.indent_move (l : Line) : (l.move f k).indent = l.indent + k := rfl

@[simp] theorem Line.text_move (l : Line) : (l.move f k).text = l.text := rfl

@[simp] theorem Line.isBlank_move (l : Line) : (l.move f k).isBlank = l.isBlank := rfl

@[simp] theorem Line.isItem_move (l : Line) : (l.move f k).isItem = l.isItem := rfl

@[simp] theorem Line.isSignificant_move (l : Line) :
    (l.move f k).isSignificant = l.isSignificant := rfl

theorem Line.isSignificant_of_isBlank {l : Line} (h : l.isBlank = true) :
    l.isSignificant = false := by
  simp [isSignificant, h]

theorem Line.isBlank_of_isComment {l : Line} (h : l.isComment = true) : l.isBlank = false := by
  unfold isComment at h
  cases ht : l.text with
  | nil => simp [ht] at h
  | cons c cs => simp [isBlank, ht]

/-- What may stand for a line in a document that resembles the one of the line. -/
inductive Line.Resembles (f : Nat → Nat) (k : Nat) : Line → Line → Prop
  | moved (l : Line) : Resembles f k l (l.move f k)
  | blank {l m : Line} (hl : l.isBlank = true) (hm : m.isBlank = true) : Resembles f k l m
  /-- No block scalar reaches over a comment at the margin. -/
  | comment {l m : Line} (hl : l.isComment = true) (hm : m.isComment = true)
      (hi : l.indent = 0) (hk : m.indent ≤ k) : Resembles f k l m

namespace Line.Resembles

variable {l m : Line}

theorem isBlank_eq (h : l.Resembles f k m) : m.isBlank = l.isBlank := by
  cases h with
  | moved => rfl
  | blank hl hm => rw [hl, hm]
  | comment hl hm => rw [isBlank_of_isComment hl, isBlank_of_isComment hm]

theorem isSignificant_eq (h : l.Resembles f k m) : m.isSignificant = l.isSignificant := by
  cases h with
  | moved => rfl
  | blank hl hm => rw [isSignificant_of_isBlank hl, isSignificant_of_isBlank hm]
  | comment hl hm => simp [isSignificant, hl, hm]

theorem eq_move (h : l.Resembles f k m) (hs : l.isSignificant = true) : m = l.move f k := by
  cases h with
  | moved => rfl
  | blank hl => simp [isSignificant, hl] at hs
  | comment hl => simp [isSignificant, hl] at hs

/-- Also comments that are not at the margin keep their words. -/
theorem eq_move_of_pos (h : l.Resembles f k m) (hb : l.isBlank = false) (hi : 0 < l.indent) :
    m = l.move f k := by
  cases h with
  | moved => rfl
  | blank hl => simp [hl] at hb
  | comment _ _ hz => omega

theorem owns_eq (h : l.Resembles f k m) (e : Extent) (head : Line) :
    e.owns (head.move f k) m = e.owns head l := by
  cases h with
  | moved =>
      have he : (head.indent + k == l.indent + k) = (head.indent == l.indent) := by
        rw [Bool.eq_iff_iff, beq_iff_eq, beq_iff_eq, Nat.add_right_cancel_iff]
      cases e <;> simp [Extent.owns, he]
  | blank hl hm =>
      cases e <;> simp [Extent.owns, hl, hm, isSignificant_of_isBlank]
  | comment hl hm hz hk =>
      have hd : ¬head.indent + k < m.indent := by omega
      cases e <;>
        simp [Extent.owns, isSignificant, hl, hm, isBlank_of_isComment, hz, hd]

end Line.Resembles

/-- The lines of the second document are those of the first one in other places. -/
inductive Resemble (f : Nat → Nat) (k : Nat) : List Line → List Line → Prop
  | blank {ls ms : List Line} (hl : ∀ l ∈ ls, l.isBlank = true)
      (hm : ∀ m ∈ ms, m.isBlank = true) : Resemble f k ls ms
  | cons {l m : Line} {ls ms : List Line} (h : l.Resembles f k m) (t : Resemble f k ls ms) :
      Resemble f k (l :: ls) (m :: ms)

namespace Resemble

theorem nil : Resemble f k [] [] :=
  blank (by simp) (by simp)

theorem map_move (f : Nat → Nat) (k : Nat) (ls : List Line) :
    Resemble f k ls (ls.map (Line.move f k)) := by
  induction ls with
  | nil => exact nil
  | cons l ls ih => exact cons (.moved l) ih

theorem significant_eq (h : Resemble f k ls ms) :
    ms.filter (·.isSignificant) = (ls.filter (·.isSignificant)).map (Line.move f k) := by
  induction h with
  | blank hl hm =>
      rw [List.filter_eq_nil_iff.mpr fun m h => by simp [Line.isSignificant_of_isBlank (hm m h)],
        List.filter_eq_nil_iff.mpr fun l h => by simp [Line.isSignificant_of_isBlank (hl l h)]]
      rfl
  | @cons l m ls ms h t ih =>
      rw [List.filter_cons, List.filter_cons, h.isSignificant_eq, ih]
      split
      · rename_i hs
        rw [h.eq_move hs, List.map_cons]
      · rfl

variable {p q : Line → Bool}

theorem takeWhile (hp : ∀ l m, l.Resembles f k m → q m = p l) (h : Resemble f k ls ms) :
    Resemble f k (ls.takeWhile p) (ms.takeWhile q) := by
  induction h with
  | blank hl hm =>
      exact blank (fun l h => hl l (List.takeWhile_subset _ h))
        fun m h => hm m (List.takeWhile_subset _ h)
  | cons h t ih =>
      rw [List.takeWhile_cons, List.takeWhile_cons, hp _ _ h]
      split
      · exact cons h ih
      · exact nil

theorem dropWhile (hp : ∀ l m, l.Resembles f k m → q m = p l) (h : Resemble f k ls ms) :
    Resemble f k (ls.dropWhile p) (ms.dropWhile q) := by
  induction h with
  | blank hl hm =>
      exact blank (fun l h => hl l (List.dropWhile_subset _ h))
        fun m h => hm m (List.dropWhile_subset _ h)
  | cons h t ih =>
      rw [List.dropWhile_cons, List.dropWhile_cons, hp _ _ h]
      split
      · exact ih
      · exact cons h t

end Resemble

/-! ## Sections -/

/-- A section in another place, with what it owns. -/
structure Section.Resembles (f : Nat → Nat) (k : Nat) (extent : Line → Extent) (s u : Section) :
    Prop where
  head : u.head = s.head.move f k
  body : Resemble f k s.body u.body
  owned : ∀ l ∈ s.body, (extent s.head).owns s.head l = true

namespace Section

variable {extent : Line → Extent} {R : Section → Section → Prop}

theorem cut_resembles (hx : ∀ l, extent (l.move f k) = extent l) (h : Resemble f k ls ms)
    (head : Line) :
    (cut extent head ls).1.Resembles f k extent (cut extent (head.move f k) ms).1 ∧
      Resemble f k (cut extent head ls).2 (cut extent (head.move f k) ms).2 := by
  have hp : ∀ l m, l.Resembles f k m →
      (extent (head.move f k)).owns (head.move f k) m = (extent head).owns head l := by
    intro l m h
    rw [hx, h.owns_eq]
  refine ⟨⟨rfl, h.takeWhile hp, fun l hl => ?_⟩, h.dropWhile hp⟩
  exact List.mem_takeWhile_imp (p := fun l => (extent head).owns head l) hl

theorem cutAll_eq_nil (h : ∀ l ∈ ls, l.isSignificant = false) : cutAll extent ls = [] := by
  induction ls with
  | nil => simp [cutAll]
  | cons l ls ih =>
      rw [cutAll, if_neg (by simp [h l]), ih fun m hm => h m (List.mem_cons_of_mem l hm)]

theorem cutAll_resembles (hx : ∀ l, extent (l.move f k) = extent l) (h : Resemble f k ls ms) :
    List.Forall₂ (Resembles f k extent) (cutAll extent ls) (cutAll extent ms) := by
  fun_induction cutAll extent ls generalizing ms with
  | case1 =>
      cases h with
      | blank _ hm =>
          rw [cutAll_eq_nil fun m h => Line.isSignificant_of_isBlank (hm m h)]
          exact .nil
  | case2 l ls hs ih =>
      cases h with
      | blank hl => simp [Line.isSignificant_of_isBlank (hl l List.mem_cons_self)] at hs
      | @cons _ m _ ms h t =>
          obtain rfl := h.eq_move hs
          have hc := cut_resembles hx t l
          rw [cutAll, if_pos (by simpa using hs)]
          exact .cons hc.1 (ih hc.2)
  | case3 l ls hs ih =>
      cases h with
      | blank hl hm => exact ih (.blank (fun m h => hl m (List.mem_cons_of_mem l h)) hm)
      | cons h t =>
          rw [cutAll, if_neg (by rwa [h.isSignificant_eq])]
          exact ih t

theorem cutAll_const_resembles (e : Extent) (h : Resemble f k ls ms) :
    List.Forall₂ (Resembles f k fun _ => e) (cutAll (fun _ => e) ls) (cutAll (fun _ => e) ms) :=
  cutAll_resembles (fun _ => rfl) h

theorem filter_resembles {ss us : List Section} {p q : Line → Bool}
    (hp : ∀ l, q (l.move f k) = p l) (h : List.Forall₂ (Resembles f k extent) ss us) :
    List.Forall₂ (Resembles f k extent) (ss.filter fun s => p s.head)
      (us.filter fun u => q u.head) :=
  List.rel_filter (fun s u h => by simp only [h.head, hp]) h

theorem level_resembles {ss us : List Section} (h : List.Forall₂ (Resembles f k extent) ss us) :
    List.Forall₂ (Resembles f k extent) (level ss) (level us) := by
  cases h with
  | nil => exact .nil
  | @cons s u ss us h t =>
      exact filter_resembles (p := fun l => l.indent ≤ s.head.indent)
        (q := fun l => l.indent ≤ u.head.indent) (fun l => by simp [h.head]) (.cons h t)

end Section

/-! ## Lists of parts that resemble each other -/

section Parts

variable {α β γ δ ε ε' : Type} {R : α → β → Prop} {as : List α} {bs : List β}

theorem map_eq_of_forall₂ {g : α → γ} {g' : β → γ} (h : List.Forall₂ R as bs)
    (hg : ∀ a ∈ as, ∀ b, R a b → g' b = g a) : bs.map g' = as.map g := by
  induction h with
  | nil => rfl
  | @cons a b as bs hab t ih =>
      rw [List.map_cons, List.map_cons, hg a List.mem_cons_self b hab,
        ih fun c hc => hg c (List.mem_cons_of_mem a hc)]

theorem foldl_eq_of_forall₂ {g : δ → α → δ} {g' : δ → β → δ} (h : List.Forall₂ R as bs)
    (hg : ∀ x a b, R a b → g' x b = g x a) (x : δ) : bs.foldl g' x = as.foldl g x := by
  induction h generalizing x with
  | nil => rfl
  | cons hab t ih => rw [List.foldl_cons, List.foldl_cons, hg x _ _ hab, ih]

/-- A fold whose steps fail with translated errors fails with the translated error. -/
theorem foldlM_mapError_of_forall₂ {g : δ → α → Except ε δ} {g' : δ → β → Except ε' δ}
    {e : ε → ε'} (h : List.Forall₂ R as bs)
    (hg : ∀ x a b, R a b → g' x b = (g x a).mapError e) (x : δ) :
    bs.foldlM g' x = (as.foldlM g x).mapError e := by
  induction h generalizing x with
  | nil => rfl
  | @cons a b as bs hab t ih =>
      rw [List.foldlM_cons, List.foldlM_cons, hg x a b hab]
      cases g x a with
      | error _ => rfl
      | ok y => exact ih y

end Parts

/-! ## Values -/

namespace BlockStyle

theorem body_eq_nil (h : ∀ l ∈ ls, l.isBlank = true) : body ls = [] := by
  rw [body, List.reverse_eq_nil_iff, List.dropWhile_eq_nil_iff]
  exact fun l hl => h l (List.mem_reverse.mp hl)

theorem body_cons (l : Line) (ls : List Line) :
    body (l :: ls) = if body ls = [] ∧ l.isBlank = true then [] else l :: body ls := by
  simp only [body, List.reverse_cons, List.dropWhile_append, List.reverse_eq_nil_iff]
  by_cases hd : ls.reverse.dropWhile (·.isBlank) = []
  · by_cases hb : l.isBlank = true <;> simp [hd, hb]
  · simp [hd]

theorem body_subset (ls : List Line) : body ls ⊆ ls := by
  intro l hl
  exact List.mem_reverse.mp (List.dropWhile_subset _ (List.mem_reverse.mp hl))

theorem body_resembles (h : Resemble f k ls ms) :
    List.Forall₂ (Line.Resembles f k) (body ls) (body ms) := by
  induction h with
  | blank hl hm =>
      rw [body_eq_nil hl, body_eq_nil hm]
      exact .nil
  | @cons l m ls ms h t ih =>
      have hn : body ms = [] ↔ body ls = [] := by
        rw [← List.length_eq_zero_iff, ← List.length_eq_zero_iff, ih.length_eq]
      rw [body_cons, body_cons, h.isBlank_eq]
      simp only [hn]
      split
      · exact .nil
      · exact .cons h ih

/-- The indentation of a block that can hold no comment at the margin moves with the block. -/
theorem shown_eq (h : Resemble f k ls ms) (hd : ∀ l ∈ ls, l.isBlank = true ∨ 0 < l.indent) :
    ms.filter (!·.isBlank) = (ls.filter (!·.isBlank)).map (Line.move f k) := by
  induction h with
  | blank hl hm =>
      rw [List.filter_eq_nil_iff.mpr fun m h => by simp [hm m h],
        List.filter_eq_nil_iff.mpr fun l h => by simp [hl l h]]
      rfl
  | @cons l m ls ms h t ih =>
      rw [List.filter_cons, List.filter_cons, h.isBlank_eq,
        ih fun n hn => hd n (List.mem_cons_of_mem l hn)]
      split
      · rename_i hb
        have hb : l.isBlank = false := by simpa using hb
        have hi : 0 < l.indent := (hd l List.mem_cons_self).resolve_left (by simp [hb])
        rw [h.eq_move_of_pos hb hi, List.map_cons]
      · rfl

theorem min?_map_add (is : List Nat) (k : Nat) :
    (is.map (· + k)).min? = is.min?.map (· + k) := by
  cases hm : is.min? with
  | none => simp [List.min?_eq_none_iff.mp hm]
  | some i =>
      obtain ⟨hi, hle⟩ := List.min?_eq_some_iff.mp hm
      refine List.min?_eq_some_iff.mpr ⟨List.mem_map.mpr ⟨i, hi, rfl⟩, fun j hj => ?_⟩
      obtain ⟨n, hn, rfl⟩ := List.mem_map.mp hj
      exact Nat.add_le_add_right (hle n hn) k

theorem margin_eq_add (h : Resemble f k ls ms) (hd : ∀ l ∈ ls, l.isBlank = true ∨ 0 < l.indent)
    {l : Line} (hl : l ∈ ls) (hb : l.isBlank = false) : margin ms = margin ls + k := by
  have hm : ((ms.filter (!·.isBlank)).map (·.indent)) =
      ((ls.filter (!·.isBlank)).map (·.indent)).map (· + k) := by
    rw [shown_eq h hd, List.map_map, List.map_map]
    rfl
  rw [margin, margin, hm, min?_map_add]
  cases hi : ((ls.filter (!·.isBlank)).map (·.indent)).min? with
  | some i => rfl
  | none =>
      have he := List.map_eq_nil_iff.mp (List.min?_eq_none_iff.mp hi)
      exact absurd (List.filter_eq_nil_iff.mp he l hl) (by simp [hb])

theorem text_resembles (style : BlockStyle) (h : Resemble f k ls ms)
    (hd : ∀ l ∈ ls, l.isBlank = true ∨ 0 < l.indent) : style.text ms = style.text ls := by
  have hr : ∀ l ∈ body ls, ∀ m, l.Resembles f k m → row (margin ms) m = row (margin ls) l := by
    intro l hl m hm
    have hl := body_subset ls hl
    rw [row, row, hm.isBlank_eq]
    split
    · rfl
    · rename_i hb
      have hb : l.isBlank = false := by simpa using hb
      have hi : 0 < l.indent := (hd l hl).resolve_left (by simp [hb])
      rw [hm.eq_move_of_pos hb hi, margin_eq_add h hd hl hb, Line.indent_move, Line.text_move,
        Nat.add_sub_add_right]
  rw [text, text, map_eq_of_forall₂ (body_resembles h) hr]

end BlockStyle

theorem scalar_resembles {value : List Char} {head : Line} (h : Resemble f k ls ms)
    (ho : ∀ l ∈ ls, (Extent.ofValue value).owns head l = true) :
    scalar value ms = scalar value ls := by
  cases hs : BlockStyle.of? value with
  | none => simp only [scalar, hs]
  | some style =>
      simp only [scalar, hs]
      refine BlockStyle.text_resembles style h fun l hl => ?_
      have hl := ho l hl
      simp only [Extent.ofValue, hs, Option.isSome_some, if_true, Extent.owns, Bool.or_eq_true,
        decide_eq_true_eq] at hl
      exact hl.imp_right Nat.zero_lt_of_lt

theorem items_resembles (h : Resemble f k ls ms) : items ms = items ls := by
  have hi : ∀ ls, items ls = ((ls.filter (·.isSignificant)).filter (·.isItem)).filterMap fun l =>
      nonEmpty (Entry.clean (itemContent l.text)) := fun ls => by
    simp [items, List.filter_filter, Bool.and_comm]
  rw [hi, hi, h.significant_eq, List.filter_map, List.filterMap_map]
  rfl

theorem entryLines_resembles (h : Resemble f k ls ms) :
    entryLines ms = (entryLines ls).map (Line.move f k) := by
  rw [entryLines, entryLines, List.map_map]
  exact map_eq_of_forall₂ (Section.level_resembles (Section.cutAll_const_resembles .alone h))
    fun s _ u hs => hs.head

theorem mapping_resembles (value : List Char) (h : Resemble f k ls ms) (t : Table String) :
    mapping value ms t = mapping value ls t := by
  simp only [mapping, entryLines_resembles h, List.filterMap_map]
  rfl

theorem Events.addLine_move (depth : Nat) (es : Events) (l : Line) :
    es.addLine (depth + k) (l.move f k) = es.addLine depth l := by
  simp only [addLine, Line.indent_move, Nat.add_lt_add_iff_right]
  rfl

theorem triggers_resembles (value : List Char) (h : Resemble f k ls ms) (t : Table String) :
    triggers value ms t = triggers value ls t := by
  simp only [triggers, h.significant_eq]
  cases ls.filter (·.isSignificant) with
  | nil => rfl
  | cons first rest =>
      simp only [List.map_cons, List.foldl_cons, List.foldl_map, Line.indent_move,
        Events.addLine_move]

/-! ## Steps -/

namespace Step

theorem Key.set_resembles {value : List Char} {head : Line} {key : Key} (h : Resemble f k ls ms)
    (ho : ∀ l ∈ ls, (key.extent value).owns head l = true) (s : Step) :
    key.set value ms s = key.set value ls s := by
  cases key with
  | name | uses => rfl
  | run | condition => simp only [Key.set, scalar_resembles h ho]
  | arguments | env => simp only [Key.set, mapping_resembles value h]

theorem readField_resembles {field other : Section} (h : field.Resembles f k extent other)
    (s : Step) : readField s other = readField s field := by
  have hf : field? other.head = field? field.head := by rw [h.head]; rfl
  simp only [readField, hf]
  cases he : field? field.head with
  | none => rfl
  | some e =>
      obtain ⟨key, value⟩ := e
      have hx : extent field.head = key.extent value := by simp only [extent, he]
      exact Key.set_resembles h.body (hx ▸ h.owned) s

theorem contentLine_move (dash : Line) :
    contentLine tabWidth (dash.move f k) = (contentLine tabWidth dash).move f k := by
  have hi : dash.indent + k + 1 + Line.width tabWidth (dash.text.drop 1) =
      dash.indent + 1 + Line.width tabWidth (dash.text.drop 1) + k := by omega
  simp only [contentLine, Line.move, hi]

theorem fields_resembles {item other : Section}
    (h : item.Resembles f k (fun _ => .nested) other) :
    List.Forall₂ (Section.Resembles f k extent) (fields tabWidth item) (fields tabWidth other) := by
  have hx : ∀ l : Line, extent (l.move f k) = extent l := fun _ => rfl
  simp only [fields, h.head, contentLine_move, Line.text_move]
  split
  · exact Section.level_resembles (Section.cutAll_resembles hx h.body)
  · have hc := Section.cut_resembles hx h.body (contentLine tabWidth item.head)
    exact Section.level_resembles (.cons hc.1 (Section.cutAll_resembles hx hc.2))

theorem readAll_resembles (h : Resemble f k ls ms) : readAll tabWidth ms = readAll tabWidth ls := by
  have hs := Section.cutAll_const_resembles .nested h
  refine map_eq_of_forall₂ (Section.filter_resembles Line.isItem_move hs) fun item _ other ho => ?_
  exact foldl_eq_of_forall₂ (fields_resembles ho) (fun s _ _ hf => readField_resembles hf s) blank

end Step

/-! ## Jobs and workflows -/

def SyntaxError.renumber (f : Nat → Nat) (e : SyntaxError) : SyntaxError :=
  { e with line := f e.line }

namespace Job

theorem Key.set_resembles {value : List Char} {head : Line} {key : Key} (h : Resemble f k ls ms)
    (ho : ∀ l ∈ ls, (key.extent value).owns head l = true) (j : Job) :
    key.set tabWidth (head.move f k) value ms j =
      (key.set tabWidth head value ls j).mapError (SyntaxError.renumber f) := by
  cases key with
  | name => rfl
  | timeout =>
      simp only [Key.set, Job.timeout]
      split <;> rfl
  | condition =>
      simp only [Key.set, scalar_resembles h ho]
      rfl
  | runsOn | needs =>
      simp only [Key.set, runner, needed, items_resembles h]
      rfl
  | permissions | env =>
      simp only [Key.set, mapping_resembles value h]
      rfl
  | steps =>
      simp only [Key.set, Step.readAll_resembles h]
      rfl

theorem readField_resembles {field other : Section} (h : field.Resembles f k extent other)
    (j : Job) : readField tabWidth j other =
      (readField tabWidth j field).mapError (SyntaxError.renumber f) := by
  have hf : field? other.head = field? field.head := by rw [h.head]; rfl
  simp only [readField, hf]
  cases he : field? field.head with
  | none => rfl
  | some e =>
      obtain ⟨key, value⟩ := e
      have hx : extent field.head = key.extent value := by simp only [extent, he]
      rw [h.head]
      exact Key.set_resembles h.body (hx ▸ h.owned) j

theorem read_resembles (h : Resemble f k ls ms) :
    read tabWidth ms = (read tabWidth ls).mapError (SyntaxError.renumber f) :=
  foldlM_mapError_of_forall₂ (Section.level_resembles (Section.cutAll_resembles (fun _ => rfl) h))
    (fun j _ _ hf => readField_resembles hf j) blank

theorem addTo_resembles {s u : Section} (h : s.Resembles f k (fun _ => .nested) u)
    (jobs : Table Job) : addTo tabWidth jobs u =
      (addTo tabWidth jobs s).mapError (SyntaxError.renumber f) := by
  simp only [addTo, h.head, Line.text_move, read_resembles h.body]
  split
  · cases read tabWidth s.body <;> rfl
  · rfl

theorem readAll_resembles (h : Resemble f k ls ms) (jobs : Table Job) :
    readAll tabWidth ms jobs = (readAll tabWidth ls jobs).mapError (SyntaxError.renumber f) :=
  foldlM_mapError_of_forall₂ (Section.cutAll_const_resembles .nested h)
    (fun jobs _ _ hs => addTo_resembles hs jobs) jobs

end Job

namespace Workflow

theorem Key.set_resembles (value : List Char) (h : Resemble f k ls ms) (w : Workflow) (key : Key) :
    key.set tabWidth value ms w =
      (key.set tabWidth value ls w).mapError (SyntaxError.renumber f) := by
  cases key with
  | name => rfl
  | triggers =>
      simp only [Key.set, triggers_resembles value h]
      rfl
  | permissions | env =>
      simp only [Key.set, mapping_resembles value h]
      rfl
  | jobs =>
      simp only [Key.set, Job.readAll_resembles h]
      cases Job.readAll tabWidth ls w.jobs <;> rfl

theorem readSection_resembles {s u : Section} (h : s.Resembles f k extent u) (w : Workflow) :
    readSection tabWidth w u = (readSection tabWidth w s).mapError (SyntaxError.renumber f) := by
  have hf : field? u.head = field? s.head := by rw [h.head]; rfl
  simp only [readSection, hf]
  split
  · exact Key.set_resembles _ h.body w _
  · rfl

/-- Documents that resemble each other describe the same workflow, or have the same error on lines
that stand for each other. -/
theorem read_resembles (h : Resemble f k ls ms) :
    read tabWidth ms = (read tabWidth ls).mapError (SyntaxError.renumber f) :=
  foldlM_mapError_of_forall₂ (Section.cutAll_resembles (fun _ => rfl) h)
    (fun w _ _ hs => readSection_resembles hs w) blank

/-- Other numbers for the lines change nothing but the number in an error. -/
theorem read_renumber (tabWidth : Nat) (ls : List Line) :
    read tabWidth (ls.map (Line.renumber f)) =
      (read tabWidth ls).mapError (SyntaxError.renumber f) :=
  read_resembles (Resemble.map_move f 0 ls)

end Workflow

end WorkflowLint
