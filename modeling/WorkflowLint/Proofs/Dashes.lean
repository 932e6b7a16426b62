import WorkflowLint.Proofs.LineByLine
import WorkflowLint.Proofs.Numbers
import WorkflowLint.Proofs.Quotes

/-!
# Fields behind a dash

The first field of a step may stand behind the dash. It is read as if it stood on a line of its own
below the dash, in the column in which it stands.
-/
namespace WorkflowLint

variable {tabWidth : Nat} {gap cs : List Char} {dash bare own : Line} {ls ms : List Line}

/-! ## A dash and what stands behind it -/

namespace Line

/-- The content behind a dash, and the same content on a line of its own below a bare dash. -/
structure Parts (tabWidth : Nat) (gap cs : List Char) (dash bare own : Line) : Prop where
  isGap : ∀ c ∈ gap, c = ' ' ∨ c = '\t'
  trimmed : Text.trim cs = cs
  filled : cs ≠ []
  noComment : cs.head? ≠ some '#'
  dash_eq : dash.text = '-' :: (gap ++ cs)
  bare_eq : bare.content = (dash.indent, ['-'])
  own_eq : own.content = (dash.indent + 1 + width tabWidth gap, cs)

theorem width_gap_append (hg : ∀ c ∈ gap, c = ' ' ∨ c = '\t') {c : Char} (hc : cs.head? = some c)
    (hb : Text.isBlank c = false) : width tabWidth (gap ++ cs) = width tabWidth gap := by
  induction gap with
  | nil => exact Text.width_of_head? hc hb
  | cons g gap ih =>
      obtain ⟨hg, hs⟩ := List.forall_mem_cons.mp hg
      rcases hg with rfl | rfl
      · rw [List.cons_append, width, width, ih hs]
      · rw [List.cons_append, width, width, ih hs]

theorem isBlank_of_mem_gap (hg : ∀ c ∈ gap, c = ' ' ∨ c = '\t') :
    ∀ c ∈ gap, Text.isBlank c = true := by
  intro c hc
  rcases hg c hc with rfl | rfl <;> decide

/-- Lines that show the same are the same lines with other numbers. -/
theorem exists_renumber_of_content_eq (h : ls.map content = ms.map content) :
    ∃ (ks : List Line) (f g : Nat → Nat), ls = ks.map (renumber f) ∧ ms = ks.map (renumber g) := by
  refine ⟨(ls.map content).mapIdx ofContent, numberAt ls, numberAt ms,
    (map_renumber_indices ls).symm, ?_⟩
  rw [h, map_renumber_indices]

/-- What is told of a line without its number picks the same of lines that show the same. -/
theorem pick_of_content_eq {p : Line → Bool} (hp : ∀ l, p l = p (ofContent 0 l.content))
    (h : ls.map content = ms.map content) :
    (ls.takeWhile p).map content = (ms.takeWhile p).map content ∧ ls.findIdx p = ms.findIdx p := by
  have hc : p = (fun shown => p (ofContent 0 shown)) ∘ content := funext hp
  constructor
  · rw [hc, ← List.takeWhile_map, ← List.takeWhile_map, h]
  · rw [hc, ← List.findIdx_map, ← List.findIdx_map, h]

namespace Parts

variable (h : Parts tabWidth gap cs dash bare own)
include h

theorem tight : Text.IsTight cs :=
  Text.isTight_of_trim_eq h.filled h.trimmed

/-- The line that the content is read as shows what the line below the bare dash does. -/
theorem content_eq : (Step.contentLine tabWidth dash).content = own.content := by
  obtain ⟨c, hc, hb⟩ := h.tight.head
  have hi : itemContent dash.text = cs := by
    rw [h.dash_eq]
    show Text.trimStart (gap ++ cs) = cs
    rw [Text.trimStart, List.dropWhile_append_of_pos (isBlank_of_mem_gap h.isGap)]
    exact h.tight.trimStart_eq
  rw [h.own_eq, Line.content, Step.contentLine, hi, h.dash_eq]
  exact congrArg (dash.indent + 1 + ·, cs) (width_gap_append h.isGap hc hb)

theorem isSignificant_own : own.isSignificant = true := by
  have ht : own.text = cs := congrArg Prod.snd h.own_eq
  simp [isSignificant, isBlank, isComment, ht, h.filled, h.noComment]

theorem isSignificant_contentLine : (Step.contentLine tabWidth dash).isSignificant = true :=
  (isSignificant_congr h.content_eq).trans h.isSignificant_own

theorem text_bare : bare.text = ['-'] :=
  congrArg Prod.snd h.bare_eq

theorem indent_bare : bare.indent = dash.indent :=
  congrArg Prod.fst h.bare_eq

theorem indent_lt_own : dash.indent < own.indent := by
  have hi : own.indent = dash.indent + 1 + width tabWidth gap := congrArg Prod.fst h.own_eq
  omega

end Parts

/-- How the lines are written, where `edge` stands before the dash. -/
theorem parts_ofRaw {edge : List Char} (he : ∀ c ∈ edge, c = ' ' ∨ c = '\t')
    (hg : ∀ c ∈ gap, c = ' ' ∨ c = '\t') (ht : Text.trim cs = cs) (hn : cs ≠ [])
    (hc : cs.head? ≠ some '#') (i j k : Nat) :
    Parts tabWidth gap cs (ofRaw tabWidth i (edge ++ '-' :: (gap ++ cs)))
      (ofRaw tabWidth j (edge ++ ['-']))
      (ofRaw tabWidth k (Text.row (width tabWidth edge + 1 + width tabWidth gap) cs)) := by
  have hcs : Text.IsTight cs := Text.isTight_of_trim_eq hn ht
  have hd : Text.isBlank '-' = false := by decide
  have htext : Text.IsTight ('-' :: (gap ++ cs)) := by
    refine ⟨⟨'-', rfl, hd⟩, ?_⟩
    obtain ⟨c, hc, hb⟩ := hcs.last
    refine ⟨c, ?_, hb⟩
    rw [← List.cons_append, List.getLast?_append_of_ne_nil _ hn, hc]
  have hedge := isBlank_of_mem_gap he
  refine ⟨hg, ht, hn, hc, ?_, ?_, ?_⟩
  · rw [ofRaw, Text.trim_append_left hedge]
    exact htext.trim_eq
  · rw [ofRaw, ofRaw, Text.trim_append_left hedge, content, width_gap_append he rfl hd,
      width_gap_append he rfl hd]
    rfl
  · rw [ofRaw_row hcs, content, ofRaw, width_gap_append he rfl hd]

end Line

/-! ## Steps -/

namespace Step

theorem read_bare (hb : bare.text = ['-']) (ls : List Line) : read tabWidth ⟨bare, ls⟩ =
    (Section.level (Section.cutAll extent ls)).foldl readField blank := by
  have hc : (contentLine tabWidth bare).text = [] := by
    rw [contentLine, hb]
    rfl
  rw [read, fields, if_pos hc]

/-- The content behind a dash is the first line below a bare one. -/
theorem read_contentLine (hs : (contentLine tabWidth dash).isSignificant = true)
    (hb : bare.text = ['-']) (ls : List Line) :
    read tabWidth ⟨dash, ls⟩ = read tabWidth ⟨bare, contentLine tabWidth dash :: ls⟩ := by
  have hn : (contentLine tabWidth dash).text ≠ [] := fun he => by
    simp [Line.isSignificant, Line.isBlank, he] at hs
  rw [read_bare hb, Section.cutAll, if_pos hs, read, fields, if_neg hn]

/-- The fields below a bare dash do not depend on the numbers of the lines. -/
theorem read_bare_of_content_eq (hb : bare.text = ['-'])
    (h : ls.map Line.content = ms.map Line.content) :
    read tabWidth ⟨bare, ls⟩ = read tabWidth ⟨bare, ms⟩ := by
  obtain ⟨ks, f, g, rfl, rfl⟩ := Line.exists_renumber_of_content_eq h
  have hr (f : Nat → Nat) : (Section.level (Section.cutAll extent
      (ks.map (Line.renumber f)))).foldl readField blank =
        (Section.level (Section.cutAll extent ks)).foldl readField blank :=
    foldl_eq_of_forall₂ (Section.level_resembles (Section.cutAll_resembles (fun _ => rfl)
      (Resemble.map_move f 0 ks))) (fun s _ _ hf => readField_resembles hf s) blank
  rw [read_bare hb, read_bare hb, hr, hr]

end Step

/-! ## Reading a step -/

/-- Reading goes on with the line at an index of those that it began with. -/
structure Reading.StopsAt {α : Type} {c : Cursor} (r : Reading c α) (i : Nat) : Prop where
  next : r.after.next.1 = c.ahead[i]?
  left : skim r.after.ahead = c.ahead.drop i

namespace Cursor

theorem ReadsBlock.stopsAt {α : Type} {c : Cursor} {ends : Line → Bool} {r : Reading c α}
    {f : List Line → Except SyntaxError α} (h : ReadsBlock ends (.ok r) f) :
    r.StopsAt (c.ahead.findIdx fun l => l.isSignificant && ends l) := by
  have hl : skim r.after.ahead =
      c.ahead.drop (c.ahead.findIdx fun l => l.isSignificant && ends l) := by
    rw [h.left r rfl, List.dropWhile_eq_drop_findIdx_not]
    simp only [Bool.not_not]
  exact ⟨by rw [next_fst, hl, List.head?_drop], hl⟩

variable {c c' : Cursor} {following : List Line}

theorem value_readStep_eq (h : Line.Parts tabWidth gap cs dash bare own)
    (hc : c'.ahead = own :: following)
    (hf : following.map Line.content = c.ahead.map Line.content) :
    (readStep tabWidth dash c).value = (readStep tabWidth bare c').value := by
  have howned : (Extent.nested).owns dash own = true := by simp [Extent.owns, h.indent_lt_own]
  obtain ⟨below, hb⟩ : ∃ below, below = fun l => (Extent.nested).owns dash l := ⟨_, rfl⟩
  have hbare : (fun l => (Extent.nested).owns bare l) = below := by
    simp only [hb, Extent.owns, h.indent_bare]
  have hlines : (Step.contentLine tabWidth dash :: c.ahead.takeWhile below).map Line.content =
      (own :: following.takeWhile below).map Line.content := by
    rw [List.map_cons, List.map_cons, h.content_eq,
      (Line.pick_of_content_eq (p := below) (fun _ => hb ▸ rfl) hf).1]
  calc (readStep tabWidth dash c).value
      = Step.read tabWidth ⟨dash, c.ahead.takeWhile below⟩ :=
        hb ▸ (Prod.mk.inj (spans_readStep tabWidth dash c)).1
    _ = Step.read tabWidth ⟨bare, Step.contentLine tabWidth dash :: c.ahead.takeWhile below⟩ :=
        Step.read_contentLine h.isSignificant_contentLine h.text_bare _
    _ = Step.read tabWidth ⟨bare, own :: following.takeWhile below⟩ :=
        Step.read_bare_of_content_eq h.text_bare hlines
    _ = Step.read tabWidth ⟨bare, c'.ahead.takeWhile below⟩ := by
        rw [hc, List.takeWhile_cons_of_pos (hb ▸ howned)]
    _ = (readStep tabWidth bare c').value :=
        hbare ▸ (Prod.mk.inj (spans_readStep tabWidth bare c')).1.symm

theorem readStep_stopsAt (tabWidth : Nat) (dash : Line) (c : Cursor) :
    (readStep tabWidth dash c).StopsAt
      (c.ahead.findIdx fun l => l.isSignificant && endsNested dash l) :=
  ((spans_readStep tabWidth dash c).takes.readsBlock (owns_nested dash)).stopsAt

/-- A step whose first field stands behind its dash is the step of a bare dash with that field on
the line below, and reading stops at the same line below. -/
theorem readStep_parts (h : Line.Parts tabWidth gap cs dash bare own)
    (hc : c'.ahead = own :: following)
    (hf : following.map Line.content = c.ahead.map Line.content) :
    (readStep tabWidth dash c).value = (readStep tabWidth bare c').value ∧
      ∃ i, (readStep tabWidth dash c).StopsAt i ∧ (readStep tabWidth bare c').StopsAt (i + 1) := by
  refine ⟨value_readStep_eq h hc hf, _, readStep_stopsAt tabWidth dash c, ?_⟩
  have hends : endsNested bare = endsNested dash := by
    funext l
    simp only [endsNested, h.indent_bare]
  have hgoes : endsNested dash own = false := by simp [endsNested, h.indent_lt_own]
  have hr := readStep_stopsAt tabWidth bare c'
  rwa [hc, hends, List.findIdx_cons, hgoes, Bool.and_false, cond_false,
    (Line.pick_of_content_eq (p := fun l => l.isSignificant && endsNested dash l)
      (fun _ => rfl) hf).2] at hr

/-- A step with a command behind its dash, in the column that a tab of width 3 leads to, and a
condition less deep than that. -/
def tabbed : List Char :=
  "jobs:\n a:\n  steps:\n  -\t run: |\n        x\n\n   # y\n   if: z\n  - uses: b\n".toList

def untabbed : List Char :=
  "jobs:\n a:\n  steps:\n  -\n       run: |\n        x\n\n   # y\n   if: z\n  - uses: b\n".toList

/-- The place below the dash of the step. -/
def inSteps (text : List Char) : Cursor :=
  ⟨Line.ofText 3 text, 4, 3⟩

theorem readStep_untabbed :
    Line.Parts 3 "\t ".toList "run: |".toList ⟨4, 2, "-\t run: |".toList⟩ ⟨4, 2, ['-']⟩
        ⟨5, 7, "run: |".toList⟩ ∧
      (readStep 3 ⟨4, 2, "-\t run: |".toList⟩ (inSteps tabbed)).value =
        (readStep 3 ⟨4, 2, ['-']⟩ (inSteps untabbed)).value ∧
          ∃ i, (readStep 3 ⟨4, 2, "-\t run: |".toList⟩ (inSteps tabbed)).StopsAt i ∧
            (readStep 3 ⟨4, 2, ['-']⟩ (inSteps untabbed)).StopsAt (i + 1) := by
  have hp : Line.Parts 3 "\t ".toList "run: |".toList ⟨4, 2, "-\t run: |".toList⟩ ⟨4, 2, ['-']⟩
      ⟨5, 7, "run: |".toList⟩ :=
    Line.parts_ofRaw (by simp : ∀ c ∈ [' ', ' '], c = ' ' ∨ c = '\t') (by simp)
      (by decide +kernel) (by decide) (by decide) 4 4 5
  have hc : (inSteps untabbed).ahead =
      ⟨5, 7, "run: |".toList⟩ :: (Line.ofText 3 untabbed).drop 5 := by
    cbv
  have hf : ((Line.ofText 3 untabbed).drop 5).map Line.content =
      (inSteps tabbed).ahead.map Line.content := by
    cbv
  exact ⟨hp, readStep_parts hp hc hf⟩

end Cursor

end WorkflowLint
