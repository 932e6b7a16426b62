import Mathlib
import WorkflowLint.Proofs.QuotedItems

/-!
# Commas of flow collections

A text is cut into parts that give it back with the commas between them. They are the only such parts
that have no cut in themselves, and of which none but the last leaves a bracket open. So nothing of a
text is lost, whatever its brackets are, and parts whose brackets are balanced come back from between
commas if their own commas stand inside brackets.
-/
namespace WorkflowLint.Flow

variable {depth : Nat} {c : Char} {cs : List Char}

/-! ## Cutting and joining -/

/-- A text is left whole, or it is cut at the first of its commas that cut it. -/
theorem split_cases (body : List Char) :
    (¬HasCut 0 body ∧ split body = [body]) ∨
      ∃ before after, body = before ++ ',' :: after ∧ ¬HasCut 0 before ∧
        depthFrom 0 before = 0 ∧ split body = before :: split after := by
  by_cases h : HasCut 0 body
  · obtain ⟨before, after, rfl, hd, hn⟩ := h.exists_first
    exact .inr ⟨before, after, rfl, hn, hd, splitFrom_cut hn hd after⟩
  · exact .inl ⟨h, splitFrom_of_not_hasCut h⟩

theorem toldApart_of_split {body : List Char} {texts : List String}
    (h : split body = texts.map (·.toList)) :
    texts ≠ [] ∧ ToldApart texts ∧ [','].intercalate (texts.map (·.toList)) = body := by
  induction texts generalizing body with
  | nil => exact absurd h (splitFrom_ne_nil 0 body)
  | cons t ts ih =>
      refine ⟨List.cons_ne_nil t ts, ?_⟩
      rw [List.map_cons] at h ⊢
      -- The first part is the whole text, or the first cut stands behind it.
      obtain ⟨hn, hs⟩ | ⟨before, after, rfl, hn, hd, hs⟩ := split_cases body
      · obtain ⟨rfl, hts⟩ := List.cons.inj (hs.symm.trans h)
        obtain rfl := List.map_eq_nil_iff.mp hts.symm
        exact ⟨toldApart_singleton.mpr hn, List.intercalate_singleton⟩
      · obtain ⟨rfl, hts⟩ := List.cons.inj (hs.symm.trans h)
        obtain ⟨hne, ht, hj⟩ := ih hts
        obtain ⟨u, us, rfl⟩ := List.exists_cons_of_ne_nil hne
        refine ⟨toldApart_cons_cons.mpr ⟨⟨hn, hd⟩, ht⟩, ?_⟩
        rw [List.map_cons, List.intercalate_cons_cons, ← List.map_cons, hj, List.append_assoc,
          List.singleton_append]

theorem split_of_toldApart {texts : List String} (hn : texts ≠ []) (h : ToldApart texts) :
    split ([','].intercalate (texts.map (·.toList))) = texts.map (·.toList) := by
  induction texts with
  | nil => exact absurd rfl hn
  | cons t ts ih =>
      cases ts with
      | nil =>
          rw [List.map_singleton, List.intercalate_singleton]
          exact splitFrom_of_not_hasCut (toldApart_singleton.mp h)
      | cons u us =>
          obtain ⟨⟨hc, hd⟩, hus⟩ := toldApart_cons_cons.mp h
          simp only [List.map_cons] at ih ⊢
          rw [List.intercalate_cons_cons, List.append_assoc, List.singleton_append, split,
            splitFrom_cut hc hd, ← split, ih (List.cons_ne_nil u us) hus]

/-- What a text is cut into is the only list of texts that gives it back with commas between them,
and that these commas tell apart. -/
theorem split_eq_iff {body : List Char} {texts : List String} : split body = texts.map (·.toList) ↔
    texts ≠ [] ∧ ToldApart texts ∧ [','].intercalate (texts.map (·.toList)) = body := by
  constructor
  · exact toldApart_of_split
  · rintro ⟨hn, h, rfl⟩
    exact split_of_toldApart hn h

/-! ## Balanced texts -/

/-- What a character adds to the number of open brackets. -/
def nesting (c : Char) : Int :=
  if c = '[' ∨ c = '\x7b' then 1 else if c = ']' ∨ c = '\x7d' then -1 else 0

/-- How many more brackets a text opens than it closes. -/
def height (cs : List Char) : Int :=
  (cs.map nesting).sum

theorem height_cons (c : Char) (cs : List Char) : height (c :: cs) = nesting c + height cs :=
  List.sum_cons

/-- The brackets of a text are balanced: nowhere are more of them closed than opened, and none is
left open. -/
structure IsBalanced (cs : List Char) : Prop where
  height_nonneg : ∀ front, front <+: cs → 0 ≤ height front
  height_eq : height cs = 0

instance (cs : List Char) : Decidable (IsBalanced cs) :=
  decidable_of_iff ((∀ front ∈ cs.inits, 0 ≤ height front) ∧ height cs = 0)
    ⟨fun ⟨hf, he⟩ => ⟨fun front hp => hf front ((List.mem_inits _ _).mpr hp), he⟩,
      fun ⟨hf, he⟩ => ⟨fun front hm => hf front ((List.mem_inits _ _).mp hm), he⟩⟩

/-- The text has a comma outside of its brackets. -/
def HasOuterComma (cs : List Char) : Prop :=
  ∃ before after, cs = before ++ ',' :: after ∧ height before = 0

instance (cs : List Char) : Decidable (HasOuterComma cs) :=
  decidable_of_iff (∃ before ∈ cs.inits, before ++ [','] <+: cs ∧ height before = 0)
    ⟨fun ⟨before, _, ⟨after, he⟩, hh⟩ => ⟨before, after, by simpa using he.symm, hh⟩,
      fun ⟨before, after, he, hh⟩ =>
        ⟨before, (List.mem_inits _ _).mpr ⟨_, he.symm⟩, ⟨after, by simpa using he.symm⟩, hh⟩⟩

theorem depthAfter_eq (h : 0 ≤ depth + nesting c) :
    (depthAfter depth c : Int) = depth + nesting c := by
  unfold depthAfter nesting at *
  split_ifs at h ⊢ <;> omega

/-- Where no bracket is closed too many, the nesting depth is what has been opened less what has been
closed. -/
theorem depthFrom_eq_height (h : ∀ front, front <+: cs → 0 ≤ depth + height front) :
    (depthFrom depth cs : Int) = depth + height cs := by
  induction cs generalizing depth with
  | nil => exact (Int.add_zero _).symm
  | cons c cs ih =>
      have hc : 0 ≤ depth + nesting c := by
        simpa [height] using h [c] (List.cons_prefix_cons.mpr ⟨rfl, List.nil_prefix⟩)
      have hd := depthAfter_eq hc
      -- Behind `c` the text goes on at another depth, so the induction is for every depth.
      have hcs : ∀ front, front <+: cs → 0 ≤ depthAfter depth c + height front := by
        intro front hp
        have hf := h (c :: front) (List.cons_prefix_cons.mpr ⟨rfl, hp⟩)
        rwa [hd, Int.add_assoc, ← height_cons]
      calc (depthFrom depth (c :: cs) : Int) = depthFrom (depthAfter depth c) cs := rfl
        _ = depthAfter depth c + height cs := ih hcs
        _ = depth + height (c :: cs) := by rw [hd, Int.add_assoc, height_cons]

namespace IsBalanced

variable (h : IsBalanced cs)
include h

theorem depthFrom_eq {front : List Char} (hp : front <+: cs) :
    (depthFrom 0 front : Int) = height front := by
  have hf : ∀ f, f <+: front → 0 ≤ ((0 : Nat) : Int) + height f := by
    intro f hff
    simpa using h.height_nonneg f (hff.trans hp)
  simpa using depthFrom_eq_height hf

theorem depthFrom_eq_zero : depthFrom 0 cs = 0 := by
  have hz := h.depthFrom_eq List.prefix_rfl
  rw [h.height_eq] at hz
  exact Int.natCast_eq_zero.mp hz

theorem hasCut_iff : HasCut 0 cs ↔ HasOuterComma cs := by
  refine exists_congr fun before => exists_congr fun after => and_congr_right ?_
  rintro rfl
  rw [← h.depthFrom_eq (List.prefix_append _ _), Int.natCast_eq_zero]

end IsBalanced

theorem toldApart_of_balanced {texts : List String}
    (h : ∀ t ∈ texts, IsBalanced t.toList ∧ ¬HasOuterComma t.toList) : ToldApart texts := by
  constructor
  · intro t ht
    exact (h t ht).1.hasCut_iff.not.mpr (h t ht).2
  · intro t ht
    exact (h t (List.mem_of_mem_dropLast ht)).1.depthFrom_eq_zero

/-- Cutting loses nothing of any text, and balanced texts with no comma outside of their brackets come
back from between commas. -/
theorem split_inverts_joining :
    (∀ body : String, ",".intercalate ((split body.toList).map String.ofList) = body) ∧
      ∀ texts : List String, texts ≠ [] →
        (∀ t ∈ texts, IsBalanced t.toList ∧ ¬HasOuterComma t.toList) →
          split (",".intercalate texts).toList = texts.map (·.toList) := by
  constructor
  · intro body
    have hs : split body.toList = ((split body.toList).map String.ofList).map (·.toList) := by
      simp [Function.comp_def]
    obtain ⟨-, -, hj⟩ := split_eq_iff.mp hs
    rw [← String.toList_inj, String.toList_intercalate]
    exact hj
  · intro texts hn h
    rw [String.toList_intercalate]
    exact split_eq_iff.mpr ⟨hn, toldApart_of_balanced h, rfl⟩

theorem split_inverts_joining_nested :
    ",".intercalate ((split "]é,[a,b".toList).map String.ofList) = "]é,[a,b" ∧
      (∀ t ∈ ["\x7bk: [a, b], l: m\x7d", "", "ä", "[[], \x7b\x7d]"],
        IsBalanced t.toList ∧ ¬HasOuterComma t.toList) ∧
      split "\x7bk: [a, b], l: m\x7d,,ä,[[], \x7b\x7d]".toList =
        ["\x7bk: [a, b], l: m\x7d", "", "ä", "[[], \x7b\x7d]"].map (·.toList) := by
  have ht : ∀ t ∈ ["\x7bk: [a, b], l: m\x7d", "", "ä", "[[], \x7b\x7d]"],
      IsBalanced t.toList ∧ ¬HasOuterComma t.toList := by decide
  exact ⟨split_inverts_joining.1 _, ht, split_inverts_joining.2 _ (by decide) ht⟩

end WorkflowLint.Flow
