import WorkflowLint.Proofs.QuotedItems

/-!
# Simple texts

Texts that mean themselves, wherever they are written: white space, quotes, comments and the marks of
flow collections make no difference to them. Flow collections of such texts are read back.
-/
namespace WorkflowLint

open Text

/-! ## Simple texts -/

namespace Text

variable {cs ds : List Char} {c d : Char}

/-- Texts without a comment make none if they are put together, unless the second one begins with
the mark of a comment. -/
theorem NoComment.append (hc : NoComment cs) (hd : NoComment ds) (hh : ds.head? ≠ some '#') :
    NoComment (cs ++ ds) :=
  List.isChain_append.mpr ⟨hc, hd, fun _ _ _ hm he => hh (he.2 ▸ hm)⟩

theorem NoComment.cons (hd : NoComment ds) (hh : ds.head? ≠ some '#') (c : Char) :
    NoComment (c :: ds) :=
  NoComment.append (.singleton c) hd hh

/-- A text that means itself, be it an item of a list, a key or a value. -/
structure IsSimple (cs : List Char) : Prop where
  nonempty : cs ≠ []
  trim_eq : trim cs = cs
  plain : ∀ c ∈ cs, Flow.IsPlain c
  noComment : NoComment cs
  noMark : cs.head? ∉ [some '#', some '"', some '\'']

instance (cs : List Char) : Decidable (IsSimple cs) :=
  decidable_of_iff (cs ≠ [] ∧ trim cs = cs ∧ cs.all (decide <| Flow.IsPlain ·) = true ∧
      NoComment cs ∧ cs.head? ∉ [some '#', some '"', some '\''])
    ⟨fun ⟨hn, ht, hp, hc, hm⟩ =>
        ⟨hn, ht, fun c hm => of_decide_eq_true (List.all_eq_true.mp hp c hm), hc, hm⟩,
      fun ⟨hn, ht, hp, hc, hm⟩ =>
        ⟨hn, ht, List.all_eq_true.mpr fun c hm => decide_eq_true (hp c hm), hc, hm⟩⟩

namespace IsSimple

variable (h : IsSimple cs)
include h

theorem isTight : IsTight cs :=
  isTight_of_trim_eq h.nonempty h.trim_eq

theorem head?_ne : cs.head? ≠ some '#' := fun he =>
  h.noMark (by simp [he])

theorem clean_eq : Entry.clean cs = cs :=
  clean_eq_self h.trim_eq h.noComment h.noMark

theorem unquote_eq : Entry.unquote cs = cs := by
  cases cs with
  | nil => rfl
  | cons c cs =>
      have hm := h.noMark
      simp only [List.head?_cons, List.mem_cons, Option.some_inj, List.not_mem_nil, or_false,
        not_or] at hm
      rw [Entry.unquote, if_neg fun he => (not_or.mpr hm.2) he.1]

theorem trim_item : trim ('-' :: ' ' :: cs) = '-' :: ' ' :: cs := by
  obtain ⟨c, hc, hb⟩ := h.isTight.last
  have ht : IsTight ('-' :: ' ' :: cs) :=
    ⟨⟨'-', rfl, by decide⟩, c, by simp [List.getLast?_cons, hc], hb⟩
  exact ht.trim_eq

theorem clean_itemContent : Entry.clean (itemContent ('-' :: ' ' :: cs)) = cs := by
  rw [itemContent, trimStart_cons, if_pos isBlank_space, h.isTight.trimStart_eq, h.clean_eq]

end IsSimple

end Text

/-! ## Flow forms -/

namespace Flow

variable {items : List (List Char)} {opening closing : Char}

/-- What an item of a flow collection needs to be found as it is. -/
structure IsPart (item : List Char) : Prop where
  nonempty : item ≠ []
  plain : ∀ c ∈ item, IsPlain c
  noComment : NoComment item
  head?_ne : item.head? ≠ some '#'

theorem noComment_listing (h : ∀ i ∈ items, IsPart i) :
    NoComment (listing items) ∧ (listing items).head? ≠ some '#' := by
  induction items with
  | nil => exact ⟨.nil, by simp⟩
  | cons i is ih =>
      obtain ⟨hi, his⟩ := List.forall_mem_cons.mp h
      cases is with
      | nil =>
          rw [listing_singleton]
          exact ⟨hi.noComment, hi.head?_ne⟩
      | cons j js =>
          obtain ⟨hn, hh⟩ := ih his
          rw [listing_cons_cons]
          refine ⟨hi.noComment.append (((hn.cons hh ' ').cons ?_ ',')) ?_, ?_⟩
          · simp
          · simp
          · rw [List.head?_append_of_ne_nil _ hi.nonempty]
            exact hi.head?_ne

theorem isPart_of_isSimple {cs : List Char} (h : IsSimple cs) : IsPart cs :=
  ⟨h.nonempty, h.plain, h.noComment, h.head?_ne⟩

/-- A flow collection is a value without a comment in it. -/
theorem clean_wrapped (ho : isBlank opening = false ∧ opening ∉ ['#', '"', '\''])
    (hc : isBlank closing = false ∧ closing ≠ '#') (h : ∀ i ∈ items, IsPart i) :
    Entry.clean (wrapped opening closing items) = wrapped opening closing items := by
  obtain ⟨hn, hh⟩ := noComment_listing h
  have ht : IsTight (wrapped opening closing items) :=
    ⟨⟨opening, rfl, ho.1⟩, closing, by simp [wrapped, List.getLast?_cons], hc.1⟩
  refine clean_eq_self ht.trim_eq ?_ ?_
  · refine NoComment.cons (hn.append (.singleton closing) ?_) ?_ opening
    · simpa using hc.2
    · cases hl : listing items with
      | nil => simpa using hc.2
      | cons c cs => rwa [hl] at hh
  · simpa [wrapped] using ho.2

theorem filterMap_splitFrom_space {β : Type} {read : List Char → Option β}
    (hs : ∀ cs, read (' ' :: cs) = read cs) (cs : List Char) :
    (splitFrom 0 (' ' :: cs)).filterMap read = (splitFrom 0 cs).filterMap read := by
  have hd : splitFrom 0 (' ' :: cs) = (splitFrom 0 cs).modifyHead (' ' :: ·) := by
    rw [splitFrom, if_neg (by decide)]
    rfl
  rw [hd]
  cases splitFrom 0 cs with
  | nil => rfl
  | cons part parts => rw [List.modifyHead_cons, List.filterMap_cons, hs, List.filterMap_cons]

/-- A listing is cut into its items, if there is no comma in them. -/
theorem filterMap_splitFrom_listing {β : Type} {read : List Char → Option β} (h0 : read [] = none)
    (hs : ∀ cs, read (' ' :: cs) = read cs) (h : ∀ i ∈ items, ∀ c ∈ i, IsPlain c) :
    (splitFrom 0 (listing items)).filterMap read = items.filterMap read := by
  induction items with
  | nil => rw [listing_nil, splitFrom, List.filterMap_cons, h0]
  | cons i is ih =>
      obtain ⟨hi, his⟩ := List.forall_mem_cons.mp h
      cases is with
      | nil => rw [listing_singleton, splitFrom_of_not_hasCut (hasCut_of_plain hi 0)]
      | cons j js =>
          rw [listing_cons_cons, splitFrom_cut (hasCut_of_plain hi 0) (depthFrom_of_plain hi 0),
            List.singleton_append, List.filterMap_cons, filterMap_splitFrom_space hs, ih his,
            ← List.filterMap_cons]

theorem names_wrapped {xs : List String} (hx : ∀ x ∈ xs, IsSimple x.toList) :
    names (wrapped '[' ']' (xs.map (·.toList))) = xs := by
  have hp : ∀ i ∈ xs.map (·.toList), ∀ c ∈ i, IsPlain c := by
    simpa using fun x hm => (hx x hm).plain
  have hs : ∀ cs, item? (' ' :: cs) = item? cs := fun cs => by
    rw [item?, clean_cons_space, item?]
  have hi : ∀ x ∈ xs, item? x.toList = some x := fun x hm => by
    rw [item?, (hx x hm).clean_eq, if_neg (hx x hm).nonempty, String.ofList_toList]
  have hl : list? (wrapped '[' ']' (xs.map (·.toList))) = some xs := by
    rw [list?_wrapped, filterMap_splitFrom_listing rfl hs hp, List.filterMap_map]
    exact congrArg some ((List.filterMap_congr hi).trans List.filterMap_some)
  simp only [names, hl]

theorem names_of_isSimple {x : String} (h : IsSimple x.toList) : names x.toList = [x] := by
  have hb : ∀ o c, ¬IsPlain o → between o c x.toList = none := by
    intro o c ho
    obtain ⟨d, ds, hd⟩ := List.exists_cons_of_ne_nil h.nonempty
    rw [hd, between, if_neg]
    rintro ⟨rfl, -⟩
    exact ho (h.plain d (hd ▸ List.mem_cons_self))
  rw [names, list?, hb '[' ']' (by decide), map?, hb '\x7b' '\x7d' (by decide)]
  simp

end Flow

/-! ## Entries -/

/-- An entry with a simple key, and a value that is simple unless it is empty. -/
structure IsSimpleEntry (e : String × String) : Prop where
  key : IsSimple e.1.toList
  noColon : ':' ∉ e.1.toList
  value : e.2 = "" ∨ IsSimple e.2.toList

instance (e : String × String) : Decidable (IsSimpleEntry e) :=
  decidable_of_iff (IsSimple e.1.toList ∧ ':' ∉ e.1.toList ∧ (e.2 = "" ∨ IsSimple e.2.toList))
    ⟨fun ⟨hk, hn, hv⟩ => ⟨hk, hn, hv⟩, fun ⟨hk, hn, hv⟩ => ⟨hk, hn, hv⟩⟩

namespace IsSimpleEntry

variable {e : String × String} (h : IsSimpleEntry e)
include h

theorem clean_value : Entry.clean (' ' :: e.2.toList) = e.2.toList := by
  rw [clean_cons_space]
  rcases h.value with hv | hv
  · rw [hv]
    rfl
  · exact hv.clean_eq

theorem of?_trim : Entry.of? (trim (entry e.1 e.2.toList)) = some ⟨e.1, e.2.toList⟩ := by
  have hk : Entry.IsBareKey e.1 :=
    ⟨mt String.toList_eq_nil_iff.mpr h.key.nonempty, h.key.trim_eq, h.noColon, h.key.unquote_eq⟩
  rw [entry, Entry.of?_trim_append hk, h.clean_value]

theorem isPart : Flow.IsPart (entry e.1 e.2.toList) := by
  have hv : (∀ c ∈ e.2.toList, Flow.IsPlain c) ∧ NoComment e.2.toList ∧
      e.2.toList.head? ≠ some '#' := by
    rcases h.value with hv | hv
    · rw [hv]
      exact ⟨List.forall_mem_nil _, .nil, by simp⟩
    · exact ⟨hv.plain, hv.noComment, hv.head?_ne⟩
  refine ⟨by simp [entry], ?_, ?_, ?_⟩
  · simp only [entry, List.forall_mem_append, List.forall_mem_cons]
    exact ⟨h.key.plain, by decide, by decide, hv.1⟩
  · exact h.key.noComment.append ((hv.2.1.cons hv.2.2 ' ').cons (by simp) ':') (by simp)
  · rw [entry, List.head?_append_of_ne_nil _ h.key.nonempty]
    exact h.key.head?_ne

end IsSimpleEntry

theorem Flow.map?_of_isSimpleEntry {es : List (String × String)} (he : ∀ e ∈ es, IsSimpleEntry e) :
    map? (wrapped '\x7b' '\x7d' (es.map fun e => entry e.1 e.2.toList)) = some es := by
  have hp : ∀ i ∈ es.map (fun e => entry e.1 e.2.toList), ∀ c ∈ i, IsPlain c := by
    intro i hi
    obtain ⟨e, hm, rfl⟩ := List.mem_map.mp hi
    exact (he e hm).isPart.plain
  have hs : ∀ cs, pair? (' ' :: cs) = pair? cs := fun cs => by
    rw [pair?, trim_cons_space, pair?]
  have hi : ∀ e ∈ es, pair? (entry e.1 e.2.toList) = some e := fun e hm => by
    rw [pair?, (he e hm).of?_trim, Option.map_some, String.ofList_toList]
  rw [map?_wrapped, filterMap_splitFrom_listing rfl hs hp, List.filterMap_map]
  exact congrArg some ((List.filterMap_congr hi).trans List.filterMap_some)

end WorkflowLint
