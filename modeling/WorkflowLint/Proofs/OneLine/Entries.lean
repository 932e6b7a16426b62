import WorkflowLint.Flow
import WorkflowLint.Proofs.Scripts
import WorkflowLint.Proofs.Values
import WorkflowLint.Workflow.Document

/-!
# What is taken from a line

Reading a line takes away characters and adds none: keys, values and items hold only characters of
the line that they stand in, so none of them holds a line break.
-/
namespace WorkflowLint

/-- A text without a line break. -/
def OneLine (s : String) : Prop :=
  '\n' ∉ s.toList

instance (s : String) : Decidable (OneLine s) :=
  inferInstanceAs (Decidable ('\n' ∉ s.toList))

theorem oneLine_append {s t : String} : OneLine (s ++ t) ↔ OneLine s ∧ OneLine t := by
  simp [OneLine]

theorem oneLine_ofList {cs : List Char} : OneLine (String.ofList cs) ↔ '\n' ∉ cs := by
  simp [OneLine]

theorem oneLine_intercalate {sep : String} {ss : List String} (hs : OneLine sep)
    (h : ∀ s ∈ ss, OneLine s) : OneLine (sep.intercalate ss) := by
  induction ss with
  | nil => simp [OneLine]
  | cons t ss ih =>
    obtain ⟨ht, hss⟩ := List.forall_mem_cons.mp h
    cases ss with
    | nil => rwa [String.intercalate_singleton]
    | cons u ss =>
      rw [String.intercalate_cons_cons, oneLine_append, oneLine_append]
      exact ⟨⟨ht, hs⟩, ih hss⟩

theorem oneLine_int (i : Int) : OneLine (toString i) := by
  intro hm
  exact absurd (Numeral.forall_mem_toString hm) (by decide)

theorem oneLine_nat (n : Nat) : OneLine (toString n) :=
  oneLine_int n

theorem OneLine.of_subset {s : String} {cs : List Char} (h : s.toList ⊆ cs) (hc : '\n' ∉ cs) :
    OneLine s :=
  fun hm => hc (h hm)

/-! ## Trimming and unquoting -/

namespace Text

theorem trimStart_subset (cs : List Char) : trimStart cs ⊆ cs :=
  List.dropWhile_subset _

theorem trimEnd_subset (cs : List Char) : trimEnd cs ⊆ cs := fun _ hc =>
  List.mem_reverse.mp (List.dropWhile_subset _ (List.mem_reverse.mp hc))

theorem trim_subset (cs : List Char) : trim cs ⊆ cs :=
  List.Subset.trans (trimEnd_subset _) (trimStart_subset cs)

theorem dropReturn_subset (row : List Char) : dropReturn row ⊆ row := by
  unfold dropReturn
  split
  · exact List.dropLast_subset row
  · exact List.Subset.refl row

theorem newline_not_mem_of_mem_lines {cs row : List Char} (h : row ∈ lines cs) : '\n' ∉ row := by
  unfold lines at h
  obtain h | h := List.mem_append.mp h
  · obtain ⟨piece, hp, rfl⟩ := List.mem_map.mp h
    exact fun hm => not_mem_of_mem_splitOn (List.dropLast_subset _ hp) (dropReturn_subset piece hm)
  · have hl := (Option.mem_filter_iff.mp (Option.mem_toList.mp h)).1
    exact not_mem_of_mem_splitOn (List.mem_of_getLast? hl)

theorem newline_not_mem_firstLine (cs : List Char) : '\n' ∉ firstLine cs := by
  unfold firstLine
  cases hl : lines cs with
  | nil => simp
  | cons row rows => exact newline_not_mem_of_mem_lines (hl ▸ List.mem_cons_self)

end Text

namespace Entry

theorem unquote_subset (cs : List Char) : unquote cs ⊆ cs := by
  cases cs with
  | nil => exact List.Subset.refl []
  | cons q rest =>
    dsimp only [unquote]
    split
    · exact List.subset_cons_of_subset q (List.dropLast_subset rest)
    · exact List.Subset.refl _

theorem splitAtLast_subset {q : Char} {cs inner after : List Char}
    (h : splitAtLast q cs = some (inner, after)) : inner ⊆ cs ∧ after ⊆ cs := by
  unfold splitAtLast at h
  cases hd : cs.reverse.dropWhile (· ≠ q) with
  | nil => rw [hd] at h; cases h
  | cons c before =>
    rw [hd] at h
    obtain ⟨rfl, rfl⟩ := Prod.mk.inj (Option.some.inj h)
    constructor
    · intro d hm
      have hs : before ⊆ cs.reverse.dropWhile (· ≠ q) := hd ▸ List.subset_cons_self c before
      exact List.mem_reverse.mp (List.dropWhile_subset _ (hs (List.mem_reverse.mp hm)))
    · intro d hm
      exact List.mem_reverse.mp (List.takeWhile_subset _ (List.mem_reverse.mp hm))

theorem beforeComment_subset (cs : List Char) : beforeComment cs ⊆ cs := by
  induction cs with
  | nil => exact List.Subset.refl []
  | cons c cs ih =>
    rw [beforeComment]
    split
    · exact List.nil_subset _
    · exact List.cons_subset_cons c ih

theorem clean_subset (raw : List Char) : clean raw ⊆ raw := by
  refine List.Subset.trans ?_ (Text.trim_subset raw)
  unfold clean
  cases hr : Text.trim raw with
  | nil => exact List.Subset.refl []
  | cons q rest =>
    dsimp only
    split
    · exact List.nil_subset _
    · split
      · split
        · rename_i inner after hs
          split
          · exact List.subset_cons_of_subset q (splitAtLast_subset hs).1
          · exact List.Subset.refl _
        · exact List.Subset.refl _
      · exact List.Subset.trans (Text.trimEnd_subset _) (beforeComment_subset _)

theorem of?_subset {text : List Char} {e : Entry} (h : of? text = some e) :
    e.key.toList ⊆ text ∧ e.value ⊆ text := by
  unfold of? at h
  cases hd : text.dropWhile (· ≠ ':') with
  | nil => rw [hd] at h; cases h
  | cons c value =>
    rw [hd] at h
    dsimp only at h
    split at h
    · cases h
    · cases h
      constructor
      · rw [String.toList_ofList]
        have hk : unquote _ ⊆ text.takeWhile (· ≠ ':') :=
          List.Subset.trans (unquote_subset _) (Text.trim_subset _)
        exact List.Subset.trans hk (List.takeWhile_subset _)
      · have hv : value ⊆ text.dropWhile (· ≠ ':') := hd ▸ List.subset_cons_self c value
        have hc : clean value ⊆ text.dropWhile (· ≠ ':') :=
          List.Subset.trans (clean_subset value) hv
        exact List.Subset.trans hc (List.dropWhile_subset _)

/-- The value of a field is part of its line, whichever keys there are. -/
theorem value_subset {Key : Type} {ofName? : String → Option Key} {text value : List Char}
    {key : Key}
    (h : ((of? text).bind fun e => (ofName? e.key).map (·, e.value)) = some (key, value)) :
    value ⊆ text := by
  obtain ⟨e, he, hk⟩ := Option.bind_eq_some_iff.mp h
  obtain ⟨_, _, hp⟩ := Option.map_eq_some_iff.mp hk
  cases hp
  exact (of?_subset he).2

end Entry

/-! ## Flow collections -/

namespace Flow

theorem splitFrom_subset {depth : Nat} {cs piece : List Char} (h : piece ∈ splitFrom depth cs) :
    piece ⊆ cs := by
  induction cs generalizing depth piece with
  | nil =>
    rw [List.mem_singleton.mp h]
    exact List.Subset.refl []
  | cons c cs ih =>
    rw [splitFrom] at h
    split at h
    · obtain rfl | h := List.mem_cons.mp h
      · exact List.nil_subset _
      · exact List.subset_cons_of_subset c (ih h)
    · cases hs : splitFrom (depthAfter depth c) cs with
      | nil => rw [hs] at h; cases h
      | cons first pieces =>
        rw [hs, List.modifyHead_cons] at h
        obtain rfl | h := List.mem_cons.mp h
        · exact List.cons_subset_cons c (ih (hs ▸ List.mem_cons_self))
        · exact List.subset_cons_of_subset c (ih (hs ▸ List.mem_cons_of_mem first h))

theorem between_subset {opening closing : Char} {value body : List Char}
    (h : between opening closing value = some body) : body ⊆ value := by
  cases value with
  | nil => cases h
  | cons c cs =>
    rw [between] at h
    split at h
    · cases h
      exact List.subset_cons_of_subset c (List.dropLast_subset cs)
    · cases h

theorem list?_subset {value : List Char} {items : List String} (h : list? value = some items) :
    ∀ i ∈ items, i.toList ⊆ value := by
  obtain ⟨body, hb, rfl⟩ := Option.map_eq_some_iff.mp h
  intro i hi
  obtain ⟨cs, hc, rfl⟩ := List.mem_map.mp hi
  obtain ⟨piece, hp, rfl⟩ := List.mem_map.mp (List.mem_filter.mp hc).1
  rw [String.toList_ofList]
  have hs : piece ⊆ value := List.Subset.trans (splitFrom_subset hp) (between_subset hb)
  exact List.Subset.trans (Entry.clean_subset piece) hs

theorem map?_subset {value : List Char} {pairs : List (String × String)}
    (h : map? value = some pairs) : ∀ e ∈ pairs, e.1.toList ⊆ value ∧ e.2.toList ⊆ value := by
  obtain ⟨body, hb, rfl⟩ := Option.map_eq_some_iff.mp h
  intro e he
  obtain ⟨piece, hp, hm⟩ := List.mem_filterMap.mp he
  obtain ⟨entry, ho, rfl⟩ := Option.map_eq_some_iff.mp hm
  have hs : piece ⊆ value := List.Subset.trans (splitFrom_subset hp) (between_subset hb)
  have ht : Text.trim piece ⊆ value := List.Subset.trans (Text.trim_subset piece) hs
  obtain ⟨hk, hv⟩ := Entry.of?_subset ho
  refine ⟨List.Subset.trans hk ht, ?_⟩
  rw [String.toList_ofList]
  exact List.Subset.trans hv ht

theorem names_subset (value : List Char) : ∀ n ∈ names value, n.toList ⊆ value := by
  unfold names
  cases hl : list? value with
  | some items => exact list?_subset hl
  | none =>
    cases hm : map? value with
    | some pairs =>
      intro n hn
      obtain ⟨e, he, rfl⟩ := List.mem_map.mp hn
      exact (map?_subset hm e he).1
    | none =>
      intro n hn
      rw [List.mem_singleton.mp hn, String.toList_ofList]
      exact List.Subset.refl value

end Flow

/-! ## Blocks -/

theorem nonEmpty_subset {cs : List Char} {s : String} (h : nonEmpty cs = some s) :
    s.toList ⊆ cs := by
  unfold nonEmpty at h
  split at h
  · cases h
  · cases h
    rw [String.toList_ofList]
    exact List.Subset.refl cs

theorem itemContent_subset (text : List Char) : itemContent text ⊆ text := by
  unfold itemContent
  split
  · exact List.subset_cons_of_subset '-' (Text.trimStart_subset _)
  · exact Text.trimStart_subset text

theorem items_subset {body : List Line} {i : String} (h : i ∈ items body) :
    ∃ l ∈ body, i.toList ⊆ l.text := by
  obtain ⟨l, hl, hi⟩ := List.mem_filterMap.mp h
  have hc : Entry.clean (itemContent l.text) ⊆ l.text :=
    List.Subset.trans (Entry.clean_subset _) (itemContent_subset l.text)
  exact ⟨l, (List.mem_filter.mp hl).1, List.Subset.trans (nonEmpty_subset hi) hc⟩

end WorkflowLint
