import WorkflowLint.Proofs.Lines
import WorkflowLint.Proofs.Values

/-!
# Quoted values

A quoted value ends at the last quote of its kind, wherever that one stands. So a comment behind the
value is dropped if it has no such quote itself.
-/
namespace WorkflowLint

open Text

/-! ## White space -/

namespace Text

variable {cs pad : List Char} {c : Char}

theorem mem_of_mem_trimEnd (h : c ∈ trimEnd cs) : c ∈ cs := by
  have hp := trimEnd_prefix cs
  exact hp.subset h

theorem trim_of_head? (hc : cs.head? = some c) (hb : isBlank c = false) : trim cs = trimEnd cs := by
  rw [trim, trimStart_of_head? hc hb]

theorem trim_append_left (hp : ∀ c ∈ pad, isBlank c = true) (cs : List Char) :
    trim (pad ++ cs) = trim cs := by
  rw [trim, trimStart, List.dropWhile_append_of_pos hp]
  rfl

theorem trim_spaces (hp : ∀ c ∈ pad, c = ' ') (cs : List Char) : trim (pad ++ cs) = trim cs :=
  trim_append_left (fun c hc => hp c hc ▸ isBlank_space) cs

theorem trim_trimEnd (cs : List Char) : trim (trimEnd cs) = trim cs := by
  have hp : ∀ c ∈ (cs.reverse.takeWhile isBlank).reverse, isBlank c = true := fun c hc =>
    List.mem_takeWhile_imp (List.mem_reverse.mp hc)
  have he : trimEnd cs ++ (cs.reverse.takeWhile isBlank).reverse = cs := by
    rw [trimEnd, ← List.reverse_append, List.takeWhile_append_dropWhile, List.reverse_reverse]
  rw [← trim_append (trimEnd cs) hp, he]

end Text

namespace Entry

variable {q : Char} {cs inner after pad comment key : List Char}

/-! ## The last quote -/

def IsQuote (q : Char) : Prop :=
  q = '"' ∨ q = '\''

theorem IsQuote.isBlank_eq (h : IsQuote q) : isBlank q = false := by
  rcases h with rfl | rfl <;> decide

theorem splitAtLast_append (inner : List Char) (h : q ∉ after) :
    splitAtLast q (inner ++ q :: after) = some (inner, after) := by
  have hr : (inner ++ q :: after).reverse = after.reverse ++ q :: inner.reverse := by simp
  have hp : ∀ c ∈ after.reverse, (decide (c ≠ q)) = true := fun c hc =>
    decide_eq_true fun he => h (he ▸ List.mem_reverse.mp hc)
  rw [splitAtLast, hr, List.dropWhile_append_of_pos hp, List.takeWhile_append_of_pos hp]
  simp

theorem splitAtLast_of_not_mem (h : q ∉ cs) : splitAtLast q cs = none := by
  have hd : cs.reverse.dropWhile (· ≠ q) = [] := by
    refine List.dropWhile_eq_nil_iff.mpr fun c hc => decide_eq_true fun he => h ?_
    exact he ▸ List.mem_reverse.mp hc
  rw [splitAtLast, hd]

theorem exists_last_of_mem (h : q ∈ cs) : ∃ inner after, cs = inner ++ q :: after ∧ q ∉ after := by
  obtain ⟨as, bs, he, hn⟩ := List.eq_append_cons_of_mem (List.mem_reverse.mpr h)
  refine ⟨bs.reverse, as.reverse, ?_, fun hm => hn (List.mem_reverse.mp hm)⟩
  rw [← List.reverse_reverse cs, he]
  simp

/-- Without a second quote the value is all that is written. -/
theorem clean_unclosed (hq : IsQuote q) (h : q ∉ cs) : clean (q :: cs) = q :: trimEnd cs := by
  have hs : splitAtLast q (trimEnd cs) = none :=
    splitAtLast_of_not_mem fun hm => h (mem_of_mem_trimEnd hm)
  rw [clean, trim_of_head? rfl hq.isBlank_eq, trimEnd_cons hq.isBlank_eq cs]
  rcases hq with rfl | rfl <;> simp [hs]

/-- The value ends at the last quote, if nothing but a comment stands behind that one. -/
theorem clean_closed (hq : IsQuote q) (h : q ∉ after) : clean (q :: inner ++ q :: after) =
    if isVoid after then inner else q :: inner ++ q :: trimEnd after := by
  have hs : splitAtLast q (inner ++ q :: trimEnd after) = some (inner, trimEnd after) :=
    splitAtLast_append inner fun hm => h (mem_of_mem_trimEnd hm)
  have hv : isVoid (trimEnd after) = isVoid after := by rw [isVoid, isVoid, trim_trimEnd]
  rw [clean, trim_of_head? (c := q) rfl hq.isBlank_eq,
    trimEnd_append_cons (q :: inner) hq.isBlank_eq after, List.cons_append]
  rcases hq with rfl | rfl <;> simp [hs, hv]

/-- The value has lost its quotes if there are two of them, and at most a comment behind. -/
theorem not_mem_clean_iff (hq : IsQuote q) : q ∉ clean (q :: cs) ↔
    ∃ inner after, cs = inner ++ q :: after ∧ q ∉ inner ∧ q ∉ after ∧ isVoid after = true := by
  constructor
  · intro hn
    by_cases hm : q ∈ cs
    · obtain ⟨inner, after, rfl, ha⟩ := exists_last_of_mem hm
      rw [← List.cons_append, clean_closed hq ha] at hn
      split at hn
      · exact ⟨inner, after, rfl, hn, ha, ‹_›⟩
      · exact absurd List.mem_cons_self hn
    · rw [clean_unclosed hq hm] at hn
      exact absurd List.mem_cons_self hn
  · rintro ⟨inner, after, rfl, hi, ha, hv⟩
    rwa [← List.cons_append, clean_closed hq ha, if_pos hv]

theorem isVoid_comment (hp : ∀ c ∈ pad, isBlank c = true) (comment : List Char) :
    isVoid (pad ++ '#' :: comment) = true := by
  have ht : trim (pad ++ '#' :: comment) = '#' :: trimEnd comment := by
    rw [trim_append_left hp, trim_of_head? (c := '#') rfl (by decide),
      trimEnd_cons (by decide) comment]
  rw [isVoid, ht]
  rfl

/-! ## Comments behind a quoted value -/

theorem of?_append (h : ':' ∉ key) (cs : List Char) : of? (key ++ ':' :: cs) =
    if unquote (trim key) = [] then none
    else some ⟨String.ofList (unquote (trim key)), clean cs⟩ := by
  have hc : ∀ c ∈ key, (decide (c ≠ ':')) = true := fun c hm =>
    decide_eq_true fun he => h (he ▸ hm)
  rw [of?, List.dropWhile_append_of_pos hc, List.takeWhile_append_of_pos hc]
  simp

/-- A key that may be written without quotes. -/
def IsBareKey (key : String) : Prop :=
  key ≠ "" ∧ trim key.toList = key.toList ∧ ':' ∉ key.toList ∧ unquote key.toList = key.toList

instance (key : String) : Decidable (IsBareKey key) :=
  inferInstanceAs (Decidable (_ ∧ _ ∧ _ ∧ _))

theorem unquote_of_not_mem (hd : '"' ∉ cs) (hs : '\'' ∉ cs) : unquote cs = cs := by
  cases cs with
  | nil => rfl
  | cons c cs =>
      rw [unquote, if_neg]
      rintro ⟨rfl | rfl, -⟩
      · exact hd List.mem_cons_self
      · exact hs List.mem_cons_self

theorem of?_trim_append {key : String} (h : IsBareKey key) (cs : List Char) :
    of? (trim (key.toList ++ ':' :: cs)) = some ⟨key, clean cs⟩ := by
  obtain ⟨hn, ht, hc, hu⟩ := h
  have hne : key.toList ≠ [] := mt String.toList_eq_nil_iff.mp hn
  obtain ⟨c, hh, hb⟩ := (isTight_of_trim_eq hne ht).head
  have hh : (key.toList ++ ':' :: cs).head? = some c := by rw [List.head?_append, hh, Option.some_or]
  rw [trim_of_head? hh hb, trimEnd_append_cons _ (by decide), of?_append hc, ht, hu, if_neg hne,
    clean_congr (trim_trimEnd cs), String.ofList_toList]

theorem key_ne_of_of? {e : Entry} (h : of? cs = some e) : e.key ≠ "" := by
  unfold of? at h
  split at h
  · cases h
  · dsimp only at h
    split at h
    · cases h
    · cases h
      exact fun he => ‹¬_› (by simpa using he)

/-- A text in quotes, and a comment behind it. -/
def commented (q : Char) (inner pad comment : List Char) : List Char :=
  q :: inner ++ q :: (pad ++ '#' :: comment)

theorem clean_commented_iff (hq : IsQuote q) (hi : q ∉ inner) (hp : ∀ c ∈ pad, isBlank c = true)
    (comment : List Char) :
    clean (commented q inner pad comment) = inner ↔ q ∉ comment := by
  have hn : q ∉ pad := fun hm => by simpa [hq.isBlank_eq] using hp q hm
  have hs : q ≠ '#' := by rcases hq with rfl | rfl <;> decide
  constructor
  · intro hc
    have hm : q ∉ clean (q :: (inner ++ q :: (pad ++ '#' :: comment))) := by
      rwa [← List.cons_append, ← commented, hc]
    obtain ⟨inner', after, he, hi', ha, -⟩ := (not_mem_clean_iff hq).mp hm
    obtain ⟨-, -, rfl⟩ := (List.append_cons_inj_of_notMem hi' ha).mp he.symm
    exact fun hm => ha (List.mem_append_right pad (List.mem_cons_of_mem '#' hm))
  · intro hc
    rw [commented, clean_closed hq (by simp [hn, hs, hc]), if_pos (isVoid_comment hp comment)]

/-- A comment behind a quoted value is dropped, unless it has a quote of the same kind. -/
theorem commented_read_iff (hq : IsQuote q) (hi : q ∉ inner) (hp : ∀ c ∈ pad, isBlank c = true)
    (hk : ':' ∉ key) (hn : unquote (trim key) ≠ []) (comment : List Char) :
    (clean (commented q inner pad comment) = inner ↔ q ∉ comment) ∧
      (of? (key ++ ':' :: ' ' :: commented q inner pad comment) =
        some ⟨String.ofList (unquote (trim key)), inner⟩ ↔ q ∉ comment) := by
  have hc := clean_commented_iff hq hi hp comment
  refine ⟨hc, ?_⟩
  rw [of?_append hk, if_neg hn, clean_cons_space, Option.some_inj, Entry.mk.injEq, ← hc]
  exact and_iff_right rfl

theorem commented_read_number :
    of? "run-name: \"a#1\" # it's".toList = some ⟨"run-name", "a#1".toList⟩ := by
  have hi : '"' ∉ "a#1".toList := by decide
  have hk : ':' ∉ "run-name".toList := by decide
  have hp : ∀ c ∈ [' '], isBlank c = true := List.forall_mem_singleton.mpr isBlank_space
  have hr := (commented_read_iff (.inl rfl) hi hp hk (by decide) " it's".toList).2.mpr (by decide)
  exact hr

/-- The apostrophe of the comment is taken for the closing quote. -/
theorem commented_apostrophe :
    clean "'a' # it's".toList = "'a' # it's".toList ∧
      of? "name: 'a' # it's".toList = some ⟨"name", "'a' # it's".toList⟩ := by decide

end Entry

end WorkflowLint
