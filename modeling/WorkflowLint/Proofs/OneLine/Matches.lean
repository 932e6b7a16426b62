import WorkflowLint.Proofs.Matching
import WorkflowLint.Validator

/-!
# What the search finds

What the search gives back is part of the text and matched by the expression. An expression that has
no use for a character never matches it.
-/
namespace WorkflowLint.Pattern

variable {e : Expr} {m cs : List Char} {before b a : Option Char} {threads : List Leaf}
  {taken : List Char} {best : Option (List Char)}

/-! ## The search gives back matches -/

/-- What a run gives back it had already, or one of its choices leads to it. -/
theorem of_run (h : run threads taken best cs = some m) :
    best = some m ∨ ∃ n after, cs = n ++ after ∧ m = n.reverse ++ taken ∧
      ∃ l ∈ threads, l.Matches n after.head? := by
  induction cs generalizing threads taken best with
  | nil =>
    unfold run at h
    by_cases hd : Leaf.done ∈ threads
    · rw [if_pos hd] at h
      cases h
      exact Or.inr ⟨[], [], rfl, rfl, .done, hd, rfl⟩
    · rw [if_neg hd] at h
      exact Or.inl h
  | cons c cs ih =>
    have hbest : (if .done ∈ threads then some taken else best) = some m →
        best = some m ∨ ∃ n after, c :: cs = n ++ after ∧ m = n.reverse ++ taken ∧
          ∃ l ∈ threads, l.Matches n after.head? := by
      intro hb
      by_cases hd : Leaf.done ∈ threads
      · rw [if_pos hd] at hb
        cases hb
        exact Or.inr ⟨[], c :: cs, rfl, rfl, .done, hd, rfl⟩
      · rw [if_neg hd] at hb
        exact Or.inl hb
    unfold run at h
    dsimp only at h
    split at h
    · rename_i he
      cases he
    · exact hbest h
    · rename_i he _
      cases he
      obtain hb | ⟨n, after, rfl, rfl, l, hl, hm⟩ := ih h
      · exact hbest hb
      · rw [List.head?_append] at hl
        obtain ⟨k, hk, hkm⟩ := exists_mem_read_iff.mp ⟨l, List.mem_eraseDups.mp hl, hm⟩
        refine Or.inr ⟨c :: n, after, rfl, by simp, k, ?_, hkm⟩
        exact List.takeWhile_subset _ hk

theorem of_matchAt? (h : matchAt? e before cs = some m) :
    ∃ after, cs = m ++ after ∧ e.Matches before m after.head? := by
  obtain ⟨r, hr, rfl⟩ := Option.map_eq_some_iff.mp h
  obtain hb | ⟨n, after, rfl, rfl, hl⟩ := of_run hr
  · cases hb
  · rw [List.append_nil, List.reverse_reverse]
    refine ⟨after, rfl, (matches_iff_exists_leaf e).mpr ?_⟩
    rwa [List.head?_append] at hl

theorem of_findFrom? (h : findFrom? e before cs = some m) :
    ∃ skipped after, cs = skipped ++ m ++ after ∧
      e.Matches (skipped.getLast?.or before) m after.head? := by
  induction cs generalizing before with
  | nil =>
    unfold findFrom? at h
    split at h
    · rename_i m' hm
      cases h
      obtain ⟨after, he, hm⟩ := of_matchAt? hm
      exact ⟨[], after, he, hm⟩
    · cases h
  | cons c cs ih =>
    unfold findFrom? at h
    split at h
    · rename_i m' hm
      cases h
      obtain ⟨after, he, hm⟩ := of_matchAt? hm
      exact ⟨[], after, he, hm⟩
    · obtain ⟨skipped, after, rfl, hm⟩ := ih h
      exact ⟨c :: skipped, after, rfl, by rwa [getLast?_cons_or]⟩

/-- What is found is a part of the text that the expression matches. -/
theorem of_find? (h : find? e cs = some m) :
    ∃ skipped after, cs = skipped ++ m ++ after ∧ e.Matches skipped.getLast? m after.head? := by
  rw [find?_eq_findFrom?] at h
  simpa using of_findFrom? h

/-! ## Characters that are never matched -/

/-- No set of characters in the expression has the character. -/
def Expr.avoids (c : Char) : Expr → Bool
  | empty => true
  | char s => !s.contains c
  | anchor _ => true
  | seq e f => e.avoids c && f.avoids c
  | alt e f => e.avoids c && f.avoids c
  | plus _ e => e.avoids c
  | more _ e => e.avoids c

theorem Expr.Matches.not_mem {c : Char} (h : e.Matches b m a) (hc : e.avoids c = true) : c ∉ m := by
  induction h with
  | empty => exact List.not_mem_nil
  | char hs =>
    rintro (_ | ⟨_, ⟨⟩⟩)
    rw [avoids, Bool.not_eq_true'] at hc
    exact Bool.false_ne_true (hc.symm.trans hs)
  | anchor => exact List.not_mem_nil
  | seq _ _ ih₁ ih₂ =>
    rw [avoids, Bool.and_eq_true] at hc
    exact List.not_mem_append (ih₁ hc.1) (ih₂ hc.2)
  | left _ ih =>
    rw [avoids, Bool.and_eq_true] at hc
    exact ih hc.1
  | right _ ih =>
    rw [avoids, Bool.and_eq_true] at hc
    exact ih hc.2
  | plus _ _ ih₁ ih₂ => exact List.not_mem_append (ih₁ hc) (ih₂ hc)
  | stop => exact List.not_mem_nil
  | round _ _ _ ih₁ ih₂ => exact List.not_mem_append (ih₁ hc) (ih₂ hc)

theorem not_mem_of_find? {c : Char} (h : find? e cs = some m) (hc : e.avoids c = true) : c ∉ m := by
  obtain ⟨skipped, after, -, hm⟩ := of_find? h
  exact hm.not_mem hc

/-- The names, quotes and tokens that the preset looks for have no line break in them. -/
theorem presetSecretPattern_avoids :
    (ofText? Policy.presetSecretPattern.toList).all (Expr.avoids '\n') = true := by
  decide +kernel

end WorkflowLint.Pattern
