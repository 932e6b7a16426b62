import Mathlib.Data.Nat.Find
import WorkflowLint.Rule.Security

/-!
# Foreign text in commands

An expression that names a context which anyone may set needs a quote right before it. The scan of a
command tells the first place where such an expression stands without one, and the context that it
names there. What is quoted before that place hides nothing.
-/
namespace WorkflowLint.Rule

variable {contexts : List String} {command before cs : List Char} {context : String} {i : Nat}

/-! ## Places in a command -/

/-- An expression begins at an index, and after white space it goes on with the context. -/
def NamesAt (command : List Char) (i : Nat) (context : String) : Prop :=
  ∃ body, command.drop i = '$' :: '\x7b' :: '\x7b' :: body ∧
    context.toList <+: Text.trimStart body

/-- The first one, in the order of the list, of the contexts that are named at an index. -/
def FirstNamedAt (contexts : List String) (command : List Char) (i : Nat) (context : String) :
    Prop :=
  ∃ passed others, contexts = passed ++ context :: others ∧ NamesAt command i context ∧
    ∀ c ∈ passed, ¬NamesAt command i c

/-- A quote stands right before an index. -/
def QuotedAt (command : List Char) (i : Nat) : Prop :=
  ∃ q, (command.take i).getLast? = some q ∧ (q = '"' ∨ q = '\'')

/-- A context is named at an index without a quote before it. -/
structure Offends (contexts : List String) (command : List Char) (i : Nat) : Prop where
  named : ∃ c ∈ contexts, NamesAt command i c
  unquoted : ¬QuotedAt command i

theorem contextAt?_eq_some_iff :
    contextAt? contexts (command.drop i) = some context ↔
      FirstNamedAt contexts command i context := by
  unfold FirstNamedAt NamesAt contextAt?
  split
  · rename_i body hd
    simp only [hd, List.find?_eq_some_iff_append, List.isPrefixOf_iff_prefix, List.cons.injEq,
      true_and, exists_eq_left', Bool.not_eq_true', ← Bool.not_eq_true]
    constructor
    · rintro ⟨hc, passed, others, he, hp⟩
      exact ⟨passed, others, he, hc, hp⟩
    · rintro ⟨passed, others, he, hc, hp⟩
      exact ⟨hc, passed, others, he, hp⟩
  · rename_i hn
    simp only [reduceCtorEq, false_iff]
    rintro ⟨-, -, -, ⟨body, he, -⟩, -⟩
    exact hn body he

/-- Behind a text that has been read, the index is its length. -/
theorem contextAt?_eq_some_iff_append (before : List Char) :
    contextAt? contexts cs = some context ↔
      FirstNamedAt contexts (before ++ cs) before.length context := by
  rw [← contextAt?_eq_some_iff, List.drop_left]

theorem exists_firstNamedAt (h : ∃ c ∈ contexts, NamesAt command i c) :
    ∃ context, FirstNamedAt contexts command i context := by
  cases hc : contextAt? contexts (command.drop i) with
  | some context => exact ⟨context, contextAt?_eq_some_iff.mp hc⟩
  | none =>
      obtain ⟨c, hm, body, he, hp⟩ := h
      rw [he, contextAt?, List.find?_eq_none] at hc
      exact absurd (List.isPrefixOf_iff_prefix.mpr hp) (hc c hm)

/-! ## The scan -/

theorem any_isQuote_iff (cs : List Char) :
    before.getLast?.any isQuote = true ↔ QuotedAt (before ++ cs) before.length := by
  rw [QuotedAt, List.take_left]
  cases before.getLast? <;> simp [isQuote]

/-- Where the scan has come to an offending place, it tells what is named there. -/
theorem untrusted?_of_offends {c : Char}
    (h : Offends contexts (before ++ c :: cs) before.length) :
    untrusted? contexts before.getLast? (c :: cs) = contextAt? contexts (c :: cs) := by
  obtain ⟨context, hc⟩ := exists_firstNamedAt h.named
  rw [← contextAt?_eq_some_iff_append] at hc
  rw [untrusted?, if_neg (mt (any_isQuote_iff _).mp h.unquoted), hc]

/-- Where it has come to another place, it goes on. -/
theorem untrusted?_of_not_offends {c : Char}
    (h : ¬Offends contexts (before ++ c :: cs) before.length) :
    untrusted? contexts before.getLast? (c :: cs) = untrusted? contexts (some c) cs := by
  rw [untrusted?]
  split
  · rename_i context hc
    split at hc
    · cases hc
    · rename_i hq
      obtain ⟨passed, others, rfl, hn, -⟩ := (contextAt?_eq_some_iff_append before).mp hc
      exact absurd ⟨⟨context, by simp, hn⟩, mt (any_isQuote_iff _).mpr hq⟩ h
  · rfl

/-- The scan goes on from the text that has been read. -/
theorem untrusted?_eq_some_iff_from : untrusted? contexts before.getLast? cs = some context ↔
    ∃ i, before.length ≤ i ∧ Offends contexts (before ++ cs) i ∧
      (∀ j, before.length ≤ j → j < i → ¬Offends contexts (before ++ cs) j) ∧
        FirstNamedAt contexts (before ++ cs) i context := by
  induction cs generalizing before with
  | nil =>
      simp only [untrusted?, reduceCtorEq, List.append_nil, false_iff]
      rintro ⟨i, hi, ⟨⟨c, -, body, hd, -⟩, -⟩, -⟩
      rw [List.drop_eq_nil_of_le hi] at hd
      cases hd
  | cons c cs ih =>
      by_cases h : Offends contexts (before ++ c :: cs) before.length
      · rw [untrusted?_of_offends h, contextAt?_eq_some_iff_append before]
        constructor
        · exact fun hf => ⟨before.length, Nat.le_refl _, h, fun j hle hlt => by omega, hf⟩
        · rintro ⟨i, hi, -, hfirst, hf⟩
          rcases Nat.eq_or_lt_of_le hi with rfl | hlt
          · exact hf
          · exact absurd h (hfirst _ (Nat.le_refl _) hlt)
      · have hread : before ++ c :: cs = (before ++ [c]) ++ cs := by simp
        have hlast : (before ++ [c]).getLast? = some c := List.getLast?_concat
        rw [untrusted?_of_not_offends h, ← hlast, ih, ← hread, List.length_append,
          List.length_singleton]
        constructor
        · rintro ⟨i, hi, ho, hfirst, hf⟩
          refine ⟨i, by omega, ho, fun j hj hlt => ?_, hf⟩
          rcases Nat.eq_or_lt_of_le hj with rfl | hj
          · exact h
          · exact hfirst j hj hlt
        · rintro ⟨i, hi, ho, hfirst, hf⟩
          refine ⟨i, ?_, ho, fun j hj => hfirst j (by omega), hf⟩
          rcases Nat.eq_or_lt_of_le hi with rfl | hi
          · exact absurd ho h
          · exact hi

theorem untrusted?_eq_some_iff : untrusted? contexts none command = some context ↔
    ∃ i, Offends contexts command i ∧ (∀ j < i, ¬Offends contexts command j) ∧
      FirstNamedAt contexts command i context := by
  have h : untrusted? contexts ([] : List Char).getLast? command = some context ↔ _ :=
    untrusted?_eq_some_iff_from
  simpa using h

/-- The scan finds nothing exactly if no place of the command offends, and otherwise the context
that comes first in the list among those named at the first place that does. -/
theorem untrusted?_exact (contexts : List String) (command : List Char) :
    (untrusted? contexts none command = none ↔ ∀ i, ¬Offends contexts command i) ∧
      ∀ context, untrusted? contexts none command = some context ↔
        ∃ i, Offends contexts command i ∧ (∀ j < i, ¬Offends contexts command j) ∧
          FirstNamedAt contexts command i context := by
  classical
  refine ⟨⟨fun hn i hi => ?_, fun hn => ?_⟩, fun context => untrusted?_eq_some_iff⟩
  · -- The first offending place names some context first, and the scan would find it.
    have hex : ∃ i, Offends contexts command i := ⟨i, hi⟩
    obtain ⟨context, hf⟩ := exists_firstNamedAt (Nat.find_spec hex).named
    have hs : untrusted? contexts none command = some context :=
      untrusted?_eq_some_iff.mpr ⟨Nat.find hex, Nat.find_spec hex, fun j => Nat.find_min hex, hf⟩
    rw [hn] at hs
    cases hs
  · cases hu : untrusted? contexts none command with
    | none => rfl
    | some context =>
        obtain ⟨i, hi, -⟩ := untrusted?_eq_some_iff.mp hu
        exact absurd hi (hn i)

/-- One context begins with the other, and the first expression is quoted. -/
example : untrusted? ["github.event.issue", "github.event"] none
    "a \"$\x7b\x7bgithub.event\x7d\x7d $\x7b\x7b github.event.issue".toList =
      some "github.event.issue" := by
  decide +kernel

end WorkflowLint.Rule
