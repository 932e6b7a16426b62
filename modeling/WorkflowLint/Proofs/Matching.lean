import Mathlib.Data.List.TakeWhile
import WorkflowLint.Pattern.Expr

/-!
# What an expression matches

The search for a match is shown to find one exactly if the text has a part that the expression
matches. Which texts an expression matches is said by rules, one for each way to build it; what
stands before and after the text counts only for anchors.
-/
namespace WorkflowLint.Pattern

/-- The expression matches a text between the characters `b` and `a`, each of which is absent at
an end of the whole text. -/
inductive Expr.Matches : Expr → Option Char → List Char → Option Char → Prop
  | empty {b a} : Matches .empty b [] a
  | char {s c b a} (hc : c ∈ s) : Matches (.char s) b [c] a
  | anchor {k b a} (hk : k.holds ⟨b, a⟩ = true) : Matches (.anchor k) b [] a
  | seq {e f m n b a} (he : Matches e b m (n.head?.or a)) (hf : Matches f (m.getLast?.or b) n a) :
      Matches (.seq e f) b (m ++ n) a
  | left {e f m b a} (he : Matches e b m a) : Matches (.alt e f) b m a
  | right {e f m b a} (hf : Matches f b m a) : Matches (.alt e f) b m a
  | plus {g e m n b a} (he : Matches e b m (n.head?.or a))
      (hn : Matches (.more g e) (m.getLast?.or b) n a) : Matches (.plus g e) b (m ++ n) a
  | stop {g e b a} : Matches (.more g e) b [] a
  | round {g e m n b a} (hm : m ≠ []) (he : Matches e b m (n.head?.or a))
      (hn : Matches (.more g e) (m.getLast?.or b) n a) : Matches (.more g e) b (m ++ n) a

/-- Some part of the text is matched. -/
def Expr.Occurs (e : Expr) (cs : List Char) : Prop :=
  ∃ before m after, cs = before ++ m ++ after ∧ e.Matches before.getLast? m after.head?

/-- The choice leads to a match of the text. -/
def Leaf.Matches (m : List Char) (a : Option Char) : Leaf → Prop
  | done => m = []
  | take s e => ∃ c n, m = c :: n ∧ c ∈ s ∧ e.Matches (some c) n a

variable {e f : Expr} {m cs : List Char} {a b : Option Char} {ls onDone : List Leaf}

/-! ## The last character of a text -/

theorem getLast?_cons_or {c : Char} {x : List Char} :
    (c :: x).getLast?.or b = x.getLast?.or (some c) := by
  rw [List.getLast?_cons, Option.some_or, Option.or_some]

theorem getLast?_or_of_ne_nil {x : List Char} (hx : x ≠ []) : x.getLast?.or b = x.getLast? := by
  rw [List.getLast?_eq_some_getLast hx, Option.some_or]

/-! ## Choices -/

theorem Leaf.matches_nil_iff {l : Leaf} : l.Matches [] a ↔ l = .done := by
  cases l <;> simp [Leaf.Matches]

theorem exists_matches_nil_iff : (∃ l ∈ ls, l.Matches [] a) ↔ .done ∈ ls := by
  simp [Leaf.matches_nil_iff]

/-- A choice with something after it: either it ends here, or it takes a part of the text. -/
theorem Leaf.exists_andThen_iff {l : Leaf} :
    (∃ k ∈ l.andThen f onDone, k.Matches m a) ↔
      l = .done ∧ (∃ k ∈ onDone, k.Matches m a) ∨
        ∃ x y, m = x ++ y ∧ x ≠ [] ∧ l.Matches x (y.head?.or a) ∧ f.Matches x.getLast? y a := by
  cases l with
  | done =>
      simp only [andThen, Leaf.Matches, true_and, iff_self_or, forall_exists_index, and_imp]
      intro x y _ hx he
      exact absurd he hx
  | take s rest =>
      have hseq : (∃ k ∈ (Leaf.take s rest).andThen f onDone, k.Matches m a) ↔
          ∃ c n, m = c :: n ∧ c ∈ s ∧ ∃ x y, n = x ++ y ∧
            rest.Matches (some c) x (y.head?.or a) ∧ f.Matches (x.getLast?.or (some c)) y a := by
        unfold andThen
        split
        · cases ‹Leaf.take s rest = .done›
        · rename_i s' he
          cases he
          simp only [List.mem_singleton, exists_eq_left, Leaf.Matches]
          refine exists_congr fun c => exists_congr fun n => and_congr_right fun _ =>
            and_congr_right fun _ => ?_
          constructor
          · intro hf
            exact ⟨[], n, rfl, .empty, hf⟩
          · rintro ⟨x, y, rfl, hx, hf⟩
            cases hx
            exact hf
        · rename_i s' rest' _ he
          cases he
          simp only [List.mem_singleton, exists_eq_left, Leaf.Matches]
          refine exists_congr fun c => exists_congr fun n => and_congr_right fun _ =>
            and_congr_right fun _ => ?_
          constructor
          · intro h
            cases h with
            | seq he hf => exact ⟨_, _, rfl, he, hf⟩
          · rintro ⟨x, y, rfl, hx, hf⟩
            exact .seq hx hf
      rw [hseq]
      simp only [reduceCtorEq, false_and, false_or, Leaf.Matches]
      constructor
      · rintro ⟨c, _, rfl, hc, x, y, rfl, hx, hf⟩
        refine ⟨c :: x, y, rfl, by simp, ⟨c, x, rfl, hc, hx⟩, ?_⟩
        rwa [← Option.or_none (o := (c :: x).getLast?), getLast?_cons_or]
      · rintro ⟨_, y, rfl, _, ⟨c, x, rfl, hc, hx⟩, hf⟩
        refine ⟨c, x ++ y, rfl, hc, x, y, rfl, hx, ?_⟩
        rwa [← Option.or_none (o := (c :: x).getLast?), getLast?_cons_or] at hf

theorem exists_flatMap_andThen_iff :
    (∃ k ∈ ls.flatMap (Leaf.andThen f onDone), k.Matches m a) ↔
      .done ∈ ls ∧ (∃ k ∈ onDone, k.Matches m a) ∨
        ∃ x y, m = x ++ y ∧ x ≠ [] ∧ (∃ l ∈ ls, l.Matches x (y.head?.or a)) ∧
          f.Matches x.getLast? y a := by
  constructor
  · rintro ⟨k, hk, hm⟩
    obtain ⟨l, hl, hkl⟩ := List.mem_flatMap.mp hk
    rcases Leaf.exists_andThen_iff.mp ⟨k, hkl, hm⟩ with ⟨rfl, hd⟩ | ⟨x, y, he, hx, hlx, hf⟩
    · exact Or.inl ⟨hl, hd⟩
    · exact Or.inr ⟨x, y, he, hx, ⟨l, hl, hlx⟩, hf⟩
  · rintro (⟨hl, hd⟩ | ⟨x, y, he, hx, ⟨l, hl, hlx⟩, hf⟩)
    · obtain ⟨k, hk, hm⟩ := Leaf.exists_andThen_iff.mpr (Or.inl ⟨rfl, hd⟩)
      exact ⟨k, List.mem_flatMap.mpr ⟨_, hl, hk⟩, hm⟩
    · obtain ⟨k, hk, hm⟩ := Leaf.exists_andThen_iff.mpr (Or.inr ⟨x, y, he, hx, hlx, hf⟩)
      exact ⟨k, List.mem_flatMap.mpr ⟨_, hl, hk⟩, hm⟩

theorem exists_append_iff {ms : List Leaf} :
    (∃ k ∈ Leaf.append ls ms, k.Matches m a) ↔
      (∃ k ∈ ls, k.Matches m a) ∨ ∃ k ∈ ms, k.Matches m a := by
  unfold Leaf.append
  split
  · rename_i hd
    simp only [List.mem_append, List.mem_filter, decide_eq_true_eq, or_and_right, exists_or]
    constructor
    · exact Or.imp_right fun ⟨k, hk, hm⟩ => ⟨k, hk.1, hm⟩
    · rintro (h | ⟨k, hk, hm⟩)
      · exact Or.inl h
      · by_cases hkd : k = .done
        · exact Or.inl ⟨k, hkd ▸ hd, hm⟩
        · exact Or.inr ⟨k, ⟨hk, hkd⟩, hm⟩
  · simp only [List.mem_append, or_and_right, exists_or]

/-! ## Expressions -/

theorem empty_matches_iff : Expr.empty.Matches b m a ↔ m = [] :=
  ⟨fun h => by cases h; rfl, fun h => h ▸ .empty⟩

theorem char_matches_iff {s : CharSet} : (Expr.char s).Matches b m a ↔ ∃ c ∈ s, m = [c] := by
  constructor
  · intro h
    cases h with
    | char hc => exact ⟨_, hc, rfl⟩
  · rintro ⟨c, hc, rfl⟩
    exact .char hc

theorem alt_matches_iff :
    (Expr.alt e f).Matches b m a ↔ e.Matches b m a ∨ f.Matches b m a := by
  constructor
  · intro h
    cases h with
    | left he => exact Or.inl he
    | right hf => exact Or.inr hf
  · exact fun h => h.elim .left .right

theorem seq_matches_iff : (Expr.seq e f).Matches b m a ↔
    ∃ x y, m = x ++ y ∧ e.Matches b x (y.head?.or a) ∧ f.Matches (x.getLast?.or b) y a := by
  constructor
  · intro h
    cases h with
    | seq he hf => exact ⟨_, _, rfl, he, hf⟩
  · rintro ⟨x, y, rfl, he, hf⟩
    exact .seq he hf

theorem plus_matches_iff {g : Bool} : (Expr.plus g e).Matches b m a ↔
    ∃ x y, m = x ++ y ∧ e.Matches b x (y.head?.or a) ∧
      (Expr.more g e).Matches (x.getLast?.or b) y a := by
  constructor
  · intro h
    cases h with
    | plus he hn => exact ⟨_, _, rfl, he, hn⟩
  · rintro ⟨x, y, rfl, he, hn⟩
    exact .plus he hn

theorem more_matches_iff {g : Bool} : (Expr.more g e).Matches b m a ↔
    m = [] ∨ ∃ x y, m = x ++ y ∧ x ≠ [] ∧ e.Matches b x (y.head?.or a) ∧
      (Expr.more g e).Matches (x.getLast?.or b) y a := by
  constructor
  · intro h
    cases h with
    | stop => exact Or.inl rfl
    | round hx he hn => exact Or.inr ⟨_, _, rfl, hx, he, hn⟩
  · rintro (rfl | ⟨x, y, rfl, hx, he, hn⟩)
    · exact .stop
    · exact .round hx he hn

/-- The choices at a place with something after them, given that they are the ways to match `e`. -/
theorem exists_leaf_andThen_iff
    (ih : ∀ {b m a}, e.Matches b m a ↔ ∃ l ∈ e.leaves ⟨b, m.head?.or a⟩, l.Matches m a) :
    (∃ k ∈ (e.leaves ⟨b, m.head?.or a⟩).flatMap (Leaf.andThen f onDone), k.Matches m a) ↔
      e.Matches b [] (m.head?.or a) ∧ (∃ k ∈ onDone, k.Matches m a) ∨
        ∃ x y, m = x ++ y ∧ x ≠ [] ∧ e.Matches b x (y.head?.or a) ∧
          f.Matches (x.getLast?.or b) y a := by
  rw [exists_flatMap_andThen_iff]
  refine or_congr (and_congr_left fun _ => ?_) ?_
  · rw [ih, exists_matches_nil_iff]
    rfl
  · refine exists_congr fun x => exists_congr fun y => and_congr_right fun hm =>
      and_congr_right fun hx => ?_
    rw [ih, getLast?_or_of_ne_nil hx, hm, List.head?_append, Option.or_assoc]

/-- The choices at a place are the ways to match from there on. -/
theorem matches_iff_exists_leaf (e : Expr) : ∀ {b m a},
    e.Matches b m a ↔ ∃ l ∈ e.leaves ⟨b, m.head?.or a⟩, l.Matches m a := by
  induction e with
  | empty =>
      intro b m a
      simp only [Expr.leaves, List.mem_singleton, exists_eq_left, Leaf.Matches]
      exact empty_matches_iff
  | char s =>
      intro b m a
      simp only [Expr.leaves, List.mem_singleton, exists_eq_left, Leaf.Matches, empty_matches_iff,
        char_matches_iff]
      constructor
      · rintro ⟨c, hc, rfl⟩
        exact ⟨c, [], rfl, hc, rfl⟩
      · rintro ⟨c, _, rfl, hc, rfl⟩
        exact ⟨c, hc, rfl⟩
  | anchor k =>
      intro b m a
      simp only [Expr.leaves]
      constructor
      · intro h
        cases h with
        | anchor hk =>
            refine ⟨.done, ?_, rfl⟩
            rw [List.head?_nil, Option.none_or, if_pos hk]
            exact List.mem_singleton_self _
      · rintro ⟨l, hl, hm⟩
        split at hl
        · rename_i hk
          rw [List.mem_singleton.mp hl] at hm
          cases hm
          exact .anchor hk
        · cases hl
  | alt e f ihe ihf =>
      intro b m a
      simp only [Expr.leaves, exists_append_iff, ← ihe, ← ihf]
      exact alt_matches_iff
  | seq e f ihe ihf =>
      intro b m a
      have hd : (∃ k ∈ if .done ∈ e.leaves ⟨b, m.head?.or a⟩ then f.leaves ⟨b, m.head?.or a⟩ else [],
          k.Matches m a) ↔ .done ∈ e.leaves ⟨b, m.head?.or a⟩ ∧ f.Matches b m a := by
        rw [ihf]
        split <;> simp [*]
      have hn : e.Matches b [] (m.head?.or a) ↔ .done ∈ e.leaves ⟨b, m.head?.or a⟩ := by
        rw [ihe, exists_matches_nil_iff]
        rfl
      rw [Expr.leaves, exists_leaf_andThen_iff ihe, hd, ← hn, and_self_left, seq_matches_iff]
      constructor
      · rintro ⟨x, y, rfl, he, hf⟩
        cases x with
        | nil => exact Or.inl ⟨he, hf⟩
        | cons c x => exact Or.inr ⟨c :: x, y, rfl, by simp, he, hf⟩
      · rintro (⟨he, hf⟩ | ⟨x, y, hm, _, he, hf⟩)
        · exact ⟨[], m, rfl, he, hf⟩
        · exact ⟨x, y, hm, he, hf⟩
  | plus g e ih =>
      intro b m a
      rw [Expr.leaves, exists_leaf_andThen_iff ih, plus_matches_iff]
      simp only [List.mem_singleton, exists_eq_left, Leaf.Matches]
      constructor
      · rintro ⟨x, y, rfl, he, hn⟩
        cases x with
        | nil =>
            -- A round that takes nothing is the only one, or there is a first one that does.
            rcases more_matches_iff.mp hn with rfl | h
            · exact Or.inl ⟨he, rfl⟩
            · exact Or.inr h
        | cons c x => exact Or.inr ⟨c :: x, y, rfl, by simp, he, hn⟩
      · rintro (⟨he, rfl⟩ | ⟨x, y, hm, _, he, hn⟩)
        · exact ⟨[], [], rfl, he, .stop⟩
        · exact ⟨x, y, hm, he, hn⟩
  | more g e ih =>
      intro b m a
      have hl : (∃ l ∈ (Expr.more g e).leaves ⟨b, m.head?.or a⟩, l.Matches m a) ↔
          m = [] ∨ ∃ l ∈ (e.leaves ⟨b, m.head?.or a⟩).flatMap (Leaf.andThen (.more g e) []),
            l.Matches m a := by
        cases g <;> simp [Expr.leaves, or_and_right, exists_or, Leaf.Matches, or_comm]
      rw [hl, exists_leaf_andThen_iff ih, more_matches_iff]
      simp

/-! ## The search -/

theorem exists_mem_read_iff {c : Char} :
    (∃ k ∈ ls.flatMap (Leaf.read c ⟨some c, m.head?.or a⟩), k.Matches m a) ↔
      ∃ l ∈ ls, l.Matches (c :: m) a := by
  constructor
  · rintro ⟨k, hk, hm⟩
    obtain ⟨l, hl, hkl⟩ := List.mem_flatMap.mp hk
    cases l with
    | done => cases hkl
    | take s e =>
        simp only [Leaf.read] at hkl
        split at hkl
        · rename_i hc
          exact ⟨_, hl, c, m, rfl, hc, (matches_iff_exists_leaf e).mpr ⟨k, hkl, hm⟩⟩
        · cases hkl
  · rintro ⟨l, hl, hm⟩
    cases l with
    | done => cases hm
    | take s e =>
        obtain ⟨_, _, he, hc, hm⟩ := hm
        cases he
        obtain ⟨k, hk, hkm⟩ := (matches_iff_exists_leaf e).mp hm
        exact ⟨k, List.mem_flatMap.mpr ⟨_, hl, by simpa [Leaf.read, hc] using hk⟩, hkm⟩

/-- Some choice leads to a match of a first part of the text. -/
def Leads (threads : List Leaf) (cs : List Char) : Prop :=
  ∃ m after, cs = m ++ after ∧ ∃ l ∈ threads, l.Matches m after.head?

theorem leads_of_done_mem (h : .done ∈ ls) : Leads ls cs :=
  ⟨[], cs, rfl, .done, h, rfl⟩

theorem leads_nil_iff : Leads ls [] ↔ .done ∈ ls := by
  refine ⟨?_, leads_of_done_mem⟩
  rintro ⟨m, after, he, hl⟩
  obtain ⟨rfl, rfl⟩ := List.append_eq_nil_iff.mp he.symm
  exact exists_matches_nil_iff.mp hl

theorem leads_cons_iff {c : Char} (h : .done ∉ ls) :
    Leads ls (c :: cs) ↔ Leads (ls.flatMap (Leaf.read c ⟨some c, cs.head?⟩)) cs := by
  constructor
  · rintro ⟨m, after, he, hl⟩
    cases m with
    | nil => exact absurd (exists_matches_nil_iff.mp hl) h
    | cons d m =>
        rw [List.cons_append, List.cons.injEq] at he
        obtain ⟨rfl, rfl⟩ := he
        refine ⟨m, after, rfl, ?_⟩
        rw [List.head?_append]
        exact exists_mem_read_iff.mpr hl
  · rintro ⟨m, after, rfl, hl⟩
    rw [List.head?_append] at hl
    exact ⟨c :: m, after, rfl, exists_mem_read_iff.mp hl⟩

/-- A run finds a match exactly if it has one already or one of its choices leads to one. -/
theorem isSome_run_iff {threads : List Leaf} {taken : List Char} {best : Option (List Char)} :
    (run threads taken best cs).isSome ↔ best.isSome ∨ Leads threads cs := by
  induction cs generalizing threads taken best with
  | nil =>
      unfold run
      rw [leads_nil_iff]
      by_cases hd : Leaf.done ∈ threads <;> simp [hd]
  | cons c cs ih =>
      unfold run
      by_cases hd : Leaf.done ∈ threads
      · have hl : Leads threads (c :: cs) := leads_of_done_mem hd
        simp only [hd, ↓reduceIte, hl, or_true, iff_true]
        split
        · rfl
        · rfl
        · rename_i he _
          cases he
          exact ih.mpr (Or.inl Option.isSome_some)
      · have hlive : threads.takeWhile (· ≠ Leaf.done) = threads := by
          refine List.takeWhile_eq_self_iff.mpr fun l hl => ?_
          have hne : l ≠ .done := by
            rintro rfl
            exact hd hl
          simpa using hne
        simp only [hd, ↓reduceIte, hlive]
        rw [leads_cons_iff hd]
        split
        · rename_i he
          cases he
        · simp [Leads]
        · rename_i he _
          cases he
          rw [ih]
          simp [Leads]

theorem isSome_matchAt?_iff {before : Option Char} : (matchAt? e before cs).isSome ↔
    ∃ m after, cs = m ++ after ∧ e.Matches before m after.head? := by
  rw [matchAt?, Option.isSome_map, isSome_run_iff]
  simp only [Option.isSome_none, Bool.false_eq_true, false_or, Leads]
  refine exists_congr fun m => exists_congr fun after => and_congr_right fun hc => ?_
  rw [matches_iff_exists_leaf, hc, List.head?_append]

theorem isSome_findFrom?_iff {before : Option Char} : (findFrom? e before cs).isSome ↔
    ∃ skipped m after, cs = skipped ++ m ++ after ∧
      e.Matches (skipped.getLast?.or before) m after.head? := by
  induction cs generalizing before with
  | nil =>
      have hm : (matchAt? e before []).isSome ↔
          ∃ m after, [] = m ++ after ∧ e.Matches before m after.head? := isSome_matchAt?_iff
      have hf : (findFrom? e before []).isSome = (matchAt? e before []).isSome := by
        unfold findFrom?
        cases matchAt? e before [] <;> rfl
      rw [hf, hm]
      constructor
      · rintro ⟨m, after, he, hm⟩
        exact ⟨[], m, after, he, hm⟩
      · rintro ⟨skipped, m, after, he, hm⟩
        have he := he.symm
        simp only [List.append_eq_nil_iff] at he
        obtain ⟨⟨rfl, rfl⟩, rfl⟩ := he
        exact ⟨[], [], rfl, hm⟩
  | cons c cs ih =>
      have hf : (findFrom? e before (c :: cs)).isSome ↔
          (matchAt? e before (c :: cs)).isSome ∨ (findFrom? e (some c) cs).isSome := by
        rw [findFrom?]
        cases matchAt? e before (c :: cs) <;> simp
      rw [hf, isSome_matchAt?_iff, ih]
      constructor
      · rintro (⟨m, after, he, hm⟩ | ⟨skipped, m, after, rfl, hm⟩)
        · exact ⟨[], m, after, he, hm⟩
        · refine ⟨c :: skipped, m, after, rfl, ?_⟩
          rwa [getLast?_cons_or]
      · rintro ⟨skipped, m, after, he, hm⟩
        cases skipped with
        | nil => exact Or.inl ⟨m, after, he, hm⟩
        | cons d skipped =>
            simp only [List.cons_append, List.cons.injEq] at he
            obtain ⟨rfl, rfl⟩ := he
            refine Or.inr ⟨skipped, m, after, rfl, ?_⟩
            rwa [getLast?_cons_or] at hm

/-- The search finds a match exactly if the expression matches some part of the text. -/
theorem isSome_find?_iff : (find? e cs).isSome ↔ e.Occurs cs := by
  rw [find?_eq_findFrom?, isSome_findFrom?_iff]
  simp [Expr.Occurs]

end WorkflowLint.Pattern
