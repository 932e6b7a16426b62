import WorkflowLint.Proofs.Scripts

/-!
# Folding

A script under a `|` is read as it stands. Under a `>` it is read with the newlines folded that
separate two lines which are not blank, and with no other change. In both styles, blank lines below
the script are not read.
-/
namespace WorkflowLint

namespace Text

variable {cs : List Char}

/-- The part of a line that stands before a position. -/
def lineBefore (cs : List Char) (i : Nat) : List Char :=
  ((cs.take i).reverse.takeWhile (· ≠ '\n')).reverse

/-- The part of a line that stands from a position on. -/
def lineFrom (cs : List Char) (i : Nat) : List Char :=
  (cs.drop i).takeWhile (· ≠ '\n')

/-- Whether a newline at a position separates two lines that are not blank. -/
def IsSeam (cs : List Char) (i : Nat) : Prop :=
  cs[i]? = some '\n' ∧ trim (lineBefore cs i) ≠ [] ∧ trim (lineFrom cs (i + 1)) ≠ []

instance (cs : List Char) (i : Nat) : Decidable (IsSeam cs i) :=
  inferInstanceAs (Decidable (_ ∧ _))

/-- A text with spaces for the newlines that separate two lines which are not blank. -/
def fold (cs : List Char) : List Char :=
  cs.mapIdx fun i c => if IsSeam cs i then ' ' else c

theorem takeWhile_append_newline (cs ds : List Char) :
    (cs ++ '\n' :: ds).takeWhile (· ≠ '\n') = cs.takeWhile (· ≠ '\n') := by
  induction cs with
  | nil => simp
  | cons c cs ih =>
      rw [List.cons_append, List.takeWhile_cons, List.takeWhile_cons, ih]

theorem takeWhile_eq_self (h : '\n' ∉ cs) : cs.takeWhile (· ≠ '\n') = cs := by
  refine List.takeWhile_eq_self_iff.mpr fun c hc => ?_
  exact decide_eq_true fun he => h (he ▸ hc)

/-- Whether a newline is a seam does not depend on the lines above those that it separates. -/
theorem isSeam_below (line ds : List Char) (i : Nat) :
    IsSeam (line ++ '\n' :: ds) (i + (line.length + 1)) ↔ IsSeam ds i := by
  have hl : line ++ '\n' :: ds = (line ++ ['\n']) ++ ds := by
    rw [List.append_assoc, List.singleton_append]
  have hn : line.length + 1 = (line ++ ['\n']).length := by
    rw [List.length_append, List.length_singleton]
  have ht : ((line ++ ['\n']) ++ ds).take (i + (line ++ ['\n']).length) =
      line ++ '\n' :: ds.take i := by
    rw [Nat.add_comm, List.take_length_add_append, List.append_assoc, List.singleton_append]
  have hg : ((line ++ ['\n']) ++ ds)[i + (line ++ ['\n']).length]? = ds[i]? := by
    rw [List.getElem?_append_right (Nat.le_add_left _ _), Nat.add_sub_cancel]
  have hb : lineBefore ((line ++ ['\n']) ++ ds) (i + (line ++ ['\n']).length) = lineBefore ds i := by
    rw [lineBefore, ht, List.reverse_append, List.reverse_cons, List.append_assoc,
      List.singleton_append, takeWhile_append_newline]
    rfl
  have hf : lineFrom ((line ++ ['\n']) ++ ds) (i + (line ++ ['\n']).length + 1) =
      lineFrom ds (i + 1) := by
    rw [lineFrom, Nat.add_right_comm, Nat.add_comm (i + 1), List.drop_length_add_append]
    rfl
  rw [hl, hn, IsSeam, hg, hb, hf]
  rfl

theorem isSeam_at (h : '\n' ∉ cs) (ds : List Char) :
    IsSeam (cs ++ '\n' :: ds) cs.length ↔ trim cs ≠ [] ∧ trim (lineFrom ds 0) ≠ [] := by
  have hg : (cs ++ '\n' :: ds)[cs.length]? = some '\n' := by
    rw [List.getElem?_append_right (Nat.le_refl _), Nat.sub_self]
    rfl
  have hb : lineBefore (cs ++ '\n' :: ds) cs.length = cs := by
    rw [lineBefore, List.take_left, takeWhile_eq_self (mt List.mem_reverse.mp h), List.reverse_reverse]
  have hf : lineFrom (cs ++ '\n' :: ds) (cs.length + 1) = lineFrom ds 0 := by
    rw [lineFrom, List.drop_length_add_append]
    rfl
  rw [IsSeam, hg, hb, hf]
  simp

/-- What stands on a line is not folded. -/
theorem mapIdx_line (h : '\n' ∉ cs) (ds : List Char) :
    (cs.mapIdx fun i c => if IsSeam (cs ++ ds) i then ' ' else c) = cs := by
  refine List.mapIdx_eq_iff.mpr fun i => ?_
  cases hc : cs[i]? with
  | none => rfl
  | some c =>
      have hn : ¬IsSeam (cs ++ ds) i := fun hs => by
        have he := hs.1
        rw [List.getElem?_append_left (List.getElem?_eq_some_iff.mp hc).1, hc] at he
        exact h (Option.some.inj he ▸ List.mem_of_getElem? hc)
      rw [Option.map_some, if_neg hn]

theorem fold_eq_self (h : '\n' ∉ cs) : fold cs = cs := by
  have hm := mapIdx_line h []
  rwa [List.append_nil] at hm

theorem fold_append_newline (h : '\n' ∉ cs) (ds : List Char) :
    fold (cs ++ '\n' :: ds) =
      cs ++ (if trim cs ≠ [] ∧ trim (lineFrom ds 0) ≠ [] then ' ' else '\n') :: fold ds := by
  rw [fold, List.mapIdx_append, List.mapIdx_cons, mapIdx_line h, Nat.zero_add, fold]
  simp only [isSeam_at h, Nat.add_right_comm _ 1, Nat.add_assoc, isSeam_below]

end Text

namespace BlockStyle

/-- The sign that announces a block. -/
def sign : BlockStyle → Char
  | literal => '|'
  | folded => '>'

/-- The text that a block reads of a script. -/
def shown : BlockStyle → List Char → List Char
  | literal, script => script
  | folded, script => Text.fold script

theorem of?_sign (style : BlockStyle) {hints : List Char}
    (h : ∀ c ∈ hints, c = '-' ∨ c = '+' ∨ c.isDigit = true) :
    of? (style.sign :: hints) = some style := by
  have ha : (hints.all fun c => c == '-' || c == '+' || c.isDigit) = true :=
    List.all_eq_true.mpr fun c hc => by simpa [or_assoc] using h c hc
  rw [of?, if_pos ha]
  cases style <;> rfl

theorem trim_eq_nil_of_script {r : List Char} (hs : Text.trimStart r = r.dropWhile (· = ' '))
    (he : Text.trimEnd r = r) : Text.trim r = [] ↔ r = [] := by
  refine ⟨fun h => Classical.not_not.mp fun hn => ?_, fun h => by rw [h, Text.trim_nil]⟩
  obtain ⟨n, rest, rfl, ht⟩ := Text.exists_eq_row hs he hn
  exact ht.ne_nil (ht.trim_row ▸ h)

theorem lineFrom_intercalate {r : List Char} (h : '\n' ∉ r) (rs : List (List Char)) :
    Text.lineFrom (['\n'].intercalate (r :: rs)) 0 = r := by
  cases rs with
  | nil =>
      rw [List.intercalate_singleton]
      exact Text.takeWhile_eq_self h
  | cons u us =>
      rw [List.intercalate_cons_cons, List.append_assoc, List.singleton_append]
      exact (Text.takeWhile_append_newline r _).trans (Text.takeWhile_eq_self h)

theorem join_folded {rows : List (List Char)} (hn : ∀ r ∈ rows, '\n' ∉ r)
    (ht : ∀ r ∈ rows, Text.trim r = [] ↔ r = []) :
    join .folded rows = Text.fold (['\n'].intercalate rows) := by
  induction rows with
  | nil => rfl
  | cons r rs ih =>
      obtain ⟨hr, hns⟩ := List.forall_mem_cons.mp hn
      obtain ⟨htr, hts⟩ := List.forall_mem_cons.mp ht
      cases rs with
      | nil =>
          rw [List.intercalate_singleton]
          exact (Text.fold_eq_self hr).symm
      | cons u us =>
          -- The newline between `r` and `u` is the only one that depends on both.
          have htu := hts u List.mem_cons_self
          rw [List.intercalate_cons_cons, List.append_assoc, List.singleton_append,
            Text.fold_append_newline hr, lineFrom_intercalate (hns u List.mem_cons_self), join,
            ih hns hts, joint]
          simp only [ne_eq, htr, htu, true_and]

/-- A script is read under a sign, be there blank lines below it or not. -/
theorem text_eq_shown (style : BlockStyle) {depth : Nat} {ls blanks : List Line}
    (hd : ∀ l ∈ ls, l.isBlank = false → depth ≤ l.indent)
    (h : Text.IsScript (ls.map (row depth))) (hn : ∀ r ∈ ls.map (row depth), '\n' ∉ r)
    (hb : ∀ l ∈ blanks, l.isBlank = true) :
    style.text (ls ++ blanks) = style.shown (['\n'].intercalate (ls.map (row depth))) := by
  rw [text_append_of_blank style ls hb, text_eq_join style hd h]
  cases style with
  | literal => exact join_literal _
  | folded => exact join_folded hn fun r hr => trim_eq_nil_of_script (h.start r hr) (h.stop r hr)

end BlockStyle

end WorkflowLint
