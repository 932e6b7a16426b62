import Mathlib.Data.List.Basic
import Mathlib.Tactic.MkIffOfInductiveProp
import WorkflowLint.Path

/-!
# The order of paths

Paths are ordered by their components, and two paths that neither comes before the other have the
same ones. The path of something below a folder has the components of the folder and after them the
names that lead down from there.
-/
namespace WorkflowLint.Path

/-! ## Components -/

namespace Component

theorem eq_of_label {a b : Component} (hr : a.rank = b.rank) (hl : a.label = b.label) : a = b := by
  cases a <;> cases b <;> simp_all [rank, label]

instance : Std.Irrefl ((· < ·) : Component → Component → Prop) where
  irrefl _ h := h.elim (Nat.lt_irrefl _) fun h => String.lt_irrefl _ h.2

instance : Trans ((· < ·) : Component → Component → Prop) ((· < ·) : Component → Component → Prop)
    ((· < ·) : Component → Component → Prop) where
  trans {a b c} hab hbc := by
    rcases hab with hab | ⟨hab, hl⟩
    · rcases hbc with hbc | ⟨hbc, _⟩
      · exact Or.inl (Nat.lt_trans hab hbc)
      · exact Or.inl (hbc ▸ hab)
    · rcases hbc with hbc | ⟨hbc, hm⟩
      · exact Or.inl (hab ▸ hbc)
      · exact Or.inr ⟨hab.trans hbc, String.lt_trans hl hm⟩

instance : Std.Trichotomous ((· < ·) : Component → Component → Prop) where
  trichotomous a b hab hba := by
    have hr : a.rank = b.rank :=
      Nat.le_antisymm (Nat.not_lt.mp fun h => hba (Or.inl h))
        (Nat.not_lt.mp fun h => hab (Or.inl h))
    refine eq_of_label hr (String.le_antisymm ?_ ?_)
    · exact String.not_lt.mp fun h => hba (Or.inr ⟨hr.symm, h⟩)
    · exact String.not_lt.mp fun h => hab (Or.inr ⟨hr, h⟩)

end Component

/-! ## Paths -/

variable {p q r : String} {cs ds es : List Component}

theorem eq_of_not_lt (h₁ : ¬ds < cs) (h₂ : ¬cs < ds) : cs = ds :=
  List.le_antisymm h₁ h₂

theorem not_lt_trans (h₁ : ¬ds < cs) (h₂ : ¬es < ds) : ¬es < cs := by
  intro h
  by_cases hd : ds < es
  · exact h₁ (List.lt_trans hd h)
  · exact h₁ (eq_of_not_lt h₂ hd ▸ h)

theorem lt_of_not_lt_of_ne (h : ¬ds < cs) (hn : cs ≠ ds) : cs < ds :=
  Classical.not_not.mp fun hc => hn (eq_of_not_lt h hc)

theorem le_iff : le p q = true ↔ ¬components q < components p := by
  simp [le]

theorem le_trans (p q r : String) (h₁ : le p q = true) (h₂ : le q r = true) : le p r = true :=
  le_iff.mpr (not_lt_trans (le_iff.mp h₁) (le_iff.mp h₂))

theorem le_total (p q : String) : (le p q || le q p) = true := by
  rw [Bool.or_eq_true, le_iff, le_iff, ← not_and_or]
  rintro ⟨h₁, h₂⟩
  exact List.lt_irrefl _ (List.lt_trans h₁ h₂)

/-! ## Below a folder -/

/-- What a file can be called in its folder. -/
@[mk_iff]
structure IsFileName (name : String) : Prop where
  nonempty : name ≠ ""
  notHere : name ≠ "."
  notUp : name ≠ ".."
  single : '/' ∉ name.toList

theorem IsFileName.toList_ne {name : String} (h : IsFileName name) :
    name.toList ≠ [] ∧ name.toList ≠ ['.'] ∧ name.toList ≠ ['.', '.'] :=
  ⟨fun ht => h.nonempty (String.toList_inj.mp ht), fun ht => h.notHere (String.toList_inj.mp ht),
    fun ht => h.notUp (String.toList_inj.mp ht)⟩

theorem IsFileName.ofPiece?_eq {name : String} (h : IsFileName name) :
    Component.ofPiece? name.toList = some (.name name) := by
  obtain ⟨he, hd, hu⟩ := h.toList_ne
  rw [Component.ofPiece?, if_neg (not_or.mpr ⟨he, hd⟩), if_neg hu, String.ofList_toList]

/-- What the first of several pieces stands for, over and above its name. -/
def opening : List (List Char) → List Component
  | [] :: _ => [.root]
  | ['.'] :: _ => [.here]
  | _ => []

/-- The head piece alone decides how a path begins. -/
theorem opening_append {pieces : List (List Char)} (h : pieces ≠ []) (more : List (List Char)) :
    opening (pieces ++ more) = opening pieces := by
  cases pieces with
  | nil => exact absurd rfl h
  | cons first pieces =>
    rw [List.cons_append]
    unfold opening
    split <;> simp_all

theorem components_eq {path : String} (h : path ≠ "") : components path =
    opening (path.toList.splitOn '/') ++
      (path.toList.splitOn '/').filterMap Component.ofPiece? := by
  have hn : path.toList.splitOn '/' ≠ [[]] := by
    intro hs
    have hi : ['/'].intercalate (path.toList.splitOn '/') = path.toList :=
      List.intercalate_splitOn '/'
    rw [hs] at hi
    exact h (String.toList_inj.mp hi.symm)
  unfold components
  split
  · rename_i he
    rw [he]
    rfl
  · rename_i pieces he
    have hp : pieces ≠ [] := fun hp => hn (he.trans (congrArg ([] :: ·) hp))
    rw [he, if_neg hp]
    rfl
  · rename_i first pieces hf he
    rw [he]
    by_cases hd : first = ['.']
    · rw [if_pos hd, hd]
      rfl
    · have ho : opening (first :: pieces) = [] := by
        unfold opening
        split <;> simp_all
      rw [if_neg hd, ho]

/-- The head piece is a component, unless it opens the path. -/
theorem components_ne_nil {path : String} (h : path ≠ "") : components path ≠ [] := by
  rw [components_eq h]
  cases hs : path.toList.splitOn '/' with
  | nil => exact absurd hs (List.splitOn_ne_nil _ _)
  | cons first pieces =>
    by_cases he : first = []
    · simp [he, opening]
    by_cases hd : first = ['.']
    · simp [hd, opening]
    · by_cases hu : first = ['.', '.'] <;> simp [Component.ofPiece?, he, hd, hu]

theorem splitOn_intercalate {names : List String} (hn : names ≠ [])
    (h : ∀ name ∈ names, IsFileName name) :
    ("/".intercalate names).toList.splitOn '/' = names.map String.toList := by
  rw [String.toList_intercalate]
  refine List.splitOn_intercalate '/' (fun l hl => ?_) (by simpa using hn)
  obtain ⟨name, hname, rfl⟩ := List.mem_map.mp hl
  exact (h name hname).single

theorem filterMap_ofPiece? {names : List String} (h : ∀ name ∈ names, IsFileName name) :
    (names.map String.toList).filterMap Component.ofPiece? = names.map .name := by
  induction names with
  | nil => rfl
  | cons name names ih =>
      rw [List.map_cons, List.filterMap_cons_some (h name List.mem_cons_self).ofPiece?_eq,
        ih fun n hn => h n (List.mem_cons_of_mem name hn), List.map_cons]

/-- A path with something below it, the separator between the two written once. -/
theorem join_eq (folder : String) (names : List String) :
    (∃ above, folder = above ++ "/" ∧ join folder names = above ++ "/" ++ "/".intercalate names) ∨
      join folder names = folder ++ "/" ++ "/".intercalate names := by
  unfold join
  split
  · rename_i hl
    obtain ⟨above, ha⟩ := List.getLast?_eq_some_iff.mp hl
    have hf : folder = String.ofList above ++ "/" := by
      rw [← String.toList_inj, ha, String.toList_append, String.toList_ofList]
      rfl
    exact Or.inl ⟨String.ofList above, hf, congrArg (· ++ _) hf⟩
  · exact Or.inr rfl

theorem pieces_below (above : String) {names : List String} (hn : names ≠ [])
    (h : ∀ name ∈ names, IsFileName name) :
    (above ++ "/" ++ "/".intercalate names).toList.splitOn '/' =
      above.toList.splitOn '/' ++ names.map String.toList := by
  rw [String.toList_append, String.toList_append, List.append_assoc]
  exact (List.splitOn_append_cons_self ..).trans (congrArg (_ ++ ·) (splitOn_intercalate hn h))

theorem join_ne_empty (folder : String) (names : List String) : join folder names ≠ "" := by
  obtain ⟨above, -, hj⟩ | hj := join_eq folder names
  · simp [hj]
  · simp [hj]

theorem components_below {above : String} {names : List String} (hn : names ≠ [])
    (h : ∀ name ∈ names, IsFileName name) :
    components (above ++ "/" ++ "/".intercalate names) =
      opening (above.toList.splitOn '/') ++
        (above.toList.splitOn '/').filterMap Component.ofPiece? ++ names.map .name := by
  rw [components_eq (by simp), pieces_below above hn h, opening_append (List.splitOn_ne_nil _ _),
    List.filterMap_append, filterMap_ofPiece? h, List.append_assoc]

theorem components_join {folder : String} {names : List String} (hf : folder ≠ "")
    (hn : names ≠ []) (h : ∀ name ∈ names, IsFileName name) :
    components (join folder names) = components folder ++ names.map .name := by
  obtain ⟨above, rfl, hj⟩ | hj := join_eq folder names
  · have hs : (above ++ "/").toList.splitOn '/' = above.toList.splitOn '/' ++ [[]] := by
      rw [String.toList_append]
      exact List.splitOn_append_cons_self ..
    rw [hj, components_below hn h, components_eq hf, hs, opening_append (List.splitOn_ne_nil _ _),
      List.filterMap_append]
    simp [Component.ofPiece?]
  · rw [hj, components_below hn h, components_eq hf]

theorem demandsFolder_join {folder : String} {names : List String} (hn : names ≠ [])
    (h : ∀ name ∈ names, IsFileName name) : demandsFolder (join folder names) = false := by
  have hb : ∃ above : String,
      join folder names = above ++ "/" ++ "/".intercalate names := by
    obtain ⟨above, -, hj⟩ | hj := join_eq folder names
    · exact ⟨above, hj⟩
    · exact ⟨folder, hj⟩
  obtain ⟨above, hj⟩ := hb
  obtain ⟨he, hd, -⟩ := (h _ (List.getLast_mem hn)).toList_ne
  rw [demandsFolder, hj, pieces_below above hn h,
    List.getLast?_append_of_ne_nil _ (by simpa using hn), List.getLast?_map,
    List.getLast?_eq_some_getLast hn]
  simp [he, hd]

end WorkflowLint.Path
