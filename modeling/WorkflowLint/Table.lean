/-!
Tables: values under names, in the order of the names, each name once. The order is that of code
points. The main statements say what `insert` does to `get?`, and that a table is determined by its
answers.
-/
namespace WorkflowLint

structure Table (α : Type) where
  entries : List (String × α)
  sorted : entries.Pairwise fun a b => a.1 < b.1

namespace Table

variable {α β : Type}

/-- Puts a value under a name into a sorted list, in place of the one that stands there. -/
def insertEntry (name : String) (value : α) : List (String × α) → List (String × α)
  | [] => [(name, value)]
  | e :: es =>
    if name < e.1 then (name, value) :: e :: es
    else if e.1 < name then e :: insertEntry name value es
    else (name, value) :: es

theorem mem_insertEntry {name : String} {value : α} {es : List (String × α)} {e : String × α}
    (h : e ∈ insertEntry name value es) : e = (name, value) ∨ e ∈ es := by
  induction es with
  | nil => simpa [insertEntry] using h
  | cons f fs ih =>
    simp only [insertEntry] at h
    split at h
    · simpa using h
    · split at h
      · rcases List.mem_cons.1 h with rfl | h
        · simp
        · rcases ih h with h | h <;> simp [h]
      · rcases List.mem_cons.1 h with rfl | h <;> simp_all

theorem sorted_insertEntry {name : String} {value : α} {es : List (String × α)}
    (h : es.Pairwise fun a b => a.1 < b.1) :
    (insertEntry name value es).Pairwise fun a b => a.1 < b.1 := by
  induction es with
  | nil => simp [insertEntry]
  | cons f fs ih =>
    have hf := List.pairwise_cons.1 h
    simp only [insertEntry]
    split
    · next hlt =>
      refine List.pairwise_cons.2 ⟨fun b hb => ?_, h⟩
      rcases List.mem_cons.1 hb with rfl | hb
      · exact hlt
      · exact String.lt_trans hlt (hf.1 b hb)
    · split
      · next hgt =>
        refine List.pairwise_cons.2 ⟨fun b hb => ?_, ih hf.2⟩
        rcases mem_insertEntry hb with rfl | hb
        · exact hgt
        · exact hf.1 b hb
      · next hlt hgt =>
        have he : name = f.1 := String.le_antisymm (String.not_lt.1 hgt) (String.not_lt.1 hlt)
        exact List.pairwise_cons.2 ⟨fun b hb => he ▸ hf.1 b hb, hf.2⟩

def empty : Table α := ⟨[], .nil⟩

instance : EmptyCollection (Table α) := ⟨empty⟩

instance : Inhabited (Table α) := ⟨empty⟩

def insert (t : Table α) (name : String) (value : α) : Table α :=
  ⟨insertEntry name value t.entries, sorted_insertEntry t.sorted⟩

/-- Inserts the entries one after another, so that the last of equal names wins. -/
def insertMany (t : Table α) (es : List (String × α)) : Table α :=
  es.foldl (fun t e => t.insert e.1 e.2) t

def ofList (es : List (String × α)) : Table α :=
  insertMany ∅ es

def get? (t : Table α) (name : String) : Option α :=
  (t.entries.find? fun e => e.1 = name).map (·.2)

def contains (t : Table α) (name : String) : Bool :=
  (t.get? name).isSome

def names (t : Table α) : List String :=
  t.entries.map (·.1)

def values (t : Table α) : List α :=
  t.entries.map (·.2)

def size (t : Table α) : Nat :=
  t.entries.length

def isEmpty (t : Table α) : Bool :=
  t.entries.isEmpty

@[ext] theorem ext {s t : Table α} (h : s.entries = t.entries) : s = t := by
  cases s; cases t; cases h; rfl

instance [DecidableEq α] : DecidableEq (Table α) := fun s t =>
  decidable_of_iff (s.entries = t.entries) ⟨ext, fun h => h ▸ rfl⟩

@[simp] theorem entries_empty : (∅ : Table α).entries = [] := rfl

@[simp] theorem get?_empty (name : String) : (∅ : Table α).get? name = none := rfl

theorem find?_insertEntry (name n : String) (value : α) (es : List (String × α)) :
    ((insertEntry name value es).find? fun e => e.1 = n).map (·.2) =
      if name = n then some value else (es.find? fun e => e.1 = n).map (·.2) := by
  induction es with
  | nil => by_cases h : name = n <;> simp [insertEntry, h]
  | cons f fs ih =>
    simp only [insertEntry]
    split
    · by_cases h : name = n <;> simp [h]
    · split
      · next hgt =>
        by_cases hf : f.1 = n
        · have : name ≠ n := fun h => String.lt_irrefl name (by rw [← h] at hf; rwa [hf] at hgt)
          simp [hf, this]
        · simp [hf, ih]
      · next hlt hgt =>
        have he : name = f.1 := String.le_antisymm (String.not_lt.1 hgt) (String.not_lt.1 hlt)
        by_cases h : name = n
        · simp [h]
        · have : f.1 ≠ n := he ▸ h
          simp [h, this]

/-- A table holds what was last put under a name. -/
@[simp] theorem get?_insert (t : Table α) (name n : String) (value : α) :
    (t.insert name value).get? n = if name = n then some value else t.get? n :=
  find?_insertEntry name n value t.entries

theorem mem_entries_iff {t : Table α} {name : String} {value : α} :
    (name, value) ∈ t.entries ↔ t.get? name = some value := by
  obtain ⟨es, hs⟩ := t
  simp only [get?]
  induction es with
  | nil => simp
  | cons f fs ih =>
    have hf := List.pairwise_cons.1 hs
    by_cases h : f.1 = name
    · have hn : ∀ v, (name, v) ∉ fs := fun v hv =>
        String.lt_irrefl name (by simpa [h] using hf.1 _ hv)
      obtain ⟨k, w⟩ := f
      simp only at h
      subst h
      simp only [List.mem_cons, Prod.mk.injEq, true_and, decide_true, List.find?_cons_of_pos,
        Option.map_some, Option.some.injEq]
      exact ⟨fun h => h.elim Eq.symm fun h => absurd h (hn _), fun h => .inl h.symm⟩
    · have : (name, value) ≠ f := fun e => h (e ▸ rfl)
      simp only [List.mem_cons, this, false_or, h, decide_false, Bool.false_eq_true,
        not_false_eq_true, List.find?_cons_of_neg]
      exact ih hf.2

theorem mem_names_iff {t : Table α} {name : String} :
    name ∈ t.names ↔ ∃ value, t.get? name = some value := by
  simp only [names, List.mem_map, ← mem_entries_iff]
  exact ⟨fun ⟨⟨_, value⟩, he, hn⟩ => ⟨value, hn ▸ he⟩, fun ⟨value, he⟩ => ⟨_, he, rfl⟩⟩

theorem contains_iff {t : Table α} {name : String} : t.contains name ↔ name ∈ t.names := by
  rw [contains, Option.isSome_iff_exists, mem_names_iff]

theorem nodup_names (t : Table α) : t.names.Nodup := by
  refine List.pairwise_map.mpr (t.sorted.imp fun h he => ?_)
  rw [he] at h
  exact String.lt_irrefl _ h

/-- Sorted lists with the same members are equal. -/
theorem eq_of_mem_iff {es fs : List (String × α)}
    (hs : es.Pairwise fun a b => a.1 < b.1) (ht : fs.Pairwise fun a b => a.1 < b.1)
    (h : ∀ e, e ∈ es ↔ e ∈ fs) : es = fs := by
  induction es generalizing fs with
  | nil =>
    cases fs with
    | nil => rfl
    | cons f fs => exact absurd ((h f).2 (by simp)) (by simp)
  | cons e es ih =>
    have he := List.pairwise_cons.1 hs
    cases fs with
    | nil => exact absurd ((h e).1 (by simp)) (by simp)
    | cons f fs =>
      have hf := List.pairwise_cons.1 ht
      have hef : e = f := by
        rcases List.mem_cons.1 ((h e).1 (by simp)) with h₁ | h₁
        · exact h₁
        · rcases List.mem_cons.1 ((h f).2 (by simp)) with h₂ | h₂
          · exact h₂.symm
          · exact absurd (hf.1 e h₁) (String.lt_asymm (he.1 f h₂))
      subst hef
      refine congrArg (e :: ·) (ih he.2 hf.2 fun g => ⟨fun hg => ?_, fun hg => ?_⟩)
      · rcases List.mem_cons.1 ((h g).1 (by simp [hg])) with rfl | h
        · exact absurd (he.1 _ hg) (String.lt_irrefl _)
        · exact h
      · rcases List.mem_cons.1 ((h g).2 (by simp [hg])) with rfl | h
        · exact absurd (hf.1 _ hg) (String.lt_irrefl _)
        · exact h

/-- Two tables with the same answers are the same table. -/
theorem ext_get? {s t : Table α} (h : ∀ n, s.get? n = t.get? n) : s = t :=
  ext (eq_of_mem_iff s.sorted t.sorted fun e => by
    obtain ⟨n, v⟩ := e
    rw [mem_entries_iff, mem_entries_iff, h])

theorem insert_insert (t : Table α) (name : String) (v w : α) :
    (t.insert name v).insert name w = t.insert name w := by
  refine ext_get? fun n => ?_
  simp only [get?_insert]
  split <;> rfl

theorem insertEntry_of_forall_lt {name : String} {value : α} {es : List (String × α)}
    (h : ∀ e ∈ es, e.1 < name) : insertEntry name value es = es ++ [(name, value)] := by
  induction es with
  | nil => rfl
  | cons e es ih =>
    have he := h e List.mem_cons_self
    rw [insertEntry, if_neg (String.lt_asymm he), if_pos he,
      ih fun f hf => h f (List.mem_cons_of_mem _ hf), List.cons_append]

theorem entries_insertMany {t : Table α} {es : List (String × α)}
    (h : (t.entries ++ es).Pairwise fun a b => a.1 < b.1) :
    (t.insertMany es).entries = t.entries ++ es := by
  induction es generalizing t with
  | nil => simp [insertMany]
  | cons e es ih =>
    have he : (t.insert e.1 e.2).entries = t.entries ++ [e] :=
      insertEntry_of_forall_lt fun f hf => (List.pairwise_append.1 h).2.2 f hf e List.mem_cons_self
    have hi : ((t.insert e.1 e.2).entries ++ es).Pairwise fun a b => a.1 < b.1 := by
      rw [he, List.append_assoc]
      exact h
    rw [show t.insertMany (e :: es) = (t.insert e.1 e.2).insertMany es from rfl, ih hi, he,
      List.append_assoc, List.singleton_append]

/-- A table is built from its own entries. -/
theorem insertMany_entries (t : Table α) : (∅ : Table α).insertMany t.entries = t :=
  ext (entries_insertMany t.sorted)

end Table

end WorkflowLint
