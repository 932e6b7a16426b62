import Mathlib.Data.List.Nodup
import WorkflowLint.Json.Codec
import WorkflowLint.Proofs.Json.Written

/-!
# Values and records as JSON

The codecs write what they read. A record is read from an object that names some of its fields, in
any order: the fields that are named are set, each from its own member, and the others stay as they
are.
-/
namespace WorkflowLint

theorem Json.ofNat_eq_ofInt (n : Nat) : ofNat n = ofInt n := rfl

namespace Codec

theorem whole?_toString (i : Int) : whole? (toString i).toList = some i := by
  rw [Numeral.toList_toString]
  split
  · unfold whole?
    split
    · rename_i he
      exact absurd (he ▸ List.mem_cons_self) (Numeral.minus_not_mem_repr i.toNat)
    · rw [Numeral.unsigned?_repr]
      exact congrArg some (Int.toNat_of_nonneg ‹_›)
  · have hz : (-i).toNat.repr.toList ≠ ['0'] := fun he => by
      have := Json.repr_eq_zero_of_head? (-i).toNat (by rw [he]; rfl)
      omega
    have hi : -((-i).toNat : Int) = i := by omega
    rw [whole?, if_neg hz, Numeral.unsigned?_repr]
    exact congrArg some hi

theorem lawful_string : string.Lawful := fun _ => rfl

theorem lawful_bool : bool.Lawful := fun _ => rfl

theorem lawful_int64 : int64.Lawful := by
  intro w
  simp only [int64, Json.ofInt]
  rw [whole?_toString, Option.bind_some, Numeral.int64?_toInt]

theorem lawful_uint64 : uint64.Lawful := by
  intro w
  simp only [uint64, Json.ofNat_eq_ofInt, Json.ofInt]
  rw [whole?_toString, Option.bind_some, Numeral.uint64?_toNat]

theorem lawful_list {α : Type} {c : Codec α} (h : c.Lawful) : c.list.Lawful := by
  intro as
  change (as.map c.write).mapM c.read? = some as
  induction as with
  | nil => rfl
  | cons a as ih => simp [List.mapM_cons, h a, ih]

end Codec

/-! ## Written values -/

namespace Json

theorem written_ofInt (i : Int) : (ofInt i).Written :=
  ⟨i, rfl⟩

theorem written_ofNat (n : Nat) : (ofNat n).Written :=
  ⟨n, rfl⟩

theorem written_ofStrings (ss : List String) : (ofStrings ss).Written := by
  change WrittenItems (ss.map string)
  induction ss with
  | nil => trivial
  | cons s ss ih => exact ⟨trivial, ih⟩

theorem written_object {κ : Type} {member : κ → String × Json} (h : ∀ k, (member k).2.Written)
    (ks : List κ) : (object (ks.map member)).Written := by
  change WrittenMembers (ks.map member)
  induction ks with
  | nil => trivial
  | cons k ks ih => exact ⟨h k, ih⟩

end Json

/-! ## Records -/

namespace Field

variable {σ κ : Type} {fs : List (Field σ)} {blank : σ}

/-- All fields may be left out, and they have different names. -/
structure AllDefaulted (fs : List (Field σ)) : Prop where
  nodup : (fs.map (·.name)).Nodup
  defaulted : ∀ f ∈ fs, f.presence = .defaulted

/-- A member of an object is a field of the record, and `take` is what it sets there. -/
def Reads (fs : List (Field σ)) (member : String × Json) (take : σ → σ) : Prop :=
  ∃ f ∈ fs, f.name = member.1 ∧ ∀ s, f.set? member.2 s = some (take s)

theorem reads_of {α : Type} {name : String} {p : Presence} {c : Codec α} {get : σ → α}
    {put : α → σ → σ} {j : Json} {a : α} {take : σ → σ} (i : Nat)
    (hf : fs[i]? = some (of name p c get put)) (hr : c.read? j = some a)
    (ht : ∀ s, put a s = take s) : Reads fs (name, j) take := by
  refine ⟨_, List.mem_of_getElem? hf, rfl, fun s => ?_⟩
  change (c.read? j).map (put · s) = _
  rw [hr, Option.map_some, ht]

theorem find?_name (h : (fs.map (·.name)).Nodup) {f : Field σ} (hf : f ∈ fs) :
    (fs.find? fun g => g.name = f.name) = some f := by
  induction fs with
  | nil => cases hf
  | cons g gs ih =>
      rw [List.map_cons, List.nodup_cons] at h
      rcases List.mem_cons.mp hf with rfl | hf
      · simp
      · have hne : g.name ≠ f.name := fun he => h.1 (he ▸ List.mem_map_of_mem hf)
        rw [List.find?_cons_of_neg (by simpa using hne)]
        exact ih h.2 hf

theorem named_cons {f : Field σ} {m : String × Json} (ms : List (String × Json))
    (h : (fs.find? fun g => g.name = m.1) = some f) :
    named fs (m :: ms) = (f, m.2) :: named fs ms := by
  simp [named, h]

/-- What is set for several keys is set for one after another. -/
structure SetsEach (set : List κ → σ → σ) : Prop where
  nil : ∀ s, set [] s = s
  cons : ∀ k ks s, set (k :: ks) s = set ks (set [k] s)

variable {ks : List κ} {member : κ → String × Json} {set : List κ → σ → σ}

theorem map_name_named (h : AllDefaulted fs) (hm : ∀ k ∈ ks, Reads fs (member k) (set [k])) :
    (named fs (ks.map member)).map (·.1.name) = ks.map fun k => (member k).1 := by
  induction ks with
  | nil => rfl
  | cons k ks ih =>
      obtain ⟨f, hf, hn, _⟩ := hm k List.mem_cons_self
      rw [List.map_cons, named_cons _ (hn ▸ find?_name h.nodup hf), List.map_cons, List.map_cons,
        hn, ih fun k' hk => hm k' (List.mem_cons_of_mem k hk)]

theorem setAll?_named (h : AllDefaulted fs) (hs : SetsEach set)
    (hm : ∀ k ∈ ks, Reads fs (member k) (set [k])) (s : σ) :
    setAll? s (named fs (ks.map member)) = some (set ks s) := by
  induction ks generalizing s with
  | nil => exact congrArg some (hs.nil s).symm
  | cons k ks ih =>
      obtain ⟨f, hf, hn, hk⟩ := hm k List.mem_cons_self
      rw [List.map_cons, named_cons _ (hn ▸ find?_name h.nodup hf), setAll?, List.foldlM_cons, hk,
        hs.cons k ks]
      exact ih (fun k' hk => hm k' (List.mem_cons_of_mem k hk)) (set [k] s)

/-- The fields that an object names are set, whatever their order, and no other ones. -/
theorem read?_object (h : AllDefaulted fs) (hs : SetsEach set)
    (hm : ∀ k ∈ ks, Reads fs (member k) (set [k])) (hi : Function.Injective fun k => (member k).1)
    (hn : ks.Nodup) : read? fs blank (.object (ks.map member)) = some (set ks blank) := by
  have hr : ∀ f ∈ fs, f.presence = .required →
      f.name ∈ (named fs (ks.map member)).map (·.1.name) := fun f hf hp => by
    rw [h.defaulted f hf] at hp
    cases hp
  have hd : ((named fs (ks.map member)).map (·.1.name)).Nodup := by
    rw [map_name_named h hm]
    exact hn.map hi
  rw [read?, if_pos ⟨hd, hr⟩, setAll?_named h hs hm]

end Field

end WorkflowLint
