import WorkflowLint.Proofs.Bounds
import WorkflowLint.Report

/-!
# Refused documents

One thing alone can be wrong in a document: a timeout that is no number of 64 bits. Reading is
refused for the first one that it comes to, and the failure points at its line. A document in which
no line is such a timeout describes a workflow, whatever else it says.
-/
namespace WorkflowLint

variable {tabWidth : Nat} {ls body : List Line} {cs : List Char} {e : SyntaxError}

/-! ## Numbers -/

namespace Numeral

/-- The texts of whole numbers: decimal digits, and at most one sign before them. -/
inductive Spells : List Char → Int → Prop
  | plain {digits : List Char} (hn : digits ≠ []) (hd : ∀ d ∈ digits, d.isDigit = true) :
      Spells digits (valueOf digits)
  | plus {digits : List Char} (hn : digits ≠ []) (hd : ∀ d ∈ digits, d.isDigit = true) :
      Spells ('+' :: digits) (valueOf digits)
  | minus {digits : List Char} (hn : digits ≠ []) (hd : ∀ d ∈ digits, d.isDigit = true) :
      Spells ('-' :: digits) (-(valueOf digits : Int))

/-- The text is that of a number of 64 bits. -/
def IsInt64 (cs : List Char) : Prop :=
  ∃ i, Spells cs i ∧ -2 ^ 63 ≤ i ∧ i < 2 ^ 63

theorem signed?_minus (cs : List Char) :
    signed? ('-' :: cs) = (unsigned? cs).map fun n : Nat => -(n : Int) := by
  rw [signed?]
  cases unsigned? cs <;> rfl

theorem signed?_plus (cs : List Char) :
    signed? ('+' :: cs) = (unsigned? cs).map fun n : Nat => (n : Int) := by
  rw [signed?]
  cases unsigned? cs <;> rfl

theorem signed?_of_ne (hm : cs.head? ≠ some '-') (hp : cs.head? ≠ some '+') :
    signed? cs = (unsigned? cs).map fun n : Nat => (n : Int) := by
  fun_cases signed? cs with
  | case1 cs => exact absurd rfl hm
  | case2 cs => exact absurd rfl hp
  | case3 => cases unsigned? cs <;> rfl

theorem map_unsigned?_eq_some_iff {f : Nat → Int} {i : Int} : (unsigned? cs).map f = some i ↔
    cs ≠ [] ∧ (∀ d ∈ cs, d.isDigit = true) ∧ f (valueOf cs) = i := by
  simp only [Option.map_eq_some_iff, unsigned?_eq_some_iff, List.all_eq_true]
  constructor
  · rintro ⟨n, ⟨hn, hd, rfl⟩, hf⟩
    exact ⟨hn, hd, hf⟩
  · rintro ⟨hn, hd, hf⟩
    exact ⟨_, ⟨hn, hd, rfl⟩, hf⟩

theorem signed?_eq_some_iff {i : Int} : signed? cs = some i ↔ Spells cs i := by
  constructor
  · intro h
    by_cases hm : cs.head? = some '-'
    · obtain ⟨cs, rfl⟩ := List.head?_eq_some_iff.mp hm
      rw [signed?_minus] at h
      obtain ⟨hn, hd, rfl⟩ := map_unsigned?_eq_some_iff.mp h
      exact .minus hn hd
    · by_cases hp : cs.head? = some '+'
      · obtain ⟨cs, rfl⟩ := List.head?_eq_some_iff.mp hp
        rw [signed?_plus] at h
        obtain ⟨hn, hd, rfl⟩ := map_unsigned?_eq_some_iff.mp h
        exact .plus hn hd
      · rw [signed?_of_ne hm hp] at h
        obtain ⟨hn, hd, rfl⟩ := map_unsigned?_eq_some_iff.mp h
        exact .plain hn hd
  · rintro (⟨hn, hd⟩ | ⟨hn, hd⟩ | ⟨hn, hd⟩)
    · have hh {c : Char} (hc : c.isDigit = false) : cs.head? ≠ some c := fun he => by
        simp [hd c (List.mem_of_head? he)] at hc
      rw [signed?_of_ne (hh (by decide)) (hh (by decide))]
      exact map_unsigned?_eq_some_iff.mpr ⟨hn, hd, rfl⟩
    · rw [signed?_plus]
      exact map_unsigned?_eq_some_iff.mpr ⟨hn, hd, rfl⟩
    · rw [signed?_minus]
      exact map_unsigned?_eq_some_iff.mpr ⟨hn, hd, rfl⟩

theorem isSome_int64?_iff {i : Int} : (int64? i).isSome = true ↔ -2 ^ 63 ≤ i ∧ i < 2 ^ 63 := by
  have hl : Int64.minValue.toInt = -2 ^ 63 := rfl
  have hm : Int64.maxValue.toInt = 2 ^ 63 - 1 := rfl
  rw [int64?, hl, hm, Option.isSome_ite]
  omega

theorem bind_int64?_eq_none_iff : (signed? cs).bind int64? = none ↔ ¬IsInt64 cs := by
  rw [← Option.not_isSome_iff_eq_none, not_iff_not]
  simp only [Option.isSome_bind, Option.any_eq_true, signed?_eq_some_iff, isSome_int64?_iff, IsInt64]

end Numeral

/-- The line is an entry for a timeout, and the value is no number of 64 bits. -/
structure BadTimeout (raw value : List Char) : Prop where
  entry : Entry.of? (Text.trim raw) = some ⟨"timeout-minutes", value⟩
  refused : ¬Numeral.IsInt64 (Text.trim value)

/-! ## What a reading is refused for -/

def refusal? {α : Type} : Except SyntaxError α → Option SyntaxError
  | .ok _ => none
  | .error e => some e

section Refusals

variable {α β γ : Type}

theorem refusal?_eq_some_iff {r : Except SyntaxError α} : refusal? r = some e ↔ r = .error e := by
  cases r <;> simp [refusal?]

theorem refusal?_map (f : α → β) (r : Except SyntaxError α) : refusal? (r.map f) = refusal? r := by
  cases r <;> rfl

/-- If a step is refused for the first thing in a list that is, whatever has been read before, then
a run is refused for the first one in all of the lists. -/
theorem refusal?_foldlM {f : α → β → Except SyntaxError α} {g : β → List γ}
    {refused? : γ → Option SyntaxError} (h : ∀ a b, refusal? (f a b) = (g b).findSome? refused?)
    (bs : List β) (a : α) : refusal? (bs.foldlM f a) = (bs.flatMap g).findSome? refused? := by
  induction bs generalizing a with
  | nil => rfl
  | cons b bs ih =>
      -- A step that is refused is the end of the run, and its list has something that is refused.
      have hb := h a b
      rw [List.foldlM_cons, List.flatMap_cons, List.findSome?_append, ← hb]
      cases f a b with
      | error e => rfl
      | ok a' => exact ih a'

end Refusals

/-! ## The timeouts of a document -/

/-- A timeout as it is written. -/
structure Timeout where
  line : Line
  value : List Char

namespace Timeout

/-- What a timeout is refused for. -/
def refused? (t : Timeout) : Option SyntaxError :=
  refusal? (Job.timeout t.line t.value)

theorem refused?_eq_some_iff {t : Timeout} :
    t.refused? = some e ↔ ¬Numeral.IsInt64 (Text.trim t.value) ∧ e = ⟨t.line.number, t.value⟩ := by
  rw [refused?, Job.timeout, ← Numeral.bind_int64?_eq_none_iff]
  cases (Numeral.signed? (Text.trim t.value)).bind Numeral.int64? <;> simp [refusal?, eq_comm]

/-- The timeout is an entry on one of the lines. -/
structure StandsIn (t : Timeout) (ls : List Line) : Prop where
  mem : t.line ∈ ls
  entry : Entry.of? t.line.text = some ⟨"timeout-minutes", t.value⟩

theorem StandsIn.of_subset {t : Timeout} (h : t.StandsIn body) (hs : body ⊆ ls) : t.StandsIn ls :=
  ⟨hs h.mem, h.entry⟩

end Timeout

namespace Job

def fieldTimeouts (field : Section) : List Timeout :=
  match field? field.head with
  | some (.timeout, value) => [⟨field.head, value⟩]
  | _ => []

def timeouts (body : List Line) : List Timeout :=
  (fields body).flatMap fieldTimeouts

def sectionTimeouts (s : Section) : List Timeout :=
  match Entry.of? s.head.text with
  | some _ => timeouts s.body
  | none => []

/-- The timeouts of all jobs, where a job may be named more than once. -/
def allTimeouts (body : List Line) : List Timeout :=
  (Section.cutAll (fun _ => .nested) body).flatMap sectionTimeouts

theorem refusal?_readField (tabWidth : Nat) (j : Job) (field : Section) :
    refusal? (readField tabWidth j field) = (fieldTimeouts field).findSome? Timeout.refused? := by
  unfold readField fieldTimeouts
  cases field? field.head with
  | none => rfl
  | some f =>
      obtain ⟨key, value⟩ := f
      cases key with
      | timeout => exact (refusal?_map _ _).trans List.findSome?_singleton.symm
      | _ => rfl

theorem refusal?_read (tabWidth : Nat) (body : List Line) :
    refusal? (read tabWidth body) = (timeouts body).findSome? Timeout.refused? :=
  refusal?_foldlM (refusal?_readField tabWidth) (fields body) blank

theorem refusal?_addTo (tabWidth : Nat) (jobs : Table Job) (s : Section) :
    refusal? (addTo tabWidth jobs s) = (sectionTimeouts s).findSome? Timeout.refused? := by
  unfold addTo sectionTimeouts
  cases Entry.of? s.head.text with
  | none => rfl
  | some e => exact (refusal?_map _ _).trans (refusal?_read tabWidth s.body)

theorem refusal?_readAll (tabWidth : Nat) (body : List Line) (jobs : Table Job) :
    refusal? (readAll tabWidth body jobs) = (allTimeouts body).findSome? Timeout.refused? :=
  refusal?_foldlM (refusal?_addTo tabWidth) _ jobs

end Job

namespace Workflow

def sectionTimeouts (s : Section) : List Timeout :=
  match field? s.head with
  | some (.jobs, _) => Job.allTimeouts s.body
  | _ => []

/-- The timeouts that reading comes to, with their lines. -/
def timeouts (ls : List Line) : List Timeout :=
  (Section.cutAll extent ls).flatMap sectionTimeouts

theorem refusal?_readSection (tabWidth : Nat) (w : Workflow) (s : Section) :
    refusal? (readSection tabWidth w s) = (sectionTimeouts s).findSome? Timeout.refused? := by
  unfold readSection sectionTimeouts
  cases field? s.head with
  | none => rfl
  | some f =>
      obtain ⟨key, value⟩ := f
      cases key with
      | jobs => exact (refusal?_map _ _).trans (Job.refusal?_readAll tabWidth s.body w.jobs)
      | _ => rfl

/-- A document is refused for the first timeout in it that is wrong, and for nothing else. -/
theorem refusal?_read (tabWidth : Nat) (ls : List Line) :
    refusal? (read tabWidth ls) = (timeouts ls).findSome? Timeout.refused? :=
  refusal?_foldlM (refusal?_readSection tabWidth) (Section.cutAll extent ls) blank

end Workflow

/-! ## Where a timeout stands -/

theorem Job.Key.eq_timeout_of_ofName? {name : String} (h : ofName? name = some .timeout) :
    name = "timeout-minutes" := by
  unfold ofName? at h
  split at h <;> simp_all

variable {t : Timeout}

theorem Job.standsIn_of_mem_fieldTimeouts {field : Section} (h : t ∈ fieldTimeouts field) :
    t.StandsIn [field.head] := by
  unfold fieldTimeouts at h
  split at h
  · rename_i value hf
    obtain ⟨e, he, hk⟩ := Option.bind_eq_some_iff.mp hf
    obtain ⟨key, hn, hp⟩ := Option.map_eq_some_iff.mp hk
    cases hp
    cases List.mem_singleton.mp h
    refine ⟨List.mem_cons_self, he.trans ?_⟩
    rw [← Key.eq_timeout_of_ofName? hn]
  · cases h

theorem Job.standsIn_of_mem_timeouts (h : t ∈ timeouts body) : t.StandsIn body := by
  obtain ⟨field, hf, ht⟩ := List.mem_flatMap.mp h
  have hh := (Section.head_of_mem_cutAll (Section.mem_of_mem_level hf)).1
  exact (standsIn_of_mem_fieldTimeouts ht).of_subset (by simpa using hh)

theorem Job.standsIn_of_mem_allTimeouts (h : t ∈ allTimeouts body) : t.StandsIn body := by
  obtain ⟨s, hs, ht⟩ := List.mem_flatMap.mp h
  unfold sectionTimeouts at ht
  split at ht
  · exact (standsIn_of_mem_timeouts ht).of_subset (Section.subset_of_mem_cutAll hs)
  · cases ht

namespace Workflow

/-- A timeout is an entry on a line of the document. -/
theorem standsIn_of_mem_timeouts (h : t ∈ timeouts ls) : t.StandsIn ls := by
  obtain ⟨s, hs, ht⟩ := List.mem_flatMap.mp h
  unfold sectionTimeouts at ht
  split at ht
  · exact (Job.standsIn_of_mem_allTimeouts ht).of_subset (Section.subset_of_mem_cutAll hs)
  · cases ht

/-- An error is that of a line of the text, of which the value is no number. -/
theorem exists_badTimeout {text : List Char} (h : ofText tabWidth text = .error e) :
    ∃ i raw, (Text.lines text)[i]? = some raw ∧ e.line = i + 1 ∧ BadTimeout raw e.value := by
  rw [ofText, ← refusal?_eq_some_iff, refusal?_read] at h
  obtain ⟨t, ht, hr⟩ := List.exists_of_findSome?_eq_some h
  obtain ⟨hn, rfl⟩ := Timeout.refused?_eq_some_iff.mp hr
  obtain ⟨hl, he⟩ := standsIn_of_mem_timeouts ht
  obtain ⟨i, hi, hr⟩ := List.mem_mapIdx.mp hl
  rw [← hr] at he
  exact ⟨i, _, List.getElem?_eq_getElem hi, by rw [← hr]; rfl, he, hn⟩

/-- Reading a document fails only on a timeout that is no number of 64 bits, and then the failure
points at its line, or for want of room for the columns. A document without such a line is read as
a workflow if there is room. -/
theorem parse_fails_at_timeout (tabWidth : Nat) (text : List Char) :
    (∀ e, parse tabWidth text = .error (.malformed e) →
      ∃ i raw, (Text.lines text)[i]? = some raw ∧
        BadTimeout raw e.value ∧ e.toFailure = .malformed (i + 1)
          ("timeout-minutes is not an integer: '" ++ String.ofList e.value ++ "'")) ∧
    (parse tabWidth text = .error .overflow →
      ¬Line.Room tabWidth (Line.ofText tabWidth text) ∧
        Text.lengthLimit < 2 * (tabWidth + 1) * (text.length + 1)) ∧
    ((∀ raw ∈ Text.lines text, ∀ value, ¬BadTimeout raw value) →
      parse tabWidth text ≠ .error .overflow → ∃ w, parse tabWidth text = .ok w) := by
  refine ⟨fun e he => ?_, fun ho => ⟨fun hr => parse_ne_overflow hr ho, ?_⟩, fun hn ho => ?_⟩
  · obtain ⟨i, raw, hr, hl, hb⟩ := exists_badTimeout (ofText_of_parse_error he)
    exact ⟨i, raw, hr, hb, congrArg (Failure.malformed · e.message) hl⟩
  · by_contra hs
    exact parse_ne_overflow (Line.room_ofText (Nat.le_of_not_lt hs)) ho
  · cases hp : parse tabWidth text with
    | ok w => exact ⟨w, rfl⟩
    | error e =>
        cases e with
        | overflow => exact absurd hp ho
        | malformed e =>
            obtain ⟨i, raw, hr, -, hb⟩ := exists_badTimeout (ofText_of_parse_error hp)
            exact absurd hb (hn raw (List.mem_of_getElem? hr) e.value)

/-- A timeout that two signs are written before, below one that is a number. -/
def twoSigns : List Char :=
  "jobs:\n  a:\n    timeout-minutes: ' -05 '\n  b: [\n    timeout-minutes: +-5 # c\n".toList

/-- A bracket and a quote are not closed, and the indentation goes to and fro. -/
def unclosed : List Char :=
  "    on: [push\n  jobs: \"x\n      a:\n   run: |\n".toList

theorem not_badTimeout_of_keys {text : List Char} (h : ∀ raw ∈ Text.lines text,
    (Entry.of? (Text.trim raw)).map (·.key) ≠ some "timeout-minutes") :
    ∀ raw ∈ Text.lines text, ∀ value, ¬BadTimeout raw value := by
  intro raw hm value hb
  exact h raw hm (by rw [hb.entry]; rfl)

theorem parse_twoSigns_unclosed :
    parse 2 twoSigns = .error (.malformed ⟨5, "+-5".toList⟩) ∧
    (∃ i raw, (Text.lines twoSigns)[i]? = some raw ∧ BadTimeout raw "+-5".toList ∧
      SyntaxError.toFailure ⟨5, "+-5".toList⟩ = .malformed (i + 1)
        ("timeout-minutes is not an integer: '" ++ String.ofList "+-5".toList ++ "'")) ∧
    ∃ w, parse 2 unclosed = .ok w := by
  have he : parse 2 twoSigns = .error (.malformed ⟨5, "+-5".toList⟩) := by decide +kernel
  have hk : ∀ raw ∈ Text.lines unclosed,
      (Entry.of? (Text.trim raw)).map (·.key) ≠ some "timeout-minutes" := by
    decide +kernel
  have ho : parse 2 unclosed ≠ .error .overflow :=
    parse_ne_overflow (Line.room_ofText (by decide +kernel))
  exact ⟨he, (parse_fails_at_timeout 2 twoSigns).1 _ he,
    (parse_fails_at_timeout 2 unclosed).2.2 (not_badTimeout_of_keys hk) ho⟩

/-- No line is a timeout, and yet nothing is read where a tab has the greatest width. -/
theorem parse_farRight_fails : (∀ raw ∈ Text.lines farRight, ∀ value, ¬BadTimeout raw value) ∧
    ∀ w, parse (2 ^ 64 - 1) farRight ≠ .ok w := by
  have hk : ∀ raw ∈ Text.lines farRight,
      (Entry.of? (Text.trim raw)).map (·.key) ≠ some "timeout-minutes" := by
    decide +kernel
  exact ⟨not_badTimeout_of_keys hk, fun w => parse_farRight.trans_ne nofun⟩

end Workflow

end WorkflowLint
