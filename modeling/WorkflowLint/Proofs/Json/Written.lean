import Mathlib.Data.List.DropRight
import WorkflowLint.Json.Reader
import WorkflowLint.Json.Writer
import WorkflowLint.Proofs.Values

/-!
# JSON that is read back

What is written of a value is read as that value again. It does not matter how much white space the
layout puts between the parts, nor what follows the value, as long as a number does not go on there.
-/
namespace WorkflowLint.Json

variable {cs rest : List Char} {fuel depth : Nat} {l : Layout}

/-! ## White space -/

def IsSpaces (cs : List Char) : Prop :=
  ∀ c ∈ cs, isSpace c = true

theorem isSpaces_nil : IsSpaces [] := by
  simp [IsSpaces]

theorem IsSpaces.skip_append (h : IsSpaces cs) : skip (cs ++ rest) = skip rest :=
  List.dropWhile_append_of_pos h

theorem skip_cons {c : Char} (h : isSpace c = false) : skip (c :: cs) = c :: cs := by
  simp [skip, h]

/-- What a layout starts lines with is white space, and so is what it has after a colon. -/
structure Layout.IsPlain (l : Layout) : Prop where
  lead : ∀ depth, IsSpaces (l.lead depth)
  colon : ∃ after, l.colon = ':' :: after ∧ IsSpaces after

theorem isPlain_compact : Layout.compact.IsPlain where
  lead _ := isSpaces_nil
  colon := ⟨[], rfl, isSpaces_nil⟩

theorem isPlain_pretty : Layout.pretty.IsPlain where
  lead depth := by
    intro c hc
    simp only [Layout.pretty, List.mem_cons, List.mem_replicate] at hc
    rcases hc with rfl | ⟨_, rfl⟩ <;> decide
  colon := ⟨[' '], rfl, by simp [IsSpaces, isSpace]⟩

/-! ## Numbers -/

/-- No number goes on with this text. -/
def EndsNumber (rest : List Char) : Prop :=
  ∀ c, rest.head? = some c → c.isDigit = false ∧ c ≠ '.' ∧ c ≠ 'e' ∧ c ≠ 'E'

theorem endsNumber_of_isSpaces (h : IsSpaces cs) : EndsNumber cs := by
  intro c hc
  have hs := h c (List.mem_of_head? hc)
  simp only [isSpace, Bool.or_eq_true, beq_iff_eq] at hs
  rcases hs with ((rfl | rfl) | rfl) | rfl <;> decide

theorem EndsNumber.append (h : EndsNumber cs) (hr : EndsNumber rest) : EndsNumber (cs ++ rest) := by
  cases cs with
  | nil => exact hr
  | cons c cs => exact h

theorem endsNumber_cons {c : Char} (h : c = ',' ∨ c = ']' ∨ c = '\x7d') :
    EndsNumber (c :: rest) := by
  intro d hd
  obtain rfl : c = d := by simpa using hd
  rcases h with rfl | rfl | rfl <;> decide

theorem EndsNumber.readFraction_eq (h : EndsNumber rest) : readFraction rest = some ([], rest) := by
  unfold readFraction
  split
  · exact absurd rfl (h '.' rfl).2.1
  · rfl

theorem EndsNumber.readExponent_eq (h : EndsNumber rest) : readExponent rest = some ([], rest) := by
  cases rest with
  | nil => rfl
  | cons e rest =>
      have he : ¬(e = 'e' ∨ e = 'E') := not_or.mpr (h e rfl).2.2
      simp [readExponent, he]

theorem EndsNumber.no_digits (h : EndsNumber rest) : rest.head?.any Char.isDigit = false ∧
    rest.takeWhile Char.isDigit = [] ∧ rest.dropWhile Char.isDigit = rest := by
  cases rest with
  | nil => exact ⟨rfl, rfl, rfl⟩
  | cons c rest => simp [(h c rfl).1]

theorem EndsNumber.readDigits_append (h : EndsNumber rest) (hn : cs ≠ [])
    (hd : ∀ c ∈ cs, c.isDigit = true) : readDigits (cs ++ rest) = some (cs, rest) := by
  obtain ⟨-, ht, hr⟩ := h.no_digits
  rw [readDigits, List.takeWhile_append_of_pos hd, List.dropWhile_append_of_pos hd, ht, hr,
    List.append_nil, if_neg (by simpa using hn)]

/-- The digits of a number begin with a zero only if it is zero. -/
theorem repr_eq_zero_of_head? (n : Nat) (h : n.repr.toList.head? = some '0') : n = 0 := by
  rw [Nat.toList_repr] at h
  induction n using Nat.strongRecOn with
  | _ n ih =>
    by_cases hn : n < 10
    · rw [Nat.toDigits_of_lt_base hn, List.head?_cons, Option.some.injEq] at h
      exact (by decide : ∀ d < 10, Nat.digitChar d = '0' → d = 0) n hn h
    · have hq : Nat.toDigits 10 (n / 10) ≠ [] := Nat.toDigits_ne_nil
      rw [Nat.toDigits_of_base_le (by decide) (by omega), List.head?_append_of_ne_nil _ hq] at h
      have hz := ih (n / 10) (by omega) h
      omega

theorem EndsNumber.readMagnitude_repr (h : EndsNumber rest) (n : Nat) :
    readMagnitude (n.repr.toList ++ rest) = some (n.repr.toList, rest) := by
  have hd : ∀ c ∈ n.repr.toList, c.isDigit = true := fun c hc => Numeral.isDigit_of_mem_repr hc
  have hn := Numeral.repr_ne_nil n
  have hw : readWhole (n.repr.toList ++ rest) = some (n.repr.toList, rest) := by
    unfold readWhole
    split
    · rename_i ds he
      have hh := congrArg List.head? he
      rw [List.head?_append_of_ne_nil _ hn] at hh
      obtain rfl : n = 0 := repr_eq_zero_of_head? n hh
      obtain rfl : rest = ds := by simpa using he
      simp [h.no_digits.1]
    · exact h.readDigits_append hn hd
  simp only [readMagnitude, hw, h.readFraction_eq, h.readExponent_eq, Option.bind_eq_bind,
    Option.bind_some, Option.pure_def, List.append_nil]

/-- A number that is written out in digits is read to its end. -/
theorem EndsNumber.readNumber_toString (h : EndsNumber rest) (i : Int) :
    readNumber ((toString i).toList ++ rest) = some (.number (toString i), rest) := by
  have hl := Numeral.toList_toString i
  split at hl
  · have hs : toString i = String.ofList i.toNat.repr.toList := by rw [← hl, String.ofList_toList]
    rw [hl]
    unfold readNumber
    split
    · rename_i ds he
      have hd := congrArg List.head? he
      rw [List.head?_append_of_ne_nil _ (Numeral.repr_ne_nil _)] at hd
      exact absurd (List.mem_of_head? hd) (Numeral.minus_not_mem_repr _)
    · rw [h.readMagnitude_repr, hs]
      rfl
  · have hs : toString i = String.ofList ('-' :: (-i).toNat.repr.toList) := by
      rw [← hl, String.ofList_toList]
    rw [hl, List.cons_append, readNumber, h.readMagnitude_repr, hs]
    rfl

/-! ## Strings -/

theorem hex4?_hexDigit : ∀ n < 0x20,
    hex4? '0' '0' (hexDigit (n / 16)) (hexDigit (n % 16)) = some n := by
  decide

theorem readUnits_cons {c : Char} (units : List Nat) (hq : c ≠ '"') (hb : c ≠ '\\')
    (hc : ¬c.toNat < 0x20) : readUnits units (c :: rest) = readUnits (c.toNat :: units) rest := by
  rw [readUnits.eq_def]
  split
  · rename_i h; cases h
  · rename_i h; cases h; exact absurd rfl hq
  · rename_i h; cases h; exact absurd rfl hb
  · rename_i h; cases h; exact absurd rfl hb
  · rename_i h
    cases h
    rw [if_neg (not_or.mpr ⟨hc, hb⟩)]

/-- A character is read from what is written for it, whatever follows. -/
theorem readUnits_escape (units : List Nat) (c : Char) :
    readUnits units (escape c ++ rest) = readUnits (c.toNat :: units) rest := by
  unfold escape
  split
  all_goals try rfl
  rename_i hq hb _ _ _ _ _
  split
  · rename_i hc
    simp only [List.cons_append, List.nil_append, readUnits, hex4?_hexDigit _ hc]
  · rename_i hc
    exact readUnits_cons units hq hb hc

theorem readUnits_escaped (units : List Nat) (s : List Char) :
    readUnits units (s.flatMap escape ++ '"' :: rest) =
      some (units.reverse ++ s.map Char.toNat, rest) := by
  induction s generalizing units with
  | nil => simp [readUnits]
  | cons c s ih =>
      rw [List.flatMap_cons, List.append_assoc, readUnits_escape, ih]
      simp

/-- No character is half of a surrogate pair. -/
theorem not_surrogate (c : Char) : isHigh c.toNat = false ∧ isLow c.toNat = false := by
  have hc : c.toNat < 0xD800 ∨ 0xDFFF < c.toNat ∧ c.toNat < 0x110000 := c.valid
  simp only [isHigh, isLow, Bool.and_eq_false_iff, decide_eq_false_iff_not]
  omega

theorem textOf?_map_toNat (text s : List Char) :
    textOf? text (s.map Char.toNat) = some (String.ofList (text.reverse ++ s)) := by
  induction s generalizing text with
  | nil => simp [textOf?]
  | cons c s ih =>
      obtain ⟨hh, hl⟩ := not_surrogate c
      rw [List.map_cons, textOf?.eq_def]
      simp only [hh, hl, Bool.false_eq_true, ↓reduceIte, Char.ofNat_toNat]
      rw [ih, List.reverse_cons, List.append_assoc, List.singleton_append]

theorem readText_quote (s : String) :
    readText (s.toList.flatMap escape ++ '"' :: rest) = some (some s, rest) := by
  simp [readText, readUnits_escaped, textOf?_map_toNat]

/-! ## Values -/

mutual

/-- A value that has a text of its own. Its numbers are whole. -/
def Written : Json → Prop
  | number literal => ∃ i : Int, literal = toString i
  | array items => WrittenItems items
  | object members => WrittenMembers members
  | unreadable => False
  | null | bool _ | string _ => True

def WrittenItems : List Json → Prop
  | [] => True
  | j :: js => j.Written ∧ WrittenItems js

def WrittenMembers : List (String × Json) → Prop
  | [] => True
  | (_, j) :: ms => j.Written ∧ WrittenMembers ms

end

theorem skip_skip (cs : List Char) : skip (skip cs) = skip cs := by
  rw [skip, skip, List.dropWhile_idempotent]

theorem readValue_skip (fuel : Nat) (cs : List Char) :
    readValue fuel (skip cs) = readValue fuel cs := by
  cases fuel with
  | zero => rfl
  | succ fuel => rw [readValue, readValue, skip_skip]

theorem readItems_skip (fuel : Nat) (items : List Json) (cs : List Char) :
    readItems fuel items (skip cs) = readItems fuel items cs := by
  cases fuel with
  | zero => rfl
  | succ fuel => rw [readItems, readItems, readValue_skip]

theorem readMembers_skip (fuel : Nat) (members : List (Option String × Json)) (cs : List Char) :
    readMembers fuel members (skip cs) = readMembers fuel members cs := by
  cases fuel with
  | zero => rfl
  | succ fuel => rw [readMembers, readMembers, skip_skip]

theorem IsSpaces.readValue_append (h : IsSpaces cs) :
    readValue fuel (cs ++ rest) = readValue fuel rest := by
  rw [← readValue_skip, h.skip_append, readValue_skip]

theorem readValue_quote (s : String) :
    readValue (fuel + 1) (quote s ++ rest) = some (.string s, rest) := by
  rw [readValue, quote, List.cons_append, skip_cons (by decide), List.append_assoc]
  simp [readText_quote]

theorem readValue_bracket (h : ∀ tail, skip cs ≠ ']' :: tail) :
    readValue (fuel + 1) ('[' :: cs) = readItems fuel [] cs := by
  rw [readValue, skip_cons (by decide)]
  simp only
  exact readItems_skip fuel [] cs

theorem readValue_brace (h : ∀ tail, skip cs ≠ '\x7d' :: tail) :
    readValue (fuel + 1) ('\x7b' :: cs) = readMembers fuel [] cs := by
  rw [readValue, skip_cons (by decide)]
  simp only
  exact readMembers_skip fuel [] cs

theorem head_toString {i : Int} {c : Char} (h : (toString i).toList = c :: cs) :
    c = '-' ∨ c.isDigit = true := by
  rw [Numeral.toList_toString] at h
  split at h
  · have hm : c ∈ i.toNat.repr.toList := by
      rw [h]
      exact List.mem_cons_self
    exact Or.inr (Numeral.isDigit_of_mem_repr hm)
  · cases h
    exact Or.inl rfl

theorem isSpace_of_digits {c : Char} (h : c = '-' ∨ c.isDigit = true) : isSpace c = false := by
  refine Bool.eq_false_iff.mpr fun hs => ?_
  simp only [isSpace, Bool.or_eq_true, beq_iff_eq] at hs
  rcases hs with ((rfl | rfl) | rfl) | rfl <;> exact absurd h (by decide)

theorem readValue_digits {c : Char} (h : c = '-' ∨ c.isDigit = true) :
    readValue (fuel + 1) (c :: cs) = readNumber (c :: cs) := by
  rw [readValue, skip_cons (isSpace_of_digits h)]
  split
  all_goals rename_i he
  all_goals first | rfl | (cases he; exact absurd h (by decide))

theorem EndsNumber.readValue_toString (h : EndsNumber rest) (i : Int) :
    readValue (fuel + 1) ((toString i).toList ++ rest) = some (.number (toString i), rest) := by
  obtain ⟨c, ds, hc⟩ := List.exists_cons_of_ne_nil (Numeral.toString_ne_nil i)
  rw [← h.readNumber_toString i, hc, List.cons_append, readValue_digits (head_toString hc)]

/-- The text of a value begins with neither white space nor a closing bracket. -/
theorem head_render {j : Json} (h : j.Written) :
    ∃ c cs, j.render l depth = c :: cs ∧ isSpace c = false ∧ c ≠ ']' := by
  cases j with
  | null => exact ⟨_, _, rfl, by decide, by decide⟩
  | bool b => cases b <;> exact ⟨_, _, rfl, by decide, by decide⟩
  | number literal =>
      obtain ⟨i, rfl⟩ := h
      obtain ⟨c, ds, hc⟩ := List.exists_cons_of_ne_nil (Numeral.toString_ne_nil i)
      refine ⟨c, ds, hc, ?_⟩
      refine ⟨isSpace_of_digits (head_toString hc), ?_⟩
      rintro rfl
      exact absurd (head_toString hc) (by decide)
  | string s => exact ⟨_, _, rfl, by decide, by decide⟩
  | array items =>
      rw [render]
      cases items with
      | nil => exact ⟨_, _, rfl, by decide, by decide⟩
      | cons j js => exact ⟨_, _, rfl, by decide, by decide⟩
  | object members =>
      rw [render]
      cases members with
      | nil => exact ⟨_, _, rfl, by decide, by decide⟩
      | cons m ms => exact ⟨_, _, rfl, by decide, by decide⟩
  | unreadable => exact h.elim

/-! ## Items and members -/

/-- Items as they stand between brackets, up to the last of them. -/
def listed (l : Layout) (depth : Nat) (items : List (List Char)) : List Char :=
  [','].intercalate (items.map (l.lead depth ++ ·))

theorem listed_singleton (item : List Char) : listed l depth [item] = l.lead depth ++ item := by
  simp [listed]

theorem listed_cons_cons (item next : List Char) (items : List (List Char)) :
    listed l depth (item :: next :: items) =
      l.lead depth ++ (item ++ ',' :: listed l depth (next :: items)) := by
  simp [listed, List.intercalate_cons_cons]

theorem enclose_cons (opening closing : Char) (item : List Char) (items : List (List Char)) :
    enclose l depth opening closing (item :: items) ++ rest =
      opening :: (listed l (depth + 1) (item :: items) ++ (l.lead depth ++ closing :: rest)) := by
  simp [enclose, listed]

/-- Between brackets, the first thing that is no white space is what the first item begins with. -/
theorem Layout.IsPlain.skip_listed_ne (hl : l.IsPlain) {item : List Char} {b : Char}
    (h : ∃ c cs, item = c :: cs ∧ isSpace c = false ∧ c ≠ b) (items : List (List Char)) :
    ∀ tail, skip (listed l depth (item :: items) ++ rest) ≠ b :: tail := by
  obtain ⟨c, cs, rfl, hc, hb⟩ := h
  have hs : ∃ tail, skip (listed l depth ((c :: cs) :: items) ++ rest) = c :: tail := by
    cases items with
    | nil =>
        rw [listed_singleton, List.append_assoc, (hl.lead depth).skip_append, List.cons_append,
          skip_cons hc]
        exact ⟨_, rfl⟩
    | cons next items =>
        rw [listed_cons_cons, List.append_assoc, (hl.lead depth).skip_append, List.cons_append,
          List.cons_append, skip_cons hc]
        exact ⟨_, rfl⟩
  obtain ⟨tail, hs⟩ := hs
  rw [hs]
  rintro _ ⟨⟩
  exact hb rfl

theorem readItems_next {j : Json} {items : List Json} {tail : List Char}
    (hv : readValue fuel cs = some (j, rest)) (hs : skip rest = ',' :: tail) :
    readItems (fuel + 1) items cs = readItems fuel (j :: items) tail := by
  rw [readItems, hv]
  simp only [hs]

theorem readItems_last {j : Json} {items : List Json} {tail : List Char}
    (hv : readValue fuel cs = some (j, rest)) (hs : skip rest = ']' :: tail) :
    readItems (fuel + 1) items cs = some (.array (j :: items).reverse, tail) := by
  rw [readItems, hv]
  simp only [hs]

def readSoFar (members : List (String × Json)) : List (Option String × Json) :=
  (members.map fun m => (some m.1, m.2)).reverse

theorem readSoFar_concat (members : List (String × Json)) (m : String × Json) :
    readSoFar (members ++ [m]) = (some m.1, m.2) :: readSoFar members := by
  simp [readSoFar]

theorem objectOf_readSoFar (members : List (String × Json)) :
    objectOf (readSoFar members) = .object members := by
  have hm : (members.map fun m => (some m.1, m.2)).mapM
      (fun (m : Option String × Json) => m.1.map (·, m.2)) = some members := by
    induction members with
    | nil => rfl
    | cons m ms ih => simp [List.mapM_cons, ih]
  simp only [objectOf, readSoFar, List.reverse_reverse]
  rw [hm]

/-- A member is read, and with it what separates it from the next one or ends the object. -/
theorem Layout.IsPlain.readMembers_member (hl : l.IsPlain) {name : String} {j : Json}
    (members : List (String × Json)) (hv : readValue fuel cs = some (j, rest)) :
    (∀ tail, skip rest = ',' :: tail →
      readMembers (fuel + 1) (readSoFar members) (quote name ++ l.colon ++ cs) =
        readMembers fuel (readSoFar (members ++ [(name, j)])) tail) ∧
    ∀ tail, skip rest = '\x7d' :: tail →
      readMembers (fuel + 1) (readSoFar members) (quote name ++ l.colon ++ cs) =
        some (.object (members ++ [(name, j)]), tail) := by
  obtain ⟨after, hc, ha⟩ := hl.colon
  have ht : readText (name.toList.flatMap escape ++ ['"'] ++ ':' :: after ++ cs) =
      some (some name, ':' :: (after ++ cs)) := by
    rw [List.append_assoc, List.append_assoc]
    exact readText_quote name
  rw [readMembers, quote, hc]
  simp only [List.cons_append, skip_cons (show isSpace '"' = false by decide), ht,
    skip_cons (show isSpace ':' = false by decide), ha.readValue_append, hv]
  constructor
  · intro tail hs
    simp only [hs, readSoFar_concat]
  · intro tail hs
    simp only [hs]
    rw [← objectOf_readSoFar, readSoFar_concat]

/-! ## Reading what was written -/

-- A value takes a unit of fuel, and so does the step to the next item: twice the length of the text
-- is enough, since every value has a character of its own.
mutual

theorem readValue_render (hl : l.IsPlain) : (j : Json) → j.Written → ∀ {depth fuel rest},
    EndsNumber rest → 2 * (j.render l depth ++ rest).length < fuel →
      readValue fuel (j.render l depth ++ rest) = some (j, rest)
  | _, _, _, 0, _, _, hf => by omega
  | null, _, _, fuel + 1, rest, _, _ => by
      simp [render, readValue, skip_cons (show isSpace 'n' = false by decide)]
  | bool true, _, _, fuel + 1, rest, _, _ => by
      simp [render, readValue, skip_cons (show isSpace 't' = false by decide)]
  | bool false, _, _, fuel + 1, rest, _, _ => by
      simp [render, readValue, skip_cons (show isSpace 'f' = false by decide)]
  | number _, hj, _, fuel + 1, rest, hr, _ => by
      obtain ⟨i, rfl⟩ := hj
      exact hr.readValue_toString i
  | string s, _, _, fuel + 1, rest, _, _ => readValue_quote s
  | array [], _, _, fuel + 1, rest, _, _ => by
      simp [render, renderItems, enclose, readValue, skip_cons (show isSpace '[' = false by decide),
        skip_cons (show isSpace ']' = false by decide)]
  | array (j :: js), hj, depth, fuel + 1, rest, _, hf => by
      rw [render, renderItems, enclose_cons] at hf ⊢
      rw [readValue_bracket (hl.skip_listed_ne (head_render hj.1) _), ← renderItems]
      rw [← renderItems] at hf
      exact readItems_render hl (j :: js) (List.cons_ne_nil _ _) hj (hl.lead depth)
        (by simp only [List.length_cons] at hf ⊢; omega)
  | object [], _, _, fuel + 1, rest, _, _ => by
      simp [render, renderMembers, enclose, readValue,
        skip_cons (show isSpace '\x7b' = false by decide),
        skip_cons (show isSpace '\x7d' = false by decide)]
  | object ((name, j) :: ms), hj, depth, fuel + 1, rest, _, hf => by
      have hq : ∃ c cs, quote name ++ l.colon ++ j.render l (depth + 1) = c :: cs ∧
          isSpace c = false ∧ c ≠ '\x7d' := ⟨'"', _, rfl, by decide, by decide⟩
      rw [render, renderMembers, enclose_cons] at hf ⊢
      rw [readValue_brace (hl.skip_listed_ne hq _), ← renderMembers]
      rw [← renderMembers] at hf
      exact readMembers_render hl ((name, j) :: ms) (List.cons_ne_nil _ _) hj [] (hl.lead depth)
        (by simp only [List.length_cons] at hf ⊢; omega)
  | unreadable, hj, _, _, _, _, _ => hj.elim

theorem readItems_render (hl : l.IsPlain) : (js : List Json) → js ≠ [] → WrittenItems js →
    ∀ {depth fuel items close rest}, IsSpaces close →
      2 * (listed l depth (renderItems l depth js) ++ (close ++ ']' :: rest)).length + 2 ≤ fuel →
        readItems fuel items (listed l depth (renderItems l depth js) ++ (close ++ ']' :: rest)) =
          some (.array (items.reverse ++ js), rest)
  | [], hn, _, _, _, _, _, _, _, _ => absurd rfl hn
  | _, _, _, _, 0, _, _, _, _, hf => by omega
  | [j], _, hj, depth, fuel + 1, items, close, rest, hc, hf => by
      rw [renderItems, renderItems, listed_singleton, List.append_assoc] at hf ⊢
      have hr : EndsNumber (close ++ ']' :: rest) :=
        (endsNumber_of_isSpaces hc).append (endsNumber_cons (by decide))
      have hv : readValue fuel (l.lead depth ++ (j.render l depth ++ (close ++ ']' :: rest))) =
          some (j, close ++ ']' :: rest) := by
        rw [(hl.lead depth).readValue_append]
        exact readValue_render hl j hj.1 hr (by simp only [List.length_append] at hf ⊢; omega)
      rw [readItems_last hv (by rw [hc.skip_append, skip_cons (by decide)]), List.reverse_cons]
  | j :: k :: js, _, hj, depth, fuel + 1, items, close, rest, hc, hf => by
      rw [renderItems, renderItems, listed_cons_cons, ← renderItems, List.append_assoc,
        List.append_assoc, List.cons_append] at hf ⊢
      generalize hn : listed l depth (renderItems l depth (k :: js)) ++
        (close ++ ']' :: rest) = next at hf ⊢
      have hv : readValue fuel (l.lead depth ++ (j.render l depth ++ ',' :: next)) =
          some (j, ',' :: next) := by
        rw [(hl.lead depth).readValue_append]
        exact readValue_render hl j hj.1 (endsNumber_cons (Or.inl rfl))
          (by simp only [List.length_append] at hf ⊢; omega)
      rw [readItems_next hv (skip_cons (by decide)), ← hn,
        readItems_render hl (k :: js) (List.cons_ne_nil _ _) hj.2 hc
          (by rw [hn]; simp only [List.length_append, List.length_cons] at hf ⊢; omega)]
      simp

theorem readMembers_render (hl : l.IsPlain) : (ms : List (String × Json)) → ms ≠ [] →
    WrittenMembers ms → ∀ {depth fuel} (members) {close rest}, IsSpaces close →
      2 * (listed l depth (renderMembers l depth ms) ++
          (close ++ '\x7d' :: rest)).length + 2 ≤ fuel →
        readMembers fuel (readSoFar members)
            (listed l depth (renderMembers l depth ms) ++ (close ++ '\x7d' :: rest)) =
          some (.object (members ++ ms), rest)
  | [], hn, _, _, _, _, _, _, _, _ => absurd rfl hn
  | _, _, _, _, 0, _, _, _, _, hf => by omega
  | [(name, j)], _, hj, depth, fuel + 1, members, close, rest, hc, hf => by
      rw [renderMembers, renderMembers, listed_singleton, List.append_assoc,
        List.append_assoc] at hf ⊢
      have hr : EndsNumber (close ++ '\x7d' :: rest) :=
        (endsNumber_of_isSpaces hc).append (endsNumber_cons (by decide))
      have hv : readValue fuel (j.render l depth ++ (close ++ '\x7d' :: rest)) =
          some (j, close ++ '\x7d' :: rest) :=
        readValue_render hl j hj.1 hr (by simp only [List.length_append] at hf ⊢; omega)
      rw [← readMembers_skip, (hl.lead depth).skip_append, readMembers_skip]
      exact (hl.readMembers_member members hv).2 rest
        (by rw [hc.skip_append, skip_cons (by decide)])
  | (name, j) :: (m, k) :: ms, _, hj, depth, fuel + 1, members, close, rest, hc, hf => by
      rw [renderMembers, renderMembers, listed_cons_cons, ← renderMembers, List.append_assoc,
        List.append_assoc, List.cons_append, List.append_assoc] at hf ⊢
      generalize hn : listed l depth (renderMembers l depth ((m, k) :: ms)) ++
        (close ++ '\x7d' :: rest) = next at hf ⊢
      have hv : readValue fuel (j.render l depth ++ ',' :: next) = some (j, ',' :: next) :=
        readValue_render hl j hj.1 (endsNumber_cons (Or.inl rfl))
          (by simp only [List.length_append] at hf ⊢; omega)
      rw [← readMembers_skip, (hl.lead depth).skip_append, readMembers_skip,
        (hl.readMembers_member members hv).1 _ (skip_cons (by decide)), ← hn,
        readMembers_render hl ((m, k) :: ms) (List.cons_ne_nil _ _) hj.2 _ hc
          (by rw [hn]; simp only [List.length_append, List.length_cons] at hf ⊢; omega)]
      simp

end

/-- The text of a value is read as that value, with white space after it or without. -/
theorem ofText?_render (hl : l.IsPlain) {j : Json} (hj : j.Written) (hr : IsSpaces rest) :
    ofText? (j.render l depth ++ rest) = some j := by
  have hs : skip rest = [] := List.dropWhile_eq_nil_iff.mpr hr
  rw [ofText?, readValue_render hl j hj (endsNumber_of_isSpaces hr) (Nat.lt_succ_self _)]
  simp [hs]

end WorkflowLint.Json
