import WorkflowLint.Proofs.Quotes

/-!
# Quoted items of flow collections

A flow collection is cut at its commas before any quote is looked at. So its quoted items are read
back if none of them has a comma outside brackets, and none but the last leaves a bracket open.
-/
namespace WorkflowLint

open Text

/-! ## Cutting at commas -/

namespace Flow

variable {depth : Nat} {cs rest : List Char}

/-- The nesting depth behind a text. -/
def depthFrom (depth : Nat) (cs : List Char) : Nat :=
  cs.foldl depthAfter depth

/-- The text has a comma of depth zero. -/
def HasCut (depth : Nat) (cs : List Char) : Prop :=
  ∃ before after, cs = before ++ ',' :: after ∧ depthFrom depth before = 0

theorem hasCut_cons {c : Char} :
    HasCut depth (c :: cs) ↔ c = ',' ∧ depth = 0 ∨ HasCut (depthAfter depth c) cs := by
  constructor
  · rintro ⟨before, after, he, hd⟩
    cases before with
    | nil => exact .inl ⟨(List.cons.inj he).1, hd⟩
    | cons b before =>
        obtain ⟨rfl, rfl⟩ := List.cons.inj he
        exact .inr ⟨before, after, rfl, hd⟩
  · rintro (⟨rfl, rfl⟩ | ⟨before, after, rfl, hd⟩)
    · exact ⟨[], cs, rfl, rfl⟩
    · exact ⟨c :: before, after, rfl, hd⟩

theorem not_hasCut_nil : ¬HasCut depth [] := by
  rintro ⟨before, after, he, -⟩
  simp at he

instance decidableHasCut : (depth : Nat) → (cs : List Char) → Decidable (HasCut depth cs)
  | _, [] => .isFalse not_hasCut_nil
  | depth, c :: cs =>
    haveI := decidableHasCut (depthAfter depth c) cs
    decidable_of_iff _ hasCut_cons.symm

/-- Before its first cut a text has none. -/
theorem HasCut.exists_first (h : HasCut depth cs) :
    ∃ before after, cs = before ++ ',' :: after ∧ depthFrom depth before = 0 ∧
      ¬HasCut depth before := by
  induction cs generalizing depth with
  | nil => exact absurd h not_hasCut_nil
  | cons c cs ih =>
      by_cases hc : c = ',' ∧ depth = 0
      · exact ⟨[], cs, by rw [hc.1]; rfl, hc.2, not_hasCut_nil⟩
      · obtain ⟨before, after, rfl, hd, hn⟩ := ih ((hasCut_cons.mp h).resolve_left hc)
        exact ⟨c :: before, after, rfl, hd, fun hh => (hasCut_cons.mp hh).elim hc hn⟩

theorem splitFrom_append (h : ¬HasCut depth cs) (rest : List Char) : splitFrom depth (cs ++ rest) =
    (splitFrom (depthFrom depth cs) rest).modifyHead (cs ++ ·) := by
  induction cs generalizing depth with
  | nil => exact (congrFun List.modifyHead_id _).symm
  | cons c cs ih =>
      obtain ⟨hc, hcs⟩ := not_or.mp (mt hasCut_cons.mpr h)
      rw [List.cons_append, splitFrom, if_neg hc, ih hcs, List.modifyHead_modifyHead]
      rfl

theorem splitFrom_cut (h : ¬HasCut depth cs) (hd : depthFrom depth cs = 0) (rest : List Char) :
    splitFrom depth (cs ++ ',' :: rest) = cs :: splitFrom 0 rest := by
  rw [splitFrom_append h, hd, splitFrom, if_pos ⟨rfl, rfl⟩]
  simp

theorem splitFrom_of_not_hasCut (h : ¬HasCut depth cs) : splitFrom depth cs = [cs] := by
  rw [← List.append_nil cs, splitFrom_append h, splitFrom]
  simp

theorem splitFrom_ne_nil (depth : Nat) (cs : List Char) : splitFrom depth cs ≠ [] := by
  cases cs with
  | nil => simp [splitFrom]
  | cons c cs =>
      rw [splitFrom]
      split
      · exact List.cons_ne_nil _ _
      · exact mt List.modifyHead_eq_nil_iff.mp (splitFrom_ne_nil _ cs)

theorem hasCut_append {ds : List Char} :
    HasCut depth (cs ++ ds) ↔ HasCut depth cs ∨ HasCut (depthFrom depth cs) ds := by
  induction cs generalizing depth with
  | nil => simp [not_hasCut_nil, depthFrom]
  | cons c cs ih =>
      rw [List.cons_append, hasCut_cons, ih, hasCut_cons, or_assoc]
      rfl

theorem depthFrom_append (depth : Nat) (cs ds : List Char) :
    depthFrom depth (cs ++ ds) = depthFrom (depthFrom depth cs) ds :=
  List.foldl_append

/-- The character neither cuts nor nests. -/
def IsPlain (c : Char) : Prop :=
  c ∉ [',', '[', ']', '\x7b', '\x7d']

instance : DecidablePred IsPlain := fun _ => inferInstanceAs (Decidable (¬_))

theorem IsPlain.depthAfter_eq {c : Char} (h : IsPlain c) (depth : Nat) :
    depthAfter depth c = depth := by
  simp only [IsPlain, List.mem_cons, List.not_mem_nil, or_false, not_or] at h
  simp [depthAfter, h]

theorem hasCut_of_plain (h : ∀ c ∈ cs, IsPlain c) (depth : Nat) : ¬HasCut depth cs := by
  rintro ⟨before, after, rfl, -⟩
  exact absurd (h ',' (by simp)) (by decide)

theorem depthFrom_of_plain (h : ∀ c ∈ cs, IsPlain c) (depth : Nat) : depthFrom depth cs = depth := by
  induction cs with
  | nil => rfl
  | cons c cs ih =>
      obtain ⟨hc, hs⟩ := List.forall_mem_cons.mp h
      rw [depthFrom, List.foldl_cons, hc.depthAfter_eq]
      exact ih hs

/-! ## Quoted items -/

section Items

variable {β ι : Type} {read : List Char → Option β} {lead pad : List Char} {s : String} {b : β}

/-- A part of a collection that ends with a quoted text is read as `b`, and as something else if it
ends anywhere but behind that text. -/
structure ReadsQuoted (read : List Char → Option β) (lead : List Char) (s : String) (b : β) :
    Prop where
  plain : ∀ c ∈ lead, IsPlain c
  noQuote : '"' ∉ s.toList
  reads : ∀ pad, (∀ c ∈ pad, c = ' ') → read (pad ++ (lead ++ quoted s)) = some b
  spoils : ∀ pad cs, (∀ c ∈ pad, c = ' ') → '"' ∈ Entry.clean ('"' :: cs) →
    ∃ other, read (pad ++ (lead ++ '"' :: cs)) = some other ∧ other ≠ b

theorem quote_mem_clean_of_comma (cs more : List Char) :
    '"' ∈ Entry.clean ('"' :: (cs ++ '"' :: ',' :: more)) := by
  by_contra hn
  obtain ⟨inner, after, he, hi, ha, hv⟩ := (Entry.not_mem_clean_iff (.inl rfl)).mp hn
  obtain ⟨-, -, rfl⟩ := (List.append_cons_inj_of_notMem hi ha).mp he.symm
  have ht : trim (',' :: more) = ',' :: trimEnd more := by
    rw [trim_of_head? (c := ',') rfl (by decide), trimEnd_cons (by decide)]
  rw [Entry.isVoid, ht] at hv
  exact absurd hv (by simp)

theorem isPlain_space : IsPlain ' ' := by decide

theorem isPlain_quote : ∀ c ∈ ['"'], IsPlain c :=
  List.forall_mem_singleton.mpr (by decide)

namespace ReadsQuoted

variable (h : ReadsQuoted read lead s b) (hp : ∀ c ∈ pad, c = ' ')
include h hp

theorem plain_front : ∀ c ∈ pad ++ lead ++ ['"'], IsPlain c := by
  simp only [List.forall_mem_append]
  exact ⟨⟨fun c hc => hp c hc ▸ isPlain_space, h.plain⟩, isPlain_quote⟩

theorem hasCut_iff : HasCut 0 (pad ++ (lead ++ quoted s)) ↔ HasCut 0 s.toList := by
  have hf := h.plain_front hp
  have hq : pad ++ (lead ++ quoted s) = pad ++ lead ++ ['"'] ++ (s.toList ++ ['"']) := by
    simp [quoted]
  rw [hq, hasCut_append, or_iff_right (hasCut_of_plain hf 0), depthFrom_of_plain hf, hasCut_append,
    or_iff_left (hasCut_of_plain isPlain_quote _)]

theorem depthFrom_eq : depthFrom 0 (pad ++ (lead ++ quoted s)) = depthFrom 0 s.toList := by
  have hf := h.plain_front hp
  have hq : pad ++ (lead ++ quoted s) = pad ++ lead ++ ['"'] ++ (s.toList ++ ['"']) := by
    simp [quoted]
  rw [hq, depthFrom_append, depthFrom_append, depthFrom_of_plain hf,
    depthFrom_of_plain isPlain_quote]

theorem last (hc : ¬HasCut 0 s.toList) :
    (splitFrom 0 (pad ++ (lead ++ quoted s))).filterMap read = [b] := by
  rw [splitFrom_of_not_hasCut (mt (h.hasCut_iff hp).mp hc), List.filterMap_cons, h.reads pad hp]
  rfl

theorem closed (hc : ¬HasCut 0 s.toList) (hd : depthFrom 0 s.toList = 0) (rest : List Char) :
    (splitFrom 0 (pad ++ (lead ++ quoted s) ++ ',' :: rest)).filterMap read =
      b :: (splitFrom 0 rest).filterMap read := by
  rw [splitFrom_cut (mt (h.hasCut_iff hp).mp hc) ((h.depthFrom_eq hp).trans hd),
    List.filterMap_cons, h.reads pad hp]

theorem cut (hc : HasCut 0 s.toList) (rest : List Char) : ∃ other parts,
    (splitFrom 0 (pad ++ (lead ++ quoted s) ++ rest)).filterMap read = other :: parts ∧
      other ≠ b := by
  obtain ⟨before, after, hs, hd, hn⟩ := hc.exists_first
  have hf := h.plain_front hp
  have hq : pad ++ (lead ++ quoted s) ++ rest =
      (pad ++ lead ++ ['"'] ++ before) ++ ',' :: (after ++ '"' :: rest) := by
    simp [quoted, hs]
  have hcut : ¬HasCut 0 (pad ++ lead ++ ['"'] ++ before) := by
    rw [hasCut_append, or_iff_right (hasCut_of_plain hf 0), depthFrom_of_plain hf]
    exact hn
  have hzero : depthFrom 0 (pad ++ lead ++ ['"'] ++ before) = 0 := by
    rw [depthFrom_append, depthFrom_of_plain hf, hd]
  have hno : '"' ∉ before := fun hm => h.noQuote (hs ▸ List.mem_append_left _ hm)
  have hm : '"' ∈ Entry.clean ('"' :: before) := by
    rw [Entry.clean_unclosed (.inl rfl) hno]
    exact List.mem_cons_self
  obtain ⟨other, hr, ho⟩ := h.spoils pad before hp hm
  refine ⟨other, (splitFrom 0 (after ++ '"' :: rest)).filterMap read, ?_, ho⟩
  have hb : pad ++ lead ++ ['"'] ++ before = pad ++ (lead ++ '"' :: before) := by simp
  rw [hq, splitFrom_cut hcut hzero, List.filterMap_cons, hb, hr]

theorem left_open (hc : ¬HasCut 0 s.toList) (hd : depthFrom 0 s.toList ≠ 0) (rest : List Char) :
    ∃ other parts, (splitFrom 0 (pad ++ (lead ++ quoted s) ++ ',' :: rest)).filterMap read =
      other :: parts ∧ other ≠ b := by
  obtain ⟨more, parts, hs⟩ := List.exists_cons_of_ne_nil
    (splitFrom_ne_nil (depthAfter (depthFrom 0 s.toList) ',') rest)
  have hsplit : splitFrom 0 (pad ++ (lead ++ quoted s) ++ ',' :: rest) =
      (pad ++ (lead ++ '"' :: (s.toList ++ '"' :: ',' :: more))) :: parts := by
    rw [splitFrom_append (mt (h.hasCut_iff hp).mp hc), h.depthFrom_eq hp, splitFrom,
      if_neg fun he => hd he.2, hs]
    simp [quoted]
  obtain ⟨other, hr, ho⟩ := h.spoils pad _ hp (quote_mem_clean_of_comma _ more)
  exact ⟨other, parts.filterMap read, by rw [hsplit, List.filterMap_cons, hr], ho⟩

end ReadsQuoted

/-- Texts that are told apart by the commas between them: none of them has a comma outside of its
own brackets, and none but the last leaves a bracket open. -/
def ToldApart (texts : List String) : Prop :=
  (∀ s ∈ texts, ¬HasCut 0 s.toList) ∧ ∀ s ∈ texts.dropLast, depthFrom 0 s.toList = 0

instance (texts : List String) : Decidable (ToldApart texts) :=
  inferInstanceAs (Decidable (_ ∧ _))

theorem toldApart_singleton : ToldApart [s] ↔ ¬HasCut 0 s.toList := by
  simp [ToldApart]

theorem toldApart_cons_cons {t : String} {ts : List String} : ToldApart (s :: t :: ts) ↔
    (¬HasCut 0 s.toList ∧ depthFrom 0 s.toList = 0) ∧ ToldApart (t :: ts) := by
  rw [ToldApart, List.dropLast_cons_cons, List.forall_mem_cons,
    List.forall_mem_cons (l := (t :: ts).dropLast)]
  exact and_and_and_comm

/-- Items with commas between them. -/
def listing (items : List (List Char)) : List Char :=
  [',', ' '].intercalate items

@[simp] theorem listing_nil : listing [] = [] :=
  List.intercalate_nil

@[simp] theorem listing_singleton (item : List Char) : listing [item] = item :=
  List.intercalate_singleton

theorem listing_cons_cons (item next : List Char) (items : List (List Char)) :
    listing (item :: next :: items) = item ++ ',' :: ([' '] ++ listing (next :: items)) := by
  simp [listing, List.intercalate_cons_cons]

/-- A flow collection of items. -/
def wrapped (opening closing : Char) (items : List (List Char)) : List Char :=
  opening :: (listing items ++ [closing])

theorem wrapped_ne_nil (opening closing : Char) (items : List (List Char)) :
    wrapped opening closing items ≠ [] :=
  List.cons_ne_nil _ _

theorem filterMap_splitFrom_iff {lead : ι → List Char} {text : ι → String} {value : ι → β}
    {is : List ι} (hn : is ≠ []) (h : ∀ i ∈ is, ReadsQuoted read (lead i) (text i) (value i))
    (hp : ∀ c ∈ pad, c = ' ') :
    (splitFrom 0 (pad ++ listing (is.map fun i => lead i ++ quoted (text i)))).filterMap read =
      is.map value ↔ ToldApart (is.map text) := by
  induction is generalizing pad with
  | nil => exact absurd rfl hn
  | cons i is ih =>
      obtain ⟨hi, his⟩ := List.forall_mem_cons.mp h
      cases is with
      | nil =>
          rw [List.map_singleton, List.map_singleton, List.map_singleton, listing_singleton,
            toldApart_singleton]
          by_cases hc : HasCut 0 (text i).toList
          · obtain ⟨other, parts, hs, ho⟩ := hi.cut hp hc []
            rw [List.append_nil] at hs
            simp [hs, ho, hc]
          · simp [hi.last hp hc, hc]
      | cons j js =>
          simp only [List.map_cons] at ih ⊢
          rw [listing_cons_cons, toldApart_cons_cons, ← List.append_assoc]
          by_cases hc : HasCut 0 (text i).toList
          · obtain ⟨other, parts, hs, ho⟩ := hi.cut hp hc _
            rw [hs]
            simp [ho, hc]
          · by_cases hd : depthFrom 0 (text i).toList = 0
            · have hih := ih (List.cons_ne_nil j js) his (List.forall_mem_singleton.mpr rfl)
              rw [hi.closed hp hc hd, ← hih, List.cons_inj_right, and_iff_right ⟨hc, hd⟩]
            · obtain ⟨other, parts, hs, ho⟩ := hi.left_open hp hc hd _
              rw [hs]
              simp [ho, hd]

end Items

/-! ## Quoted collections -/

/-- What one part of a flow list gives. -/
def item? (part : List Char) : Option String :=
  if Entry.clean part = [] then none else some (String.ofList (Entry.clean part))

/-- What one part of a flow mapping gives. -/
def pair? (part : List Char) : Option (String × String) :=
  (Entry.of? (trim part)).map fun e => (e.key, String.ofList e.value)

theorem between_wrapped (opening closing : Char) (items : List (List Char)) :
    between opening closing (wrapped opening closing items) = some (listing items) := by
  simp [between, wrapped]

theorem list?_wrapped (items : List (List Char)) :
    list? (wrapped '[' ']' items) = some ((splitFrom 0 (listing items)).filterMap item?) := by
  rw [list?, between_wrapped, Option.map_some, split, List.filter_map, List.map_map]
  induction splitFrom 0 (listing items) with
  | nil => rfl
  | cons part parts ih =>
      by_cases hp : Entry.clean part = [] <;> simp_all [item?]

theorem map?_wrapped (items : List (List Char)) : map? (wrapped '\x7b' '\x7d' items) =
    some ((splitFrom 0 (listing items)).filterMap pair?) := by
  rw [map?, between_wrapped]
  rfl

theorem readsQuoted_item {x : String} (hn : x ≠ "") (hq : '"' ∉ x.toList) :
    ReadsQuoted item? [] x x where
  plain := List.forall_mem_nil _
  noQuote := hq
  reads pad hp := by
    have hc : Entry.clean (pad ++ quoted x) = x.toList := by
      rw [clean_congr (trim_spaces hp _)]
      exact clean_row_quoted 0 x
    rw [List.nil_append, item?, hc, if_neg (mt String.toList_eq_nil_iff.mp hn), String.ofList_toList]
  spoils pad cs hp hm := by
    have hc : Entry.clean (pad ++ '"' :: cs) = Entry.clean ('"' :: cs) :=
      clean_congr (trim_spaces hp _)
    refine ⟨String.ofList (Entry.clean ('"' :: cs)), ?_, fun he => hq ?_⟩
    · rw [List.nil_append, item?, hc, if_neg (List.ne_nil_of_mem hm)]
    · rwa [← he, String.toList_ofList]

/-- What the keys of quoted entries are made of: letters, digits and the like. -/
def IsWordChar (c : Char) : Prop :=
  isBlank c = false ∧ c ∉ [':', '"', '\''] ∧ IsPlain c

instance : DecidablePred IsWordChar := fun _ => inferInstanceAs (Decidable (_ ∧ _ ∧ _))

/-- A key that is made of such characters. -/
def IsWordKey (key : String) : Prop :=
  ∀ c ∈ key.toList, IsWordChar c

instance (key : String) : Decidable (IsWordKey key) :=
  decidable_of_iff (key.toList.all (decide <| IsWordChar ·) = true)
    ⟨fun h c hc => of_decide_eq_true (List.all_eq_true.mp h c hc),
      fun h => List.all_eq_true.mpr fun c hc => decide_eq_true (h c hc)⟩

theorem isBareKey_of_word {key : String} (hn : key ≠ "") (h : IsWordKey key) :
    Entry.IsBareKey key := by
  have ht := isTight_of_forall (mt String.toList_eq_nil_iff.mp hn) fun c hc => (h c hc).1
  have hm : ∀ c ∈ [':', '"', '\''], c ∉ key.toList := fun c hc hk => (h c hk).2.1 hc
  exact ⟨hn, ht.trim_eq, hm ':' (by simp),
    Entry.unquote_of_not_mem (hm '"' (by simp)) (hm '\'' (by simp))⟩

theorem readsQuoted_pair {e : String × String} (hk : Entry.IsBareKey e.1)
    (hw : IsWordKey e.1) (hq : '"' ∉ e.2.toList) :
    ReadsQuoted pair? (e.1.toList ++ [':', ' ']) e.2 e := by
  have hr : ∀ pad cs, (∀ c ∈ pad, c = ' ') → pair? (pad ++ (e.1.toList ++ [':', ' '] ++ cs)) =
      some (e.1, String.ofList (Entry.clean (' ' :: cs))) := by
    intro pad cs hp
    have ha : e.1.toList ++ [':', ' '] ++ cs = e.1.toList ++ ':' :: ' ' :: cs := by simp
    rw [pair?, trim_spaces hp, ha, Entry.of?_trim_append hk, Option.map_some]
  refine ⟨?_, hq, fun pad hp => ?_, fun pad cs hp hm => ?_⟩
  · simp only [List.forall_mem_append, List.forall_mem_cons]
    exact ⟨fun c hc => (hw c hc).2.2, by decide, by decide, List.forall_mem_nil _⟩
  · rw [hr pad _ hp, show Entry.clean (' ' :: quoted e.2) = e.2.toList from clean_row_quoted 1 e.2,
      String.ofList_toList]
  · refine ⟨(e.1, String.ofList (Entry.clean ('"' :: cs))), ?_, fun he => hq ?_⟩
    · rw [← clean_cons_space]
      exact hr pad _ hp
    · rwa [← congrArg Prod.snd he, String.toList_ofList]

theorem pair?_key_ne {part : List Char} {e : String × String} (h : pair? part = some e) :
    e.1 ≠ "" := by
  obtain ⟨entry, he, rfl⟩ := Option.map_eq_some_iff.mp h
  exact Entry.key_ne_of_of? he

/-- Quoted items and values are read back if, and only if, the commas between them tell them
apart. -/
theorem quoted_read_iff (xs : List String) (es : List (String × String)) (hn : xs ≠ [])
    (hx : ∀ x ∈ xs, x ≠ "" ∧ '"' ∉ x.toList) (hk : ∀ e ∈ es, IsWordKey e.1)
    (hv : ∀ e ∈ es, '"' ∉ e.2.toList) :
    (list? (wrapped '[' ']' (xs.map quoted)) = some xs ↔ ToldApart xs) ∧
      (map? (wrapped '\x7b' '\x7d' (es.map fun e => entry e.1 (quoted e.2))) = some es ↔
        (∀ e ∈ es, e.1 ≠ "") ∧ ToldApart (es.map (·.2))) := by
  have hp : ∀ c ∈ ([] : List Char), c = ' ' := List.forall_mem_nil _
  constructor
  · have hl := filterMap_splitFrom_iff hn
      (fun x hm => readsQuoted_item (hx x hm).1 (hx x hm).2) hp
    rw [list?_wrapped, Option.some_inj]
    simpa only [List.nil_append, List.map_id'] using hl
  · rw [map?_wrapped, Option.some_inj]
    have hkeys : ∀ body, (splitFrom 0 body).filterMap pair? = es → ∀ e ∈ es, e.1 ≠ "" := by
      rintro body rfl e he
      obtain ⟨part, -, hp⟩ := List.mem_filterMap.mp he
      exact pair?_key_ne hp
    rw [← and_iff_right_of_imp (hkeys _), and_congr_right_iff]
    intro hne
    cases es with
    | nil => decide
    | cons e es =>
        have hl := filterMap_splitFrom_iff (List.cons_ne_nil e es)
          (fun i hm => readsQuoted_pair (isBareKey_of_word (hne i hm) (hk i hm)) (hk i hm) (hv i hm))
          hp
        simpa [entry] using hl

theorem quoted_read_release :
    list? "[\"a[1, 2]\", \"it's: x\", \"[\"]".toList = some ["a[1, 2]", "it's: x", "["] ∧
      map? "\x7bA: \"x\", B_2: \"y#\"\x7d".toList = some [("A", "x"), ("B_2", "y#")] := by
  have h := quoted_read_iff ["a[1, 2]", "it's: x", "["] [("A", "x"), ("B_2", "y#")] (by decide)
    (by decide) (by decide) (by decide)
  exact ⟨h.1.mpr (by decide), h.2.mpr (by decide)⟩

/-- A comma inside the quotes cuts all the same. -/
theorem quoted_comma :
    list? (wrapped '[' ']' (["a,b"].map quoted)) = some ["\"a", "b\""] ∧
      map? (wrapped '\x7b' '\x7d' ([("A", "x,y")].map fun e => entry e.1 (quoted e.2))) =
        some [("A", "\"x")] := by decide

end Flow

end WorkflowLint
