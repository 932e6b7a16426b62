import WorkflowLint.Proofs.OneLine.Workflow
import WorkflowLint.Proofs.Quotes

/-!
# The shape of workflows that are read

What has a name has one that is not empty, and a text that may be left out is not empty where it is
given. Names and values are on one line. Commands and conditions may have more, and do not end with
a line break; the settings of an event are lines none of which is empty.
-/
namespace WorkflowLint

variable {cs : List Char} {s : String}

/-! ## Texts -/

/-- A text on one line that says something. -/
structure IsName (s : String) : Prop where
  ne : s ≠ ""
  oneLine : OneLine s

/-- A text that says something, and that no line break ends. -/
structure IsPassage (s : String) : Prop where
  ne : s ≠ ""
  last : s.toList.getLast? ≠ some '\n'

/-- No text, or lines none of which is empty. -/
def IsSettings (s : String) : Prop :=
  s = "" ∨ [] ∉ s.toList.splitOn '\n'

theorem ofList_ne_empty (h : cs ≠ []) : String.ofList cs ≠ "" := by
  simpa using h

theorem ne_nil_of_mem_nonEmpty (h : s ∈ nonEmpty cs) : cs ≠ [] ∧ s = String.ofList cs := by
  unfold nonEmpty at h
  split at h
  · cases h
  · cases h
    exact ⟨‹_›, rfl⟩

theorem isName_of_mem_nonEmpty (h : s ∈ nonEmpty cs) (hc : '\n' ∉ cs) : IsName s := by
  obtain ⟨hn, rfl⟩ := ne_nil_of_mem_nonEmpty h
  exact ⟨ofList_ne_empty hn, oneLine_ofList.mpr hc⟩

theorem isPassage_of_mem_nonEmpty (h : s ∈ nonEmpty cs) (hl : cs.getLast? ≠ some '\n') :
    IsPassage s := by
  obtain ⟨hn, rfl⟩ := ne_nil_of_mem_nonEmpty h
  exact ⟨ofList_ne_empty hn, by rwa [String.toList_ofList]⟩

/-! ## Settings -/

theorem isSettings_ofList (h : '\n' ∉ cs) : IsSettings (String.ofList cs) := by
  by_cases hc : cs = []
  · exact .inl (by rw [hc])
  · refine .inr ?_
    rw [String.toList_ofList, List.splitOn_eq_singleton h, List.mem_singleton]
    exact Ne.symm hc

theorem splitOn_append_cons (c : Char) (cs ds : List Char) :
    (cs ++ c :: ds).splitOn c = cs.splitOn c ++ ds.splitOn c := by
  induction cs with
  | nil => simp [List.splitOn_cons_eq_if_modifyHead]
  | cons d cs ih =>
      obtain ⟨p, ps, hp⟩ := List.exists_cons_of_ne_nil (List.splitOn_ne_nil c cs)
      rw [List.cons_append, List.splitOn_cons_eq_if_modifyHead, List.splitOn_cons_eq_if_modifyHead,
        ih, hp]
      split <;> rfl

/-- Another line, which is not empty, below settings. -/
theorem isSettings_appendLine (hs : IsSettings s) (hn : cs ≠ []) (hc : '\n' ∉ cs) :
    IsSettings (appendLine s cs) := by
  unfold appendLine
  split
  · exact isSettings_ofList hc
  · rename_i he
    refine .inr ?_
    have hl : (s ++ "\n" ++ String.ofList cs).toList = s.toList ++ '\n' :: cs := by simp
    rw [hl, splitOn_append_cons, List.splitOn_eq_singleton hc, List.mem_append, List.mem_singleton]
    exact fun h => h.elim (hs.resolve_left he) (Ne.symm hn)

/-! ## Block scalars -/

namespace BlockStyle

variable {ls : List Line}

theorem exists_join_concat (style : BlockStyle) (rows : List (List Char)) (last : List Char) :
    ∃ before, style.join (rows ++ [last]) = before ++ last := by
  induction rows with
  | nil => exact ⟨[], rfl⟩
  | cons above rows ih =>
      obtain ⟨before, hb⟩ := ih
      obtain ⟨below, rest, hr⟩ := List.exists_cons_of_ne_nil (List.concat_ne_nil last rows)
      refine ⟨above ++ style.joint above below :: before, ?_⟩
      rw [List.cons_append, hr, join, ← hr, hb, List.append_assoc, List.cons_append]

theorem last_of_body_eq {ks : List Line} {l : Line} (h : body ls = ks ++ [l]) :
    l ∈ ls ∧ l.isBlank = false := by
  have hr : ls.reverse.dropWhile (·.isBlank) = l :: ks.reverse := by
    rw [← List.reverse_inj, ← body, h]
    simp
  have hd := List.head?_dropWhile_not (fun l : Line => l.isBlank) ls.reverse
  rw [hr] at hd
  refine ⟨List.mem_reverse.mp (List.dropWhile_subset (fun l : Line => l.isBlank) ?_), hd⟩
  exact hr ▸ List.mem_cons_self

/-- A block scalar ends with what its last line says that is not blank. -/
theorem getLast?_text (style : BlockStyle) (h : OneLines ls) :
    (style.text ls).getLast? ≠ some '\n' := by
  rcases (body ls).eq_nil_or_concat with hb | ⟨ks, l, hb⟩
  · rw [text, hb]
    simp [join]
  · -- The row of a line that is not blank ends with the end of its text.
    rw [List.concat_eq_append] at hb
    obtain ⟨hl, hn⟩ := last_of_body_eq hb
    obtain ⟨before, hj⟩ := exists_join_concat style (ks.map (row (margin ls))) (row (margin ls) l)
    have ht : l.text ≠ [] := fun he => by simp [Line.isBlank, he] at hn
    rw [text, hb, List.map_append, List.map_singleton, hj, row, if_neg (by simp [hn]),
      ← List.append_assoc, List.getLast?_append_of_ne_nil _ ht]
    exact fun he => h l hl (List.mem_of_getLast? he)

end BlockStyle

/-! ## Values -/

section Values

variable {value : List Char} {body : List Line}

theorem getLast?_scalar (hv : '\n' ∉ value) (hb : OneLines body) :
    (scalar value body).getLast? ≠ some '\n' := by
  unfold scalar
  split
  · exact BlockStyle.getLast?_text _ hb
  · exact fun h => hv (List.mem_of_getLast? h)

theorem isPassage_of_mem_scalar (hv : '\n' ∉ value) (hb : OneLines body) :
    ∀ t ∈ nonEmpty (scalar value body), IsPassage t :=
  fun _ h => isPassage_of_mem_nonEmpty h (getLast?_scalar hv hb)

theorem Flow.ne_of_mem_map? {pairs : List (String × String)} (h : Flow.map? value = some pairs) :
    ∀ e ∈ pairs, e.1 ≠ "" := by
  obtain ⟨parts, -, rfl⟩ := Option.map_eq_some_iff.mp h
  intro e he
  obtain ⟨part, -, hm⟩ := List.mem_filterMap.mp he
  obtain ⟨entry, ho, rfl⟩ := Option.map_eq_some_iff.mp hm
  exact Entry.key_ne_of_of? ho

theorem Flow.ne_of_mem_list? {items : List String} (h : Flow.list? value = some items) :
    ∀ i ∈ items, i ≠ "" := by
  obtain ⟨parts, -, rfl⟩ := Option.map_eq_some_iff.mp h
  intro i hi
  obtain ⟨cs, hc, rfl⟩ := List.mem_map.mp hi
  exact ofList_ne_empty (by simpa using (List.mem_filter.mp hc).2)

/-- A value that is not empty lists names. -/
theorem isName_of_mem_names (hn : value ≠ []) (hv : '\n' ∉ value) :
    ∀ n ∈ Flow.names value, IsName n := by
  intro n hm
  refine ⟨?_, .of_subset (Flow.names_subset value n hm) hv⟩
  unfold Flow.names at hm
  split at hm
  · exact Flow.ne_of_mem_list? ‹_› n hm
  · split at hm
    · obtain ⟨e, he, rfl⟩ := List.mem_map.mp hm
      exact Flow.ne_of_mem_map? ‹_› e he
    · rw [List.mem_singleton.mp hm]
      exact ofList_ne_empty hn

theorem isName_of_mem_needed (hv : '\n' ∉ value) (hb : OneLines body) :
    ∀ n ∈ Job.needed value body, IsName n := by
  intro n hm
  unfold Job.needed at hm
  split at hm
  · refine ⟨?_, Job.oneLine_items hb n hm⟩
    obtain ⟨l, -, hl⟩ := List.mem_filterMap.mp hm
    obtain ⟨hn, rfl⟩ := ne_nil_of_mem_nonEmpty hl
    exact ofList_ne_empty hn
  · exact isName_of_mem_names ‹_› hv n hm

/-! ## Tables -/

/-- All names say something, and names and values are on one line each. -/
structure Table.HasShape (t : Table String) : Prop where
  ne : ∀ e ∈ t.entries, e.1 ≠ ""
  quotable : t.Quotable

theorem Table.hasShape_empty : (∅ : Table String).HasShape :=
  ⟨List.forall_mem_nil _, quotable_empty⟩

theorem hasShape_mapping {t : Table String} (hv : '\n' ∉ value) (hb : OneLines body)
    (ht : t.HasShape) : (mapping value body t).HasShape := by
  refine ⟨?_, quotable_mapping hv hb ht.quotable⟩
  refine Table.forall_mem_entries_insertMany (Table.forall_mem_entries_insertMany ht.ne ?_) ?_
  · cases hm : Flow.map? value with
    | none => simp
    | some pairs => exact Flow.ne_of_mem_map? hm
  · intro e he
    obtain ⟨entry, hm, rfl⟩ := List.mem_map.mp he
    obtain ⟨l, -, ho⟩ := List.mem_filterMap.mp hm
    exact Entry.key_ne_of_of? ho

/-! ## Triggers -/

/-- The names are events, and the values their settings. -/
def Table.HasEvents (t : Table String) : Prop :=
  ∀ e ∈ t.entries, IsName e.1 ∧ IsSettings e.2

theorem event_shape {l : Line} (h : '\n' ∉ l.text) :
    OneLine (event l).1 ∧ IsSettings (event l).2 := by
  unfold event
  split
  · exact ⟨oneLine_ofList.mpr fun hm => h (itemContent_subset _ (Entry.clean_subset _ hm)), .inl rfl⟩
  · split
    · rename_i e he
      obtain ⟨hk, hs⟩ := Entry.of?_subset he
      exact ⟨.of_subset hk h, isSettings_ofList fun hm => h (hs hm)⟩
    · exact ⟨oneLine_ofList.mpr fun hm => h (Entry.clean_subset _ hm), .inl rfl⟩

namespace Events

variable {es : Events} {l : Line}

theorem hasEvents_addSetting (he : es.table.HasEvents) (hs : l.isSignificant = true)
    (hl : '\n' ∉ l.text) : (es.addSetting l).table.HasEvents := by
  unfold addSetting
  split
  · exact he
  · split
    · exact he
    · rename_i name _ text ht
      obtain ⟨hn, hset⟩ := he _ (Table.mem_entries_iff.mpr ht)
      have hne : l.text ≠ [] := fun hnil => by simp [Line.isSignificant, Line.isBlank, hnil] at hs
      exact Table.forall_mem_entries_insert he ⟨hn, isSettings_appendLine hset hne hl⟩

theorem hasEvents_addEvent (he : es.table.HasEvents) (hl : '\n' ∉ l.text) :
    (es.addEvent l).table.HasEvents := by
  obtain ⟨ho, hs⟩ := event_shape hl
  unfold addEvent
  dsimp only
  split
  · exact he
  · exact Table.forall_mem_entries_insert he ⟨⟨‹_›, ho⟩, hs⟩

theorem hasEvents_addLine (depth : Nat) (he : es.table.HasEvents) (hs : l.isSignificant = true)
    (hl : '\n' ∉ l.text) : (es.addLine depth l).table.HasEvents := by
  unfold addLine
  split
  · exact hasEvents_addSetting he hs hl
  · exact hasEvents_addEvent he hl

end Events

theorem hasEvents_triggers {t : Table String} (hv : '\n' ∉ value) (hb : OneLines body)
    (ht : t.HasEvents) : (triggers value body t).HasEvents := by
  have hinline : (t.insertMany ((if value = [] then [] else Flow.names value).map
      (·, ""))).HasEvents := by
    refine Table.forall_mem_entries_insertMany ht fun e he => ?_
    obtain ⟨n, hn, rfl⟩ := List.mem_map.mp he
    split at hn
    · cases hn
    · exact ⟨isName_of_mem_names ‹_› hv n hn, .inl rfl⟩
  unfold triggers
  dsimp only
  split
  · exact hinline
  · rename_i first rest hf
    refine List.foldlRecOn (motive := fun es : Events => es.table.HasEvents) _ _ hinline
      fun es he l hl => ?_
    obtain ⟨hm, hs⟩ := List.mem_filter.mp (hf ▸ hl)
    exact es.hasEvents_addLine first.indent he hs (hb l hm)

end Values

/-! ## Steps -/

namespace Step

structure HasShape (s : Step) : Prop where
  name : ∀ t ∈ s.name, IsName t
  uses : ∀ t ∈ s.uses, IsName t
  run : ∀ t ∈ s.run, IsPassage t
  arguments : s.arguments.HasShape
  env : s.env.HasShape
  condition : ∀ t ∈ s.condition, IsPassage t

theorem hasShape_blank : blank.HasShape where
  name _ h := by cases h
  uses _ h := by cases h
  run _ h := by cases h
  arguments := Table.hasShape_empty
  env := Table.hasShape_empty
  condition _ h := by cases h

theorem kept_hasShape : Kept HasShape where
  blank := hasShape_blank
  set key s value body hs hv hb := by
    cases key with
    | name => exact { hs with name := fun _ h => isName_of_mem_nonEmpty h hv }
    | uses => exact { hs with uses := fun _ h => isName_of_mem_nonEmpty h hv }
    | run => exact { hs with run := isPassage_of_mem_scalar hv hb }
    | condition => exact { hs with condition := isPassage_of_mem_scalar hv hb }
    | arguments => exact { hs with arguments := hasShape_mapping hv hb hs.arguments }
    | env => exact { hs with env := hasShape_mapping hv hb hs.env }

end Step

/-! ## Jobs -/

namespace Job

structure HasShape (j : Job) : Prop where
  name : ∀ t ∈ j.name, IsName t
  runsOn : OneLine j.runsOn
  needs : ∀ n ∈ j.needs, IsName n
  permissions : j.permissions.HasShape
  steps : ∀ s ∈ j.steps, s.HasShape
  env : j.env.HasShape
  condition : ∀ t ∈ j.condition, IsPassage t

theorem hasShape_blank : blank.HasShape where
  name _ h := by cases h
  runsOn := quotable_blank.runsOn
  needs := List.forall_mem_nil _
  permissions := Table.hasShape_empty
  steps := List.forall_mem_nil _
  env := Table.hasShape_empty
  condition _ h := by cases h

theorem kept_hasShape (tabWidth : Nat) : Kept tabWidth HasShape where
  blank := hasShape_blank
  set key head j value body hj hv hb := by
    cases key with
    | name => exact { hj with name := fun _ h => isName_of_mem_nonEmpty h hv }
    | runsOn => exact { hj with runsOn := oneLine_runner hv hb }
    | timeout => exact (yields_timeout head hv).map fun _ _ => { hj with }
    | condition => exact { hj with condition := isPassage_of_mem_scalar hv hb }
    | needs => exact { hj with needs := isName_of_mem_needed hv hb }
    | permissions => exact { hj with permissions := hasShape_mapping hv hb hj.permissions }
    | env => exact { hj with env := hasShape_mapping hv hb hj.env }
    | steps => exact { hj with steps := Step.kept_hasShape.readAll hb }

end Job

/-! ## Workflows -/

namespace Workflow

structure HasShape (w : Workflow) : Prop where
  name : OneLine w.name
  triggers : w.triggers.HasEvents
  permissions : w.permissions.HasShape
  jobs : ∀ e ∈ w.jobs.entries, IsName e.1 ∧ e.2.HasShape
  env : w.env.HasShape

theorem hasShape_blank : blank.HasShape where
  name := by decide
  triggers := List.forall_mem_nil _
  permissions := Table.hasShape_empty
  jobs := List.forall_mem_nil _
  env := Table.hasShape_empty

theorem kept_hasShape (tabWidth : Nat) : Kept tabWidth HasShape where
  blank := hasShape_blank
  set key w value body hw hv hb := by
    cases key with
    | name => exact { hw with name := oneLine_ofList.mpr hv }
    | triggers => exact { hw with triggers := hasEvents_triggers hv hb hw.triggers }
    | permissions => exact { hw with permissions := hasShape_mapping hv hb hw.permissions }
    | jobs =>
        have hn {text : List Char} {e : Entry} (ht : '\n' ∉ text) (he : Entry.of? text = some e) :
            IsName e.key := ⟨Entry.key_ne_of_of? he, .of_subset (Entry.of?_subset he).1 ht⟩
        exact ((Job.kept_hasShape tabWidth).readAll hn hw.jobs hb).map fun _ hj =>
          { hw with jobs := hj }
    | env => exact { hw with env := hasShape_mapping hv hb hw.env }

/-- Every workflow that a document describes has the shape of one. -/
theorem hasShape_of_ofText {tabWidth : Nat} {text : List Char} {w : Workflow}
    (h : ofText tabWidth text = .ok w) : w.HasShape := by
  have hy := (kept_hasShape tabWidth).ofText text
  rwa [h] at hy

/-- Settings of two lines, a need that is empty, and a condition with blank lines around its text. -/
def spacedCondition : List Char :=
  "on:\n  push:\n    tags:\n\n      - a\njobs:\n  b:\n    needs: [c, '']\n    if: |\n\n      x\n\n".toList

def conditioned : Workflow where
  name := ""
  triggers := .ofList [("push", "tags:\n- a")]
  permissions := ∅
  jobs := .ofList [("b", { Job.blank with needs := ["c"], condition := some "\nx" })]
  env := ∅

theorem hasShape_conditioned : ofText 2 spacedCondition = .ok conditioned ∧ conditioned.HasShape := by
  have h : ofText 2 spacedCondition = .ok conditioned := by decide +kernel
  exact ⟨h, hasShape_of_ofText h⟩

end Workflow

end WorkflowLint
