import WorkflowLint.Proofs.Independence
import WorkflowLint.Proofs.PlainExprs

/-!
# Secrets in commands

What the preset takes for a secret in a command is the name of one with a value: an equals sign, at
most one quote, and ten or more characters of a token. A step whose command has this in some place
is found to assign a secret, once, and under the name in the first such place, whatever the value
goes on with. No other step is.
-/
namespace WorkflowLint

namespace Rule

open Pattern

variable {command m : List Char} {name : String} {i : Nat} {b a : Option Char} {c : Char}

def secretNames : List String :=
  ["password", "token", "key", "secret"]

/-- A letter or digit of ASCII, or a sign that encoded bytes are written with. -/
def IsTokenChar (c : Char) : Prop :=
  'a' ≤ c ∧ c ≤ 'z' ∨ 'A' ≤ c ∧ c ≤ 'Z' ∨ '0' ≤ c ∧ c ≤ '9' ∨ c = '+' ∨ c = '/' ∨ c = '='

/-- From an index on, a name of a secret is given a value. -/
structure AssignsAt (command : List Char) (i : Nat) (name : String) : Prop where
  known : name ∈ secretNames
  value : ∃ quote token rest, command.drop i = name.toList ++ '=' :: (quote ++ (token ++ rest)) ∧
    (quote.length ≤ 1 ∧ ∀ c ∈ quote, isQuote c = true) ∧
      10 ≤ token.length ∧ ∀ c ∈ token, IsTokenChar c

/-- The name is given a value, and none is before it. -/
def FirstAssigns (command : List Char) (name : String) : Prop :=
  ∃ i, AssignsAt command i name ∧ ∀ j < i, ∀ other, ¬AssignsAt command j other

/-! ## The pattern of the preset -/

def quoteSet : CharSet :=
  .union (.union .empty (.singleton '\'')) (.singleton '"')

def tokenSet : CharSet :=
  [('a', 'z'), ('A', 'Z'), ('0', '9'), ('+', '+'), ('/', '/'), ('=', '=')].foldl
    (fun s r => .union s (.ranges [r])) .empty

/-- The value may have a quote behind it, which is then a part of what is found. -/
def assignment : Expr :=
  .inOrder [.oneOf (secretNames.map fun name => .word name.toList), .char (.singleton '='),
    .opt true (.char quoteSet), .atLeast true 10 (.char tokenSet), .opt true (.char quoteSet)]

theorem ofText?_presetSecretPattern :
    ofText? Policy.presetSecretPattern.toList = some assignment := by
  decide +kernel

theorem mem_quoteSet : c ∈ quoteSet ↔ isQuote c = true := by
  simp [quoteSet, CharSet.empty, CharSet.mem_union, CharSet.mem_ranges, CharSet.mem_singleton,
    isQuote, or_comm]

theorem mem_tokenSet : c ∈ tokenSet ↔ IsTokenChar c := by
  have hs {d : Char} : c ∈ CharSet.ranges [(d, d)] ↔ c = d := CharSet.mem_singleton
  simp [tokenSet, CharSet.empty, CharSet.mem_union, hs, CharSet.mem_ranges, IsTokenChar, or_assoc]

theorem assignment_matches_iff : assignment.Matches b m a ↔
    ∃ name ∈ secretNames, ∃ quote token close,
      m = name.toList ++ '=' :: (quote ++ (token ++ close)) ∧
        (quote.length ≤ 1 ∧ ∀ c ∈ quote, isQuote c = true) ∧
          (10 ≤ token.length ∧ ∀ c ∈ token, IsTokenChar c) ∧
            close.length ≤ 1 ∧ ∀ c ∈ close, isQuote c = true := by
  have hn : secretNames ≠ [] := List.cons_ne_nil _ _
  simp only [assignment, Expr.inOrder, seq_matches_iff, words_matches_iff hn, char_matches_iff,
    CharSet.mem_singleton, exists_eq_left, opt_char_matches_iff, mem_quoteSet,
    atLeast_char_matches_iff, mem_tokenSet]
  constructor
  · rintro ⟨_, _, rfl, ⟨name, hk, rfl⟩, _, _, rfl, rfl, quote, _, rfl, hq, token, close, rfl, ht,
      hc⟩
    exact ⟨name, hk, quote, token, close, rfl, hq, ht, hc⟩
  · rintro ⟨name, hk, quote, token, close, rfl, hq, ht, hc⟩
    exact ⟨_, _, rfl, ⟨name, hk, rfl⟩, ['='], _, rfl, rfl, quote, _, rfl, hq, token, close, rfl, ht,
      hc⟩

/-! ## The first name -/

/-- The name of what is found ends at the first equals sign, also if the value has more of them. -/
theorem assignedName_append (h : name ∈ secretNames) (value : List Char) :
    assignedName (name.toList ++ '=' :: value) = name := by
  have hn : ∀ name ∈ secretNames, name.toList.all (· ≠ '=') = true := by decide
  rw [assignedName, List.takeWhile_append_of_pos (List.all_eq_true.mp (hn name h)),
    List.takeWhile_cons_of_neg (by simp), List.append_nil, String.ofList_toList]

theorem assignsAt_of_matchesAt (h : assignment.MatchesAt command i m) :
    AssignsAt command i (assignedName m) := by
  obtain ⟨after, hd, hm⟩ := h
  obtain ⟨name, hk, quote, token, close, rfl, hq, ht, -⟩ := assignment_matches_iff.mp hm
  rw [assignedName_append hk]
  exact ⟨hk, quote, token, close ++ after, by rw [hd]; simp, hq, ht⟩

theorem matchesAt_of_assignsAt (h : AssignsAt command i name) :
    ∃ m, assignment.MatchesAt command i m := by
  obtain ⟨hk, quote, token, rest, hd, hq, ht⟩ := h
  refine ⟨name.toList ++ '=' :: (quote ++ token), rest, by rw [hd]; simp, ?_⟩
  exact assignment_matches_iff.mpr ⟨name, hk, quote, token, [], by simp, hq, ht, by simp⟩

theorem AssignsAt.assignedName_eq (h : AssignsAt command i name) :
    assignedName (command.drop i) = name := by
  obtain ⟨hk, quote, token, rest, hd, -⟩ := h
  rw [hd, assignedName_append hk]

theorem FirstAssigns.unique {other : String} (h : FirstAssigns command name)
    (h' : FirstAssigns command other) : name = other := by
  obtain ⟨i, hi, hfirst⟩ := h
  obtain ⟨j, hj, hfirst'⟩ := h'
  obtain rfl : i = j := by
    rcases Nat.lt_trichotomy i j with hlt | rfl | hlt
    · exact absurd hi (hfirst' i hlt name)
    · rfl
    · exact absurd hj (hfirst j hlt other)
  exact hi.assignedName_eq.symm.trans hj.assignedName_eq

theorem find?_assignment_eq_none_iff :
    find? assignment command = none ↔ ∀ i name, ¬AssignsAt command i name := by
  rw [← Option.not_isSome_iff_eq_none, isSome_find?_iff, occurs_iff_exists_matchesAt]
  simp only [not_exists]
  constructor
  · intro h i name ha
    obtain ⟨m, hm⟩ := matchesAt_of_assignsAt ha
    exact h i m hm
  · exact fun h i m hm => h i _ (assignsAt_of_matchesAt hm)

theorem firstAssigns_iff_of_find? (h : find? assignment command = some m) :
    FirstAssigns command name ↔ name = assignedName m := by
  obtain ⟨i, hm, hfirst⟩ := first_of_find? h
  have hf : FirstAssigns command (assignedName m) := by
    refine ⟨i, assignsAt_of_matchesAt hm, fun j hj other ha => ?_⟩
    obtain ⟨n, hn⟩ := matchesAt_of_assignsAt ha
    exact hfirst j hj n hn
  exact ⟨fun hn => hn.unique hf, fun hn => hn ▸ hf⟩

/-- In a step with a command there is an issue exactly if a name is given a value, and then it is
about the first one. -/
theorem inlineIssues_assignment {s : Step} {r : String} (hr : s.run = some r) :
    (inlineIssues assignment s = [] ∧ ∀ k name, ¬AssignsAt r.toList k name) ∨
      ∃ name, inlineIssues assignment s = [.secretInCommand name] ∧
        ∀ other, FirstAssigns r.toList other ↔ other = name := by
  cases hf : find? assignment r.toList with
  | none => exact Or.inl ⟨by simp only [inlineIssues, hr, hf], find?_assignment_eq_none_iff.mp hf⟩
  | some m =>
      exact Or.inr ⟨assignedName m, by simp only [inlineIssues, hr, hf],
        fun _ => firstAssigns_iff_of_find? hf⟩

end Rule

/-! ## What a lint tells -/

/-- The finding tells of a step that its command gives a value to the name of a secret. -/
structure Finding.TellsAssignment (id : String) (i : Nat) (s : Step) (f : Finding) : Prop where
  rule : f.rule = "hardcoded_secrets"
  job : f.job = some id
  step : f.step = some i
  message : ((Subject.step id i s).sentence "assigns an inline '").toList <+: f.message.toList

instance (id : String) (i : Nat) (s : Step) : DecidablePred (Finding.TellsAssignment id i s) :=
  fun f => decidable_of_iff (f.rule = "hardcoded_secrets" ∧ f.job = some id ∧ f.step = some i ∧
    ((Subject.step id i s).sentence "assigns an inline '").toList <+: f.message.toList)
    ⟨fun h => ⟨h.1, h.2.1, h.2.2.1, h.2.2.2⟩, fun h => ⟨h.rule, h.job, h.step, h.message⟩⟩

theorem filter_eq_filter_filter {α : Type} {p q : α → Prop} [DecidablePred p] [DecidablePred q]
    (h : ∀ a, p a → q a) (as : List α) :
    as.filter (fun a => p a) = (as.filter fun a => q a).filter fun a => p a := by
  rw [List.filter_filter]
  refine List.filter_congr fun a _ => ?_
  by_cases ha : p a <;> simp [ha, h]

theorem Subject.sentence_prefix_iff {s : Subject} {p q : String} :
    (s.sentence p).toList <+: (s.sentence q).toList ↔ p.toList <+: q.toList := by
  simp only [sentence, String.toList_append, List.prefix_append_right_inj]

namespace Rule

open Pattern

variable {p : Policy} {e : Expr} {env : Table String} {id : String} {s : Step} {i : Nat} {n : Issue}

theorem tellsAssignment_of_mem_inlineIssues (h : n ∈ inlineIssues e s) :
    (hardcodedSecrets.finding ⟨.step id i s, n⟩).TellsAssignment id i s := by
  refine ⟨rfl, rfl, rfl, ?_⟩
  unfold inlineIssues at h
  split at h
  · cases h
  · split at h
    · obtain rfl := List.mem_singleton.mp h
      refine Subject.sentence_prefix_iff.mpr ?_
      rw [String.append_assoc, String.toList_append]
      exact List.prefix_append ..
    · cases h

theorem not_tellsAssignment_of_mem_envIssues (h : n ∈ envIssues p env) :
    ¬(hardcodedSecrets.finding ⟨.step id i s, n⟩).TellsAssignment id i s := by
  obtain ⟨⟨name, value⟩, -, hn⟩ := List.mem_filterMap.mp h
  dsimp only at hn
  split at hn <;> cases hn
  intro ht
  have hc := Subject.sentence_prefix_iff.mp ht.message
  rw [String.append_assoc, String.toList_append] at hc
  exact absurd (List.cons_prefix_cons.mp hc).1 (by decide)

/-- Variables with the names of secrets are told of in other words. -/
theorem filter_secretIssues (p : Policy) (e : Expr) (env : Table String) (id : String) (i : Nat)
    (s : Step) :
    (envIssues p env ++ inlineIssues e s).filter (fun n =>
      (hardcodedSecrets.finding ⟨.step id i s, n⟩).TellsAssignment id i s) = inlineIssues e s := by
  rw [List.filter_append, List.filter_eq_nil_iff.mpr, List.filter_eq_self.mpr, List.nil_append]
  · exact fun n hn => decide_eq_true (tellsAssignment_of_mem_inlineIssues hn)
  · exact fun n hn h => not_tellsAssignment_of_mem_envIssues hn (of_decide_eq_true h)

end Rule

namespace Validator

open Rule Pattern

variable {v : Validator} {w : Workflow} {id r : String} {job : Job} {i : Nat} {s : Step}

theorem filter_tellsAssignment_lint (hj : w.jobs.get? id = some job)
    (hs : job.steps[i]? = some s) :
    (v.lint w).filter (fun f => f.TellsAssignment id i s) =
      (inlineIssues v.secretPattern s).map fun n => hardcodedSecrets.finding ⟨.step id i s, n⟩ := by
  have hr : hardcodedSecrets ∈ v.rules := by simp [rules]
  have hstep : (notesOn id (hardcodedSecrets.notes (v.context w))).filter
        (fun n => n.subject.step? = some i) =
      (envIssues v.policy s.env ++ inlineIssues v.secretPattern s).map (⟨.step id i s, ·⟩) :=
    filter_notesOn_onJobs hj hs (fun _ job => envIssues v.policy job.env)
      fun s => envIssues v.policy s.env ++ inlineIssues v.secretPattern s
  calc (v.lint w).filter (fun f => f.TellsAssignment id i s)
      = (hardcodedSecrets.findings (v.context w)).filter fun f => f.TellsAssignment id i s := by
        rw [← filter_lint hr]
        exact filter_eq_filter_filter (fun _ h => h.rule) _
    _ = ((hardcodedSecrets.notes (v.context w)).filter fun n =>
          (hardcodedSecrets.finding n).TellsAssignment id i s).map hardcodedSecrets.finding :=
        List.filter_map ..
    _ = (((envIssues v.policy s.env ++ inlineIssues v.secretPattern s).map
          (⟨.step id i s, ·⟩)).filter fun n =>
            (hardcodedSecrets.finding n).TellsAssignment id i s).map hardcodedSecrets.finding := by
        rw [← hstep, ← filter_eq_filter_filter (fun _ h => h.step), notesOn,
          ← filter_eq_filter_filter (fun _ h => h.job)]
    _ = _ := by
        rw [List.filter_map, List.map_map]
        exact congrArg (List.map _) (filter_secretIssues ..)

/-- Under the preset, a step with a command is told of as assigning a secret exactly if the name of
one is given a value somewhere in the command. It is told of once, with the name that is first. -/
theorem assignment_told_once (hj : w.jobs.get? id = some job) (hs : job.steps[i]? = some s)
    (hr : s.run = some r) :
    ∃ v, ofPolicy .preset = .ok v ∧
      ((∃ f ∈ v.lint w, f.TellsAssignment id i s) ↔ ∃ k name, AssignsAt r.toList k name) ∧
      ((∃ k name, AssignsAt r.toList k name) →
        ∃ f name, (v.lint w).filter (fun f => f.TellsAssignment id i s) = [f] ∧
          (∀ other, FirstAssigns r.toList other ↔ other = name) ∧
            f.message =
              (Subject.step id i s).sentence ("assigns an inline '" ++ name ++ "' value")) := by
  refine ⟨⟨.preset, assignment⟩, ofPolicy_of_pattern ofText?_presetSecretPattern (by decide), ?_⟩
  have hf := filter_tellsAssignment_lint (v := ⟨.preset, assignment⟩) hj hs
  rcases inlineIssues_assignment hr with ⟨hi, hn⟩ | ⟨name, hi, hname⟩
  · rw [hi, List.map_nil, List.filter_eq_nil_iff] at hf
    have hnone : ¬∃ k name, AssignsAt r.toList k name := by simpa using hn
    refine ⟨iff_of_false (fun ⟨f, hm, ht⟩ => hf f hm (decide_eq_true ht)) hnone, ?_⟩
    exact fun h => absurd h hnone
  · rw [hi, List.map_singleton] at hf
    obtain ⟨k, hk, -⟩ := (hname name).mpr rfl
    refine ⟨iff_of_true ?_ ⟨k, name, hk⟩, fun _ => ⟨_, name, hf, hname, rfl⟩⟩
    have hm := List.mem_filter.mp (hf ▸ List.mem_singleton_self _)
    exact ⟨_, hm.1, of_decide_eq_true hm.2⟩

/-- The first name has too short a value, and the second one a value with an equals sign in it. -/
def deployCommand : String :=
  "./deploy secret=short --token='c2VjcmV0=Cg' key=0123456789"

def deployStep : Step :=
  { Step.blank with run := some deployCommand, env := .ofList [("API_KEY", "0123456789")] }

def deployJob : Job :=
  { Job.blank with steps := [{ Step.blank with uses := some "actions/checkout@v4" }, deployStep] }

def deployment : Workflow :=
  { Workflow.blank with jobs := .ofList [("deploy", deployJob)] }

theorem deployment_token_told_once :
    deployment.jobs.get? "deploy" = some deployJob ∧ deployJob.steps[1]? = some deployStep ∧
      deployStep.run = some deployCommand ∧ FirstAssigns deployCommand.toList "token" ∧
        ∃ v, ofPolicy .preset = .ok v ∧ ∃ f,
          (v.lint deployment).filter (fun f => f.TellsAssignment "deploy" 1 deployStep) = [f] ∧
            f.message = (Subject.step "deploy" 1 deployStep).sentence
              ("assigns an inline '" ++ "token" ++ "' value") := by
  have hj : deployment.jobs.get? "deploy" = some deployJob := by decide
  have hs : deployJob.steps[1]? = some deployStep := rfl
  have hf : find? assignment deployCommand.toList = some "token='c2VjcmV0=Cg'".toList := by
    decide +kernel
  have ht : FirstAssigns deployCommand.toList "token" :=
    (firstAssigns_iff_of_find? hf).mpr (by decide)
  have ⟨k, hk, _⟩ := ht
  obtain ⟨v, hv, -, honce⟩ := assignment_told_once hj hs rfl
  obtain ⟨f, name, hone, hname, hm⟩ := honce ⟨k, "token", hk⟩
  obtain rfl : "token" = name := (hname "token").mp ht
  exact ⟨hj, hs, rfl, ht, v, hv, f, hone, hm⟩

end Validator

end WorkflowLint
