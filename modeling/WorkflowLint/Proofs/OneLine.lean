import WorkflowLint.Outcome
import WorkflowLint.Proofs.OneLine.Rules

/-!
# Every finding is one line

Whatever a document holds, a finding and a failure are printed on a line of their own, so that no
document can make up a line of another finding.
-/
namespace WorkflowLint

/-! ## Findings and failures -/

theorem Severity.oneLine_label (s : Severity) : OneLine s.label := by
  cases s <;> decide

theorem Rule.oneLine_text {r : Rule} {n : Note} (hr : OneLine r.name) (hn : n.Quotable) :
    OneLine (r.finding n).text := by
  have hm : OneLine (r.finding n).message := hn.issue.oneLine_message hn.subject
  have hl := (r.finding n).severity.oneLine_label
  have hh : OneLine ("[" ++ (r.finding n).severity.label ++ "] " ++ r.name ++ ": " ++
      (r.finding n).message) := by
    simp only [oneLine_append, hm, hl, hr]
    decide +kernel
  unfold Finding.text
  cases hf : (r.finding n).fix with
  | none => exact hh
  | some fix =>
    have hfix : OneLine fix := hn.issue.oneLine_fix hf
    refine oneLine_append.mpr ⟨oneLine_append.mpr ⟨oneLine_append.mpr ⟨hh, ?_⟩, hfix⟩, ?_⟩
    · decide +kernel
    · decide +kernel

theorem SyntaxError.oneLine_message {e : SyntaxError} (h : '\n' ∉ e.value) :
    OneLine e.toFailure.message := by
  have hv : OneLine (String.ofList e.value) := oneLine_ofList.mpr h
  unfold toFailure Failure.message SyntaxError.message
  simp only [oneLine_append, hv, oneLine_nat]
  decide +kernel

theorem Failure.oneLine_violation {group : Group} {rule message : String} (hr : OneLine rule)
    (hm : OneLine message) : OneLine (Failure.violation group rule message).message := by
  have hg : OneLine (groupText group) := by cases group <;> decide +kernel
  unfold Failure.message
  simp only [oneLine_append, hg, hr, hm]
  decide +kernel

theorem Failure.oneLine_inputSize (size limit : Nat) :
    OneLine (Failure.inputSize size limit).message := by
  unfold Failure.message
  simp only [oneLine_append, oneLine_nat]
  decide +kernel

theorem Failure.oneLine_file (e : FileError) : OneLine (Failure.file e).message := by
  cases e <;> decide +kernel

theorem Failure.oneLine_aborted : OneLine Failure.aborted.message := by
  decide +kernel

/-! ## Verdicts -/

/-- What a verdict says is one line for each finding, or one for the failure. -/
def SaysLines : Except Failure Report → Prop
  | .ok r => ∀ f ∈ r.findings, OneLine f.text
  | .error e => OneLine e.message

namespace Validator

variable {v : Validator}

theorem oneLine_of_mem_lint {w : Workflow} {f : Finding} (hp : v.policy.Quotable)
    (hs : v.secretPattern.avoids '\n' = true) (hw : w.Quotable) (hf : f ∈ v.lint w) :
    OneLine f.rule ∧ OneLine f.message ∧ OneLine f.text := by
  obtain ⟨r, hr, n, hn, rfl⟩ := mem_lint.mp hf
  have hq := quotable_notes hp hs hw r hr n hn
  have hname := oneLine_ruleName r hr
  exact ⟨hname, hq.issue.oneLine_message hq.subject, r.oneLine_text hname hq⟩

theorem saysLines_text (hp : v.policy.Quotable) (hs : v.secretPattern.avoids '\n' = true)
    (tabWidth : Nat) (text : List Char) :
    SaysLines (v.lintText tabWidth text) ∧ SaysLines (v.checkText tabWidth text) := by
  have hy := Workflow.yields_ofText tabWidth text
  cases hw : Workflow.parse tabWidth text with
  | error e =>
    have he : OneLine e.toFailure.message := by
      cases e with
      | overflow => exact Failure.oneLine_aborted
      | malformed e =>
        rw [Workflow.ofText_of_parse_error hw] at hy
        exact SyntaxError.oneLine_message hy
    obtain ⟨hl, hc⟩ := lintText_of_error (v := v) hw
    rw [hl, hc]
    exact ⟨he, he⟩
  | ok w =>
    rw [Workflow.ofText_of_parse hw] at hy
    have hall : ∀ f ∈ v.lint w, OneLine f.text := fun f hf => (oneLine_of_mem_lint hp hs hy hf).2.2
    refine ⟨lintText_of_ok (v := v) hw ▸ hall, ?_⟩
    obtain ⟨-, hc⟩ | ⟨f, group, hf, -, hc⟩ := checkText_of_lint (v := v) hw
    · rw [hc]
      exact hall
    · obtain ⟨hr, hm, -⟩ := oneLine_of_mem_lint hp hs hy hf.mem
      rw [hc]
      exact Failure.oneLine_violation hr hm

theorem saysLines_bytes (hp : v.policy.Quotable) (hs : v.secretPattern.avoids '\n' = true)
    (o : Options) (bytes : List UInt8) :
    SaysLines (v.lintBytes o bytes) ∧ SaysLines (v.checkBytes o bytes) := by
  rw [lintBytes, checkBytes]
  cases hr : receive o bytes with
  | error e =>
    unfold receive at hr
    split at hr
    · cases hr
      exact ⟨Failure.oneLine_inputSize _ _, Failure.oneLine_inputSize _ _⟩
    · cases hr
  | ok text => exact saysLines_text hp hs o.tabWidth text

end Validator

/-! ## Printed outcomes -/

theorem Outcome.oneLine_details {x : Outcome} (h : SaysLines x.result) :
    ∀ line ∈ x.details, OneLine line := by
  unfold details
  cases hr : x.result with
  | ok r =>
    rw [hr] at h
    intro line hl
    obtain ⟨f, hf, rfl⟩ := List.mem_map.mp hl
    exact oneLine_append.mpr ⟨by decide, h f hf⟩
  | error e =>
    rw [hr] at h
    exact List.forall_mem_singleton.mpr (oneLine_append.mpr ⟨by decide, h⟩)

namespace Validator

/-- The pattern of the preset never matches over a line break. -/
theorem avoids_newline {p : Policy} {v : Validator} (hv : ofPolicy p = .ok v)
    (hs : p.inlineSecretPattern = Policy.presetSecretPattern) :
    v.secretPattern.avoids '\n' = true := by
  obtain ⟨rfl, he⟩ := policy_ofPolicy hv
  have ha := Pattern.presetSecretPattern_avoids
  rw [← hs, he] at ha
  exact ha

/-- Under a policy with the preset's pattern and without line breaks in its texts, no document is
given a finding or a failure of several lines, and what is printed below the path of a file is one
line for each finding, or one for the failure. -/
theorem findings_oneLine {p : Policy} {v : Validator} (hv : ofPolicy p = .ok v)
    (hs : p.inlineSecretPattern = Policy.presetSecretPattern)
    (hp : ∀ s ∈ p.texts, '\n' ∉ s.toList) (tabWidth : Nat) (text : List Char) :
    (∀ r, v.lintText tabWidth text = .ok r ∨ v.checkText tabWidth text = .ok r →
        ∀ f ∈ r.findings, '\n' ∉ f.text.toList) ∧
      (∀ e, v.lintText tabWidth text = .error e ∨ v.checkText tabWidth text = .error e →
        '\n' ∉ e.message.toList) ∧
      ∀ o all f, ∀ line ∈ (Outcome.ofFile v o all f).details, '\n' ∉ line.toList := by
  have ha := avoids_newline hv hs
  obtain ⟨rfl, -⟩ := policy_ofPolicy hv
  obtain ⟨hl, hc⟩ := saysLines_text hp ha tabWidth text
  refine ⟨?_, ?_, fun o all f => Outcome.oneLine_details ?_⟩
  · rintro r (hr | hr)
    · rw [hr] at hl
      exact hl
    · rw [hr] at hc
      exact hc
  · rintro e (he | he)
    · rw [he] at hl
      exact hl
    · rw [he] at hc
      exact hc
  · unfold Outcome.ofFile
    cases f.content with
    | error e => exact Failure.oneLine_file e
    | ok bytes =>
      obtain ⟨hl, hc⟩ := saysLines_bytes hp ha o bytes
      cases all with
      | true => exact hl
      | false => exact hc

/-- A document whose only step runs a command with a line that looks like a finding. -/
def forging : List Char :=
  ("jobs:\n  a:\n    steps:\n      - uses: b\n        run: |\n" ++
    "          c\n            [ERROR] d: e\n").toList

theorem preset_findings_oneLine : (∀ s ∈ Policy.preset.texts, '\n' ∉ s.toList) ∧
    ∃ v r, ofPolicy .preset = .ok v ∧ v.lintText 2 forging = .ok r ∧ r.findings ≠ [] ∧
      ∀ f ∈ r.findings, '\n' ∉ f.text.toList := by
  have hp : ∀ s ∈ Policy.preset.texts, '\n' ∉ s.toList := by decide +kernel
  have hd : ((ofPolicy .preset).toOption.any fun v =>
      (v.lintText 2 forging).toOption.any fun r => !r.findings.isEmpty) = true := by
    decide +kernel
  cases hv : ofPolicy .preset with
  | error e => simp [hv, Except.toOption] at hd
  | ok v =>
    cases hr : v.lintText 2 forging with
    | error e => simp [hv, hr, Except.toOption] at hd
    | ok r =>
      have hn : r.findings ≠ [] := by simpa [hv, hr, Except.toOption] using hd
      exact ⟨hp, v, r, rfl, hr, hn, (findings_oneLine hv rfl hp 2 forging).1 r (Or.inl hr)⟩

end Validator

end WorkflowLint
