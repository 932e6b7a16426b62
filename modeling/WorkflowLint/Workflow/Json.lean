import WorkflowLint.Json.Codec
import WorkflowLint.Workflow

/-!
Workflow models as JSON.
-/
namespace WorkflowLint

def Step.fieldCodecs : List (Field Step) := [
  .of "name" .optional (.optional .string) (·.name) fun v s => { s with name := v },
  .of "uses" .optional (.optional .string) (·.uses) fun v s => { s with uses := v },
  .of "run" .optional (.optional .string) (·.run) fun v s => { s with run := v },
  .of "with" .required (.table .string) (·.arguments) fun v s => { s with arguments := v },
  .of "env" .required (.table .string) (·.env) fun v s => { s with env := v },
  .of "if_condition" .optional (.optional .string) (·.condition)
    fun v s => { s with condition := v }]

def Step.codec : Codec Step :=
  .record Step.fieldCodecs .blank

def Job.fieldCodecs : List (Field Job) := [
  .of "name" .optional (.optional .string) (·.name) fun v j => { j with name := v },
  .of "runs_on" .required .string (·.runsOn) fun v j => { j with runsOn := v },
  .of "needs" .required (.list .string) (·.needs) fun v j => { j with needs := v },
  .of "permissions" .required (.table .string) (·.permissions)
    fun v j => { j with permissions := v },
  .of "steps" .required (.list Step.codec) (·.steps) fun v j => { j with steps := v },
  .of "env" .required (.table .string) (·.env) fun v j => { j with env := v },
  .of "if_condition" .optional (.optional .string) (·.condition)
    fun v j => { j with condition := v },
  .of "timeout_minutes" .required .int64 (·.timeoutMinutes)
    fun v j => { j with timeoutMinutes := v }]

def Job.codec : Codec Job :=
  .record Job.fieldCodecs .blank

def Workflow.fieldCodecs : List (Field Workflow) := [
  .of "name" .required .string (·.name) fun v w => { w with name := v },
  .of "on" .required (.table .string) (·.triggers) fun v w => { w with triggers := v },
  .of "permissions" .required (.table .string) (·.permissions)
    fun v w => { w with permissions := v },
  .of "jobs" .required (.table Job.codec) (·.jobs) fun v w => { w with jobs := v },
  .of "env" .required (.table .string) (·.env) fun v w => { w with env := v }]

def Workflow.codec : Codec Workflow :=
  .record Workflow.fieldCodecs .blank

end WorkflowLint
