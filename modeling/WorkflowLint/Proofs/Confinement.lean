import WorkflowLint.Proofs.Places

/-!
# Confinement

The lines under a field whose value may be a block scalar say nothing but this value. To say so, the
value is cleared from the model: other lines in their place, if they belong to the field as well,
lead to the same workflow with the value cleared, or to the same error. Each level of reading keeps
apart what the level below it keeps apart.
-/
namespace WorkflowLint

/-! ## Folds -/

section Folds

variable {α β γ δ σ ε : Type} {f : α → σ → Except ε α} {f' : α → σ → α} {g : α → β} {q : γ → δ}
  {ss ss' : List σ}

/-- Two steps that lead from what `g` does not tell apart to what `g` does not tell apart. -/
def SameUnder (f : α → σ → Except ε α) (g : α → β) (s s' : σ) : Prop :=
  ∀ a a', g a = g a' → (f a s).map g = (f a' s').map g

theorem bind_map_eq {x x' : Except ε γ} {next next' : γ → Except ε α} (hx : x.map q = x'.map q)
    (hn : ∀ c c', q c = q c' → (next c).map g = (next' c').map g) :
    (x >>= next).map g = (x' >>= next').map g := by
  cases x with
  | error e =>
      cases x' with
      | error e' =>
          cases hx
          rfl
      | ok c' => cases hx
  | ok c =>
      cases x' with
      | error e' => cases hx
      | ok c' => exact hn c c' (Except.ok.inj hx)

theorem map_map_eq {x x' : Except ε γ} {p p' : γ → α} (hx : x.map q = x'.map q)
    (hp : ∀ c c', q c = q c' → g (p c) = g (p' c')) : (x.map p).map g = (x'.map p').map g := by
  have hb : ∀ (y : Except ε γ) (u : γ → α), y.map u = y >>= fun c => .ok (u c) := by
    intro y u
    cases y <;> rfl
  rw [hb, hb]
  exact bind_map_eq hx fun c c' h => congrArg Except.ok (hp c c' h)

theorem foldlM_map_eq (h : List.Forall₂ (SameUnder f g) ss ss') {a a' : α} (ha : g a = g a') :
    (ss.foldlM f a).map g = (ss'.foldlM f a').map g := by
  induction h generalizing a a' with
  | nil => exact congrArg Except.ok ha
  | cons hs t ih =>
      rw [List.foldlM_cons, List.foldlM_cons]
      exact bind_map_eq (hs a a' ha) fun _ _ => ih

theorem foldl_map_eq (h : List.Forall₂ (fun s s' => ∀ a a', g a = g a' → g (f' a s) = g (f' a' s'))
    ss ss') {a a' : α} (ha : g a = g a') : g (ss.foldl f' a) = g (ss'.foldl f' a') := by
  induction h generalizing a a' with
  | nil => exact ha
  | cons hs t ih => exact ih (hs a a' ha)

end Folds

theorem forall₂_replace {σ : Type} {R : σ → σ → Prop} (hR : ∀ s, R s s) {s s' : σ} (h : R s s')
    (pre post : List σ) : List.Forall₂ R (pre ++ s :: post) (pre ++ s' :: post) :=
  List.rel_append (List.forall₂_same.mpr fun s _ => hR s)
    (.cons h (List.forall₂_same.mpr fun s _ => hR s))

/-- The value under a name, if there is one, is changed. -/
def Table.modify {α : Type} (t : Table α) (name : String) (f : α → α) : Table α :=
  match t.get? name with
  | some value => t.insert name (f value)
  | none => t

theorem Table.get?_modify {α : Type} (t : Table α) (name : String) (f : α → α) (n : String) :
    (t.modify name f).get? n = if name = n then (t.get? n).map f else t.get? n := by
  unfold modify
  split
  · rename_i value h
    rw [get?_insert]
    split
    · subst n
      rw [h, Option.map_some]
    · rfl
  · rename_i h
    split
    · subst n
      rw [h, Option.map_none]
    · rfl

theorem Table.modify_insert {α : Type} (t : Table α) (name n : String) (value : α) (f : α → α) :
    (t.insert n value).modify name f =
      (t.modify name f).insert n (if name = n then f value else value) := by
  refine ext_get? fun k => ?_
  rw [get?_modify, get?_insert, get?_insert, get?_modify]
  by_cases hn : n = k
  · subst k
    simp only [if_true]
    split <;> rfl
  · simp only [if_neg hn]

theorem modify_append_cons {α : Type} (f : α → α) (as : List α) (a : α) (bs : List α) :
    (as ++ a :: bs).modify as.length f = as ++ f a :: bs := by
  induction as with
  | nil => rfl
  | cons b as ih =>
      rw [List.cons_append, List.length_cons, List.modify_succ_cons, ih, List.cons_append]

/-! ## Clearing one value -/

/-- The fields whose value may be a block scalar. -/
inductive ScalarField
  | jobCondition
  | command
  | stepCondition

namespace ScalarField

def clearStep : ScalarField → Step → Step
  | jobCondition, s => s
  | command, s => { s with run := none }
  | stepCondition, s => { s with condition := none }

def clearCondition : ScalarField → Option String → Option String
  | jobCondition, _ => none
  | command, condition | stepCondition, condition => condition

/-- Clears the field of a job, or of its step with the given index. -/
def clearJob (field : ScalarField) (k : Nat) (j : Job) : Job :=
  { j with
    condition := field.clearCondition j.condition
    steps := j.steps.modify k field.clearStep }

def clear (field : ScalarField) (id : String) (k : Nat) (w : Workflow) : Workflow :=
  { w with jobs := w.jobs.modify id (field.clearJob k) }

variable {field : ScalarField} {tabWidth k : Nat} {id : String}

/-! ## Reading what differs in one value -/

theorem clearStep_set (field : ScalarField) (key : Step.Key) (value : List Char) (body : List Line)
    (s : Step) : field.clearStep (key.set value body (field.clearStep s)) =
      field.clearStep (key.set value body s) := by
  cases field <;> cases key <;> rfl

theorem clearStep_readField (field : ScalarField) (t : Section) {s s' : Step}
    (h : field.clearStep s = field.clearStep s') :
    field.clearStep (Step.readField s t) = field.clearStep (Step.readField s' t) := by
  simp only [Step.readField]
  split
  · rw [← clearStep_set, h, clearStep_set]
  · exact h

theorem clearJob_clearJob (field : ScalarField) (k : Nat) (j : Job) :
    field.clearJob k (field.clearJob k j) = field.clearJob k j := by
  have hs : field.clearStep ∘ field.clearStep = field.clearStep := by
    cases field <;> rfl
  have hc : field.clearCondition (field.clearCondition j.condition) =
      field.clearCondition j.condition := by
    cases field <;> rfl
  simp only [clearJob, List.modify_modify_eq, hs, hc]

theorem clearJob_set (field : ScalarField) (k : Nat) (key : Job.Key) (head : Line)
    (value : List Char) (body : List Line) (j : Job) :
    (key.set tabWidth head value body (field.clearJob k j)).map (field.clearJob k) =
      (key.set tabWidth head value body j).map (field.clearJob k) := by
  have hj := clearJob_clearJob field k j
  simp only [clearJob, Job.mk.injEq] at hj
  cases key with
  | timeout =>
      simp only [Job.Key.set]
      cases Job.timeout head value with
      | error _ => rfl
      | ok minutes => simp [Except.map, clearJob, hj]
  | _ => simp [Job.Key.set, Except.map, clearJob, hj]

theorem clearJob_withSteps {k : Nat} {j j' : Job} (h : field.clearJob k j = field.clearJob k j')
    {steps steps' : List Step}
    (hs : steps.modify k field.clearStep = steps'.modify k field.clearStep) :
    field.clearJob k { j with steps := steps } = field.clearJob k { j' with steps := steps' } := by
  calc field.clearJob k { j with steps := steps }
      = { field.clearJob k j with steps := steps.modify k field.clearStep } := rfl
    _ = { field.clearJob k j' with steps := steps'.modify k field.clearStep } := by rw [h, hs]
    _ = field.clearJob k { j' with steps := steps' } := rfl

theorem modify_steps (field : ScalarField) {c c' : Section} (hh : c.head = c'.head)
    (h : field.clearStep (Step.read tabWidth c) = field.clearStep (Step.read tabWidth c'))
    (pre post : List Section) :
    (((pre ++ c :: post).filter (·.head.isItem)).map (Step.read tabWidth)).modify
        (pre.filter (·.head.isItem)).length field.clearStep =
      (((pre ++ c' :: post).filter (·.head.isItem)).map (Step.read tabWidth)).modify
        (pre.filter (·.head.isItem)).length field.clearStep := by
  let item : Section → Bool := (·.head.isItem)
  rw [List.filter_append, List.filter_append, List.map_append, List.map_append]
  by_cases hi : c.head.isItem = true
  · have hl : (pre.filter (·.head.isItem)).length =
        ((pre.filter (·.head.isItem)).map (Step.read tabWidth)).length := by rw [List.length_map]
    have hi' : c'.head.isItem = true := hh ▸ hi
    rw [List.filter_cons_of_pos (p := item) hi, List.filter_cons_of_pos (p := item) hi',
      List.map_cons, List.map_cons, hl, modify_append_cons, modify_append_cons, h]
  · have hi' : ¬c'.head.isItem = true := hh ▸ hi
    rw [List.filter_cons_of_neg (p := item) hi, List.filter_cons_of_neg (p := item) hi']

theorem sameUnder_readField (field : ScalarField) (k : Nat) (t : Section) :
    SameUnder (Job.readField tabWidth) (field.clearJob k) t t := by
  intro j j' h
  simp only [Job.readField]
  split
  · rw [← clearJob_set, h, clearJob_set]
  · exact congrArg Except.ok h

/-- The jobs of a workflow, one of which is without the value of the field. -/
def clearIn (field : ScalarField) (id : String) (k : Nat) (jobs : Table Job) : Table Job :=
  jobs.modify id (field.clearJob k)

theorem clearIn_insert {t t' : Table Job} {name : String} {j j' : Job}
    (ht : field.clearIn id k t = field.clearIn id k t')
    (hj : j = j' ∨ id = name ∧ field.clearJob k j = field.clearJob k j') :
    field.clearIn id k (t.insert name j) = field.clearIn id k (t'.insert name j') := by
  simp only [clearIn] at ht ⊢
  rw [Table.modify_insert, Table.modify_insert, ht]
  rcases hj with rfl | ⟨hn, hj⟩
  · rfl
  · rw [if_pos hn, if_pos hn, hj]

theorem sameUnder_addTo (field : ScalarField) (id : String) (k : Nat) (t : Section) :
    SameUnder (Job.addTo tabWidth) (field.clearIn id k) t t := by
  intro jobs jobs' h
  simp only [Job.addTo]
  split
  · exact map_map_eq (q := fun j => j) rfl fun j j' hj => clearIn_insert h (.inl hj)
  · exact congrArg Except.ok h

theorem readAll_map_eq (tabWidth : Nat) (field : ScalarField) (id : String) (k : Nat)
    (body : List Line) {jobs jobs' : Table Job}
    (h : field.clearIn id k jobs = field.clearIn id k jobs') :
    (Job.readAll tabWidth body jobs).map (field.clearIn id k) =
      (Job.readAll tabWidth body jobs').map (field.clearIn id k) :=
  foldlM_map_eq (List.forall₂_same.mpr fun t _ => sameUnder_addTo field id k t) h

theorem clear_withJobs {w w' : Workflow} (h : field.clear id k w = field.clear id k w')
    {jobs jobs' : Table Job} (hj : field.clearIn id k jobs = field.clearIn id k jobs') :
    field.clear id k { w with jobs := jobs } = field.clear id k { w' with jobs := jobs' } := by
  calc field.clear id k { w with jobs := jobs }
      = { field.clear id k w with jobs := field.clearIn id k jobs } := rfl
    _ = { field.clear id k w' with jobs := field.clearIn id k jobs' } := by rw [h, hj]
    _ = field.clear id k { w' with jobs := jobs' } := rfl

theorem sameUnder_readSection (field : ScalarField) (id : String) (k : Nat) (t : Section) :
    SameUnder (Workflow.readSection tabWidth) (field.clear id k) t t := by
  intro w w' h
  simp only [Workflow.readSection]
  split
  · rename_i key value _
    cases key with
    | name => exact congrArg (fun w => Except.ok { w with name := String.ofList value }) h
    | triggers =>
        exact congrArg (fun w => Except.ok { w with triggers := triggers value t.body w.triggers }) h
    | permissions =>
        exact congrArg
          (fun w => Except.ok { w with permissions := mapping value t.body w.permissions }) h
    | jobs =>
        have hj := readAll_map_eq tabWidth field id k t.body (congrArg Workflow.jobs h)
        exact map_map_eq hj fun _ _ => clear_withJobs h
    | env => exact congrArg (fun w => Except.ok { w with env := mapping value t.body w.env }) h
  · exact congrArg Except.ok h

end ScalarField

/-! ## What a section says -/

/-- Two sections of which the same is said, up to one value. -/
def Role.SaysSame (tabWidth : Nat) (field : ScalarField) (id : String) (k : Nat) (s s' : Section) :
    Role → Prop
  | document => (Workflow.read tabWidth s.body).map (field.clear id k) =
      (Workflow.read tabWidth s'.body).map (field.clear id k)
  | setting => SameUnder (Workflow.readSection tabWidth) (field.clear id k) s s'
  | job => SameUnder (Job.addTo tabWidth) (field.clearIn id k) s s'
  | jobField => SameUnder (Job.readField tabWidth) (field.clearJob k) s s'
  | step => field.clearStep (Step.read tabWidth s) = field.clearStep (Step.read tabWidth s')
  | stepField => ∀ x x', field.clearStep x = field.clearStep x' →
      field.clearStep (Step.readField x s) = field.clearStep (Step.readField x' s')

namespace Role

/-- What is cleared from a section is cleared from the section around it: from the job of its name,
and from the step at its place. -/
theorem exists_saysSame (tabWidth : Nat) (field : ScalarField) (role : Role) (head : Line)
    (pre post : List Section) (id : String) (k : Nat) : ∃ id' k', ∀ c c' ms ms', c.head = c'.head →
      role.cut tabWidth head ms = pre ++ c :: post → role.cut tabWidth head ms' = pre ++ c' :: post →
        role.next.SaysSame tabWidth field id k c c' →
          role.SaysSame tabWidth field id' k' ⟨head, ms⟩ ⟨head, ms'⟩ := by
  cases role with
  | document =>
      refine ⟨id, k, fun c c' ms ms' _ hms hms' h => ?_⟩
      simp only [cut] at hms hms'
      simp only [SaysSame, Workflow.read, hms, hms']
      exact foldlM_map_eq (forall₂_replace (field.sameUnder_readSection id k) h pre post) rfl
  | setting =>
      -- Only `jobs` has sections in which something is read.
      refine ⟨id, k, fun c c' ms ms' _ hms hms' h w w' hw => ?_⟩
      rcases hk : Workflow.field? head with - | ⟨key, value⟩
      · simp [cut, hk] at hms
      · cases key with
        | jobs =>
            simp only [cut, hk] at hms hms'
            simp only [Workflow.readSection, hk, Workflow.Key.set, Job.readAll, hms, hms']
            exact map_map_eq (foldlM_map_eq (forall₂_replace (field.sameUnder_addTo id k) h pre post)
              (congrArg Workflow.jobs hw)) fun _ _ => ScalarField.clear_withJobs hw
        | _ => simp [cut, hk] at hms
  | job =>
      rcases hk : Entry.of? head.text with - | e
      · exact ⟨id, k, fun c c' ms ms' _ hms => by simp [cut, hk] at hms⟩
      · refine ⟨e.key, k, fun c c' ms ms' _ hms hms' h jobs jobs' hj => ?_⟩
        simp only [cut, hk, Option.isSome_some, if_true] at hms hms'
        simp only [Job.addTo, hk, Job.read, hms, hms']
        exact map_map_eq (foldlM_map_eq (forall₂_replace (field.sameUnder_readField k) h pre post) rfl)
          fun _ _ hr => ScalarField.clearIn_insert hj (.inr ⟨rfl, hr⟩)
  | jobField =>
      -- A step is counted among the items above it: what is no item is not read as a step.
      refine ⟨id, (pre.filter (·.head.isItem)).length, fun c c' ms ms' hh hms hms' h j j' hj => ?_⟩
      rcases hk : Job.field? head with - | ⟨key, value⟩
      · simp [cut, hk] at hms
      · cases key with
        | steps =>
            simp only [cut, hk] at hms hms'
            simp only [Job.readField, hk, Job.Key.set, Step.readAll, hms, hms']
            exact congrArg Except.ok
              (ScalarField.clearJob_withSteps hj (field.modify_steps hh h pre post))
        | _ => simp [cut, hk] at hms
  | step =>
      refine ⟨id, k, fun c c' ms ms' _ hms hms' h => ?_⟩
      by_cases hk : head.isItem = true
      · simp only [cut, if_pos hk] at hms hms'
        simp only [SaysSame, Step.read, hms, hms']
        exact foldl_map_eq (forall₂_replace (fun s _ _ => field.clearStep_readField s) h pre post) rfl
      · simp [cut, hk] at hms
  | stepField => exact ⟨id, k, fun c c' ms ms' _ hms => by simp [cut] at hms⟩

end Role

namespace Place

variable {tabWidth : Nat} {field : ScalarField} {p c q : Place} {ls : List Line}

/-- A place stands in another one, of which the same is said, up to one value, with whatever lines
that the place owns instead of its body. -/
def Confines (tabWidth : Nat) (field : ScalarField) (p q : Place) : Prop :=
  ∃ above below, p.Embeds q above below ∧ ∃ id k, ∀ other, (∀ l ∈ other, q.Owns l) →
    p.role.SaysSame tabWidth field id k p.toSection ⟨p.head, above ++ (other ++ below)⟩

theorem Confines.of_mem_inner (hp : ∀ l ∈ p.body, p.Owns l) (hc : c ∈ p.inner tabWidth)
    (hb : ∀ l ∈ c.body, c.Owns l) (h : c.Confines tabWidth field q) :
    p.Confines tabWidth field q := by
  obtain ⟨above, below, he, id, k, hs⟩ := h
  obtain ⟨above', below', hpq, pre, post, hx⟩ := he.of_mem_inner hp hc
  obtain ⟨id', k', hup⟩ := Role.exists_saysSame tabWidth field p.role p.head pre post id k
  have hr : c.role = p.role.next := by
    obtain ⟨s, -, rfl⟩ := List.mem_map.mp hc
    rfl
  refine ⟨_, _, hpq, id', k', fun other ho => ?_⟩
  have hown : ∀ l ∈ above ++ (other ++ below), c.Owns l := by
    rw [he.body] at hb
    simp only [List.forall_mem_append] at hb ⊢
    exact ⟨hb.1, fun l hl => he.owns l (ho l hl), hb.2.2⟩
  have hpb : above' ++ (c.body ++ below') = p.body := by
    simp only [hpq.body, he.body, List.append_assoc]
  have hsame := hup c.toSection ⟨c.head, above ++ (other ++ below)⟩ p.body _ rfl
    (hpb ▸ hx c.body hb) (hx _ hown) (hr ▸ hs other ho)
  simpa only [List.append_assoc] using hsame

/-- What a document says differs in one value at most from what it says with other lines in the
place of those below a field, if it does so at the field itself. -/
theorem confines_of_holds (hp : (document ls).Holds tabWidth p) (hq : p.Holds tabWidth q)
    (h : q.Confines tabWidth field q) : p.Confines tabWidth field q := by
  revert hp
  refine Relation.ReflTransGen.head_induction_on hq (fun _ => h) fun hc _ ih hp => ?_
  have hd := hp.tail hc
  exact (ih hd).of_mem_inner (owns_of_mem_body hp) hc (owns_of_mem_body hd)

end Place

end WorkflowLint
