import WorkflowLint.Proofs.Locations

/-!
# What is reported of cycles

A reported cycle is a circle of at least two jobs, written from its least job on, and no circle is
reported twice. The search does not report all circles, for it does not go again where it is done.
But no group of jobs that lead to each other stays without a report: of the group, the job that is
done first leads to one that was not done before it, so a circle runs through both of them.
-/
namespace WorkflowLint

namespace NeedGraph

variable {g : NeedGraph} {c : List String}

/-! ## From the least node on -/

def StartsLeast (ids : List String) : Prop :=
  ∀ first ∈ ids.head?, ∀ id ∈ ids, first ≤ id

theorem least_mem (id : String) (ids : List String) : least id ids ∈ id :: ids := by
  induction ids generalizing id with
  | nil => exact List.mem_cons_self
  | cons n ids ih =>
      have hl : least id (n :: ids) = least (if n < id then n else id) ids := rfl
      rw [hl]
      rcases List.mem_cons.mp (ih (if n < id then n else id)) with h | h
      · rw [h]
        split <;> simp
      · exact List.mem_cons_of_mem _ (List.mem_cons_of_mem _ h)

theorem least_le (id : String) (ids : List String) : ∀ n ∈ id :: ids, least id ids ≤ n := by
  induction ids generalizing id with
  | nil => exact List.forall_mem_singleton.mpr (String.le_refl id)
  | cons n ids ih =>
      have hl : least id (n :: ids) = least (if n < id then n else id) ids := rfl
      have hmin : (if n < id then n else id) ≤ id ∧ (if n < id then n else id) ≤ n := by
        split
        · exact ⟨String.not_lt.mp (String.lt_asymm ‹_›), String.le_refl n⟩
        · exact ⟨String.le_refl id, String.not_lt.mp ‹_›⟩
      obtain ⟨hm, hs⟩ := List.forall_mem_cons.mp (ih (if n < id then n else id))
      rw [hl]
      exact List.forall_mem_cons.mpr ⟨String.le_trans hm hmin.1,
        List.forall_mem_cons.mpr ⟨String.le_trans hm hmin.2, hs⟩⟩

theorem startsLeast_fromLeast (ids : List String) : StartsLeast (fromLeast ids) := by
  intro first hf id hid
  have hid := (fromLeast_isRotated ids).mem_iff.mp hid
  cases ids with
  | nil => cases hid
  | cons a as =>
      obtain ⟨before, after, -, hd⟩ := exists_dropWhile_eq (least_mem a as)
      simp only [fromLeast, hd] at hf
      cases hf
      exact least_le a as id hid

/-- Only one way of writing a circle begins with its least node. -/
theorem StartsLeast.eq_of_isRotated {ids ids' : List String} (h : StartsLeast ids)
    (h' : StartsLeast ids') (hn : ids.Nodup) (hr : ids ~r ids') : ids = ids' := by
  obtain ⟨n, hle, rfl⟩ := List.isRotated_iff_mod.mp hr
  rcases Nat.eq_or_lt_of_le hle with rfl | hlt
  · exact (List.rotate_length ids).symm
  have hpos : 0 < ids.length := Nat.zero_lt_of_lt hlt
  have h0 : ids.head? = some ids[0] := by rw [List.head?_eq_getElem?, List.getElem?_eq_getElem]
  have hk : (ids.rotate n).head? = some ids[n] := by
    rw [List.head?_rotate hlt, List.getElem?_eq_getElem]
  have heq : ids[0] = ids[n] :=
    String.le_antisymm (h _ h0 _ (List.getElem_mem hlt))
      (h' _ hk _ (hr.mem_iff.mp (List.getElem_mem hpos)))
  have hz : 0 = n := (hn.getElem_inj_iff).mp heq
  rw [← hz, List.rotate_zero]

/-! ## The reports of a search -/

/-- What adding a cycle and finishing a node preserve is preserved by every search. -/
theorem visit_preserves {P : Search → Prop} (ha : ∀ s c, P s → P (s.addCycle c))
    (hf : ∀ s n, P s → P (s.finish n)) :
    (∀ path s node, P s → P (g.visit path s node)) ∧
      ∀ path s nodes, P s → P (g.visitAll path s nodes) := by
  apply visit.mutual_induct
  case case1 =>
    intro path s node hn hs
    rw [visit, dif_pos hn]
    exact ha s _ hs
  case case2 =>
    intro path s node hn hd hs
    rwa [visit, dif_neg hn, if_pos hd]
  case case3 =>
    intro path s node hn hd hm ih hs
    rw [visit, dif_neg hn, if_neg hd, dif_pos hm]
    exact hf _ node (ih hs)
  case case4 =>
    intro path s node hn hd hm hs
    rw [visit, dif_neg hn, if_neg hd, dif_neg hm]
    exact hf s node hs
  case case5 =>
    intro path s hs
    rwa [visitAll]
  case case6 =>
    intro path s n ns ih₁ ih₂ hs
    rw [visitAll]
    exact ih₂ (ih₁ hs)

theorem Search.nodup_addCycle {s : Search} (c : List String) (h : s.cycles.Nodup) :
    (s.addCycle c).cycles.Nodup := by
  simp only [addCycle]
  split
  · exact h
  · rename_i hm
    refine List.nodup_append.mpr ⟨h, List.nodup_singleton _, ?_⟩
    rintro a ha b hb rfl
    exact hm (List.mem_singleton.mp hb ▸ ha)

theorem nodup_cycles (g : NeedGraph) : g.cycles.Nodup :=
  (visit_preserves (P := fun s => s.cycles.Nodup) (fun _ => Search.nodup_addCycle)
    fun _ _ h => h).2 [] ⟨[], []⟩ g.nodes List.nodup_nil

theorem startsLeast_of_mem_cycles (hc : c ∈ g.cycles) : StartsLeast c := by
  refine (visit_preserves (P := fun s => ∀ c ∈ s.cycles, StartsLeast c) (fun s d h c hc => ?_)
    fun _ _ h => h).2 [] ⟨[], []⟩ g.nodes (List.forall_mem_nil _) c hc
  rcases Search.mem_addCycle.mp hc with rfl | hc
  · exact startsLeast_fromLeast d
  · exact h c hc

/-! ## Nodes that lead back to themselves -/

/-- A list has a last member with a property that some member has. -/
theorem exists_last {p : String → Prop} {ids : List String} (h : ∃ id ∈ ids, p id) :
    ∃ later id earlier, ids = later ++ id :: earlier ∧ p id ∧ ∀ n ∈ earlier, ¬p n := by
  induction ids with
  | nil => simp at h
  | cons a ids ih =>
      by_cases hs : ∃ id ∈ ids, p id
      · obtain ⟨later, id, earlier, rfl, hid, he⟩ := ih hs
        exact ⟨a :: later, id, earlier, rfl, hid, he⟩
      · obtain ⟨id, hm, hid⟩ := h
        rcases List.mem_cons.mp hm with rfl | hm
        · exact ⟨[], id, ids, rfl, hid, fun n hn hp => hs ⟨n, hn, hp⟩⟩
        · exact absurd ⟨id, hm, hid⟩ hs

/-- A node that leads back to itself has a reported cycle all of whose nodes it leads to, and all
of which lead to it. -/
theorem exists_mem_cycles_of_transGen (hg : g.Closed) {a : String}
    (ha : Relation.TransGen g.Edge a a) : ∃ c ∈ g.cycles,
      ∀ n ∈ c, Relation.TransGen g.Edge a n ∧ Relation.TransGen g.Edge n a := by
  have hs := explores_search hg
  have hd : a ∈ g.search.done := by
    obtain ⟨b, hab, -⟩ := Relation.TransGen.head'_iff.mp ha
    exact (hs.reached a hab.1).resolve_right (by simp)
  obtain ⟨later, n, earlier, hdone, hn, he⟩ := exists_last
    (p := fun n => Relation.TransGen g.Edge a n ∧ Relation.TransGen g.Edge n a) ⟨a, hd, ha, ha⟩
  -- The next node on the way from `n` back to `n` is not done before `n`.
  obtain ⟨m, hnm, hmn⟩ := Relation.TransGen.head'_iff.mp (hn.2.trans hn.1)
  have hm : m ∉ earlier := fun hm => he m hm ⟨hn.1.tail hnm, hn.2.trans_right hmn⟩
  obtain ⟨c, hc, hnc, -⟩ := (hs.valid.covered later n earlier hdone m hnm.2).resolve_left hm
  have hcyc := hs.valid.cycles c hc
  exact ⟨c, hc, fun k hk =>
    ⟨hn.1.trans (hcyc.transGen hnc hk), (hcyc.transGen hk hnc).trans hn.2⟩⟩

end NeedGraph

/-! ## Circles of jobs -/

namespace Workflow

variable {w : Workflow} {c : List String}

/-- `id` is a job that needs `n`, which is another job. -/
def LeadsTo (w : Workflow) (id n : String) : Prop :=
  w.Needs id n ∧ n ∈ w.jobs.names ∧ n ≠ id

/-- Different jobs, each of which needs the next one, and the last one the first, which is the least
of them. -/
structure IsCircle (w : Workflow) (ids : List String) : Prop where
  two_le_length : 2 ≤ ids.length
  nodup : ids.Nodup
  least : ∀ first ∈ ids.head?, ∀ id ∈ ids, first ≤ id
  next : ids.IsChain w.Needs
  back : ∀ last ∈ ids.getLast?, ∀ first ∈ ids.head?, w.Needs last first

theorem edge_needGraph : w.needGraph.Edge = w.LeadsTo := by
  funext id n
  refine propext ⟨fun he => mem_next_needGraph.mp he.2, fun h => ⟨?_, mem_next_needGraph.mpr h⟩⟩
  obtain ⟨⟨job, hj, -⟩, -⟩ := h
  exact Table.mem_names_iff.mpr ⟨job, hj⟩

theorem isCircle_of_mem_cycles (hc : c ∈ w.needGraph.cycles) : w.IsCircle c := by
  have hcyc := (NeedGraph.explores_search w.needGraph_closed).valid.cycles c hc
  have hchain := hcyc.chain
  obtain ⟨a, as, rfl⟩ := List.exists_cons_of_ne_nil hcyc.ne_nil
  rw [edge_needGraph, Cycle.chain_coe_cons, ← List.cons_append] at hchain
  obtain ⟨hnext, -, hback⟩ := List.isChain_append.mp hchain
  refine ⟨?_, hcyc.nodup, NeedGraph.startsLeast_of_mem_cycles hc, ?_, fun last hl first hf => ?_⟩
  · cases as with
    -- A job that needs itself does not lead to itself.
    | nil => exact absurd rfl (hback a rfl a rfl).2.2
    | cons b bs => simp
  · exact hnext.imp fun _ _ h => h.1
  · cases hf
    exact (hback last hl a rfl).1

end Workflow

/-- The finding names the jobs of a circle, and is about the first of them. -/
structure Finding.Shows (f : Finding) (ids : List String) : Prop where
  job : f.job = ids.head?
  message : f.message =
    "Jobs form a dependency cycle: " ++ " -> ".intercalate (ids ++ ids.take 1)

namespace Validator

variable {v : Validator} {w : Workflow}

theorem shows_finding {ids : List String} (h : w.IsCircle ids) :
    (Rule.dependencyCycles.finding (Rule.cycleNote ids)).Shows ids where
  job := by
    obtain ⟨a, as, rfl⟩ := List.exists_cons_of_ne_nil (List.ne_nil_of_length_pos
      (Nat.lt_of_lt_of_le Nat.two_pos h.two_le_length))
    rfl
  message := rfl

theorem filter_lint_cycles (hd : v.policy.detectCycles = true) :
    (v.lint w).filter (fun f => f.rule = "dependency_cycles") =
      w.needGraph.cycles.map fun ids => Rule.dependencyCycles.finding (Rule.cycleNote ids) := by
  have hr : Rule.dependencyCycles ∈ v.rules := by simp [rules, hd]
  exact (filter_lint hr).trans List.map_map

/-- The findings on cycles show circles of jobs, each circle once. -/
theorem cycles_shown_once (v : Validator) (w : Workflow) : ∃ circles : List (List String),
    List.Forall₂ Finding.Shows ((v.lint w).filter fun f => f.rule = "dependency_cycles") circles ∧
      (∀ ids ∈ circles, w.IsCircle ids) ∧ circles.Nodup ∧
        ∀ c ∈ circles, ∀ d ∈ circles, c ~r d → c = d := by
  by_cases hd : v.policy.detectCycles = true
  · have hc : ∀ ids ∈ w.needGraph.cycles, w.IsCircle ids :=
      fun _ => Workflow.isCircle_of_mem_cycles
    refine ⟨w.needGraph.cycles, ?_, hc, w.needGraph.nodup_cycles, fun c hm d hm' h => ?_⟩
    · rw [filter_lint_cycles hd]
      exact List.forall₂_map_left_iff.mpr (List.forall₂_same.mpr fun ids hm =>
        shows_finding (hc ids hm))
    · exact NeedGraph.StartsLeast.eq_of_isRotated (hc c hm).least (hc d hm').least (hc c hm).nodup h
  · have hn : "dependency_cycles" ∉ v.ruleNames := by
      rw [ruleNames, rules, if_neg hd]
      decide
    rw [filter_lint_eq_nil hn]
    exact ⟨[], .nil, List.forall_mem_nil _, List.nodup_nil, List.forall_mem_nil _⟩

/-- Jobs that lead to each other have a circle reported that does not leave their group. -/
theorem circle_shown_of_locked (v : Validator) {a b : String} (hne : a ≠ b)
    (hab : Relation.ReflTransGen w.LeadsTo a b) (hba : Relation.ReflTransGen w.LeadsTo b a) :
    ∃ f ∈ Rule.dependencyCycles.findings (v.context w),
      (v.policy.detectCycles = true → f ∈ v.lint w) ∧ ∃ ids, f.Shows ids ∧ w.IsCircle ids ∧
        ∀ id ∈ ids, Relation.ReflTransGen w.LeadsTo a id ∧
          Relation.ReflTransGen w.LeadsTo id a := by
  have haa : Relation.TransGen w.needGraph.Edge a a := by
    rw [Workflow.edge_needGraph]
    exact ((Relation.reflTransGen_iff_eq_or_transGen.mp hab).resolve_left hne.symm).trans_left hba
  obtain ⟨ids, hm, hids⟩ := NeedGraph.exists_mem_cycles_of_transGen w.needGraph_closed haa
  rw [Workflow.edge_needGraph] at hids
  have hc := Workflow.isCircle_of_mem_cycles hm
  have hn : Rule.cycleNote ids ∈ Rule.dependencyCycles.notes (v.context w) :=
    List.mem_map_of_mem hm
  refine ⟨_, List.mem_map_of_mem hn, fun hd => ?_, ids, shows_finding hc, hc, fun id hid => ?_⟩
  · exact mem_lint.mpr ⟨.dependencyCycles, by simp [rules, hd], _, hn, rfl⟩
  · exact ⟨(hids id hid).1.to_reflTransGen, (hids id hid).2.to_reflTransGen⟩

/-- Two circles with the jobs `a` and `d` in common, besides needs of the job itself, of an unknown
job and of one job twice. The second circle goes through `c`, from where the search does not go on
to `d` again. -/
def interlocked : Workflow where
  name := "interlocked"
  triggers := ∅
  permissions := ∅
  jobs := .ofList [("a", { Job.blank with needs := ["b", "c", "b"] }),
    ("b", { Job.blank with needs := ["d"] }), ("c", { Job.blank with needs := ["c", "x", "d"] }),
    ("d", { Job.blank with needs := ["a"] })]
  env := ∅

example : interlocked.needGraph.cycles = [["a", "b", "d"]] := by cbv

theorem interlocked_shown :
    Relation.ReflTransGen interlocked.LeadsTo "c" "b" ∧
      Relation.ReflTransGen interlocked.LeadsTo "b" "c" ∧
        ∃ f ∈ cycleFinder.lint interlocked, ∃ ids, f.Shows ids ∧ interlocked.IsCircle ids ∧
          ∀ id ∈ ids, Relation.ReflTransGen interlocked.LeadsTo "c" id ∧
            Relation.ReflTransGen interlocked.LeadsTo id "c" := by
  have leads {id n : String} (h : n ∈ interlocked.needGraph.next id) : interlocked.LeadsTo id n :=
    Workflow.mem_next_needGraph.mp h
  have hbd : interlocked.LeadsTo "b" "d" := leads (by decide)
  have hcd : interlocked.LeadsTo "c" "d" := leads (by decide)
  have hda : interlocked.LeadsTo "d" "a" := leads (by decide)
  have hab : interlocked.LeadsTo "a" "b" := leads (by decide)
  have hac : interlocked.LeadsTo "a" "c" := leads (by decide)
  have hcb : Relation.ReflTransGen interlocked.LeadsTo "c" "b" := .tail (.tail (.single hcd) hda) hab
  have hbc : Relation.ReflTransGen interlocked.LeadsTo "b" "c" := .tail (.tail (.single hbd) hda) hac
  obtain ⟨f, -, hl, hs⟩ := circle_shown_of_locked cycleFinder (by decide) hcb hbc
  exact ⟨hcb, hbc, f, hl rfl, hs⟩

end Validator

end WorkflowLint
