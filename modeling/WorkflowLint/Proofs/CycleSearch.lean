import Mathlib.Data.List.Cycle
import WorkflowLint.Needs

/-!
# The search for cycles

What a search of a graph knows at each moment: the cycles that it reports are cycles of the graph,
and a node that is done comes after all that it leads to, save where a reported cycle runs through
both of them. The second part is what makes the absence of reports mean something.
-/
namespace WorkflowLint.NeedGraph

variable {g : NeedGraph} {path : List String} {node : String}

def Edge (g : NeedGraph) (a b : String) : Prop :=
  a ∈ g.nodes ∧ b ∈ g.next a

/-- The edges of the nodes lead to nodes. -/
def Closed (g : NeedGraph) : Prop :=
  ∀ a b, g.Edge a b → b ∈ g.nodes

/-! ## Cycles -/

/-- Nodes of which every one leads to the next, and the last one to the first. -/
structure IsCycle (g : NeedGraph) (ids : List String) : Prop where
  ne_nil : ids ≠ []
  nodup : ids.Nodup
  chain : (ids : Cycle String).Chain g.Edge

theorem IsCycle.of_isRotated {ids ids' : List String} (h : g.IsCycle ids) (hr : ids ~r ids') :
    g.IsCycle ids' where
  ne_nil := by
    intro he
    subst he
    exact h.ne_nil (List.isRotated_nil_iff.mp hr)
  nodup := hr.nodup_iff.mp h.nodup
  chain := Cycle.coe_eq_coe.mpr hr ▸ h.chain

/-- Any two nodes of a cycle lead to each other. -/
theorem IsCycle.transGen {ids : List String} (h : g.IsCycle ids) {a b : String} (ha : a ∈ ids)
    (hb : b ∈ ids) : Relation.TransGen g.Edge a b := by
  have hc : (ids : Cycle String).Chain (Relation.TransGen g.Edge) :=
    h.chain.imp fun _ _ => Relation.TransGen.single
  exact Cycle.chain_iff_pairwise.mp hc a (Cycle.mem_coe_iff.mpr ha) b (Cycle.mem_coe_iff.mpr hb)

theorem fromLeast_isRotated (ids : List String) : fromLeast ids ~r ids := by
  cases ids with
  | nil => exact .refl _
  | cons id ids =>
      simp only [fromLeast]
      refine List.isRotated_append.trans ?_
      rw [List.takeWhile_append_dropWhile]

/-! ## Paths -/

/-- A way through the graph, without a node twice, whose last node leads to `node`. -/
structure Path (g : NeedGraph) (path : List String) (node : String) : Prop where
  nodup : path.Nodup
  chain : (path ++ [node]).IsChain g.Edge
  mem : node ∈ g.nodes

theorem Path.nil (h : node ∈ g.nodes) : g.Path [] node :=
  ⟨List.nodup_nil, .singleton _, h⟩

theorem Path.concat (hg : g.Closed) (h : g.Path path node) (hn : node ∉ path) {n : String}
    (he : n ∈ g.next node) : g.Path (path ++ [node]) n where
  nodup := List.nodup_append.mpr ⟨h.nodup, List.nodup_singleton _, by
    intro a ha b hb hab
    rw [List.mem_singleton.mp hb] at hab
    exact hn (hab ▸ ha)⟩
  chain := by
    refine List.isChain_append.mpr ⟨h.chain, .singleton _, ?_⟩
    intro a ha b hb
    simp only [List.getLast?_append, List.getLast?_singleton, Option.some_or, Option.mem_def,
      Option.some.injEq, List.head?_cons] at ha hb
    subst ha hb
    exact ⟨h.mem, he⟩
  mem := hg node n ⟨h.mem, he⟩

/-- What `dropWhile` leaves of a list is the part from the first such node on. -/
theorem exists_dropWhile_eq (hn : node ∈ path) :
    ∃ before after, path = before ++ node :: after ∧
      path.dropWhile (· ≠ node) = node :: after := by
  obtain ⟨before, after, rfl, hb⟩ := List.eq_append_cons_of_mem hn
  refine ⟨before, after, rfl, ?_⟩
  rw [List.dropWhile_append_of_pos]
  · simp
  · intro a ha
    have hne : a ≠ node := by
      rintro rfl
      exact hb ha
    simpa using hne

/-- Where a path comes back to itself, the part from there on is a cycle. -/
theorem Path.isCycle (h : g.Path path node) (hn : node ∈ path) :
    g.IsCycle (path.dropWhile (· ≠ node)) := by
  obtain ⟨before, after, he, hd⟩ := exists_dropWhile_eq hn
  rw [hd]
  have hs : node :: after <:+ path := ⟨before, he.symm⟩
  have hc : (node :: (after ++ [node])).IsChain g.Edge :=
    h.chain.suffix ⟨before, by simp [he]⟩
  exact ⟨by simp, h.nodup.sublist hs.sublist, (Cycle.chain_coe_cons _ _ _).mpr hc⟩

/-! ## What the search knows -/

namespace Search

/-- A reported cycle runs through both nodes. -/
def Joins (s : Search) (a b : String) : Prop :=
  ∃ c ∈ s.cycles, a ∈ c ∧ b ∈ c

/-- What is true of a search that has come along a path. -/
structure Valid (g : NeedGraph) (path : List String) (s : Search) : Prop where
  mem : ∀ n ∈ s.done, n ∈ g.nodes
  nodup : s.done.Nodup
  disjoint : ∀ n ∈ s.done, n ∉ path
  cycles : ∀ c ∈ s.cycles, g.IsCycle c
  covered : ∀ later n earlier, s.done = later ++ n :: earlier →
    ∀ m ∈ g.next n, m ∈ earlier ∨ s.Joins n m

/-- What the search of some nodes turns a search into. -/
structure Explores (g : NeedGraph) (path : List String) (s t : Search) (nodes : List String) :
    Prop where
  valid : t.Valid g path
  done : s.done ⊆ t.done
  cycles : s.cycles ⊆ t.cycles
  reached : ∀ n ∈ nodes, n ∈ t.done ∨ ∃ last ∈ path.getLast?, t.Joins last n

variable {s t u : Search} {nodes : List String}

theorem Joins.mono {a b : String} (h : s.Joins a b) (hc : s.cycles ⊆ t.cycles) : t.Joins a b := by
  obtain ⟨c, hm, hab⟩ := h
  exact ⟨c, hc hm, hab⟩

theorem mem_addCycle {c d : List String} :
    d ∈ (s.addCycle c).cycles ↔ d = fromLeast c ∨ d ∈ s.cycles := by
  simp only [addCycle]
  split
  · rename_i hm
    constructor
    · exact Or.inr
    · rintro (rfl | h)
      · exact hm
      · exact h
  · simp [or_comm]

theorem done_addCycle (c : List String) : (s.addCycle c).done = s.done := by
  simp only [addCycle]
  split <;> rfl

theorem Explores.refl (h : s.Valid g path) : Explores g path s s [] :=
  ⟨h, List.Subset.refl _, List.Subset.refl _, by simp⟩

theorem Explores.of_mem_done (h : s.Valid g path) (hn : node ∈ s.done) :
    Explores g path s s [node] :=
  ⟨h, List.Subset.refl _, List.Subset.refl _, by simp [hn]⟩

theorem Explores.trans (h₁ : Explores g path s t [node]) (h₂ : Explores g path t u nodes) :
    Explores g path s u (node :: nodes) where
  valid := h₂.valid
  done := List.Subset.trans h₁.done h₂.done
  cycles := List.Subset.trans h₁.cycles h₂.cycles
  reached := by
    intro n hn
    rcases List.mem_cons.mp hn with rfl | hn
    · rcases h₁.reached n (by simp) with hd | ⟨last, hl, hj⟩
      · exact Or.inl (h₂.done hd)
      · exact Or.inr ⟨last, hl, hj.mono h₂.cycles⟩
    · exact h₂.reached n hn

/-- A node on the path closes a cycle, on which the last node of the path is. -/
theorem Explores.addCycle (h : s.Valid g path) (hp : g.Path path node) (hn : node ∈ path) :
    Explores g path s (s.addCycle (path.dropWhile (· ≠ node))) [node] := by
  have hc := hp.isCycle hn
  have hr := fromLeast_isRotated (path.dropWhile (· ≠ node))
  have hs : s.cycles ⊆ (s.addCycle (path.dropWhile (· ≠ node))).cycles :=
    fun d hd => mem_addCycle.mpr (Or.inr hd)
  refine ⟨⟨?_, ?_, ?_, ?_, ?_⟩, ?_, hs, ?_⟩
  · exact (done_addCycle _).symm ▸ h.mem
  · exact (done_addCycle _).symm ▸ h.nodup
  · exact (done_addCycle _).symm ▸ h.disjoint
  · intro d hd
    rcases mem_addCycle.mp hd with rfl | hd
    · exact hc.of_isRotated hr.symm
    · exact h.cycles d hd
  · intro later n earlier he m hm
    rw [done_addCycle] at he
    exact (h.covered later n earlier he m hm).imp_right (·.mono hs)
  · exact (done_addCycle _).symm ▸ List.Subset.refl _
  · intro n hm
    rw [List.mem_singleton.mp hm]
    obtain ⟨before, after, he, hd⟩ := exists_dropWhile_eq hn
    have hl : path.getLast? = some ((node :: after).getLast (by simp)) := by
      rw [he, List.getLast?_append, List.getLast?_eq_some_getLast (by simp), Option.some_or]
    refine Or.inr ⟨_, hl, _, mem_addCycle.mpr (Or.inl rfl), hr.mem_iff.mpr ?_,
      hr.mem_iff.mpr ?_⟩
    · rw [hd]
      exact List.getLast_mem _
    · rw [hd]
      exact List.mem_cons_self

/-- When all that a node leads to has been searched, the node is done. -/
theorem Explores.finish (hp : g.Path path node) (hn : node ∉ path) (hd : node ∉ s.done)
    (h : Explores g (path ++ [node]) s t (g.next node)) :
    Explores g path s (t.finish node) [node] := by
  have hnd : node ∉ t.done := fun hm => h.valid.disjoint node hm (by simp)
  refine ⟨⟨?_, ?_, ?_, h.valid.cycles, ?_⟩, ?_, h.cycles, by simp [Search.finish]⟩
  · intro n hm
    rcases List.mem_cons.mp hm with rfl | hm
    · exact hp.mem
    · exact h.valid.mem n hm
  · exact List.nodup_cons.mpr ⟨hnd, h.valid.nodup⟩
  · intro n hm
    rcases List.mem_cons.mp hm with rfl | hm
    · exact hn
    · exact fun hp => h.valid.disjoint n hm (List.mem_append_left _ hp)
  · intro later n earlier he m hm
    cases later with
    | nil =>
        obtain ⟨rfl, rfl⟩ := List.cons.inj he
        rcases h.reached m hm with hd | ⟨last, hl, hj⟩
        · exact Or.inl hd
        · simp only [List.getLast?_append, List.getLast?_singleton, Option.some_or, Option.mem_def,
            Option.some.injEq] at hl
          subst hl
          exact Or.inr hj
    | cons a later =>
        exact h.valid.covered later n earlier (List.cons.inj he).2 m hm
  · exact fun n hm => List.mem_cons_of_mem _ (h.done hm)

end Search

/-! ## The search as it goes -/

/-- A relation between what is known before and after the search of some nodes, of which each way
that the search goes is one. -/
structure Follows (g : NeedGraph) (R : List String → Search → List String → Search → Prop) :
    Prop where
  nil : ∀ path s, R path s [] s
  cons : ∀ path s t u node nodes, R path s [node] t → R path t nodes u →
    R path s (node :: nodes) u
  back : ∀ path s node, g.Path path node → node ∈ path →
    R path s [node] (s.addCycle (path.dropWhile (· ≠ node)))
  skip : ∀ path s node, g.Path path node → node ∉ path → node ∈ s.done → R path s [node] s
  enter : ∀ path s t node, g.Path path node → node ∉ path → node ∉ s.done →
    R (path ++ [node]) s (g.next node) t → R path s [node] (t.finish node)

theorem Follows.visit {R : List String → Search → List String → Search → Prop} (h : g.Follows R)
    (hg : g.Closed) :
    (∀ path s node, g.Path path node → R path s [node] (g.visit path s node)) ∧
      ∀ path s nodes, (∀ n ∈ nodes, g.Path path n) → R path s nodes (g.visitAll path s nodes) := by
  apply visit.mutual_induct
  case case1 =>
    intro path s node hn hp
    rw [NeedGraph.visit, dif_pos hn]
    exact h.back path s node hp hn
  case case2 =>
    intro path s node hn hd hp
    rw [NeedGraph.visit, dif_neg hn, if_pos hd]
    exact h.skip path s node hp hn hd
  case case3 =>
    intro path s node hn hd hm ih hp
    rw [NeedGraph.visit, dif_neg hn, if_neg hd, dif_pos hm]
    exact h.enter path s _ node hp hn hd (ih fun n he => hp.concat hg hn he)
  case case4 =>
    intro path s node _ _ hm hp
    exact absurd hp.mem hm
  case case5 =>
    intro path s _
    rw [visitAll]
    exact h.nil path s
  case case6 =>
    intro path s n ns ih₁ ih₂ hp
    rw [visitAll]
    exact h.cons path s _ _ n ns (ih₁ (hp n (by simp))) (ih₂ fun m hm => hp m (by simp [hm]))

/-- What is done stays off the path when a node is put on it that is not done. -/
theorem Search.not_mem_concat {s : Search} (h : ∀ n ∈ s.done, n ∉ path) (hd : node ∉ s.done) :
    ∀ n ∈ s.done, n ∉ path ++ [node] := by
  intro n hn hm
  rcases List.mem_append.mp hm with hm | hm
  · exact h n hn hm
  · exact hd (List.mem_singleton.mp hm ▸ hn)

theorem follows_explores (g : NeedGraph) :
    g.Follows fun path s nodes t => s.Valid g path → Search.Explores g path s t nodes where
  nil _ _ hs := .refl hs
  cons _ _ _ _ _ _ h₁ h₂ hs := (h₁ hs).trans (h₂ (h₁ hs).valid)
  back _ _ _ hp hn hs := .addCycle hs hp hn
  skip _ _ _ _ _ hd hs := .of_mem_done hs hd
  enter _ _ _ _ hp hn hd h hs := .finish hp hn hd
    (h ⟨hs.mem, hs.nodup, Search.not_mem_concat hs.disjoint hd, hs.cycles, hs.covered⟩)

/-- The search of a whole graph: all of its nodes are done. -/
theorem explores_search (hg : g.Closed) : Search.Explores g [] ⟨[], []⟩ g.search g.nodes := by
  refine ((follows_explores g).visit hg).2 [] ⟨[], []⟩ g.nodes (fun n hn => .nil hn) ?_
  constructor <;> simp

end WorkflowLint.NeedGraph
