import Mathlib.Data.Finset.Card
import WorkflowLint.Proofs.CycleSearch

/-!
# The descent of the search

The search taken as one moment after another, each with the path that it has come along. A node is
put on the path when it is entered and taken off when all that it leads to has been seen. So the
search of a node ends with the path that it began with; the path never holds a node twice, and is
no longer than there are nodes. What is done at the end leads only to what is done or on the path,
and where the path was empty nothing is left to do.
-/
namespace WorkflowLint.NeedGraph

variable {g : NeedGraph} {path nodes : List String} {node : String}

/-! ## What is done -/

namespace Search

/-- What is done is not on the path, and leads only to what is done or on the path. -/
structure Sealed (g : NeedGraph) (path : List String) (s : Search) : Prop where
  disjoint : ∀ n ∈ s.done, n ∉ path
  closed : ∀ n ∈ s.done, ∀ m, g.Edge n m → m ∈ s.done ∨ m ∈ path

/-- What the search of some nodes makes of what is done. -/
structure Seals (g : NeedGraph) (path : List String) (s : Search) (nodes : List String)
    (t : Search) : Prop where
  isSealed : t.Sealed g path
  done : s.done ⊆ t.done
  reached : ∀ n ∈ nodes, n ∈ t.done ∨ n ∈ path

variable {s t u : Search}

theorem Seals.cons (h₁ : s.Seals g path [node] t) (h₂ : t.Seals g path nodes u) :
    s.Seals g path (node :: nodes) u where
  isSealed := h₂.isSealed
  done := List.Subset.trans h₁.done h₂.done
  reached := List.forall_mem_cons.mpr
    ⟨(h₁.reached node List.mem_cons_self).imp_left fun hn => h₂.done hn, h₂.reached⟩

theorem Sealed.concat (h : s.Sealed g path) (hd : node ∉ s.done) :
    s.Sealed g (path ++ [node]) where
  disjoint := not_mem_concat h.disjoint hd
  closed n hn m he := (h.closed n hn m he).imp_right (List.mem_append_left _)

/-- A node that is finished leads only to what was done before it, or is on the path. -/
theorem Seals.finish (hn : node ∉ path) (h : s.Seals g (path ++ [node]) (g.next node) t) :
    s.Seals g path [node] (t.finish node) where
  isSealed := by
    refine ⟨List.forall_mem_cons.mpr ⟨hn, fun n hm hp => ?_⟩, fun n hm m he => ?_⟩
    · exact h.isSealed.disjoint n hm (List.mem_append_left _ hp)
    · have hm : m ∈ t.done ∨ m ∈ path ++ [node] := by
        rcases List.mem_cons.mp hm with rfl | hm
        · exact h.reached m he.2
        · exact h.isSealed.closed n hm m he
      rcases hm with hm | hm
      · exact Or.inl (List.mem_cons_of_mem _ hm)
      · rcases List.mem_append.mp hm with hm | hm
        · exact Or.inr hm
        · exact Or.inl (List.mem_singleton.mp hm ▸ List.mem_cons_self)
  done _ hm := List.mem_cons_of_mem _ (h.done hm)
  reached := List.forall_mem_singleton.mpr (Or.inl List.mem_cons_self)

end Search

theorem follows_seals (g : NeedGraph) :
    g.Follows fun path s nodes t => s.Sealed g path → s.Seals g path nodes t where
  nil _ _ hs := ⟨hs, List.Subset.refl _, List.forall_mem_nil _⟩
  cons _ _ _ _ _ _ h₁ h₂ hs := (h₁ hs).cons (h₂ (h₁ hs).isSealed)
  back path s node _ hn hs := by
    have hd := Search.done_addCycle (s := s) (path.dropWhile (· ≠ node))
    exact ⟨⟨hd ▸ hs.disjoint, hd ▸ hs.closed⟩, hd ▸ List.Subset.refl _,
      List.forall_mem_singleton.mpr (Or.inr hn)⟩
  skip _ _ _ _ _ hd hs := ⟨hs, List.Subset.refl _, List.forall_mem_singleton.mpr (Or.inl hd)⟩
  enter _ _ _ _ _ hn hd h hs := (h (hs.concat hd)).finish hn

/-! ## The length of a path -/

theorem Path.mem_nodes (h : g.Path path node) : ∀ n ∈ path, n ∈ g.nodes := by
  intro n hn
  obtain ⟨before, after, rfl⟩ := List.append_of_mem hn
  have hc : (n :: (after ++ [node])).IsChain g.Edge := h.chain.suffix ⟨before, by simp⟩
  obtain ⟨m, rest, hr⟩ : ∃ m rest, after ++ [node] = m :: rest :=
    List.exists_cons_of_ne_nil (by simp)
  rw [hr] at hc
  exact (List.isChain_cons_cons.mp hc).1.1

theorem Path.toFinset_subset (h : g.Path path node) : path.toFinset ⊆ g.nodes.toFinset :=
  fun n hn => List.mem_toFinset.mpr (h.mem_nodes n (List.mem_toFinset.mp hn))

theorem Path.length_le (h : g.Path path node) : path.length ≤ g.nodes.toFinset.card := by
  rw [← List.toFinset_card_of_nodup h.nodup]
  exact Finset.card_le_card h.toFinset_subset

theorem Path.length_lt (h : g.Path path node) (hn : node ∉ path) :
    path.length < g.nodes.toFinset.card := by
  rw [← List.toFinset_card_of_nodup h.nodup]
  refine Finset.card_lt_card ((Finset.ssubset_iff_of_subset h.toFinset_subset).mpr ⟨node, ?_, ?_⟩)
  · exact List.mem_toFinset.mpr h.mem
  · exact fun hm => hn (List.mem_toFinset.mp hm)

/-! ## One moment after another -/

/-- To search from a node, or to be done with it. -/
inductive Task
  | enter (node : String)
  | leave (node : String)

/-- A moment of the search: what is left to do, the path, and what is known. -/
structure Moment where
  todo : List Task
  path : List String
  search : Search

/-- The next moment, unless nothing is left to do. -/
def Moment.next? (g : NeedGraph) : Moment → Option Moment
  | ⟨[], _, _⟩ => none
  | ⟨.enter n :: todo, path, s⟩ =>
    if n ∈ path then some ⟨todo, path, s.addCycle (path.dropWhile (· ≠ n))⟩
    else if n ∈ s.done then some ⟨todo, path, s⟩
    else
      let ahead := if n ∈ g.nodes then g.next n else []
      some ⟨ahead.map .enter ++ .leave n :: todo, path ++ [n], s⟩
  | ⟨.leave n :: todo, path, s⟩ => some ⟨todo, path.dropLast, s.finish n⟩

namespace Moment

/-- One moment comes before another, or is the same. -/
def Leads (g : NeedGraph) : Moment → Moment → Prop :=
  Relation.ReflTransGen fun m n => m.next? g = some n

/-- The path holds no more than there are nodes. -/
def Bounded (g : NeedGraph) (m : Moment) : Prop :=
  m.path.length ≤ g.nodes.toFinset.card

/-- One moment comes before another, and all that follow it up to the other one are bounded. -/
def LeadsBounded (g : NeedGraph) : Moment → Moment → Prop :=
  Relation.ReflTransGen fun m n => m.next? g = some n ∧ n.Bounded g

/-- A moment has one next moment at most, so whatever comes before the end leads to it. -/
theorem LeadsBounded.of_leads {m n last : Moment} (h : LeadsBounded g m last)
    (hlast : last.next? g = none) (hm : m.Bounded g) (hn : Leads g m n) :
    LeadsBounded g n last ∧ n.Bounded g := by
  induction hn with
  | refl => exact ⟨h, hm⟩
  | tail _ hs ih =>
      rcases Relation.ReflTransGen.cases_head ih.1 with rfl | ⟨n', ⟨hs', hb⟩, hr⟩
      · rw [hlast] at hs
        cases hs
      · cases Option.some.inj (hs.symm.trans hs')
        exact ⟨hr, hb⟩

end Moment

theorem follows_moments (g : NeedGraph) : g.Follows fun path s nodes t =>
    ∀ todo, Moment.LeadsBounded g ⟨nodes.map .enter ++ todo, path, s⟩ ⟨todo, path, t⟩ where
  nil _ _ _ := .refl
  cons _ _ _ _ _ nodes h₁ h₂ todo :=
    Relation.ReflTransGen.trans (h₁ (nodes.map Task.enter ++ todo)) (h₂ todo)
  back _ _ _ hp hn todo := .single ⟨by simp [Moment.next?, hn], hp.length_le⟩
  skip _ _ _ hp hn hd todo := .single ⟨by simp [Moment.next?, hn, hd], hp.length_le⟩
  enter path s t node hp hn hd h todo := by
    -- The node is put on the path first and taken off last.
    refine .head ⟨?_, ?_⟩ (.tail (h (.leave node :: todo)) ⟨?_, hp.length_le⟩)
    · simp [Moment.next?, hn, hd, hp.mem]
    · rw [Moment.Bounded, List.length_append, List.length_singleton]
      exact hp.length_lt hn
    · simp [Moment.next?]

/-! ## The whole search -/

/-- The search of some nodes, from one path on: it comes to an end with that path, and every moment
before the end is bounded. -/
structure Descends (g : NeedGraph) (path : List String) (s : Search) (nodes : List String)
    (t : Search) : Prop extends s.Seals g path nodes t where
  ends : ∀ m, Moment.Leads g ⟨nodes.map .enter, path, s⟩ m → Moment.Leads g m ⟨[], path, t⟩
  bounded : ∀ m, Moment.Leads g ⟨nodes.map .enter, path, s⟩ m →
    m.path.length ≤ g.nodes.toFinset.card

theorem Search.Seals.descends {s t : Search} (h : s.Seals g path nodes t)
    (hm : ∀ todo, Moment.LeadsBounded g ⟨nodes.map .enter ++ todo, path, s⟩ ⟨todo, path, t⟩)
    (hp : path.length ≤ g.nodes.toFinset.card) : g.Descends path s nodes t := by
  have hrun := hm []
  rw [List.append_nil] at hrun
  exact { h with
    ends := fun _ hn =>
      Relation.ReflTransGen.mono (fun _ _ hs => hs.1) _ _ (hrun.of_leads rfl hp hn).1
    bounded := fun _ hn => (hrun.of_leads rfl hp hn).2 }

/-- From a node that a path leads to, the search descends, and from all nodes together it descends
until all of them are done. -/
theorem visit_descends (hg : g.Closed) :
    (∀ path s node, g.Path path node → s.Sealed g path →
        g.Descends path s [node] (g.visit path s node)) ∧
      g.Descends [] ⟨[], []⟩ g.nodes g.search ∧ ∀ n ∈ g.nodes, n ∈ g.search.done := by
  obtain ⟨hone, hall⟩ := (follows_seals g).visit hg
  obtain ⟨hone', hall'⟩ := (follows_moments g).visit hg
  have hroots : ∀ n ∈ g.nodes, g.Path [] n := fun _ hn => .nil hn
  have hstart : Search.Sealed g [] ⟨[], []⟩ := ⟨List.forall_mem_nil _, List.forall_mem_nil _⟩
  have hs := hall [] ⟨[], []⟩ g.nodes hroots hstart
  refine ⟨fun path s node hp hd => ?_, ?_, fun n hn => ?_⟩
  · exact (hone path s node hp hd).descends (hone' path s node hp) hp.length_le
  · exact hs.descends (hall' [] ⟨[], []⟩ g.nodes hroots) (Nat.zero_le _)
  · exact (hs.reached n hn).resolve_right List.not_mem_nil

/-- Two circles that `b` is on, and a node that leads back to the first one. -/
def knot : NeedGraph where
  nodes := ["a", "b", "c", "d"]
  next id :=
    if id = "a" then ["b"]
    else if id = "b" then ["c", "a", "d"]
    else if id = "c" then ["b", "d"]
    else ["a"]

theorem knot_descends : knot.Closed ∧ knot.Path ["a"] "b" ∧
    Search.Sealed knot ["a"] ⟨["d"], []⟩ ∧
      knot.Descends ["a"] ⟨["d"], []⟩ ["b"] ⟨["b", "c", "d"], [["b", "c"], ["a", "b"]]⟩ ∧
        ∀ n ∈ knot.nodes, n ∈ knot.search.done := by
  have hg : knot.Closed := by
    have h : ∀ a ∈ knot.nodes, ∀ b ∈ knot.next a, b ∈ knot.nodes := by decide
    exact fun a b he => h a he.1 b he.2
  have hp : knot.Path ["a"] "b" := by
    refine ⟨by decide, .cons_cons ⟨?_, ?_⟩ (.singleton _), ?_⟩ <;> decide
  have hs : Search.Sealed knot ["a"] ⟨["d"], []⟩ := by
    refine ⟨by decide, fun n hn m he => Or.inr ?_⟩
    obtain rfl := List.mem_singleton.mp hn
    exact he.2
  have hv : knot.visit ["a"] ⟨["d"], []⟩ "b" = ⟨["b", "c", "d"], [["b", "c"], ["a", "b"]]⟩ := by
    cbv
  have hd := visit_descends hg
  exact ⟨hg, hp, hs, hv ▸ hd.1 ["a"] ⟨["d"], []⟩ "b" hp hs, hd.2.2⟩

end WorkflowLint.NeedGraph
