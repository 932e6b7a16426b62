import WorkflowLint.Proofs.Composition
import WorkflowLint.Proofs.Cursors
import WorkflowLint.Proofs.UnknownFields

/-!
# Lines below the name of a workflow

The line with a workflow's name reaches no further than itself. So lines that are nested below it are
read as a document of their own, and what that one describes is laid over what stands above. They
are of no account if they describe nothing.
-/
namespace WorkflowLint

/-! ## Sections of one line -/

namespace Section

variable {extent : Line → Extent} {ls : List Line} {s : Section}

/-- Below a line that reaches no further than itself, lines are cut as if nothing stood above. -/
theorem exists_above_of_alone (hs : s ∈ cutAll extent ls) (he : extent s.head = .alone) :
    ∃ above below, ls = above ++ below ∧ above.getLast? = some s.head ∧
      ∀ ms, cutAll extent (above ++ ms) = cutAll extent above ++ cutAll extent ms := by
  fun_induction cutAll extent ls with
  | case1 => cases hs
  | case2 l ls hl ih =>
      rcases List.mem_cons.mp hs with rfl | hs
      · have he : extent l = .alone := he
        refine ⟨[l], ls, rfl, rfl, fun ms => ?_⟩
        rw [List.singleton_append, cutAll, if_pos hl, cut_alone he, cutAll, if_pos hl, cut_alone he,
          cutAll]
        rfl
      · obtain ⟨above, below, hd, hlast, ha⟩ := ih hs
        have hne : above ≠ [] := by
          rintro rfl
          cases hlast
        -- The first section ends above the line where the others begin, whatever stands below.
        have hstops : ∀ ms, ∀ m ∈ (above ++ ms).head?, (extent l).owns l m = false := by
          intro ms m hm
          have hfirst : m ∈ (cut extent l ls).2.head? := by
            rw [hd, List.head?_append_of_ne_nil _ hne]
            rwa [List.head?_append_of_ne_nil _ hne] at hm
          exact stops_cut hfirst
        have hc : ∀ ms, cutAll extent (l :: (cut extent l ls).1.body ++ above ++ ms) =
            (cut extent l ls).1 :: cutAll extent (above ++ ms) := fun ms => by
          rw [List.cons_append, List.cons_append, List.append_assoc, cutAll, if_pos hl,
            cut_append_below (fun _ => owned_of_mem_cut) (hstops ms)]
          rfl
        refine ⟨l :: (cut extent l ls).1.body ++ above, below, ?_, ?_, fun ms => ?_⟩
        · rw [List.cons_append, List.cons_append, List.append_assoc, ← hd, body_append_cut]
        · rw [List.getLast?_append, hlast, Option.some_or]
        · have hnil := hc []
          rw [List.append_nil, List.append_nil] at hnil
          rw [hc, ha, hnil, List.cons_append]
  | case3 l ls hl ih =>
      obtain ⟨above, below, rfl, hlast, ha⟩ := ih hs
      refine ⟨l :: above, below, rfl, ?_, fun ms => ?_⟩
      · rw [List.getLast?_cons, hlast]
        rfl
      · rw [List.cons_append, cutAll, if_neg hl, ha, cutAll, if_neg hl]

/-- Lines that are nested below another one do not reach the first line that is not. -/
theorem cutAll_nested_append {head : Line} {nested rest : List Line}
    (hn : ∀ l ∈ nested, Extent.nested.owns head l = true)
    (hr : ∀ l ∈ rest.head?, Extent.nested.owns head l = false) :
    cutAll extent (nested ++ rest) = cutAll extent nested ++ cutAll extent rest := by
  refine cutAll_append_of_stops fun l hl hs m hm => Bool.eq_false_iff.mpr fun ho => ?_
  have hm := hr m hm
  have hl := hn l hl
  simp only [Extent.owns, hs, Bool.not_true, Bool.false_or, Bool.or_eq_false_iff,
    Bool.not_eq_false', decide_eq_true_eq, decide_eq_false_iff_not] at hl hm
  -- The first line that is not nested is less deep than all that are.
  rcases Extent.cases_of_owns ho with hv | hlt | ⟨-, heq, -⟩
  · rw [hm.1] at hv
    cases hv
  · omega
  · omega

end Section

/-! ## Lines below a name -/

namespace Workflow

variable {tabWidth : Nat} {text : List Char} {s : Section} {value : List Char}
  {nested inserted rest : List Line}

/-- Read as a document of their own, the lines add nothing to a workflow. -/
def DescribesNothing (tabWidth : Nat) (ls : List Line) : Prop :=
  read tabWidth ls = .ok blank ∧ isNamedIn ls = false

theorem DescribesNothing.renumber (h : DescribesNothing tabWidth nested) (f : Nat → Nat) :
    DescribesNothing tabWidth (nested.map (Line.renumber f)) := by
  refine ⟨?_, ?_⟩
  · rw [read_renumber, h.1]
    rfl
  · rw [isNamedIn_renumber, h.2]

/-- What is described by lines with nested ones among them, which are read apart. -/
def readAround (tabWidth : Nat) (above nested rest : List Line) : Except SyntaxError Workflow :=
  (read tabWidth above).bind fun w => (read tabWidth nested).bind fun u =>
    (read tabWidth rest).map ((w.overlay (isNamedIn nested) u).overlay (isNamedIn rest))

theorem readAround_of_describesNothing (h : DescribesNothing tabWidth nested)
    (above rest : List Line) : readAround tabWidth above nested rest =
      (read tabWidth above).bind fun w => (read tabWidth rest).map (w.overlay (isNamedIn rest)) := by
  rw [readAround, h.1, h.2]
  rfl

/-- Below the line of a name, the lines that are nested there are read apart from all others. -/
theorem read_take_append (hs : s ∈ Section.cutAll extent (Line.ofText tabWidth text))
    (hf : field? s.head = some (.name, value)) :
    s.head.number ≤ (Line.ofText tabWidth text).length ∧ ∀ nested rest,
      (∀ l ∈ nested, Extent.nested.owns s.head l = true) →
      (∀ l ∈ rest.head?, Extent.nested.owns s.head l = false) →
      read tabWidth ((Line.ofText tabWidth text).take s.head.number ++ (nested ++ rest)) =
        readAround tabWidth ((Line.ofText tabWidth text).take s.head.number) nested rest := by
  have he : extent s.head = .alone := by
    rw [extent, hf]
    rfl
  obtain ⟨above, below, hls, hlast, hcut⟩ := Section.exists_above_of_alone hs he
  have hn : s.head.number = above.length := by
    obtain ⟨front, hfront⟩ := List.getLast?_eq_some_iff.mp hlast
    have hi : (Line.ofText tabWidth text)[front.length]? = some s.head := by simp [hls, hfront]
    rw [Line.number_of_getElem? hi, hfront, List.length_append, List.length_singleton]
  rw [hn, hls, List.take_left]
  refine ⟨by simp, fun nested rest hne hre => ?_⟩
  have hrest : Section.cutAll extent (above ++ nested ++ rest) =
      Section.cutAll extent (above ++ nested) ++ Section.cutAll extent rest := by
    rw [List.append_assoc, hcut, hcut, Section.cutAll_nested_append hne hre, List.append_assoc]
  rw [← List.append_assoc, read_append_of_cutAll hrest, read_append_of_cutAll (hcut nested),
    readAround]
  cases read tabWidth above with
  | error _ => rfl
  | ok w => cases read tabWidth nested <;> rfl

/-- What is nested below a name is read as a document of its own. If it describes nothing, other lines
that describe nothing can stand there instead. -/
theorem ofText_below_name (hs : s ∈ Section.cutAll extent (Line.ofText tabWidth text))
    (hf : field? s.head = some (.name, value))
    (hd : (Line.ofText tabWidth text).drop s.head.number = nested ++ rest)
    (hn : ∀ l ∈ nested, Extent.nested.owns s.head l = true)
    (hr : ∀ l ∈ rest.head?, Extent.nested.owns s.head l = false) :
    ofText tabWidth text =
        readAround tabWidth ((Line.ofText tabWidth text).take s.head.number) nested rest ∧
      ∀ (text' : List Char) (inserted : List Line),
        (∀ l ∈ inserted, Extent.nested.owns s.head l = true) →
        DescribesNothing tabWidth nested → DescribesNothing tabWidth inserted →
        (Line.ofText tabWidth text').map Line.content =
          ((Line.ofText tabWidth text).take s.head.number ++ (inserted ++ rest)).map Line.content →
        ofText tabWidth text' = (ofText tabWidth text).mapError
          (SyntaxError.renumber (shift s.head.number nested.length inserted.length)) := by
  obtain ⟨hle, hreads⟩ := read_take_append hs hf
  have hread : ofText tabWidth text =
      readAround tabWidth ((Line.ofText tabWidth text).take s.head.number) nested rest := by
    rw [← hreads nested rest hn hr, ← hd, List.take_append_drop, ofText]
  refine ⟨hread, fun text' inserted hi hnothing hnothing' ht => ofText_eq_shift hd hle ?_ ht⟩
  have hi' : ∀ l ∈ inserted.map (Line.renumber fun _ => 0),
      Extent.nested.owns s.head l = true := by
    intro l hl
    obtain ⟨m, hm, rfl⟩ := List.mem_map.mp hl
    exact hi m hm
  rw [hreads _ rest hi' hr, hread, readAround_of_describesNothing (hnothing'.renumber _),
    readAround_of_describesNothing hnothing]

/-- A key that is not known, and an event that belongs to it, below the name. -/
def named : List Char :=
  "name: CI\n  # b\n  id: x\n    on: push\njobs:\n a:\n  timeout-minutes: z".toList

def namedAnew : List Char :=
  "name: CI\n  env:\njobs:\n a:\n  timeout-minutes: z".toList

theorem ofText_namedAnew :
    ofText 2 named = .error ⟨7, ['z']⟩ ∧ ofText 2 namedAnew = .error ⟨5, ['z']⟩ := by
  let nested : List Line := [⟨2, 2, "# b".toList⟩, ⟨3, 2, "id: x".toList⟩, ⟨4, 4, "on: push".toList⟩]
  let rest : List Line :=
    [⟨5, 0, "jobs:".toList⟩, ⟨6, 1, "a:".toList⟩, ⟨7, 2, "timeout-minutes: z".toList⟩]
  have hs : (Section.cutAll extent (Line.ofText 2 named)).head? =
      some ⟨⟨1, 0, "name: CI".toList⟩, []⟩ := by cbv
  have hd : (Line.ofText 2 named).drop 1 = nested ++ rest := by cbv
  have ht : (Line.ofText 2 namedAnew).map Line.content = ((Line.ofText 2 named).take 1 ++
      ([Line.mk 0 2 "env:".toList] ++ rest)).map Line.content := by decide +kernel
  have he : ofText 2 named = .error ⟨7, ['z']⟩ := by cbv
  have hf : field? ⟨1, 0, "name: CI".toList⟩ = some (.name, "CI".toList) := by cbv
  have h := (ofText_below_name (List.mem_of_head? hs) hf hd (by decide +kernel)
    (by decide +kernel)).2 namedAnew [⟨0, 2, "env:".toList⟩] (by decide +kernel)
    ⟨by cbv, by cbv⟩ ⟨by cbv, by cbv⟩ ht
  rw [he] at h
  exact ⟨he, h⟩

/-- Below the name an event is read like one at the margin. -/
theorem ofText_event_below_name :
    ofText 2 "name: a\n".toList = .ok { blank with name := "a" } ∧
      ofText 2 "name: a\n  on: push\n".toList =
        .ok { blank with name := "a", triggers := .ofList [("push", "")] } := by
  constructor <;> cbv

end Workflow

end WorkflowLint
