import Mathlib.Logic.Relation
import WorkflowLint.Proofs.Resemblance
import WorkflowLint.Proofs.Rows

/-!
# Places in a document

Reading takes a document apart level by level: sections, jobs, their fields, steps, their fields.
Wherever a section is read, its body stands between lines that belong to the sections around it, or
to none. Any other lines that the head of the section owns can stand there instead, and all other
sections are the same.
-/
namespace WorkflowLint

/-! ## Sections between lines -/

namespace Section

variable {extent : Line → Extent} {e : Extent} {ls : List Line} {s : Section}

theorem body_append_cut (extent : Line → Extent) (head : Line) (ls : List Line) :
    (cut extent head ls).1.body ++ (cut extent head ls).2 = ls :=
  List.takeWhile_append_dropWhile

theorem owned_of_mem_cut {head l : Line} (h : l ∈ (cut extent head ls).1.body) :
    (extent head).owns head l = true :=
  List.mem_takeWhile_imp (p := fun l => (extent head).owns head l) h

theorem stops_cut {head l : Line} (h : l ∈ (cut extent head ls).2.head?) :
    (extent head).owns head l = false := by
  have hd := List.head?_dropWhile_not (fun l => (extent head).owns head l) ls
  rw [cut] at h
  rw [Option.mem_def.mp h] at hd
  simpa using hd

/-- The sections of which the first one is that of a given line, be it significant or not. -/
def cutFrom (extent : Line → Extent) (head : Line) (ls : List Line) : List Section :=
  (cut extent head ls).1 :: cutAll extent (cut extent head ls).2

/-- A section among those that lines are cut into, the body of which stands between the given lines.
With another body that its head owns, it stands among the same sections. -/
structure Framed (cutting : List Line → List Section) (e : Extent) (above below : List Line)
    (s : Section) : Prop where
  owned : ∀ l ∈ s.body, e.owns s.head l = true
  stops : ∀ l ∈ below.head?, e.owns s.head l = false
  exchange : ∃ pre post, ∀ body, (∀ l ∈ body, e.owns s.head l = true) →
    cutting (above ++ (body ++ below)) = pre ++ ⟨s.head, body⟩ :: post

variable {above below : List Line} {cutting : List Line → List Section}

theorem framed_cut (head : Line) (ls : List Line) :
    Framed (cutFrom extent head) (extent head) [] (cut extent head ls).2 (cut extent head ls).1 where
  owned _ := owned_of_mem_cut
  stops _ := stops_cut
  exchange := by
    refine ⟨[], cutAll extent (cut extent head ls).2, fun body hb => ?_⟩
    have hc : cut extent head (body ++ (cut extent head ls).2) =
        (⟨head, body⟩, (cut extent head ls).2) := cut_append_below hb fun _ => stops_cut
    rw [List.nil_append, cutFrom, hc]
    rfl

theorem Framed.cutFrom {head : Line} (h : Framed (cutAll extent) e above below s)
    (ha : above ≠ []) (hd : (cut extent head ls).2 = above ++ (s.body ++ below)) :
    Framed (cutFrom extent head) e ((cut extent head ls).1.body ++ above) below s where
  owned := h.owned
  stops := h.stops
  exchange := by
    obtain ⟨pre, post, hx⟩ := h.exchange
    obtain ⟨a, as, rfl⟩ := List.exists_cons_of_ne_nil ha
    refine ⟨(cut extent head ls).1 :: pre, post, fun body hb => ?_⟩
    -- The first section ends above the other body, with the same line as before.
    have hs : ∀ l ∈ (a :: as ++ (body ++ below)).head?, (extent head).owns head l = false := by
      have ha : ∀ l ∈ (cut extent head ls).2.head?, (extent head).owns head l = false :=
        fun _ => stops_cut
      rwa [hd] at ha
    rw [List.append_assoc, Section.cutFrom, cut_append_below (fun _ => owned_of_mem_cut) hs,
      hx body hb]
    rfl

/-- Directly above the body of a section stands its head. -/
theorem exists_framed_cutFrom {head : Line} (hs : s ∈ cutFrom extent head ls)
    (h : s ∈ cutAll extent (cut extent head ls).2 → ∃ above below,
      (cut extent head ls).2 = above ++ (s.body ++ below) ∧ above.getLast? = some s.head ∧
        Framed (cutAll extent) (extent s.head) above below s) :
    ∃ above below, ls = above ++ (s.body ++ below) ∧ (head :: above).getLast? = some s.head ∧
      Framed (cutFrom extent head) (extent s.head) above below s := by
  have hls := body_append_cut extent head ls
  rcases List.mem_cons.mp hs with rfl | hs
  · exact ⟨[], (cut extent head ls).2, hls.symm, rfl, framed_cut head ls⟩
  · obtain ⟨above, below, hd, hl, hf⟩ := h hs
    have ha : above ≠ [] := by
      rintro rfl
      cases hl
    refine ⟨(cut extent head ls).1.body ++ above, below, ?_, ?_, hf.cutFrom ha hd⟩
    · rw [List.append_assoc, ← hd, hls]
    · rw [← List.cons_append, List.getLast?_append, hl, Option.some_or]

theorem Framed.cons {l : Line} (h : Framed cutting e above below s)
    {cutting' : List Line → List Section} (hc : ∀ ms, cutting' (l :: ms) = cutting ms) :
    Framed cutting' e (l :: above) below s where
  owned := h.owned
  stops := h.stops
  exchange := by
    obtain ⟨pre, post, hx⟩ := h.exchange
    exact ⟨pre, post, fun body hb => (hc _).trans (hx body hb)⟩

theorem exists_framed_cutAll (hs : s ∈ cutAll extent ls) : ∃ above below,
    ls = above ++ (s.body ++ below) ∧ above.getLast? = some s.head ∧
      Framed (cutAll extent) (extent s.head) above below s := by
  fun_induction cutAll extent ls with
  | case1 => cases hs
  | case2 l ls hl ih =>
      obtain ⟨above, below, rfl, hh, hf⟩ := exists_framed_cutFrom hs ih
      refine ⟨l :: above, below, rfl, hh, hf.cons fun ms => ?_⟩
      rw [cutAll, if_pos hl]
      rfl
  | case3 l ls hl ih =>
      obtain ⟨above, below, rfl, hh, hf⟩ := ih hs
      refine ⟨l :: above, below, rfl, ?_, hf.cons fun ms => ?_⟩
      · rw [List.getLast?_cons, hh]
        rfl
      · rw [cutAll, if_neg hl]

theorem mem_of_mem_level {ss : List Section} (h : s ∈ level ss) : s ∈ ss := by
  cases ss with
  | nil => exact h
  | cons first ss => exact (List.mem_filter.mp h).1

theorem head_of_mem_cutAll (hs : s ∈ cutAll extent ls) :
    s.head ∈ ls ∧ s.head.isSignificant = true := by
  fun_induction cutAll extent ls with
  | case1 => cases hs
  | case2 l ls hl ih =>
      rcases List.mem_cons.mp hs with rfl | hs
      · exact ⟨List.mem_cons_self, hl⟩
      · exact ⟨List.mem_cons_of_mem l ((List.dropWhile_subset _) (ih hs).1), (ih hs).2⟩
  | case3 l ls hl ih => exact ⟨List.mem_cons_of_mem l (ih hs).1, (ih hs).2⟩

theorem exists_level_append {pre post : List Section} (h : s ∈ level (pre ++ s :: post)) :
    ∃ pre' post', ∀ body,
      level (pre ++ ⟨s.head, body⟩ :: post) = pre' ++ ⟨s.head, body⟩ :: post' := by
  cases pre with
  | nil =>
      refine ⟨[], post.filter fun t => t.head.indent ≤ s.head.indent, fun body => ?_⟩
      simp [level]
  | cons first pre =>
      have hi : s.head.indent ≤ first.head.indent := by simpa using (List.mem_filter.mp h).2
      refine ⟨(first :: pre).filter fun t => t.head.indent ≤ first.head.indent,
        post.filter fun t => t.head.indent ≤ first.head.indent, fun body => ?_⟩
      simp [level, hi]

theorem Framed.level (h : Framed cutting e above below s)
    (hs : s ∈ level (cutting (above ++ (s.body ++ below)))) :
    Framed (fun ls => level (cutting ls)) e above below s where
  owned := h.owned
  stops := h.stops
  exchange := by
    obtain ⟨pre, post, hx⟩ := h.exchange
    rw [hx s.body h.owned] at hs
    obtain ⟨pre', post', hl⟩ := exists_level_append hs
    exact ⟨pre', post', fun body hb => by rw [hx body hb, hl]⟩

end Section

/-! ## What a section is read as -/

/-- What lines are read as: all of them, a section among them, a job, and so on down to the field of
a step. -/
inductive Role
  | document
  | setting
  | job
  | jobField
  | step
  | stepField
  deriving DecidableEq

namespace Role

/-- What the sections of a section are read as. -/
def next : Role → Role
  | document => setting
  | setting => job
  | job => jobField
  | jobField => step
  | step | stepField => stepField

/-- How far the line of a section reaches. A document has no line of its own. -/
def extent : Role → Line → Extent
  | document => fun _ => .nested
  | setting => Workflow.extent
  | job => fun _ => .nested
  | jobField => Job.extent
  | step => fun _ => .nested
  | stepField => Step.extent

/-- The sections that a section is read as. -/
def cut (tabWidth : Nat) (role : Role) (head : Line) (body : List Line) : List Section :=
  match role with
  | document => Section.cutAll Workflow.extent body
  | setting =>
    match Workflow.field? head with
    | some (.jobs, _) => Section.cutAll (fun _ => .nested) body
    | _ => []
  | job => if (Entry.of? head.text).isSome then Job.fields body else []
  | jobField =>
    match Job.field? head with
    | some (.steps, _) => Section.cutAll (fun _ => .nested) body
    | _ => []
  | step => if head.isItem then Step.fields tabWidth ⟨head, body⟩ else []
  | stepField => []

end Role

/-- A section, and what it is read as. -/
structure Place extends Section where
  role : Role

namespace Place

variable {p q : Place}

/-- A document as a whole. -/
def document (ls : List Line) : Place :=
  ⟨⟨⟨0, 0, []⟩, ls⟩, .document⟩

def inner (tabWidth : Nat) (p : Place) : List Place :=
  (p.role.cut tabWidth p.head p.body).map fun s => ⟨s, p.role.next⟩

/-- A place that reading comes to from another one, level by level. -/
def Holds (tabWidth : Nat) : Place → Place → Prop :=
  Relation.ReflTransGen fun p q => q ∈ p.inner tabWidth

/-- The place that indices lead to, level by level. -/
def follow (tabWidth : Nat) (p : Place) : List Nat → Option Place
  | [] => some p
  | i :: is => (p.inner tabWidth)[i]?.bind fun q => q.follow tabWidth is

/-- Whether a line below the head of a place still belongs to it. -/
def Owns (p : Place) (l : Line) : Prop :=
  p.role = .document ∨ (p.role.extent p.head).owns p.head l = true

end Place

namespace Role

variable {role : Role} {tabWidth : Nat} {head : Line} {body : List Line} {s : Section}

/-- The ways in which the body of a section is cut. Only a step may have its first field behind the
dash, on the line of its own head. -/
inductive Cuts (extent : Line → Extent) (head : Line) (cutting : List Line → List Section) : Prop
  | all (h : ∀ ms, cutting ms = Section.cutAll extent ms)
  | level (h : ∀ ms, cutting ms = Section.level (Section.cutAll extent ms))
  | behindDash (first : Line) (hn : first.number = head.number) (hi : head.indent < first.indent)
      (h : ∀ ms, cutting ms = Section.level (Section.cutFrom extent first ms))

/-- What has sections owns what is deeper, and its body is cut in one of these ways. -/
theorem cuts_of_mem (hs : s ∈ role.cut tabWidth head body) :
    (role = .document ∨ role.extent head = .nested ∨ role.extent head = .block) ∧
      Cuts role.next.extent head (role.cut tabWidth head) := by
  cases role with
  | document => exact ⟨.inl rfl, .all fun _ => rfl⟩
  | setting =>
      rcases hk : Workflow.field? head with - | ⟨key, value⟩
      · simp [cut, hk] at hs
      · cases key with
        | jobs =>
            have he : setting.extent head = .nested := by
              simp only [extent, Workflow.extent, hk, Workflow.Key.extent]
            exact ⟨.inr (.inl he), .all fun ms => by simp only [cut, hk, next, extent]⟩
        | _ => simp [cut, hk] at hs
  | job =>
      by_cases hk : (Entry.of? head.text).isSome = true
      · exact ⟨.inr (.inl rfl), .level fun ms => if_pos hk⟩
      · simp [cut, hk] at hs
  | jobField =>
      rcases hk : Job.field? head with - | ⟨key, value⟩
      · simp [cut, hk] at hs
      · cases key with
        | steps =>
            have he : jobField.extent head = .block := by
              simp only [extent, Job.extent, hk, Job.Key.extent]
            exact ⟨.inr (.inr he), .all fun ms => by simp only [cut, hk, next, extent]⟩
        | _ => simp [cut, hk] at hs
  | step =>
      refine ⟨.inr (.inl rfl), ?_⟩
      by_cases hk : head.isItem = true
      · by_cases hc : (Step.contentLine tabWidth head).text = []
        · refine .level fun ms => ?_
          simp only [cut, if_pos hk, Step.fields, if_pos hc, next, extent]
        · refine .behindDash (Step.contentLine tabWidth head) rfl ?_ fun ms => ?_
          · simp only [Step.contentLine]
            omega
          · simp only [cut, if_pos hk, Step.fields, if_neg hc, next, extent, Section.cutFrom]
      · simp [cut, hk] at hs
  | stepField => cases hs

theorem number_eq {first l m : Line} {above : List Line} (hn : first.number = head.number)
    (hm : (first :: above).getLast? = some m) (hl : l ∈ (head :: above).getLast?) :
    l.number = m.number := by
  rw [List.getLast?_cons] at hm hl
  cases ha : above.getLast? with
  | none =>
      rw [ha] at hm hl
      cases hm
      cases hl
      exact hn.symm
  | some k =>
      rw [ha] at hm hl
      cases hm
      cases hl
      rfl

/-- Every section of a section stands between lines of its body, directly below the line that its
head is on. -/
theorem exists_framed (hs : s ∈ role.cut tabWidth head body) : ∃ above below,
    body = above ++ (s.body ++ below) ∧
      (∀ l ∈ (head :: above).getLast?, l.number = s.head.number) ∧
        s.Framed (role.cut tabWidth head) (role.next.extent s.head) above below := by
  have hc {above : List Line} (hl : above.getLast? = some s.head) :
      (head :: above).getLast? = some s.head := by rw [List.getLast?_cons, hl, Option.getD_some]
  cases (cuts_of_mem hs).2 with
  | all h =>
      rw [h] at hs
      obtain ⟨above, below, rfl, hl, hf⟩ := Section.exists_framed_cutAll hs
      exact ⟨above, below, rfl, fun _ => number_eq rfl (hc hl), funext h ▸ hf⟩
  | level h =>
      rw [h] at hs
      obtain ⟨above, below, rfl, hl, hf⟩ :=
        Section.exists_framed_cutAll (Section.mem_of_mem_level hs)
      exact ⟨above, below, rfl, fun _ => number_eq rfl (hc hl), funext h ▸ hf.level hs⟩
  | behindDash first hd _ h =>
      rw [h] at hs
      obtain ⟨above, below, rfl, hl, hf⟩ :=
        Section.exists_framed_cutFrom (Section.mem_of_mem_level hs) Section.exists_framed_cutAll
      exact ⟨above, below, rfl, fun _ => number_eq hd hl, funext h ▸ hf.level hs⟩

theorem head_of_mem (hs : s ∈ role.cut tabWidth head body) :
    head.indent < s.head.indent ∨ s.head ∈ body ∧ s.head.isSignificant = true := by
  cases (cuts_of_mem hs).2 with
  | all h =>
      rw [h] at hs
      exact .inr (Section.head_of_mem_cutAll hs)
  | level h =>
      rw [h] at hs
      exact .inr (Section.head_of_mem_cutAll (Section.mem_of_mem_level hs))
  | behindDash first _ hi h =>
      rw [h] at hs
      rcases List.mem_cons.mp (Section.mem_of_mem_level hs) with rfl | hs
      · exact .inl hi
      · have hh := Section.head_of_mem_cutAll hs
        exact .inr ⟨List.dropWhile_subset _ hh.1, hh.2⟩

end Role

/-! ## Places within places -/

namespace Extent

variable {e e' : Extent} {head mid l : Line}

/-- What a line owns is deeper than it, a list item at its depth, or without meaning. -/
theorem cases_of_owns (h : e.owns head l = true) : l.isSignificant = false ∨
    head.indent < l.indent ∨ e = .block ∧ head.indent = l.indent ∧ l.isItem = true := by
  cases e with
  | alone => cases h
  | block => simpa [owns, or_assoc] using h
  | nested => simpa [owns] using h
  | scalar =>
      simp only [owns, Bool.or_eq_true, decide_eq_true_eq] at h
      exact h.imp Line.isSignificant_of_isBlank .inl

/-- A line owns what is owned by a line that it owns. -/
theorem owns_of_owns (he : e = .nested ∨ e = .block)
    (hm : head.indent < mid.indent ∨ e.owns head mid = true ∧ mid.isSignificant = true)
    (h : e'.owns mid l = true) : e.owns head l = true := by
  have hle : head.indent < mid.indent ∨ e = .block ∧ head.indent = mid.indent :=
    hm.elim .inl fun ⟨ho, hs⟩ => (cases_of_owns ho).elim (fun hn => by simp [hs] at hn)
      fun ho => ho.imp_right fun hb => ⟨hb.1, hb.2.1⟩
  have hl : l.isSignificant = false ∨ head.indent < l.indent ∨
      e = .block ∧ head.indent = l.indent ∧ l.isItem = true := by
    rcases cases_of_owns h with hn | hlt | ⟨-, heq, hi⟩
    · exact .inl hn
    · exact .inr (.inl (by omega))
    · rcases hle with hlt | ⟨hb, heq'⟩
      · exact .inr (.inl (by omega))
      · exact .inr (.inr ⟨hb, heq'.trans heq, hi⟩)
  rcases he with rfl | rfl
  · simpa [owns] using hl
  · simpa [owns, or_assoc] using hl

end Extent

namespace Place

variable {tabWidth : Nat} {p c q : Place} {l : Line}

theorem holds_of_follow {is : List Nat} (h : p.follow tabWidth is = some q) :
    p.Holds tabWidth q := by
  induction is generalizing p with
  | nil =>
      cases h
      exact .refl
  | cons i is ih =>
      obtain ⟨c, hc, hq⟩ := Option.bind_eq_some_iff.mp h
      exact .head (List.mem_of_getElem? hc) (ih hq)

theorem owns_of_mem_inner (hp : ∀ l ∈ p.body, p.Owns l) (hq : q ∈ p.inner tabWidth)
    (h : q.Owns l) : p.Owns l := by
  obtain ⟨s, hs, rfl⟩ := List.mem_map.mp hq
  have hl : (p.role.next.extent s.head).owns s.head l = true :=
    h.resolve_left (by cases p.role <;> simp [Role.next])
  refine or_iff_not_imp_left.mpr fun hd =>
    Extent.owns_of_owns ((Role.cuts_of_mem hs).1.resolve_left hd)
      ((Role.head_of_mem hs).imp_right fun hm => ⟨(hp _ hm.1).resolve_left hd, hm.2⟩) hl

theorem owns_of_mem_body {ls : List Line} (h : (document ls).Holds tabWidth p) :
    ∀ l ∈ p.body, p.Owns l := by
  cases h with
  | refl => exact fun _ _ => .inl rfl
  | tail _ hp =>
      obtain ⟨s, hs, rfl⟩ := List.mem_map.mp hp
      obtain ⟨above, below, -, -, hf⟩ := Role.exists_framed hs
      exact fun l hl => .inr (hf.owned l hl)

/-- The body of a place stands between the given lines of another one, directly below the line that
its head is on, and ends where the place owns no more. -/
structure Embeds (p q : Place) (above below : List Line) : Prop where
  body : p.body = above ++ (q.body ++ below)
  number : ∀ l ∈ (p.head :: above).getLast?, l.number = q.head.number
  stops : ∀ l ∈ below.head?, ¬q.Owns l
  owns : ∀ l, q.Owns l → p.Owns l

theorem embeds_refl (p : Place) : p.Embeds p [] [] where
  body := by rw [List.nil_append, List.append_nil]
  number l hl := by
    cases hl
    rfl
  stops _ hl := by cases hl
  owns _ h := h

theorem Embeds.of_mem_inner (hp : ∀ l ∈ p.body, p.Owns l) (hc : c ∈ p.inner tabWidth)
    {above below : List Line} (h : c.Embeds q above below) : ∃ above' below',
      p.Embeds q (above' ++ above) (below ++ below') ∧ ∃ pre post,
        ∀ body, (∀ l ∈ body, c.Owns l) →
          p.role.cut tabWidth p.head (above' ++ (body ++ below')) = pre ++ ⟨c.head, body⟩ :: post := by
  have howns : ∀ l, c.Owns l → p.Owns l := fun _ => owns_of_mem_inner hp hc
  obtain ⟨s, hs, rfl⟩ := List.mem_map.mp hc
  have hd : p.role.next ≠ .document := by cases p.role <;> simp [Role.next]
  obtain ⟨above', below', hb, hn, hf⟩ := Role.exists_framed hs
  obtain ⟨pre, post, hx⟩ := hf.exchange
  refine ⟨above', below', ⟨?_, ?_, ?_, fun l hl => howns l (h.owns l hl)⟩, pre, post,
    fun body hl => hx body fun l hm => (hl l hm).resolve_left hd⟩
  · rw [hb, h.body]
    simp only [List.append_assoc]
  · intro l hl
    rw [← List.cons_append, List.getLast?_append] at hl
    cases ha : above.getLast? with
    | none =>
        rw [ha, Option.none_or] at hl
        rw [hn l hl]
        refine h.number s.head ?_
        rw [List.getLast?_eq_none_iff.mp ha]
        rfl
    | some m =>
        rw [ha] at hl
        cases hl
        exact h.number l (by rw [List.getLast?_cons, ha, Option.getD_some, Option.mem_def])
  · intro l hl hq
    rw [List.head?_append] at hl
    cases hb : below.head? with
    | none =>
        rw [hb, Option.none_or] at hl
        have hc := (h.owns l hq).resolve_left hd
        rw [hf.stops l hl] at hc
        cases hc
    | some m =>
        rw [hb] at hl
        cases hl
        exact h.stops l hb hq

/-- Where reading comes to stands between lines of where it starts. -/
theorem exists_embeds {ls : List Line} (hp : (document ls).Holds tabWidth p)
    (hq : p.Holds tabWidth q) : ∃ above below, p.Embeds q above below := by
  revert hp
  refine Relation.ReflTransGen.head_induction_on hq (fun _ => ⟨[], [], q.embeds_refl⟩)
    fun hc _ ih hp => ?_
  obtain ⟨above, below, he⟩ := ih (hp.tail hc)
  obtain ⟨above', below', he', -⟩ := he.of_mem_inner (owns_of_mem_body hp) hc
  exact ⟨_, _, he'⟩

end Place

end WorkflowLint
