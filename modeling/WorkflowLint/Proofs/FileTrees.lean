import WorkflowLint.FileTree
import WorkflowLint.Proofs.PathOrder

/-!
# Trees of files

Which names lead down to which files, which trees a file system can hold, and trees that differ only
in the order in which their folders list what they have. Looking a path up does not see that order.
-/
namespace WorkflowLint

theorem exists_eq_ok_of_isOk {ε α : Type} {e : Except ε α} (h : e.isOk = true) :
    ∃ a, e = .ok a := by
  cases e with
  | error _ => cases h
  | ok a => exact ⟨a, rfl⟩

namespace FileTree

/-! ## What is below a tree -/

/-- The names that lead down to a file, and what reading it comes to. -/
inductive Leads : FileTree → List String → FileContent → Prop
  | file (content : FileContent) : Leads (file content) [] content
  | folder {refusal : Option FileError} {es : List (String × FileTree)} {name : String}
      {t : FileTree} {names : List String} {content : FileContent} : (name, t) ∈ es →
        Leads t names content → Leads (folder refusal es) (name :: names) content

/-- All folders list what they have, and of everything in them the kind can be told. -/
inductive Listed : FileTree → Prop
  | file (content : FileContent) : Listed (file content)
  | special (content : FileContent) : Listed (special content)
  | folder {es : List (String × FileTree)} : (∀ e ∈ es, Listed e.2) → Listed (folder none es)

variable {t u v : FileTree} {refusal : Option FileError} {es fs : List (String × FileTree)}
  {name : String} {names : List String} {content : FileContent} {around around' : List FileTree}
  {cs ds : List Path.Component} {path : String}

theorem leads_folder_iff : Leads (folder refusal es) names content ↔
    ∃ e ∈ es, ∃ below, names = e.1 :: below ∧ Leads e.2 below content := by
  constructor
  · rintro (_ | ⟨he, hl⟩)
    exact ⟨_, he, _, rfl, hl⟩
  · rintro ⟨e, he, below, rfl, hl⟩
    exact .folder he hl

theorem Leads.ne_nil (h : Leads t names content) (hd : t.isFolder = true) : names ≠ [] := by
  cases h with
  | file => cases hd
  | folder => exact List.cons_ne_nil _ _

/-- A list of what is below a tree has the files that names lead down to. -/
def Lists (t : FileTree) (below : List (List String × FileContent)) : Prop :=
  ∀ names content, (names, content) ∈ below ↔ Leads t names content

theorem listed_folder_iff : Listed (folder refusal es) ↔ refusal = none ∧ ∀ e ∈ es, Listed e.2 := by
  constructor
  · rintro ⟨⟩
    exact ⟨rfl, ‹_›⟩
  · rintro ⟨rfl, h⟩
    exact .folder h

mutual

/-- What is below a tree is listed, if all folders can be. -/
theorem files_spec : (t : FileTree) →
    (Listed t ∧ ∃ below, t.files = .ok below ∧ t.Lists below) ∨
      (¬Listed t ∧ ∃ e, t.files = .error e)
  | file c => by
    refine .inl ⟨.file c, [([], c)], rfl, fun names content => ?_⟩
    rw [List.mem_singleton, Prod.mk.injEq]
    constructor
    · rintro ⟨rfl, rfl⟩
      exact .file _
    · rintro ⟨⟩
      exact ⟨rfl, rfl⟩
  | special c => .inl ⟨.special c, [], rfl, fun _ _ => ⟨nofun, nofun⟩⟩
  | folder none es => by
    obtain ⟨hl, below, hf, hb⟩ | ⟨hl, hf⟩ := filesOf_spec es
    · exact .inl ⟨.folder hl, below, hf, fun names content =>
        (hb names content).trans leads_folder_iff.symm⟩
    · exact .inr ⟨fun h => hl (listed_folder_iff.mp h).2, hf⟩
  | folder (some e) es => .inr ⟨nofun, e, rfl⟩
  | unknown e => .inr ⟨nofun, e, rfl⟩

theorem filesOf_spec : (es : List (String × FileTree)) →
    ((∀ e ∈ es, Listed e.2) ∧ ∃ below, filesOf es = .ok below ∧ ∀ names content,
      (names, content) ∈ below ↔ ∃ e ∈ es, ∃ rest, names = e.1 :: rest ∧ Leads e.2 rest content) ∨
    ((¬∀ e ∈ es, Listed e.2) ∧ ∃ e, filesOf es = .error e)
  | [] => .inl ⟨by simp, [], rfl, by simp⟩
  | (name, t) :: es => by
    obtain ⟨hl, below, hf, hb⟩ | ⟨hl, e, hf⟩ := files_spec t
    · obtain ⟨hls, beside, hfs, hbs⟩ | ⟨hls, e, hfs⟩ := filesOf_spec es
      · refine .inl ⟨List.forall_mem_cons.mpr ⟨hl, hls⟩, _, by rw [filesOf, hf, hfs]; rfl,
          fun names content => ?_⟩
        have hh : (∃ f ∈ below, (name :: f.1, f.2) = (names, content)) ↔
            ∃ rest, names = name :: rest ∧ Leads t rest content := by
          constructor
          · rintro ⟨⟨rest, c⟩, hm, he⟩
            obtain ⟨rfl, rfl⟩ := Prod.mk.injEq .. ▸ he
            exact ⟨rest, rfl, (hb rest c).mp hm⟩
          · rintro ⟨rest, rfl, hr⟩
            exact ⟨(rest, content), (hb rest content).mpr hr, rfl⟩
        rw [List.mem_append, List.mem_map, hh, hbs, List.exists_mem_cons_iff]
      · exact .inr ⟨fun h => hls (List.forall_mem_cons.mp h).2, e, by rw [filesOf, hf, hfs]; rfl⟩
    · exact .inr ⟨fun h => hl (List.forall_mem_cons.mp h).1, e, by rw [filesOf, hf]; rfl⟩

end

/-! ## Trees that a file system can hold -/

/-- Every folder calls what it has by different names, and each is what a file can be called. -/
inductive Proper : FileTree → Prop
  | file (content : FileContent) : Proper (file content)
  | special (content : FileContent) : Proper (special content)
  | folder {refusal : Option FileError} {es : List (String × FileTree)} : (es.map (·.1)).Nodup →
      (∀ name t, (name, t) ∈ es → Path.IsFileName name) →
      (∀ name t, (name, t) ∈ es → Proper t) → Proper (folder refusal es)
  | unknown (e : FileError) : Proper (unknown e)

@[simp]
theorem proper_file (content : FileContent) : (file content).Proper :=
  .file content

@[simp]
theorem proper_special (content : FileContent) : (special content).Proper :=
  .special content

theorem proper_folder_iff : (folder refusal es).Proper ↔
    (es.map (·.1)).Nodup ∧ ∀ e ∈ es, Path.IsFileName e.1 ∧ e.2.Proper := by
  constructor
  · rintro (_ | _ | ⟨hd, hn, hp⟩)
    exact ⟨hd, fun e he => ⟨hn e.1 e.2 he, hp e.1 e.2 he⟩⟩
  · rintro ⟨hd, he⟩
    exact .folder hd (fun n t hm => (he (n, t) hm).1) fun n t hm => (he (n, t) hm).2

theorem Proper.nodup (h : Proper (.folder refusal es)) : (es.map (·.1)).Nodup :=
  (proper_folder_iff.mp h).1

theorem Proper.isFileName (h : Proper (.folder refusal es)) (he : (name, t) ∈ es) :
    Path.IsFileName name :=
  ((proper_folder_iff.mp h).2 _ he).1

theorem Proper.entry (h : Proper (.folder refusal es)) (he : (name, t) ∈ es) : Proper t :=
  ((proper_folder_iff.mp h).2 _ he).2

theorem mem_of_child? (h : child? name es = some t) : (name, t) ∈ es := by
  obtain ⟨e, he, rfl⟩ := Option.map_eq_some_iff.mp h
  have hn : e.1 = name := by simpa using List.find?_some he
  exact hn ▸ List.mem_of_find?_eq_some he

theorem child?_eq_some_iff (h : (es.map (·.1)).Nodup) :
    child? name es = some t ↔ (name, t) ∈ es := by
  refine ⟨mem_of_child?, fun hm => ?_⟩
  induction es with
  | nil => cases hm
  | cons e es ih =>
    obtain ⟨hn, hd⟩ := List.nodup_cons.mp (List.map_cons ▸ h)
    obtain rfl | hm := List.mem_cons.mp hm
    · simp [child?]
    · have he : e.1 ≠ name := fun he => hn (List.mem_map.mpr ⟨_, hm, he.symm⟩)
      rw [child?, List.find?_cons_of_neg (by simpa using he)]
      exact ih hd hm

theorem Leads.isFileName (h : Leads t names content) (ht : t.Proper) :
    ∀ name ∈ names, Path.IsFileName name := by
  induction h with
  | file => simp
  | folder he _ ih =>
    rintro n (_ | ⟨_, hn⟩)
    · exact ht.isFileName he
    · exact ih (ht.entry he) n hn

/-! ## Following components -/

theorem follow_cons_ok {c : Path.Component} (h : follow around t (c :: cs) = .ok u) :
    ∃ s, enter around t c = .ok s ∧ follow s.1 s.2 cs = .ok u := by
  rw [follow] at h
  cases he : enter around t c with
  | error e => rw [he] at h; cases h
  | ok s => rw [he] at h; exact ⟨s, rfl, h⟩

/-- Only folders can be entered, and what is entered is one of them, or the innermost or outermost
folder around, or something in it. -/
theorem enter_ok {c : Path.Component} {s : List FileTree × FileTree}
    (h : enter around t c = .ok s) : ∃ refusal es, t = folder refusal es ∧
      (c = .root ∧ s = ([], around.getLast?.getD t) ∨ c = .here ∧ s = (around, t) ∨
        c = .up ∧ s = (around.tail, around.head?.getD t) ∨
          ∃ n below, c = .name n ∧ child? n es = some below ∧ s = (t :: around, below)) := by
  cases t with
  | file | special | unknown => cases c <;> cases h
  | folder refusal es =>
    refine ⟨refusal, es, rfl, ?_⟩
    cases c with
    | root => cases h; exact .inl ⟨rfl, rfl⟩
    | here => cases h; exact .inr (.inl ⟨rfl, rfl⟩)
    | up => cases h; exact .inr (.inr (.inl ⟨rfl, rfl⟩))
    | name n =>
      rw [enter] at h
      cases hc : child? n es with
      | none => rw [hc] at h; cases h
      | some below =>
        rw [hc] at h
        cases h
        exact .inr (.inr (.inr ⟨n, below, rfl, hc, rfl⟩))

theorem Proper.enter {c : Path.Component} {s : List FileTree × FileTree} (ht : t.Proper)
    (ha : ∀ outer ∈ around, outer.Proper) (h : enter around t c = .ok s) :
    s.2.Proper ∧ ∀ outer ∈ s.1, outer.Proper := by
  obtain ⟨refusal, es, rfl, ⟨-, rfl⟩ | ⟨-, rfl⟩ | ⟨-, rfl⟩ | ⟨n, below, -, hc, rfl⟩⟩ := enter_ok h
  · refine ⟨?_, by simp⟩
    cases hl : around.getLast? with
    | none => exact ht
    | some outer => exact ha outer (List.mem_of_getLast? hl)
  · exact ⟨ht, ha⟩
  · cases around with
    | nil => exact ⟨ht, by simp⟩
    | cons outer around => exact List.forall_mem_cons.mp ha
  · exact ⟨ht.entry (mem_of_child? hc), List.forall_mem_cons.mpr ⟨ht, ha⟩⟩

/-- Following some components and then others is following the first ones and going on from there,
in the folders that have been entered. -/
theorem Proper.follow_append (ht : t.Proper) (ha : ∀ outer ∈ around, outer.Proper)
    (h : follow around t cs = .ok u) :
    u.Proper ∧ ∃ entered, ∀ ds, follow around t (cs ++ ds) = follow entered u ds := by
  induction cs generalizing around t with
  | nil =>
    obtain rfl := Except.ok.inj h
    exact ⟨ht, around, fun ds => rfl⟩
  | cons c cs ih =>
    obtain ⟨s, he, hs⟩ := follow_cons_ok h
    obtain ⟨ht', ha'⟩ := ht.enter ha he
    obtain ⟨hu, entered, hd⟩ := ih ht' ha' hs
    refine ⟨hu, entered, fun ds => ?_⟩
    rw [List.cons_append, follow, he]
    exact hd ds

theorem Leads.follow (h : Leads t names content) (ht : t.Proper) (around : List FileTree) :
    follow around t (names.map .name) = .ok (.file content) := by
  induction h generalizing around with
  | file => rfl
  | folder he _ ih =>
    rw [List.map_cons, FileTree.follow, FileTree.enter, (child?_eq_some_iff ht.nodup).mpr he]
    exact ih (ht.entry he) _

/-! ## Trees listed in another order -/

/-- The same files, with the entries of any folders listed in another order. -/
inductive Reordered : FileTree → FileTree → Prop
  | refl (t : FileTree) : Reordered t t
  | listed (refusal : Option FileError) {es fs : List (String × FileTree)} : es.Perm fs →
      Reordered (folder refusal es) (folder refusal fs)
  | inside {t u : FileTree} (refusal : Option FileError) (es : List (String × FileTree))
      (name : String) (fs : List (String × FileTree)) : Reordered t u →
        Reordered (folder refusal (es ++ (name, t) :: fs)) (folder refusal (es ++ (name, u) :: fs))
  | trans {t u v : FileTree} : Reordered t u → Reordered u v → Reordered t v

/-- What a folder has, and nothing else has anything. -/
def entries (t : FileTree) : List (String × FileTree) :=
  t.entries?.getD []

namespace Reordered

theorem symm (h : Reordered t u) : Reordered u t := by
  induction h with
  | refl => exact .refl _
  | listed r hp => exact .listed r hp.symm
  | inside r es name fs _ ih => exact .inside r es name fs ih
  | trans _ _ ih₁ ih₂ => exact ih₂.trans ih₁

/-- What is no folder has no other order. -/
theorem eq_of_not_isFolder (h : Reordered t u) (ht : t.isFolder = false) : u = t := by
  induction h with
  | refl => rfl
  | listed => cases ht
  | inside => cases ht
  | trans _ _ ih₁ ih₂ =>
    obtain rfl := ih₁ ht
    exact ih₂ ht

theorem folder_of_folder (h : Reordered (folder refusal es) u) : ∃ fs, u = folder refusal fs := by
  generalize ht : folder refusal es = t at h
  induction h generalizing es with
  | refl => exact ⟨es, ht.symm⟩
  | listed r hp =>
    cases ht
    exact ⟨_, rfl⟩
  | inside =>
    cases ht
    exact ⟨_, rfl⟩
  | trans _ _ ih₁ ih₂ =>
    obtain ⟨fs, rfl⟩ := ih₁ ht
    exact ih₂ rfl

theorem isFolder_eq (h : Reordered t u) : u.isFolder = t.isFolder := by
  cases ht : t.isFolder with
  | false => rw [h.eq_of_not_isFolder ht, ht]
  | true =>
    cases t with
    | file | special | unknown => cases ht
    | folder refusal es =>
      obtain ⟨fs, rfl⟩ := h.folder_of_folder
      rfl

theorem content_eq (h : Reordered t u) : u.content = t.content := by
  cases t with
  | file | special | unknown => rw [h.eq_of_not_isFolder rfl]
  | folder refusal es =>
    obtain ⟨fs, rfl⟩ := h.folder_of_folder
    cases refusal <;> rfl

theorem entry (h : Reordered t u) {t' : FileTree} (he : (name, t') ∈ t.entries) :
    ∃ u', (name, u') ∈ u.entries ∧ Reordered t' u' := by
  induction h generalizing t' with
  | refl => exact ⟨t', he, .refl t'⟩
  | listed _ hp => exact ⟨t', hp.mem_iff.mp he, .refl t'⟩
  | @inside t u _ es n fs h _ =>
    obtain he | he := List.mem_append.mp he
    · exact ⟨t', List.mem_append_left _ he, .refl t'⟩
    · obtain he | he := List.mem_cons.mp he
      · obtain ⟨rfl, rfl⟩ := Prod.mk.inj he
        exact ⟨u, List.mem_append_right _ List.mem_cons_self, h⟩
      · exact ⟨t', List.mem_append_right _ (List.mem_cons_of_mem _ he), .refl t'⟩
  | trans _ _ ih₁ ih₂ =>
    obtain ⟨u', hu, h₁⟩ := ih₁ he
    obtain ⟨v', hv, h₂⟩ := ih₂ hu
    exact ⟨v', hv, h₁.trans h₂⟩

theorem leads (h : Reordered t u) (hl : Leads t names content) : Leads u names content := by
  induction hl generalizing u with
  | file => exact h.eq_of_not_isFolder rfl ▸ .file _
  | folder he _ ih =>
    obtain ⟨fs, rfl⟩ := h.folder_of_folder
    obtain ⟨u', hu, hr⟩ := h.entry he
    exact .folder hu (ih hr)

theorem listed_of_listed (h : Reordered t u) (hl : Listed t) : Listed u := by
  induction hl generalizing u with
  | file | special => rw [h.eq_of_not_isFolder rfl]; constructor
  | folder _ ih =>
    obtain ⟨fs, rfl⟩ := h.folder_of_folder
    refine .folder fun (name, below) he => ?_
    obtain ⟨t', ht, hr⟩ := h.symm.entry he
    exact ih _ ht hr.symm

theorem proper (h : Reordered t u) (ht : t.Proper) : u.Proper := by
  induction h with
  | refl => exact ht
  | listed _ hp =>
    refine .folder ((hp.map _).nodup_iff.mp ht.nodup) (fun n t he => ?_) (fun n t he => ?_)
    · exact ht.isFileName (hp.mem_iff.mpr he)
    · exact ht.entry (hp.mem_iff.mpr he)
  | @inside t u r es n fs h ih =>
    have hm : (n, t) ∈ es ++ (n, t) :: fs := List.mem_append_right _ List.mem_cons_self
    -- The names are those that there were, and only one entry is another tree.
    refine .folder (by simpa using ht.nodup) (fun m v he => ?_) (fun m v he => ?_)
    · obtain ⟨w, hw, _⟩ := (Reordered.inside r es n fs h).symm.entry he
      exact ht.isFileName hw
    · obtain he | he := List.mem_append.mp he
      · exact ht.entry (List.mem_append_left _ he)
      · obtain he | he := List.mem_cons.mp he
        · obtain ⟨rfl, rfl⟩ := Prod.mk.inj he
          exact ih (ht.entry hm)
        · exact ht.entry (List.mem_append_right _ (List.mem_cons_of_mem _ he))
  | trans _ _ ih₁ ih₂ => exact ih₂ (ih₁ ht)

theorem getD {o o' : Option FileTree} (h : Reordered t u) (ho : Option.Rel Reordered o o') :
    Reordered (o.getD t) (o'.getD u) := by
  cases ho with
  | none => exact h
  | some ho => exact ho

theorem getLast? (ha : List.Forall₂ Reordered around around') :
    Option.Rel Reordered around.getLast? around'.getLast? := by
  induction ha with
  | nil => exact .none
  | @cons t u around around' h _ ih =>
    rw [List.getLast?_cons, List.getLast?_cons]
    exact .some (h.getD ih)

theorem enter {c : Path.Component} {s : List FileTree × FileTree} (h : Reordered t u)
    (ha : List.Forall₂ Reordered around around') (hu : u.Proper) (he : enter around t c = .ok s) :
    ∃ s', FileTree.enter around' u c = .ok s' ∧ Reordered s.2 s'.2 ∧
      List.Forall₂ Reordered s.1 s'.1 := by
  obtain ⟨refusal, es, rfl, hs⟩ := enter_ok he
  obtain ⟨fs, rfl⟩ := h.folder_of_folder
  obtain ⟨rfl, rfl⟩ | ⟨rfl, rfl⟩ | ⟨rfl, rfl⟩ | ⟨n, below, rfl, hc, rfl⟩ := hs
  · exact ⟨_, rfl, h.getD (getLast? ha), .nil⟩
  · exact ⟨_, rfl, h, ha⟩
  · cases ha with
    | nil => exact ⟨_, rfl, h, .nil⟩
    | cons ho ha => exact ⟨_, rfl, ho, ha⟩
  · obtain ⟨below', hb, hr⟩ := h.entry (mem_of_child? hc)
    exact ⟨_, by rw [FileTree.enter, (child?_eq_some_iff hu.nodup).mpr hb], hr, .cons h ha⟩

theorem follow (h : Reordered t u) (ha : List.Forall₂ Reordered around around') (hu : u.Proper)
    (hp : ∀ outer ∈ around', outer.Proper) (hf : follow around t cs = .ok v) :
    ∃ w, FileTree.follow around' u cs = .ok w ∧ Reordered v w := by
  induction cs generalizing t u around around' with
  | nil =>
    obtain rfl := Except.ok.inj hf
    exact ⟨u, rfl, h⟩
  | cons c cs ih =>
    obtain ⟨s, he, hs⟩ := follow_cons_ok hf
    obtain ⟨s', he', ht', ha'⟩ := h.enter ha hu he
    obtain ⟨hu', hp'⟩ := hu.enter hp he'
    obtain ⟨w, hw, hr⟩ := ih ht' ha' hu' hp' hs
    exact ⟨w, by rw [FileTree.follow, he']; exact hw, hr⟩

end Reordered

end FileTree

/-! ## File systems -/

namespace FileSystem

variable {s s' : FileSystem} {t u : FileTree} {path : String}

/-- Everything in the file system is called what it can be. -/
def Proper (s : FileSystem) : Prop :=
  s.root.Proper

/-- The same file system, with the entries of any folders listed in another order. -/
structure Reordered (s s' : FileSystem) : Prop where
  root : s.root.Reordered s'.root
  current : s'.current = s.current

theorem Reordered.symm (h : s.Reordered s') : s'.Reordered s :=
  ⟨h.root.symm, h.current.symm⟩

theorem Reordered.proper (h : s.Reordered s') (hs : s.Proper) : s'.Proper :=
  h.root.proper hs

theorem lookup_eq_ok_iff : s.lookup path = .ok t ↔
    path ≠ "" ∧
      s.root.follow [] (s.start (Path.components path) ++ Path.components path) = .ok t ∧
        (∀ e, t ≠ .unknown e) ∧ (t.isFolder = false → Path.demandsFolder path = false) := by
  unfold lookup
  by_cases hp : path = ""
  · simp [hp]
  · rw [if_neg hp]
    cases hf : s.root.follow [] (s.start (Path.components path) ++ Path.components path) with
    | error e => simp
    | ok v =>
      by_cases hv : v = t
      · subst hv
        cases v with
        | unknown e => simp
        | folder r es => simp [hp, FileTree.isFolder, FileTree.entries?]
        | file c | special c =>
          cases hd : Path.demandsFolder path <;> simp [hp, FileTree.isFolder, FileTree.entries?]
      · cases v with
        | unknown e => simp [hv]
        | folder r es => simp [hv, FileTree.isFolder, FileTree.entries?]
        | file c | special c =>
          cases hd : Path.demandsFolder path <;>
            simp [hv, FileTree.isFolder, FileTree.entries?]

theorem start_append {cs : List Path.Component} (h : cs ≠ []) (ds : List Path.Component) :
    s.start (cs ++ ds) = s.start cs := by
  rw [start, start, List.head?_append_of_ne_nil cs h]

theorem Reordered.lookup (h : s.Reordered s') (hs : s'.Proper) (hl : s.lookup path = .ok t) :
    ∃ u, s'.lookup path = .ok u ∧ t.Reordered u := by
  obtain ⟨hp, hf, hk, hd⟩ := lookup_eq_ok_iff.mp hl
  have hstart : s'.start (Path.components path) = s.start (Path.components path) := by
    rw [start, start, h.current]
  obtain ⟨u, hu, hr⟩ := h.root.follow .nil hs (by simp) hf
  refine ⟨u, lookup_eq_ok_iff.mpr ⟨hp, hstart ▸ hu, fun e he => ?_, fun hn => ?_⟩, hr⟩
  · exact hk e ((hr.symm.eq_of_not_isFolder (he ▸ rfl)).trans he)
  · exact hd (hr.isFolder_eq ▸ hn)

end FileSystem

end WorkflowLint
