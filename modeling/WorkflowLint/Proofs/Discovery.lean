import Mathlib.Data.List.Perm.Basic
import Mathlib.Data.List.TakeWhile
import WorkflowLint.FileTree.Discovery
import WorkflowLint.Proofs.FileTrees

/-!
# What is found

The files that arguments name are found each once and in the order of their paths, whatever order
the arguments are given in, whatever they have in common and however folders list what they have.
-/
namespace WorkflowLint.FileSystem

/-- There is something under the path. -/
def Has (s : FileSystem) (path : String) : Prop :=
  ∃ t, s.lookup path = .ok t

/-- If the path is that of a folder, it and the folders in it list what they have. -/
def Lists (s : FileSystem) (path : String) : Prop :=
  ∀ t, s.lookup path = .ok t → t.isFolder = true → t.Listed

/-- What an argument names: itself if it is no folder, and of a folder the files anywhere below it
whose path from there is included. -/
inductive Names (s : FileSystem) (includes : String → Bool) (path : String) : Found → Prop
  | itself {t : FileTree} : s.lookup path = .ok t → t.isFolder = false →
      Names s includes path ⟨path, t.content⟩
  | below {t : FileTree} {names : List String} {content : FileContent} :
      s.lookup path = .ok t → t.isFolder = true → t.Leads names content →
        includes ("/".intercalate names) = true →
          Names s includes path ⟨Path.join path names, content⟩

/-- The files that some arguments name, in the order of their paths, and none of them twice. -/
structure Finds (s : FileSystem) (includes : String → Bool) (paths : List String)
    (fs : List Found) : Prop where
  increasing : fs.Pairwise fun f g => Path.components f.path < Path.components g.path
  named : ∀ f ∈ fs, ∃ path ∈ paths, s.Names includes path f
  all : ∀ path ∈ paths, ∀ f, s.Names includes path f →
    ∃ g ∈ fs, Path.components g.path = Path.components f.path

/-- Where files have been found. -/
def places (fs : List Found) : List (List Path.Component) :=
  fs.map fun f => Path.components f.path

variable {s s' : FileSystem} {includes : String → Bool} {path : String}
  {paths paths' : List String} {f : Found} {fs gs : List Found}

/-! ## One argument -/

theorem included_spec (includes : String → Bool) {t : FileTree} (hl : s.lookup path = .ok t)
    (hd : t.isFolder = true) :
    (t.Listed ∧ ∃ fs, t.included includes path = .ok fs ∧ ∀ f, f ∈ fs ↔ s.Names includes path f) ∨
      (¬t.Listed ∧ ∃ e, t.included includes path = .error e) := by
  unfold FileTree.included
  obtain ⟨ht, below, hf, hb⟩ | ⟨ht, e, hf⟩ := t.files_spec
  · refine .inl ⟨ht, _, by rw [hf]; rfl, fun f => ?_⟩
    rw [List.mem_map]
    constructor
    · rintro ⟨⟨names, content⟩, hm, rfl⟩
      obtain ⟨hm, hi⟩ := List.mem_filter.mp hm
      exact .below hl hd ((hb names content).mp hm) hi
    · rintro (⟨hl', hn⟩ | ⟨hl', -, hm, hi⟩)
      · cases hl.symm.trans hl'
        cases hd.symm.trans hn
      · cases hl.symm.trans hl'
        exact ⟨_, List.mem_filter.mpr ⟨(hb _ _).mpr hm, hi⟩, rfl⟩
  · exact .inr ⟨ht, e, by rw [hf]; rfl⟩

/-- What an argument names is told, if there is something and it can be listed. -/
theorem named_spec (s : FileSystem) (includes : String → Bool) (path : String) :
    ((s.Has path ∧ s.Lists path) ∧
      ∃ fs, s.named includes path = .ok fs ∧ ∀ f, f ∈ fs ↔ s.Names includes path f) ∨
    (¬(s.Has path ∧ s.Lists path) ∧ ∃ e, s.named includes path = .error e) := by
  unfold FileSystem.named
  cases hl : s.lookup path with
  | error e =>
    refine .inr ⟨fun h => ?_, e, rfl⟩
    obtain ⟨⟨t, ht⟩, -⟩ := h
    cases hl.symm.trans ht
  | ok t =>
    have hiff : s.Lists path ↔ (t.isFolder = true → t.Listed) := by simp [Lists, hl]
    rw [Except.bind, hiff]
    cases hd : t.isFolder with
    | true =>
      obtain ⟨ht, hf⟩ | ⟨ht, he⟩ := included_spec includes hl hd
      · exact .inl ⟨⟨⟨t, hl⟩, fun _ => ht⟩, hf⟩
      · exact .inr ⟨fun h => ht (h.2 rfl), he⟩
    | false =>
      refine .inl ⟨⟨⟨t, hl⟩, nofun⟩, _, rfl, fun f => ?_⟩
      rw [List.mem_singleton]
      constructor
      · rintro rfl
        exact .itself hl hd
      · rintro (⟨hl', -⟩ | ⟨hl', hn, -, -⟩)
        · cases hl.symm.trans hl'
          rfl
        · cases hl.symm.trans hl'
          cases hd.symm.trans hn

theorem mapM_named_spec (s : FileSystem) (includes : String → Bool) (paths : List String) :
    ((∀ path ∈ paths, s.Has path ∧ s.Lists path) ∧
      ∃ fss, paths.mapM (s.named includes) = .ok fss ∧
        ∀ f, f ∈ fss.flatten ↔ ∃ path ∈ paths, s.Names includes path f) ∨
    ((¬∀ path ∈ paths, s.Has path ∧ s.Lists path) ∧
      ∃ e, paths.mapM (s.named includes) = .error e) := by
  induction paths with
  | nil => exact .inl ⟨by simp, [], rfl, by simp⟩
  | cons path paths ih =>
    rw [List.mapM_cons]
    obtain ⟨hp, fs, hn, hf⟩ | ⟨hp, e, hn⟩ := s.named_spec includes path
    · obtain ⟨hps, fss, hm, hfs⟩ | ⟨hps, e, hm⟩ := ih
      · refine .inl ⟨List.forall_mem_cons.mpr ⟨hp, hps⟩, fs :: fss, by rw [hn, hm]; rfl,
          fun f => ?_⟩
        rw [List.flatten_cons, List.mem_append, hf, hfs, List.exists_mem_cons_iff]
      · exact .inr ⟨fun h => hps (List.forall_mem_cons.mp h).2, e, by rw [hn, hm]; rfl⟩
    · exact .inr ⟨fun h => hp (List.forall_mem_cons.mp h).1, e, by rw [hn]; rfl⟩

/-! ## What a path holds -/

/-- A path that a file is found by is one that leads to it. -/
theorem Names.lookup (h : s.Names includes path f) (hs : s.Proper) :
    ∃ t, s.lookup f.path = .ok t ∧ t.content = f.content := by
  cases h with
  | itself hl _ => exact ⟨_, hl, rfl⟩
  | @below t names content hl hd hb hi =>
    obtain ⟨hp, hf, -⟩ := lookup_eq_ok_iff.mp hl
    obtain ⟨hu, entered, hgo⟩ := FileTree.Proper.follow_append hs (by simp) hf
    have hn := hb.isFileName hu
    have hne := hb.ne_nil hd
    refine ⟨.file content, lookup_eq_ok_iff.mpr ⟨Path.join_ne_empty _ _, ?_, nofun, fun _ =>
      Path.demandsFolder_join hne hn⟩, rfl⟩
    rw [Path.components_join hp hne hn, start_append (Path.components_ne_nil hp),
      ← List.append_assoc, hgo]
    exact hb.follow hu entered

theorem Names.read (h : s.Names includes path f) (hs : s.Proper) : s.read f.path = f.content := by
  obtain ⟨t, hl, hc⟩ := h.lookup hs
  rw [FileSystem.read, hl]
  exact hc

theorem Names.content_eq {g : Found} {path' : String} (hf : s.Names includes path f)
    (hg : s.Names includes path' g) (hs : s.Proper)
    (h : Path.components g.path = Path.components f.path) : g.content = f.content := by
  obtain ⟨t, ht, hc⟩ := hf.lookup hs
  obtain ⟨u, hu, hd⟩ := hg.lookup hs
  obtain ⟨-, h₁, -⟩ := lookup_eq_ok_iff.mp ht
  obtain ⟨-, h₂, -⟩ := lookup_eq_ok_iff.mp hu
  rw [h, h₁] at h₂
  obtain rfl := Except.ok.inj h₂
  exact hd.symm.trans hc

/-! ## Repetitions -/

theorem dropRepeats_sublist : (fs : List Found) → (Found.dropRepeats fs).Sublist fs
  | [] => .slnil
  | f :: fs => ((List.dropWhile_sublist _).trans (dropRepeats_sublist fs)).cons_cons f

theorem mem_dropWhile_of_ne {p : Found → Bool} (h : f ∈ fs) (hp : p f = false) :
    f ∈ fs.dropWhile p := by
  induction fs with
  | nil => cases h
  | cons e fs ih =>
    cases he : p e with
    | false => rwa [List.dropWhile_cons_of_neg (by simp [he])]
    | true =>
      rw [List.dropWhile_cons_of_pos he]
      obtain rfl | h := List.mem_cons.mp h
      · cases he.symm.trans hp
      · exact ih h

theorem exists_mem_dropRepeats (h : f ∈ fs) :
    ∃ g ∈ Found.dropRepeats fs, Path.components g.path = Path.components f.path := by
  induction fs with
  | nil => cases h
  | cons e fs ih =>
    obtain rfl | h := List.mem_cons.mp h
    · exact ⟨f, List.mem_cons_self, rfl⟩
    · obtain ⟨g, hg, hc⟩ := ih h
      -- What stands for `f` further down is left out only when `e` stands for it as well.
      by_cases he : Path.components g.path = Path.components e.path
      · exact ⟨e, List.mem_cons_self, he.symm.trans hc⟩
      · exact ⟨g, List.mem_cons_of_mem e (mem_dropWhile_of_ne hg (by simpa using he)), hc⟩

theorem lt_of_mem_dropWhile {g : Found}
    (hs : fs.Pairwise fun f g => Path.components f.path < Path.components g.path)
    (hf : ∀ g ∈ fs, Path.le f.path g.path = true)
    (hg : g ∈ fs.dropWhile fun g => Path.components g.path = Path.components f.path) :
    Path.components f.path < Path.components g.path := by
  cases fs with
  | nil => cases hg
  | cons e fs =>
    obtain ⟨he, _⟩ := List.pairwise_cons.mp hs
    by_cases hc : Path.components e.path = Path.components f.path
    · rw [List.dropWhile_cons_of_pos (by simpa using hc)] at hg
      exact hc ▸ he g ((List.dropWhile_sublist _).subset hg)
    · rw [List.dropWhile_cons_of_neg (by simpa using hc)] at hg
      have hl := Path.lt_of_not_lt_of_ne (Path.le_iff.mp (hf e List.mem_cons_self)) (Ne.symm hc)
      obtain rfl | hg := List.mem_cons.mp hg
      · exact hl
      · exact List.lt_trans hl (he g hg)

theorem pairwise_dropRepeats (h : fs.Pairwise fun f g => Path.le f.path g.path = true) :
    (Found.dropRepeats fs).Pairwise fun f g => Path.components f.path < Path.components g.path := by
  induction fs with
  | nil => exact .nil
  | cons f fs ih =>
    obtain ⟨hf, hs⟩ := List.pairwise_cons.mp h
    refine List.pairwise_cons.mpr ⟨fun g hg => ?_, (ih hs).sublist (List.dropWhile_sublist _)⟩
    exact lt_of_mem_dropWhile (ih hs) (fun e he => hf e ((dropRepeats_sublist fs).subset he)) hg

/-- The files are found just if there is something under every path and all of it can be listed. -/
theorem discover_spec (s : FileSystem) (includes : String → Bool) (paths : List String) :
    ((∀ path ∈ paths, s.Has path ∧ s.Lists path) ∧
      ∃ fs, s.discover includes paths = .ok fs ∧ s.Finds includes paths fs) ∨
    ((¬∀ path ∈ paths, s.Has path ∧ s.Lists path) ∧
      ∃ e, s.discover includes paths = .error e) := by
  obtain ⟨hp, fss, hm, hf⟩ | ⟨hp, e, hm⟩ := s.mapM_named_spec includes paths
  · refine .inl ⟨hp, ?_⟩
    have hperm := List.mergeSort_perm fss.flatten fun f g => Path.le f.path g.path
    have hs := @List.pairwise_mergeSort Found (fun f g => Path.le f.path g.path)
      (fun f g h => Path.le_trans f.path g.path h.path) (fun f g => Path.le_total f.path g.path)
      fss.flatten
    have hd : s.discover includes paths =
        .ok (Found.dropRepeats (fss.flatten.mergeSort fun f g => Path.le f.path g.path)) := by
      rw [discover, hm]
      rfl
    generalize fss.flatten.mergeSort (fun f g => Path.le f.path g.path) = sorted at hperm hs hd
    refine ⟨Found.dropRepeats sorted, hd, pairwise_dropRepeats hs, fun f hm => ?_,
      fun path hm f hn => ?_⟩
    · exact (hf f).mp (hperm.mem_iff.mp ((dropRepeats_sublist sorted).subset hm))
    · exact exists_mem_dropRepeats (hperm.mem_iff.mpr ((hf f).mpr ⟨path, hm, hn⟩))
  · exact .inr ⟨hp, e, by rw [discover, hm]; rfl⟩

theorem exists_finds (h : ∀ path ∈ paths, s.Has path ∧ s.Lists path) (includes : String → Bool) :
    ∃ fs, s.discover includes paths = .ok fs ∧ s.Finds includes paths fs := by
  obtain ⟨-, hf⟩ | ⟨hn, -⟩ := s.discover_spec includes paths
  · exact hf
  · exact absurd h hn

theorem finds_of_discover (h : s.discover includes paths = .ok fs) :
    (∀ path ∈ paths, s.Has path ∧ s.Lists path) ∧ s.Finds includes paths fs := by
  obtain ⟨hp, gs, hd, hg⟩ | ⟨-, e, hd⟩ := s.discover_spec includes paths
  · obtain rfl := Except.ok.inj (hd.symm.trans h)
    exact ⟨hp, hg⟩
  · cases hd.symm.trans h

theorem Finds.mem_places_iff (h : s.Finds includes paths fs) {cs : List Path.Component} :
    cs ∈ places fs ↔
      ∃ path ∈ paths, ∃ f, s.Names includes path f ∧ Path.components f.path = cs := by
  unfold places
  rw [List.mem_map]
  constructor
  · rintro ⟨f, hf, rfl⟩
    obtain ⟨path, hpath, hn⟩ := h.named f hf
    exact ⟨path, hpath, f, hn, rfl⟩
  · rintro ⟨path, hpath, f, hn, rfl⟩
    exact h.all path hpath f hn

theorem Finds.pairwise_places (h : s.Finds includes paths fs) : (places fs).Pairwise (· < ·) :=
  List.pairwise_map.mpr h.increasing

/-- The order leaves no choice: what is found is told by where it is. -/
theorem Finds.places_eq (hf : s.Finds includes paths fs) (hg : s'.Finds includes paths' gs)
    (h : ∀ cs, cs ∈ places gs ↔ cs ∈ places fs) : places gs = places fs := by
  have hn : ∀ {cs : List (List Path.Component)}, cs.Pairwise (· < ·) → cs.Nodup := fun hs =>
    hs.imp fun {cs ds} hl (he : cs = ds) => List.lt_irrefl ds (he ▸ hl)
  have hp := (List.perm_ext_iff_of_nodup (hn hg.pairwise_places) (hn hf.pairwise_places)).mpr h
  refine hp.eq_of_pairwise (fun cs ds _ _ h₁ h₂ => ?_) hg.pairwise_places hf.pairwise_places
  exact absurd (List.lt_trans h₁ h₂) (List.lt_irrefl _)

theorem Finds.discover_places (hf : s.Finds includes paths fs)
    (hp : ∀ path ∈ paths', s'.Has path ∧ s'.Lists path)
    (h : ∀ cs, (∃ path ∈ paths', ∃ f, s'.Names includes path f ∧ Path.components f.path = cs) ↔
      cs ∈ places fs) :
    (s'.discover includes paths').map places = .ok (places fs) := by
  obtain ⟨gs, hd, hg⟩ := exists_finds hp includes
  rw [hd]
  exact congrArg Except.ok (hf.places_eq hg fun cs => hg.mem_places_iff.trans (h cs))

/-- Every file of the first list is in the second one, as far as its place and content go. -/
def Within (fs gs : List Found) : Prop :=
  ∀ f ∈ fs, ∃ g ∈ gs, Path.components g.path = Path.components f.path ∧ g.content = f.content

theorem Finds.exists_same (hf : s.Finds includes paths fs) (hs : s.Proper) (hp : path ∈ paths)
    (hn : s.Names includes path f) :
    ∃ g ∈ fs, Path.components g.path = Path.components f.path ∧ g.content = f.content := by
  obtain ⟨g, hg, hc⟩ := hf.all path hp f hn
  obtain ⟨_, -, hn'⟩ := hf.named g hg
  exact ⟨g, hg, hc, hn.content_eq hn' hs hc⟩

theorem Finds.within (hf : s.Finds includes paths fs) (hg : s.Finds includes paths' gs)
    (hs : s.Proper) (h : ∀ path ∈ paths, path ∈ paths') : Within fs gs := by
  intro f hm
  obtain ⟨path, hp, hn⟩ := hf.named f hm
  exact hg.exists_same hs (h path hp) hn

namespace Reordered

theorem has (h : s.Reordered s') (hs : s'.Proper) (hp : s.Has path) : s'.Has path := by
  obtain ⟨t, ht⟩ := hp
  obtain ⟨u, hu, _⟩ := h.lookup hs ht
  exact ⟨u, hu⟩

theorem lists (h : s.Reordered s') (hs : s.Proper) (hp : s.Lists path) : s'.Lists path := by
  intro u hu hd
  obtain ⟨t, ht, hr⟩ := h.symm.lookup hs hu
  exact hr.symm.listed_of_listed (hp t ht (hr.isFolder_eq ▸ hd))

theorem names (h : s.Reordered s') (hs : s'.Proper) (hn : s.Names includes path f) :
    s'.Names includes path f := by
  cases hn with
  | itself hl hd =>
    obtain ⟨u, hu, hr⟩ := h.lookup hs hl
    rw [← hr.content_eq]
    exact .itself hu (hr.isFolder_eq ▸ hd)
  | below hl hd hb hi =>
    obtain ⟨u, hu, hr⟩ := h.lookup hs hl
    exact .below hu (hr.isFolder_eq ▸ hd) (hr.leads hb) hi

end Reordered

/-! ## The whole -/

/-- What some arguments name is found once and in order, and it is found whenever there is something
under each of them: only a folder that refuses to list its entries, or an entry whose kind cannot be
told, is in the way. Where the files are does not change with the order of the arguments and their
repetitions, with further arguments for what is found already, nor with the order in which folders
list their entries. -/
theorem discover_finds (s : FileSystem) (includes : String → Bool) (paths : List String) :
    ((∃ fs, s.discover includes paths = .ok fs) ↔ ∀ path ∈ paths, s.Has path ∧ s.Lists path) ∧
      ∀ fs, s.discover includes paths = .ok fs →
        s.Finds includes paths fs ∧
        (∀ paths' : List String, (∀ path, path ∈ paths' ↔ path ∈ paths) →
          (s.discover includes paths').map places = .ok (places fs)) ∧
        (∀ more : List String, (∀ path ∈ more, s.Has path ∧ s.Lists path) →
          (∀ path ∈ more, ∀ f, s.Names includes path f → Path.components f.path ∈ places fs) →
          (s.discover includes (paths ++ more)).map places = .ok (places fs)) ∧
        (s.Proper → ∀ s', s.Reordered s' →
          (s'.discover includes paths).map places = .ok (places fs)) := by
  refine ⟨⟨fun ⟨fs, hd⟩ => (finds_of_discover hd).1, fun h => ?_⟩, fun fs hd => ?_⟩
  · obtain ⟨fs, hd, -⟩ := exists_finds h includes
    exact ⟨fs, hd⟩
  obtain ⟨h, hf⟩ := finds_of_discover hd
  refine ⟨hf, fun paths' hp => ?_, fun more hm hi => ?_, fun hs s' hr => ?_⟩
  · refine hf.discover_places (fun path hpath => h path ((hp path).mp hpath)) fun cs => ?_
    simp only [hf.mem_places_iff, hp]
  · refine hf.discover_places (List.forall_mem_append.mpr ⟨h, hm⟩) fun cs => ⟨?_, fun hc => ?_⟩
    · rintro ⟨path, hp, f, hn, rfl⟩
      obtain hp | hp := List.mem_append.mp hp
      · exact hf.mem_places_iff.mpr ⟨path, hp, f, hn, rfl⟩
      · exact hi path hp f hn
    · obtain ⟨path, hp, found⟩ := hf.mem_places_iff.mp hc
      exact ⟨path, List.mem_append_left more hp, found⟩
  · have hs' : s'.Proper := hr.proper hs
    have hp : ∀ path ∈ paths, s'.Has path ∧ s'.Lists path := fun path hpath =>
      ⟨hr.has hs' (h path hpath).1, hr.lists hs (h path hpath).2⟩
    refine hf.discover_places hp fun cs => ?_
    rw [hf.mem_places_iff]
    constructor
    · rintro ⟨path, hp, f, hn, hc⟩
      exact ⟨path, hp, f, hr.symm.names hs hn, hc⟩
    · rintro ⟨path, hp, f, hn, hc⟩
      exact ⟨path, hp, f, hr.names hs' hn, hc⟩

/-- Workflows in two folders, a file that may not be read and a pipe among them, and a folder beside
them that does not list what it has. -/
def nested : FileSystem where
  root := .folder none [
    ("work", .folder none [
      ("wf", .folder none [
        ("b.yml", .file (.ok [98])),
        ("old", .folder none [("a.yml", .file (.ok [])), ("notes", .file (.ok [110]))]),
        ("pipe.yml", .special (.ok [])),
        ("a.yml", .file (.error .denied))]),
      ("x.yml", .file (.ok [120]))]),
    ("locked", .folder (some .denied) [])]
  current := ["work"]

def nestedArguments : List String :=
  ["x.yml", "wf/", "/work/wf/old", "../work/wf", "wf", "wf/pipe.yml"]

theorem nested_found : nested.Proper ∧
    (∀ path ∈ nestedArguments, nested.Has path ∧ nested.Lists path) ∧
    (∃ fs, nested.discover (·.endsWith ".yml") nestedArguments = .ok fs ∧
      nested.Finds (·.endsWith ".yml") nestedArguments fs ∧
      (nested.discover (·.endsWith ".yml") nestedArguments.reverse).map places = .ok (places fs) ∧
      ∀ s', nested.Reordered s' →
        (s'.discover (·.endsWith ".yml") nestedArguments).map places = .ok (places fs)) ∧
    nested.Has "../locked" ∧ ∀ fs, nested.discover (·.endsWith ".yml") ["../locked"] ≠ .ok fs := by
  have hp : nested.Proper := by
    simp [nested, Proper, FileTree.proper_folder_iff, Path.isFileName_iff]
  have hl : nested.Has "../locked" := exists_eq_ok_of_isOk (by decide +kernel)
  have hn : (nested.discover (·.endsWith ".yml") ["../locked"]).isOk = false := by decide +kernel
  obtain ⟨hiff, hfound⟩ := discover_finds nested (·.endsWith ".yml") nestedArguments
  obtain ⟨fs, hd⟩ : ∃ fs, nested.discover (·.endsWith ".yml") nestedArguments = .ok fs :=
    exists_eq_ok_of_isOk (by decide +kernel)
  obtain ⟨hf, hs, -, hr⟩ := hfound fs hd
  refine ⟨hp, hiff.mp ⟨fs, hd⟩, ⟨fs, hd, hf, hs _ fun _ => List.mem_reverse, hr hp⟩, hl, ?_⟩
  intro gs hg
  rw [hg] at hn
  cases hn

end WorkflowLint.FileSystem
