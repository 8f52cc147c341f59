import Workbench.Bundle.Run
import Workbench.Proofs.Disk.Likeness
import Workbench.Proofs.Path.Relative

/-! What a bundle is put together of. It depends on what is below the source directory only: neither on
where the directory is, nor on the order in which directories are read. -/
namespace Workbench

/-- Whether two computations both fail, or come to results that belong together. -/
def Concur {ε α β : Type} (R : α → β → Prop) : Except ε α → Except ε β → Prop
  | .ok a, .ok b => R a b
  | .error _, .error _ => True
  | _, _ => False

namespace Concur

variable {ε α β γ δ : Type} {R : α → β → Prop} {S : γ → δ → Prop} {x : Except ε α} {y : Except ε β}
  (concur : Concur R x y)
include concur

theorem cases : (∃ a b, x = .ok a ∧ y = .ok b ∧ R a b) ∨ ∃ e e', x = .error e ∧ y = .error e' := by
  cases x with
  | ok a =>
    cases y with
    | ok b => exact .inl ⟨a, b, rfl, rfl, concur⟩
    | error e => cases concur
  | error e =>
    cases y with
    | ok b => cases concur
    | error e' => exact .inr ⟨e, e', rfl, rfl⟩

theorem bind (f : α → Except ε γ) (g : β → Except ε δ) (each : ∀ a b, R a b → Concur S (f a) (g b)) :
    Concur S (x >>= f) (y >>= g) := by
  rcases concur.cases with ⟨a, b, rfl, rfl, related⟩ | ⟨e, e', rfl, rfl⟩
  · exact each a b related
  · trivial

end Concur

namespace Path

variable {src src' : Path}

theorem fileName?_under (nonempty : src.text ≠ "") (names : Location) (proper : names.IsProper)
    (named : names ≠ []) : (src.under names).fileName? = names.getLast? := by
  obtain ⟨above, name, rfl⟩ := (List.eq_nil_or_concat' names).resolve_left named
  have descends := descends nonempty above fun n member => proper n (List.mem_append_left _ member)
  rw [under_concat, fileName?_child descends.nonempty (proper name (by simp)), List.getLast?_concat]

end Path

namespace Bundle

open Disk (Alike)

variable {d d' : Disk} {src src' : Path} {l l' : Location}

/-- How a source is called in a bundle, by the names that lead to it from the source directory. -/
def labelOf (names : Location) : String :=
  String.ofList ((Text.joinWith ['/'] (names.map String.toList)).map
    fun c => if c = '\\' then '/' else c)

theorem label_under (nonempty : src.text ≠ "") (names : Location) (proper : names.IsProper)
    (named : names ≠ []) : label src (src.under names) = labelOf names := by
  rw [label, Path.relativeTo?_under nonempty names proper named]
  simp [labelOf]

theorem hasExtension_congr (extensions : List String) (p q : Path) (same : p.fileName? = q.fileName?) :
    hasExtension extensions p = hasExtension extensions q := by
  rw [hasExtension, hasExtension, Path.fileExtension?, Path.fileExtension?, same]

theorem scriptPriority_congr (p q : Path) (same : p.fileName? = q.fileName?) :
    scriptPriority p = scriptPriority q := by
  rw [scriptPriority, scriptPriority, same]

/-- The names that lead to the regular files which a search for sources meets below a directory. -/
def filesIn (d : Disk) (l : Location) : List Location :=
  (d.below looksInto d.depth l).filterMap fun b => if b.entry.isFile then some b.names else none

theorem filesBelow_of_directory (located : d.locate true src = .ok l)
    (directory : d.get? l = some .directory) :
    filesBelow d src = .ok ((filesIn d l).map src.under) := by
  obtain ⟨e, solid, walked⟩ := Disk.walk_eq_ok looksInto src l located directory
  rw [filesBelow, walked]
  refine congrArg Except.ok ?_
  cases e with
  | file content runnable => cases solid
  | directory | link target =>
    -- the start of the walk is no file
    rw [List.filterMap_cons_none rfl, filesIn, List.map_filterMap]
    congr 1
    funext b
    cases b.entry <;> rfl

theorem discoverSources_of_directory (located : d.locate true src = .ok l)
    (directory : d.get? l = some .directory) :
    discoverSources d src = .ok
      (((filesIn d l).map src.under).filter (hasExtension scriptExtensions),
        ((filesIn d l).map src.under).filter (hasExtension styleExtensions)) := by
  rw [discoverSources, filesBelow_of_directory located directory]
  rfl

theorem filesIn_eq (alike : Alike d l d' l') (tree : d.IsTree) (tree' : d'.IsTree) :
    filesIn d l = filesIn d' l' := by
  have blind (name : String) (e : Entry) : looksInto name e.bare = looksInto name e := by
    cases e <;> simp [looksInto, Entry.bare]
  have bare (found : List Below) :
      (found.filterMap fun b => if b.entry.isFile then some b.names else none) =
        (found.map Below.bare).filterMap fun b => if b.entry.isFile then some b.names else none := by
    rw [List.filterMap_map]
    congr 1
    funext b
    cases entry : b.entry <;> simp [Below.bare, Entry.bare, entry, Entry.isFile]
  rw [filesIn, filesIn, bare, alike.below_depth_eq tree tree' looksInto blind, ← bare]

/-- What a search meets is on the disk. -/
theorem mem_filesIn (tree : d.IsTree) (names : Location) (listed : names ∈ filesIn d l) :
    names ≠ [] ∧ names.IsProper ∧
      ∃ content runnable, d.get? (l ++ names) = some (.file content runnable) := by
  obtain ⟨b, member, kept⟩ := List.mem_filterMap.mp listed
  obtain ⟨nonempty, found⟩ := Disk.get?_of_mem_below _ _ _ b member
  split at kept
  next file =>
    cases kept
    refine ⟨nonempty, fun name inside => ?_, ?_⟩
    · exact tree.isProper _ (by rw [found]; rfl) name (List.mem_append_right _ inside)
    · rw [found]
      cases entry : b.entry with
      | file content runnable => exact ⟨content, runnable, rfl⟩
      | directory => simp [entry, Entry.isFile] at file
      | link target => simp [entry, Entry.isFile] at file
  next => cases kept

/-- Names that lead from two source directories to files with the same text, or to none that is a
text. -/
structure Mirrored (d : Disk) (src : Path) (d' : Disk) (src' : Path) (files : List Location) :
    Prop where
  proper : ∀ names ∈ files, names ≠ [] ∧ names.IsProper
  texts : ∀ names ∈ files,
    Concur Eq (d.fileText (src.under names)) (d'.fileText (src'.under names))

theorem mirrored_filesIn (alike : Alike d l d' l') (tree : d.IsTree) (tree' : d'.IsTree)
    (located : d.locate true src = .ok l) (located' : d'.locate true src' = .ok l') :
    Mirrored d src d' src' (filesIn d l) := by
  constructor
  · intro names listed
    obtain ⟨nonempty, proper, -⟩ := mem_filesIn tree names listed
    exact ⟨nonempty, proper⟩
  · intro names listed
    obtain ⟨-, -, content, runnable, found⟩ := mem_filesIn tree names listed
    rw [filesIn_eq alike tree tree'] at listed
    obtain ⟨-, -, content', runnable', found'⟩ := mem_filesIn tree' names listed
    -- the file that is met by these names on the other disk has the same content
    have same := alike names
    rw [found, found'] at same
    have content_eq : content = content' := by simpa [Entry.bare] using same
    subst content_eq
    rw [Disk.fileText, Disk.fileText, Disk.readText_under tree located names content _ found,
      Disk.readText_under tree' located' names content _ found']
    cases String.fromUTF8? content with
    | some text => rfl
    | none => trivial

section

variable {files : List Location} (mirrored : Mirrored d src d' src' files)
  (nonempty : src.text ≠ "") (nonempty' : src'.text ≠ "")

include mirrored in
theorem Mirrored.of_subset {part : List Location} (inside : part ⊆ files) :
    Mirrored d src d' src' part :=
  ⟨fun names listed => mirrored.proper names (inside listed),
    fun names listed => mirrored.texts names (inside listed)⟩

include mirrored nonempty nonempty'

theorem Mirrored.fileName?_eq (names : Location) (listed : names ∈ files) :
    (src.under names).fileName? = (src'.under names).fileName? := by
  obtain ⟨named, proper⟩ := mirrored.proper names listed
  rw [Path.fileName?_under nonempty names proper named,
    Path.fileName?_under nonempty' names proper named]

theorem Mirrored.label_eq (names : Location) (listed : names ∈ files) :
    label src (src.under names) = label src' (src'.under names) := by
  obtain ⟨named, proper⟩ := mirrored.proper names listed
  rw [label_under nonempty names proper named, label_under nonempty' names proper named]

theorem Mirrored.labels_eq :
    (files.map src.under).map (label src) = (files.map src'.under).map (label src') := by
  rw [List.map_map, List.map_map]
  exact List.map_congr_left fun names listed => mirrored.label_eq nonempty nonempty' names listed

/-- The files with certain extensions are found below both directories by the same names. -/
theorem Mirrored.filter_hasExtension (extensions : List String) :
    ∃ part, Mirrored d src d' src' part ∧
      (files.map src.under).filter (hasExtension extensions) = part.map src.under ∧
      (files.map src'.under).filter (hasExtension extensions) = part.map src'.under := by
  refine ⟨files.filter (hasExtension extensions ∘ src.under),
    mirrored.of_subset fun names listed => List.mem_of_mem_filter listed, List.filter_map, ?_⟩
  rw [List.filter_map]
  congr 1
  refine List.filter_congr fun names listed => ?_
  exact hasExtension_congr extensions _ _ (mirrored.fileName?_eq nonempty nonempty' names listed).symm

/-- Scripts come in the same order below both directories. -/
theorem Mirrored.orderScripts_eq :
    ∃ ordered, Mirrored d src d' src' ordered ∧
      orderScripts (files.map src.under) = ordered.map src.under ∧
      orderScripts (files.map src'.under) = ordered.map src'.under := by
  refine ⟨files.mergeSort fun a b =>
      decide (scriptPriority (src.under a) ≤ scriptPriority (src.under b)),
    mirrored.of_subset (List.mergeSort_perm _ _).subset, ?_, ?_⟩
  · -- the priority goes by the last of the names
    refine (List.map_mergeSort fun a _ b _ => ?_).symm
    rfl
  · refine (List.map_mergeSort fun a first b second => ?_).symm
    rw [scriptPriority_congr _ _ (mirrored.fileName?_eq nonempty nonempty' a first),
      scriptPriority_congr _ _ (mirrored.fileName?_eq nonempty nonempty' b second)]

omit nonempty nonempty' in
theorem Mirrored.sections_concur (heading heading' : Path → String)
    (headed : ∀ names ∈ files, heading (src.under names) = heading' (src'.under names))
    (prepare : String → String) :
    Concur Eq (sections d heading prepare (files.map src.under))
      (sections d' heading' prepare (files.map src'.under)) := by
  -- the sources are read in turn, so that the first one that cannot be read ends both
  induction files with
  | nil => rfl
  | cons names rest ih =>
    have later := ih (mirrored.of_subset (List.subset_cons_self _ _))
      fun names listed => headed names (List.mem_cons_of_mem _ listed)
    refine (mirrored.texts names List.mem_cons_self).bind _ _ ?_
    rintro source _ rfl
    refine later.bind _ _ ?_
    rintro more _ rfl
    rw [headed names List.mem_cons_self]
    rfl

theorem Mirrored.bundleScripts_concur :
    Concur Eq (bundleScripts d src (files.map src.under))
      (bundleScripts d' src' (files.map src'.under)) := by
  refine (mirrored.sections_concur _ _ (fun names listed => ?_) _).bind _ _ ?_
  · rw [mirrored.label_eq nonempty nonempty' names listed]
  · rintro body _ rfl
    rfl

theorem Mirrored.bundleStyles_concur :
    Concur Eq (bundleStyles d src (files.map src.under))
      (bundleStyles d' src' (files.map src'.under)) := by
  rw [bundleStyles, bundleStyles]
  -- without style sheets there is no bundle of them
  by_cases empty : files = []
  · subst empty
    rfl
  · rw [if_neg (by simpa using empty), if_neg (by simpa using empty)]
    refine (mirrored.sections_concur _ _ (fun names listed => ?_) _).bind _ _ ?_
    · rw [mirrored.label_eq nonempty nonempty' names listed]
    · rintro body _ rfl
      rfl

end

variable (job job' : Job)

theorem text_src_ne : job.src.text ≠ "" := Path.text_join_ne (by decide)

theorem fileName?_src : job.src.fileName? = some "src" := by
  by_cases empty : job.root.text = ""
  · -- seen from the empty path the directory is just its name
    have here : job.src = ⟨"src"⟩ := by
      rw [Job.src, Path.child, Path.join, if_neg (by decide), if_pos (by simp [empty]), empty,
        String.empty_append]
    rw [here]
    decide
  · exact Path.fileName?_child empty (by decide)

theorem hasExtension_src (extensions : List String) : hasExtension extensions job.src = false := by
  have named : job.src.fileName? = Path.fileName? ⟨"src"⟩ := by
    rw [fileName?_src]
    decide
  have absent : Path.fileExtension? ⟨"src"⟩ = none := by decide
  rw [hasExtension_congr extensions _ _ named, hasExtension, absent]
  rfl

/-- What is found from two paths looks the same, or nothing is found from either. -/
def SeenAlike (d : Disk) (src : Path) (d' : Disk) (src' : Path) : Prop :=
  Concur (fun l l' => Alike d l d' l') (d.locate true src) (d'.locate true src')

/-- Where there is no source directory, there is nothing to be searched. -/
theorem discoverSources_of_error (e : Fault) (failed : d.locate true src = .error e) :
    ∃ e, discoverSources d src = .error e := by
  have walk : ∃ e, d.walk looksInto src = .error e := by
    rw [Disk.walk]
    cases unfollowed : d.locate false src with
    | error e => exact ⟨_, rfl⟩
    | ok l =>
      simp only [Except.mapError, bind, Except.bind]
      rcases Disk.locate_cases false unfollowed with located | ⟨-, target, link⟩
      · rw [failed] at located
        cases located
      · rw [link]
        simp only [failed]
        exact ⟨_, rfl⟩
  obtain ⟨e, walk⟩ := walk
  rw [discoverSources, filesBelow, walk]
  exact ⟨_, rfl⟩

/-- A file in place of the source directory has no source in it. -/
theorem discoverSources_of_file (content : ByteArray) (runnable : Bool)
    (located : d.locate true job.src = .ok l) (file : d.get? l = some (.file content runnable)) :
    discoverSources d job.src = .ok ([], []) := by
  rw [discoverSources, filesBelow, Disk.walk]
  rcases Disk.locate_unfollowed located with same | ⟨k, target, linked, link⟩
  · simp [same, file, Except.mapError, bind, Except.bind, pure, Except.pure, Below.pathFrom,
      hasExtension_src]
  · simp [linked, link, located, Disk.isDirAt, file, Except.mapError, bind, Except.bind, pure,
      Except.pure]

/-- Scripts and style sheets that have the same labels in the same order and come to the same bundles,
or both to none. -/
structure SameBundles (d : Disk) (src : Path) (d' : Disk) (src' : Path)
    (found found' : List Path × List Path) : Prop where
  scripts : (orderScripts found.1).map (label src) = (orderScripts found'.1).map (label src')
  styles : found.2.map (label src) = found'.2.map (label src')
  script : Concur Eq (bundleScripts d src (orderScripts found.1))
    (bundleScripts d' src' (orderScripts found'.1))
  style : Concur Eq (bundleStyles d src found.2) (bundleStyles d' src' found'.2)

theorem Mirrored.sameBundles {files : List Location} (mirrored : Mirrored d src d' src' files)
    (nonempty : src.text ≠ "") (nonempty' : src'.text ≠ "") :
    SameBundles d src d' src'
      ((files.map src.under).filter (hasExtension scriptExtensions),
        (files.map src.under).filter (hasExtension styleExtensions))
      ((files.map src'.under).filter (hasExtension scriptExtensions),
        (files.map src'.under).filter (hasExtension styleExtensions)) := by
  obtain ⟨scripts, below, list, list'⟩ :=
    mirrored.filter_hasExtension nonempty nonempty' scriptExtensions
  obtain ⟨styles, sheets, sheets_eq, sheets_eq'⟩ :=
    mirrored.filter_hasExtension nonempty nonempty' styleExtensions
  obtain ⟨ordered, placed, order, order'⟩ := below.orderScripts_eq nonempty nonempty'
  rw [list, list', sheets_eq, sheets_eq']
  constructor
  · dsimp only
    rw [order, order']
    exact placed.labels_eq nonempty nonempty'
  · exact sheets.labels_eq nonempty nonempty'
  · dsimp only
    rw [order, order']
    exact placed.bundleScripts_concur nonempty nonempty'
  · exact sheets.bundleStyles_concur nonempty nonempty'

/-- Two source directories that look the same come to the same bundles, or the same step fails for
both of them. The sources have the same labels in the same order. -/
theorem bundles_concur (tree : d.IsTree) (tree' : d'.IsTree)
    (seen : SeenAlike d job.src d' job'.src) :
    Concur (SameBundles d job.src d' job'.src) (discoverSources d job.src)
      (discoverSources d' job'.src) := by
  have nonempty := text_src_ne job
  have nonempty' := text_src_ne job'
  rcases seen.cases with ⟨l, l', located, located', alike⟩ | ⟨e, e', failed, failed'⟩
  · obtain ⟨e, found, plain⟩ := Disk.locate_plain tree _ l located
    obtain ⟨e', found', plain'⟩ := Disk.locate_plain tree' _ l' located'
    have same := alike []
    rw [List.append_nil, List.append_nil, found, found', Option.map_some, Option.map_some,
      Option.some.injEq] at same
    -- both source directories are directories, or there is a file in place of both
    cases e with
    | link target => exact absurd rfl (plain target)
    | file content runnable =>
      cases e' with
      | file content' runnable' =>
        have nothing : Mirrored d job.src d' job'.src [] := ⟨by simp, by simp⟩
        rw [discoverSources_of_file job content runnable located found,
          discoverSources_of_file job' content' runnable' located' found']
        exact nothing.sameBundles nonempty nonempty'
      | directory => cases same
      | link target => cases same
    | directory =>
      have directory' : e' = .directory := e'.bare_eq_directory_iff.mp same.symm
      rw [directory'] at found'
      have files := mirrored_filesIn alike tree tree' located located'
      rw [discoverSources_of_directory located found, discoverSources_of_directory located' found',
        ← filesIn_eq alike tree tree']
      exact files.sameBundles nonempty nonempty'
  · obtain ⟨_, failed⟩ := discoverSources_of_error e failed
    obtain ⟨_, failed'⟩ := discoverSources_of_error e' failed'
    rw [failed, failed']
    trivial

/-- A project with a script and a style sheet. -/
def project : Disk where
  entries := [(["p"], .directory), (["p", "src"], .directory),
    (["p", "src", "App.js"], .file "let a;".toUTF8 false),
    (["p", "src", "a.css"], .file "b".toUTF8 false)]
  workDir := []

/-- The same sources in another place, in another order, and found through a link. -/
def projectMoved : Disk where
  entries := [(["q"], .directory), (["q", "src"], .link ⟨"../kept"⟩), (["kept"], .directory),
    (["kept", "a.css"], .file "b".toUTF8 true), (["kept", "App.js"], .file "let a;".toUTF8 false)]
  workDir := []

theorem project_alike : Alike project ["p", "src"] projectMoved ["kept"] := by
  intro names
  rw [Disk.get?_of_ne _ (by simp), Disk.get?_of_ne _ (by simp)]
  by_cases here : names = []
  · subst here
    decide
  · by_cases script : names = ["App.js"]
    · subst script
      decide
    · by_cases sheet : names = ["a.css"]
      · subst sheet
        decide
      · have below : names.isEmpty = false := List.isEmpty_eq_false_iff.mpr here
        have no_script : (names == ["App.js"]) = false := beq_eq_false_iff_ne.mpr script
        have no_sheet : (names == ["a.css"]) = false := beq_eq_false_iff_ne.mpr sheet
        simp [project, projectMoved, List.lookup_cons, below, no_script, no_sheet]

theorem bundles_concur_moved :
    project.IsTree ∧ projectMoved.IsTree ∧
      SeenAlike project ⟨"p/src"⟩ projectMoved ⟨"/q/./src"⟩ ∧
      Concur (SameBundles project ⟨"p/src"⟩ projectMoved ⟨"/q/./src"⟩)
        (discoverSources project ⟨"p/src"⟩) (discoverSources projectMoved ⟨"/q/./src"⟩) := by
  have formed : project.WellFormed := by decide
  have formed' : projectMoved.WellFormed := by decide
  have located : project.locate true ⟨"p/src"⟩ = .ok ["p", "src"] := by decide
  have located' : projectMoved.locate true ⟨"/q/./src"⟩ = .ok ["kept"] := by decide
  have seen : SeenAlike project ⟨"p/src"⟩ projectMoved ⟨"/q/./src"⟩ := by
    rw [SeenAlike, located, located']
    exact project_alike
  have src : Job.src ⟨⟨"p"⟩, ⟨"dist"⟩⟩ = ⟨"p/src"⟩ := by decide
  have src' : Job.src ⟨⟨"/q/."⟩, ⟨"dist"⟩⟩ = ⟨"/q/./src"⟩ := by decide
  have same := bundles_concur ⟨⟨"p"⟩, ⟨"dist"⟩⟩ ⟨⟨"/q/."⟩, ⟨"dist"⟩⟩ formed.isTree formed'.isTree
    (by rw [src, src']; exact seen)
  rw [src, src'] at same
  exact ⟨formed.isTree, formed'.isTree, seen, same⟩

end Bundle

end Workbench
