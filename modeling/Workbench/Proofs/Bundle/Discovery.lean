import Workbench.Proofs.Bundle.Sources
import Workbench.Proofs.Disk.Order
import Workbench.Proofs.Disk.Write
import Workbench.Proofs.Path.Relative

/-! What a search for sources finds: the regular files below a directory that have one of the
extensions and lie in no hidden directory, each once and in the order of their paths. -/
namespace Workbench

namespace Path

variable {p : Path} {name : String}

/-- A name with a dot has a last one. -/
theorem exists_last_dot (dotted : '.' ∈ name.toList) :
    ∃ stem ext, name = stem ++ "." ++ ext ∧ '.' ∉ ext.toList := by
  obtain ⟨back, front, turned, free⟩ :=
    List.eq_append_cons_of_mem (List.mem_reverse.mpr dotted)
  refine ⟨String.ofList front.reverse, String.ofList back.reverse, ?_, by simpa using free⟩
  apply String.toList_injective
  have chars := congrArg List.reverse turned
  simpa using chars

/-- The extension is what follows the last dot, unless that dot comes first. -/
theorem fileExtension?_of_dot (stem ext : String)
    (named : p.fileName? = some (stem ++ "." ++ ext)) (plain : '.' ∉ ext.toList) :
    p.fileExtension? = if stem = "" then none else some ext := by
  have pieces : (Text.splitAt '.' (stem ++ "." ++ ext).toList).reverse =
      ext.toList :: (Text.splitAt '.' stem.toList).reverse := by
    have chars : (stem ++ "." ++ ext).toList = stem.toList ++ '.' :: ext.toList := by simp
    rw [chars, Text.splitAt_append, Text.splitAt_of_notMem _ _ plain]
    simp
  rw [fileExtension?, named]
  simp only [Option.bind_eq_bind, Option.bind_some]
  rw [pieces]
  by_cases empty : stem = ""
  · subst empty
    rfl
  · rw [if_neg empty]
    -- in front of the dot there is more than an empty stretch
    have whole := Text.joinWith_splitAt '.' stem.toList
    rcases List.eq_nil_or_concat' (Text.splitAt '.' stem.toList) with unsplit | ⟨more, last, split⟩
    · exact absurd unsplit (Text.splitAt_ne_nil _ _)
    · have nonempty : ¬ (last = [] ∧ more = []) := by
        rintro ⟨rfl, rfl⟩
        rw [split] at whole
        exact empty (String.toList_injective whole.symm)
      rw [split]
      simpa using nonempty

theorem fileExtension?_of_no_dot (named : p.fileName? = some name) (plain : '.' ∉ name.toList) :
    p.fileExtension? = none := by
  rw [fileExtension?, named]
  simp only [Option.bind_eq_bind, Option.bind_some]
  rw [Text.splitAt_of_notMem _ _ plain]
  rfl

end Path

namespace Bundle

open Disk (Alike)

variable {d d' : Disk} {src : Path} {l : Location}

/-- A file has one of the extensions if its name is a stem, a dot and the extension. -/
theorem hasExtension_iff (extensions : List String) (p : Path) (name : String)
    (plain : ∀ ext ∈ extensions, '.' ∉ ext.toList) (named : p.fileName? = some name) :
    hasExtension extensions p = true ↔
      ∃ stem ext, stem ≠ "" ∧ ext ∈ extensions ∧ name = stem ++ "." ++ ext := by
  constructor
  · intro has
    by_cases dotted : '.' ∈ name.toList
    · obtain ⟨stem, ext, rfl, free⟩ := Path.exists_last_dot dotted
      rw [hasExtension, Path.fileExtension?_of_dot stem ext named free] at has
      split at has
      · cases has
      next nonempty => exact ⟨stem, ext, nonempty, by simpa using has, rfl⟩
    · rw [hasExtension, Path.fileExtension?_of_no_dot named dotted] at has
      cases has
  · rintro ⟨stem, ext, nonempty, listed, rfl⟩
    rw [hasExtension, Path.fileExtension?_of_dot stem ext named (plain ext listed), if_neg nonempty]
    simpa using listed

/-- A search enters what leads to a file exactly if no directory on the way is hidden. -/
theorem enters_iff_of_file (tree : d.IsTree) (dirs : List String) (name : String)
    (content : ByteArray) (runnable : Bool)
    (found : d.get? (l ++ (dirs ++ [name])) = some (.file content runnable)) :
    d.Enters looksInto l (dirs ++ [name]) ↔ ∀ dir ∈ dirs, dir.toList.head? ≠ some '.' := by
  constructor
  · intro enters dir member hidden
    obtain ⟨front, mid, rfl⟩ := List.append_of_mem member
    have whole : front ++ dir :: mid ++ [name] = front ++ [dir] ++ (mid ++ [name]) := by simp
    rw [whole] at enters found
    have directory : d.get? (l ++ (front ++ [dir])) = some .directory := by
      apply tree.directory_of_below _ (mid ++ [name]) (by simp)
      rw [List.append_assoc, found]
      rfl
    have entered := enters front dir _ (List.prefix_append _ _) directory
    simp [looksInto, hidden] at entered
  · intro shown front n e begins there
    rcases List.prefix_concat_iff.mp begins with same | inside
    · -- the file itself is looked at whatever it is called
      rw [same, found] at there
      cases there
      rfl
    · have member : n ∈ dirs := inside.subset (by simp)
      simp [looksInto, shown n member]

/-- A search meets the files in directories that are not hidden. -/
theorem mem_filesIn_iff (tree : d.IsTree) (dirs : List String) (name : String) :
    dirs ++ [name] ∈ filesIn d l ↔
      (∃ content runnable, d.get? (l ++ (dirs ++ [name])) = some (.file content runnable)) ∧
        ∀ dir ∈ dirs, dir.toList.head? ≠ some '.' := by
  have listed_iff (content : ByteArray) (runnable : Bool)
      (found : d.get? (l ++ (dirs ++ [name])) = some (.file content runnable)) :
      ⟨dirs ++ [name], .file content runnable⟩ ∈ d.below looksInto d.depth l ↔
        ∀ dir ∈ dirs, dir.toList.head? ≠ some '.' := by
    have deep : (dirs ++ [name]).length ≤ d.depth := by
      rw [Disk.get?_of_ne _ (by simp)] at found
      have length := Disk.length_le_depth _ _ (Disk.mem_entries_of_lookup _ _ found)
      rw [List.length_append] at length
      omega
    rw [Disk.mem_below_iff looksInto tree _ l _ _ deep,
      ← enters_iff_of_file tree dirs name content runnable found]
    simp [found]
  constructor
  · intro listed
    obtain ⟨-, -, content, runnable, found⟩ := mem_filesIn tree _ listed
    obtain ⟨⟨names, entry⟩, member, kept⟩ := List.mem_filterMap.mp listed
    dsimp only at kept
    split at kept
    next file =>
      cases kept
      obtain rfl : entry = .file content runnable :=
        Option.some.inj ((Disk.get?_of_mem_below _ _ _ _ member).2.symm.trans found)
      exact ⟨⟨content, runnable, found⟩, (listed_iff content runnable found).mp member⟩
    next => cases kept
  · rintro ⟨⟨content, runnable, found⟩, shown⟩
    exact List.mem_filterMap.mpr ⟨_, (listed_iff content runnable found).mpr shown, rfl⟩

/-- A search meets files in the order of the names that lead to them. -/
theorem pairwise_filesIn (tree : d.IsTree) : (filesIn d l).Pairwise (· < ·) := by
  have sorted := Disk.pairwise_below looksInto tree d.depth l
  rw [filesIn, List.pairwise_filterMap]
  refine sorted.imp fun {b b'} less names kept names' kept' => ?_
  obtain ⟨-, rfl⟩ : b.entry.isFile = true ∧ b.names = names := by simpa using kept
  obtain ⟨-, rfl⟩ : b'.entry.isFile = true ∧ b'.names = names' := by simpa using kept'
  exact less

/-- A path below a directory at which there is a regular file with one of the extensions, in no
directory on the way to which the name begins with a dot. -/
def IsSource (d : Disk) (src : Path) (l : Location) (extensions : List String) (p : Path) : Prop :=
  ∃ dirs stem ext content runnable,
    p = src.under (dirs ++ [stem ++ "." ++ ext]) ∧
    d.get? (l ++ dirs ++ [stem ++ "." ++ ext]) = some (.file content runnable) ∧
    (∀ dir ∈ dirs, dir.toList.head? ≠ some '.') ∧ stem ≠ "" ∧ ext ∈ extensions

section

variable (tree : d.IsTree) (located : d.locate true src = .ok l)
include tree located

theorem mem_files_iff (extensions : List String) (plain : ∀ ext ∈ extensions, '.' ∉ ext.toList)
    (p : Path) :
    p ∈ ((filesIn d l).map src.under).filter (hasExtension extensions) ↔
      IsSource d src l extensions p := by
  have nonempty := (Disk.leads_of_locate located).2.1
  have extended (dirs : List String) (name : String) (listed : dirs ++ [name] ∈ filesIn d l) :
      hasExtension extensions (src.under (dirs ++ [name])) = true ↔
        ∃ stem ext, stem ≠ "" ∧ ext ∈ extensions ∧ name = stem ++ "." ++ ext := by
    apply hasExtension_iff extensions _ name plain
    have proper := (mem_filesIn tree _ listed).2.1
    rw [Path.fileName?_under nonempty _ proper (by simp), List.getLast?_concat]
  rw [List.mem_filter, List.mem_map]
  constructor
  · rintro ⟨⟨names, listed, rfl⟩, has⟩
    obtain ⟨dirs, name, rfl⟩ :=
      (List.eq_nil_or_concat' names).resolve_left (mem_filesIn tree _ listed).1
    obtain ⟨⟨content, runnable, found⟩, shown⟩ := (mem_filesIn_iff tree dirs name).mp listed
    obtain ⟨stem, ext, stemmed, member, rfl⟩ := (extended dirs name listed).mp has
    rw [← List.append_assoc] at found
    exact ⟨dirs, stem, ext, content, runnable, rfl, found, shown, stemmed, member⟩
  · rintro ⟨dirs, stem, ext, content, runnable, rfl, found, shown, stemmed, member⟩
    rw [List.append_assoc] at found
    have listed := (mem_filesIn_iff tree dirs _).mpr ⟨⟨content, runnable, found⟩, shown⟩
    exact ⟨⟨_, listed, rfl⟩, (extended dirs _ listed).mpr ⟨stem, ext, stemmed, member, rfl⟩⟩

theorem pairwise_files (extensions : List String) :
    (((filesIn d l).map src.under).filter (hasExtension extensions)).Pairwise Path.Precedes := by
  have nonempty := (Disk.leads_of_locate located).2.1
  apply List.Pairwise.filter
  rw [List.pairwise_map]
  refine (pairwise_filesIn tree).imp_of_mem fun {names names'} listed listed' less => ?_
  exact Path.precedes_under nonempty (mem_filesIn tree _ listed).2.1
    (mem_filesIn tree _ listed').2.1 less

end

/-- Scripts and style sheets come in the strict order of their paths, whatever the order in which
directories are read, and are those below the source directory. -/
theorem discovers_exactly (tree : d.IsTree) (located : d.locate true src = .ok l)
    (directory : d.get? l = some .directory) :
    ∃ scripts styles, discoverSources d src = .ok (scripts, styles) ∧
      scripts.Pairwise Path.Precedes ∧ styles.Pairwise Path.Precedes ∧
      scripts.Nodup ∧ styles.Nodup ∧
      (∀ p, p ∈ scripts ↔ IsSource d src l scriptExtensions p) ∧
      (∀ p, p ∈ styles ↔ IsSource d src l styleExtensions p) ∧
      ∀ d' : Disk, d'.IsTree → d'.workDir = d.workDir → (∀ k, d'.get? k = d.get? k) →
        discoverSources d' src = .ok (scripts, styles) := by
  have distinct (paths : List Path) (sorted : paths.Pairwise Path.Precedes) : paths.Nodup := by
    apply sorted.imp
    rintro p q before rfl
    exact Path.Precedes.irrefl p before
  have scripts := pairwise_files tree located scriptExtensions
  have styles := pairwise_files tree located styleExtensions
  refine ⟨_, _, discoverSources_of_directory located directory, scripts, styles,
    distinct _ scripts, distinct _ styles, mem_files_iff tree located _ (by decide),
    mem_files_iff tree located _ (by decide), ?_⟩
  intro d' tree' work same
  have located' : d'.locate true src = .ok l :=
    Disk.locate_mono (fun k e found => ⟨e, (same k).trans found, .refl e⟩) work located
  have alike : Alike d l d' l := fun names => by rw [same]
  rw [discoverSources_of_directory located' ((same l).trans directory),
    ← filesIn_eq alike tree tree']

/-- Sources in hidden and other directories, of which a search finds some. -/
def thicket : Disk where
  entries := [(["s"], .directory), (["s", "a"], .directory),
    (["s", "a", "z.js"], .file "".toUTF8 false), (["s", "a-b.js"], .file "".toUTF8 false),
    (["s", ".js"], .file "".toUTF8 false),
    (["s", ".rc.js"], .file "".toUTF8 false), (["s", ".git"], .directory),
    (["s", ".git", "x.js"], .file "".toUTF8 false), (["s", "l.ts"], .link ⟨"a-b.js"⟩),
    (["s", "a", "t.min.css"], .file "".toUTF8 true)]
  workDir := []

theorem discovers_exactly_in_thicket :
    thicket.IsTree ∧ thicket.locate true ⟨"s"⟩ = .ok ["s"] ∧
      thicket.get? ["s"] = some .directory ∧
      ∃ scripts styles, discoverSources thicket ⟨"s"⟩ = .ok (scripts, styles) ∧
        scripts.Pairwise Path.Precedes ∧ (⟨"s/.rc.js"⟩ : Path) ∈ scripts := by
  have formed : thicket.WellFormed := by decide
  have located : thicket.locate true ⟨"s"⟩ = .ok ["s"] := by decide
  have directory : thicket.get? ["s"] = some .directory := by decide
  obtain ⟨scripts, styles, found, sorted, -, -, -, listed, -⟩ :=
    discovers_exactly formed.isTree located directory
  refine ⟨formed.isTree, located, directory, scripts, styles, found, sorted, ?_⟩
  have path : (⟨"s/.rc.js"⟩ : Path) = Path.under ⟨"s"⟩ ([] ++ [".rc" ++ "." ++ "js"]) := by decide
  exact (listed _).mpr ⟨[], ".rc", "js", _, _, path, rfl, by simp, by decide, by decide⟩

end Bundle

end Workbench
