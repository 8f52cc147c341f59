import Mathlib.Data.List.Sort
import Workbench.Proofs.Bundle.Discovery
import Workbench.Proofs.Bundle.Success
import Workbench.Proofs.Project.Scaffold
import Workbench.Proofs.Project.Texts

/-! The first build of a new project. It reads the starter files, finds an empty directory for its
output and has no public file to take over but the page. So it goes through, and leaves the page,
the script bundle and the style sheet. -/
namespace Workbench

open Disk Workbench.Bundle

namespace Bundle

variable {src : Path} (nonempty : src.text ≠ "")
include nonempty

/-- What lies in a directory has the name by which it is reached from there. -/
theorem fileName?_listed (name : String) (named : IsName name) :
    (src.under [name]).fileName? = Path.fileName? ⟨name⟩ := by
  rw [Path.fileName?_under nonempty [name] (Location.isProper_singleton name named) (by simp),
    Path.fileName?_name named]
  rfl

/-- Whether it is a source is told by that name. -/
theorem filter_listed (extensions names : List String) (named : ∀ name ∈ names, IsName name) :
    ((names.map ([·])).map src.under).filter (hasExtension extensions) =
      ((names.filter (hasExtension extensions ⟨·⟩)).map ([·])).map src.under := by
  have told (name : String) (listed : name ∈ names) :
      hasExtension extensions (src.under [name]) = hasExtension extensions ⟨name⟩ :=
    hasExtension_congr extensions _ _ (fileName?_listed nonempty name (named name listed))
  rw [List.filter_map, List.filter_map]
  simp only [Function.comp_def]
  rw [List.filter_congr told]

end Bundle

namespace Starter

variable {title : String} {l : Location} {d d' : Disk}

/-- The build of a project into its directory for output. -/
def job (l : Location) : Job := ⟨l.path, l.path.child "dist"⟩

/-- A project has its directories, and the one for output is empty. -/
structure IsReady (l : Location) (d : Disk) : Prop where
  storable : d.IsStorable
  directory : ∀ name ∈ directories, d.get? (l ++ [name]) = some .directory
  empty : ∀ rest, rest ≠ [] → d.get? (l ++ ["dist"] ++ rest) = none

namespace IsReady

variable (ready : IsReady l d)
include ready

theorem locate (name : String) (listed : name ∈ directories) :
    d.locate true (l.path.child name) = .ok (l ++ [name]) := by
  have tree := ready.storable.toIsTree
  have found := ready.directory name listed
  rw [← Location.path_concat l name (tree.isProper (l ++ [name]) (by simp [found]))]
  exact locate_path tree _ _ found Entry.isPlain_directory

theorem locate_src : d.locate true (job l).src = .ok (l ++ ["src"]) :=
  ready.locate "src" (by decide)

theorem locate_assets : d.locate true (job l).assets = .ok (l ++ ["public"]) :=
  ready.locate "public" (by decide)

theorem isClear : (job l).IsClear d (l ++ ["dist"]) := by
  -- the output lies beside what is read
  have apart (name : String) (other : name ≠ "dist") : Apart (l ++ [name]) (l ++ ["dist"]) := by
    constructor <;> simp [List.prefix_append_right_inj, other, other.symm]
  have fresh : Fresh d (job l).out (l ++ ["dist"]) := by
    refine ⟨ready.locate "dist" (by decide), ready.directory "dist" (by decide), ?_⟩
    apply List.eq_nil_iff_forall_not_mem.mpr
    intro name listed
    rw [mem_namesAt, ready.empty [name] (by simp)] at listed
    cases listed
  refine ⟨fresh, ?_, ?_⟩
  · intro s located
    cases located.symm.trans ready.locate_src
    exact apart "src" (by decide)
  · intro a located
    cases located.symm.trans ready.locate_assets
    exact apart "public" (by decide)

/-- Once the output directory is made afresh everything is where it was. -/
theorem recreated : ∃ base, (job l).recreateOut d = (.ok (), base) ∧ base.IsStorable ∧
    ∀ k, base.get? k = d.get? k := by
  have found := ready.directory "dist" (by decide)
  have proper := ready.storable.toIsTree.isProper (l ++ ["dist"]) (by simp [found])
  exact Job.recreateOut_of_empty ready.storable l "dist"
    (Location.path_concat l "dist" proper).symm found ready.empty

/-- Each directory in the public directory is found in the output. -/
theorem directory_of_run (report : Report) (ran : (job l).run d = (.ok report, d'))
    (names : Location) (nonempty : names ≠ [])
    (found : d.get? (l ++ ["public"] ++ names) = some .directory) :
    d'.locate true (job l).out = .ok (l ++ ["dist"]) ∧
      d'.get? (l ++ ["dist"] ++ names) = some .directory := by
  obtain ⟨base, made, storable, same⟩ := ready.recreated
  -- sources and public files are read once the output directory is made
  have ready' : IsReady l base := by
    refine ⟨storable, fun name listed => ?_, fun rest lower => ?_⟩
    · rw [same, ready.directory name listed]
    · rw [same, ready.empty rest lower]
  have cleared : ((job l).recreateOut d).2 = base := by rw [made]
  obtain ⟨_, _, _, _, _, -, -, -, -, filled, leaves, -⟩ :=
    Job.output_of_run ready.storable report ran (cleared ▸ ready'.isClear)
  rw [cleared] at filled leaves
  have taken : (job l).asset? base names = some .directory := by
    rw [Job.asset?_of_located _ names ready'.locate_assets, Disk.asset?, same, found]
    simp
  have left := (leaves names nonempty).1
  rw [Job.Leaves, taken] at left
  exact ⟨filled.located storable ready'.isClear.fresh, left⟩

end IsReady

theorem mem_entries (names : Location) (e : Entry) : (names, e) ∈ entries title ↔
    names = ["src"] ∧ e = .directory ∨ names = ["public"] ∧ e = .directory ∨
    names = ["dist"] ∧ e = .directory ∨
    names = ["package.json"] ∧ e = .file (packageJson title).render.toUTF8 false ∨
    names = ["tsconfig.json"] ∧ e = .file checkerJson.render.toUTF8 false ∨
    names = ["public", "index.html"] ∧ e = .file (documentHtml title).toUTF8 false ∨
    names = ["src", "App.tsx"] ∧ e = .file (viewScript title).toUTF8 false ∨
    names = ["src", "App.css"] ∧ e = .file viewStyles.toUTF8 false ∨
    names = ["src", "main.tsx"] ∧ e = .file mountScript.toUTF8 false ∨
    names = ["src", "index.css"] ∧ e = .file pageStyles.toUTF8 false ∨
    names = ["README.md"] ∧ e = .file (readme title).toUTF8 false := by
  have names : (Path.mk "package.json").names = ["package.json"] ∧
      (Path.mk "tsconfig.json").names = ["tsconfig.json"] ∧
      (Path.mk "public/index.html").names = ["public", "index.html"] ∧
      (Path.mk "src/App.tsx").names = ["src", "App.tsx"] ∧
      (Path.mk "src/App.css").names = ["src", "App.css"] ∧
      (Path.mk "src/main.tsx").names = ["src", "main.tsx"] ∧
      (Path.mk "src/index.css").names = ["src", "index.css"] ∧
      (Path.mk "README.md").names = ["README.md"] := by
    decide +kernel
  simp only [entries, directories, files, List.map_cons, List.map_nil, List.cons_append,
    List.nil_append, directoryEntry, fileEntry, List.mem_cons, List.not_mem_nil, or_false,
    Prod.mk.injEq, names]

/-- What is found below the directory of a new project. -/
theorem IsLaidOut.get?_iff (laid : IsLaidOut title l d) (names : Location)
    (nonempty : names ≠ []) (e : Entry) :
    d.get? (l ++ names) = some e ↔ (names, e) ∈ entries title := by
  rw [laid.holds names nonempty]
  -- no names are listed twice, so that looking them up finds whatever is listed
  constructor
  · exact mem_entries_of_lookup (d := ⟨entries title, []⟩) names e
  · exact lookup_of_mem_entries (d := ⟨entries title, []⟩) (nodup_entries title) names e

theorem IsLaidOut.congr (laid : IsLaidOut title l d) (storable : d'.IsStorable)
    (same : ∀ k, d'.get? k = d.get? k) : IsLaidOut title l d' := by
  refine ⟨storable, (same l).trans laid.directory, fun names nonempty => ?_⟩
  rw [same, laid.holds names nonempty]

variable (laid : IsLaidOut title l d)
include laid

theorem IsLaidOut.isReady : IsReady l d := by
  refine ⟨laid.storable, fun name listed => ?_, fun rest nonempty => ?_⟩
  · rw [laid.get?_iff [name] (by simp), mem_entries]
    simpa [directories] using listed
  · apply Option.eq_none_iff_forall_ne_some.mpr
    intro e found
    rw [List.append_assoc, laid.get?_iff _ (by simp), mem_entries] at found
    simp [nonempty] at found

/-- A search of the sources of a new project meets them in this order. -/
theorem IsLaidOut.filesIn_src : filesIn d (l ++ ["src"]) =
    [["App.css"], ["App.tsx"], ["index.css"], ["main.tsx"]] := by
  have tree := laid.storable.toIsTree
  -- both lists are in strict order, so it is enough that they have the same members
  apply (pairwise_filesIn tree).eq_of_mem_iff (by decide)
  intro names
  constructor
  · intro listed
    obtain ⟨nonempty, -, content, runnable, found⟩ := mem_filesIn tree names listed
    rw [← List.append_cons, laid.get?_iff ("src" :: names) (by simp), mem_entries] at found
    simp [nonempty] at found
    rcases found with ⟨rfl, -⟩ | ⟨rfl, -⟩ | ⟨rfl, -⟩ | ⟨rfl, -⟩ <;> simp
  · intro listed
    have file (name : String) (text : String)
        (listed : (["src", name], .file text.toUTF8 false) ∈ entries title) :
        [name] ∈ filesIn d (l ++ ["src"]) := by
      rw [← laid.get?_iff ["src", name] (by simp), List.append_cons] at listed
      exact (mem_filesIn_iff tree [] name).mpr ⟨⟨_, _, listed⟩, by simp⟩
    simp only [List.mem_cons, List.not_mem_nil, or_false] at listed
    rcases listed with rfl | rfl | rfl | rfl
    · exact file "App.css" viewStyles ((mem_entries _ _).mpr (by simp))
    · exact file "App.tsx" (viewScript title) ((mem_entries _ _).mpr (by simp))
    · exact file "index.css" pageStyles ((mem_entries _ _).mpr (by simp))
    · exact file "main.tsx" mountScript ((mem_entries _ _).mpr (by simp))

/-- The sources of a new project, in the order in which they are found. -/
theorem IsLaidOut.discoverSources_eq : discoverSources d (job l).src = .ok
    ([(job l).src.under ["App.tsx"], (job l).src.under ["main.tsx"]],
      [(job l).src.under ["App.css"], (job l).src.under ["index.css"]]) := by
  have directory := laid.isReady.directory "src" (by decide)
  have listed : filesIn d (l ++ ["src"]) =
      ["App.css", "App.tsx", "index.css", "main.tsx"].map ([·]) := laid.filesIn_src
  have named : ∀ name ∈ ["App.css", "App.tsx", "index.css", "main.tsx"], IsName name := by decide
  have scripts : ["App.css", "App.tsx", "index.css", "main.tsx"].filter
      (hasExtension scriptExtensions ⟨·⟩) = ["App.tsx", "main.tsx"] := by decide +kernel
  have styles : ["App.css", "App.tsx", "index.css", "main.tsx"].filter
      (hasExtension styleExtensions ⟨·⟩) = ["App.css", "index.css"] := by decide +kernel
  rw [discoverSources_of_directory laid.isReady.locate_src directory, listed,
    filter_listed (text_src_ne _) _ _ named, filter_listed (text_src_ne _) _ _ named, scripts,
    styles]
  rfl

omit laid in
/-- What mounts the view comes behind the view. -/
theorem orderScripts_eq (l : Location) :
    orderScripts [(job l).src.under ["App.tsx"], (job l).src.under ["main.tsx"]] =
      [(job l).src.under ["App.tsx"], (job l).src.under ["main.tsx"]] := by
  have view : scriptPriority ((job l).src.under ["App.tsx"]) = 2 := by
    rw [scriptPriority_congr _ ⟨"App.tsx"⟩ (fileName?_listed (text_src_ne _) _ (by decide))]
    decide +kernel
  have mount : scriptPriority ((job l).src.under ["main.tsx"]) = 3 := by
    rw [scriptPriority_congr _ ⟨"main.tsx"⟩ (fileName?_listed (text_src_ne _) _ (by decide))]
    decide +kernel
  -- they are found in the order of their priorities, which a stable sort keeps
  apply List.mergeSort_of_pairwise
  simp [view, mount]

/-- The script bundle of a new project. -/
def bundledScript (title : String) : String :=
  runtimeImports ++ "\n" ++
    ("// File: App.tsx\n" ++ Script.transform (viewScript title) ++ "\n\n" ++
      ("// File: main.tsx\n" ++ Script.transform mountScript ++ "\n\n" ++ "")) ++
    Bundle.mountScript

/-- The style sheet of a new project. -/
def bundledStyles : String :=
  "/* File: App.css */\n" ++ viewStyles ++ "\n\n" ++
    ("/* File: index.css */\n" ++ pageStyles ++ "\n\n" ++ "")

omit laid in
theorem label_source (l : Location) (name : String) (named : IsName name)
    (own : labelOf [name] = name) : label (job l).src ((job l).src.under [name]) = name := by
  have proper := Location.isProper_singleton name named
  rw [label_under (text_src_ne _) [name] proper (by simp), own]

theorem IsLaidOut.fileText_source (name text : String)
    (listed : (["src", name], .file text.toUTF8 false) ∈ entries title) :
    d.fileText ((job l).src.under [name]) = .ok text := by
  rw [← laid.get?_iff ["src", name] (by simp), List.append_cons] at listed
  exact fileText_under laid.storable.toIsTree laid.isReady.locate_src [name] text false listed

theorem IsLaidOut.bundleScripts_eq : bundleScripts d (job l).src
    [(job l).src.under ["App.tsx"], (job l).src.under ["main.tsx"]] =
      .ok (bundledScript title) := by
  have view := laid.fileText_source "App.tsx" (viewScript title) ((mem_entries _ _).mpr (by simp))
  have mount := laid.fileText_source "main.tsx" mountScript ((mem_entries _ _).mpr (by simp))
  rw [bundleScripts, sections, sections, sections, view, mount,
    label_source l "App.tsx" (by decide) (by decide +kernel),
    label_source l "main.tsx" (by decide) (by decide +kernel)]
  rfl

theorem IsLaidOut.bundleStyles_eq : bundleStyles d (job l).src
    [(job l).src.under ["App.css"], (job l).src.under ["index.css"]] =
      .ok (some bundledStyles) := by
  have view := laid.fileText_source "App.css" viewStyles ((mem_entries _ _).mpr (by simp))
  have page := laid.fileText_source "index.css" pageStyles ((mem_entries _ _).mpr (by simp))
  rw [bundleStyles, if_neg (by simp), sections, sections, sections, view, page,
    label_source l "App.css" (by decide) (by decide +kernel),
    label_source l "index.css" (by decide) (by decide +kernel)]
  simp only [bind, Except.bind, pure, Except.pure, id]
  delta bundledStyles
  rfl

/-- The page that is built into is that of the new project. -/
theorem IsLaidOut.document_eq : (job l).document d = .ok (documentHtml title) := by
  have tree := laid.storable.toIsTree
  have located := laid.isReady.locate_assets
  have listed : (["public", "index.html"], Entry.file (documentHtml title).toUTF8 false) ∈
      entries title := (mem_entries _ _).mpr (by simp)
  have found := (laid.get?_iff _ (by simp) _).mpr listed
  rw [List.append_cons] at found
  have there := Disk.locate_under tree located [documentName] _ found fun _ same => by cases same
  have own : (job l).assets.child documentName = (job l).assets.under [documentName] := rfl
  have isFile : d.isFile ((job l).assets.under [documentName]) = true := by
    rw [isFile, (entryAt_eq_ok_iff _ _).mpr ⟨_, there, found⟩]
  rw [Job.document, own, if_pos isFile]
  exact fileText_under tree located _ _ _ found

/-- The public directory of a new project holds the page alone. -/
theorem IsLaidOut.get?_public (a names : Location) (nonempty : names ≠ []) (e : Entry)
    (located : d.locate true (job l).assets = .ok a) (found : d.get? (a ++ names) = some e) :
    names = [documentName] ∧ e ≠ .directory := by
  cases located.symm.trans laid.isReady.locate_assets
  rw [List.append_assoc, laid.get?_iff _ (by simp), mem_entries] at found
  simp only [List.cons_append, List.nil_append, List.cons.injEq, nonempty, String.reduceEq,
    false_and, false_or, or_false, true_and] at found
  obtain ⟨rfl, rfl⟩ := found
  exact ⟨rfl, by simp⟩

/-- Nothing is taken over into the output of a new project. -/
theorem IsLaidOut.asset?_eq_none (names : Location) (nonempty : names ≠ []) :
    (job l).asset? d names = none := by
  apply Option.eq_none_iff_forall_ne_some.mpr
  intro e taken
  cases located : d.locate true (job l).assets with
  | error fault => simp [Job.asset?, located] at taken
  | ok a =>
    -- what could be taken over is the page, and pages are left out
    have taken' := taken
    rw [Job.asset?_of_located a names located] at taken'
    obtain ⟨rfl, solid⟩ :=
      laid.get?_public a names nonempty e located (Job.get?_of_asset? a names e taken')
    rw [Job.asset?_document_eq_none (job l) d (by simp [taken, solid])] at taken
    cases taken

/-- A new project can be built. Its output directory then holds the page with the references, the
script bundle and the style sheet, and nothing else. -/
theorem IsLaidOut.builds : ∃ report d', (job l).run d = (.ok report, d') ∧
    d'.locate true (job l).out = .ok (l ++ ["dist"]) ∧ d'.get? (l ++ ["dist"]) = some .directory ∧
    (∀ names, names ≠ [] → d'.get? (l ++ ["dist"] ++ names) =
      generated? (bundledScript title) (some bundledStyles) (injectReferences (documentHtml title))
        names) ∧
    report.scripts = [(job l).src.under ["App.tsx"], (job l).src.under ["main.tsx"]] := by
  obtain ⟨base, made, storable, same⟩ := laid.isReady.recreated
  have laid' := laid.congr storable same
  have isDir : base.isDir (job l).src = true :=
    (isDir_iff _).mpr ⟨_, laid'.isReady.locate_src, laid'.isReady.directory "src" (by decide)⟩
  have ordered := orderScripts_eq l
  have bundled := laid'.bundleScripts_eq
  rw [← ordered] at bundled
  have bare (a : Location) (name : String) (e : Entry)
      (located : base.locate true (job l).assets = .ok a)
      (found : base.get? (a ++ [name]) = some e) : name = documentName ∧ e ≠ .directory := by
    simpa using laid'.get?_public a [name] (by simp) e located found
  have clear := laid'.isReady.isClear
  obtain ⟨report, d', ran⟩ := Job.exists_run laid'.storable made clear isDir _ _ _ _ _
    laid'.document_eq laid'.discoverSources_eq bundled laid'.bundleStyles_eq bare
  refine ⟨report, d', ran, ?_⟩
  -- what is in the output directory is told by what was there to be read
  have cleared : ((job l).recreateOut d).2 = base := by rw [made]
  obtain ⟨document, scripts, styles, script, style, read, discovered, bundled', styled, filled,
    leaves, rfl⟩ := Job.output_of_run laid.storable report ran (cleared ▸ clear)
  rw [cleared] at read discovered bundled' styled filled leaves
  cases read.symm.trans laid'.document_eq
  cases discovered.symm.trans laid'.discoverSources_eq
  cases bundled'.symm.trans bundled
  cases styled.symm.trans laid'.bundleStyles_eq
  refine ⟨filled.located laid'.storable clear.fresh, filled.directory clear.fresh,
    fun names nonempty => (leaves names nonempty).1.of_none ?_, ordered⟩
  exact laid'.asset?_eq_none names nonempty

omit laid in
/-- The view comes first in the script bundle, with its entry symbol in front of the title, and what
mounts the view comes behind it. -/
theorem bundledScript_eq (title : String) : ∃ rest, bundledScript title =
    runtimeImports ++ "\n" ++ "// File: App.tsx\n" ++
      "// React imported from CDN\n// import ./App.css\n\nfunction App() \x7b" ++ rest ++
      "\n\n" ++ "// File: main.tsx\n" ++ Script.transform mountScript ++ "\n\n" ++
      Bundle.mountScript := by
  obtain ⟨rest, view⟩ := transform_viewScript title
  refine ⟨rest, ?_⟩
  delta bundledScript
  simp only [view, String.append_assoc, String.append_empty]

end Starter

namespace Registry

variable {r : Registry} {d d' : Disk} {p : Project} {l : Location}

/-- A project that was created can be built as it is, whatever its title is. The output directory
then holds the page, the script bundle and a style sheet, and nothing else. -/
theorem create_builds (storable : d.IsStorable) (workspace : Path) (title : String) (now : Int)
    (created : r.create workspace title now d = (.ok p, d'))
    (fresh : Fresh (makeDirs (workspace.child title) d).2 (workspace.child title) l)
    (spared : ∀ names, d'.get? (l ++ names) =
      (scaffold (workspace.child title) title d).2.get? (l ++ names)) :
    ∃ report d'' o, ∃ page script css rest : String,
      Job.run ⟨p.path, p.outputDir "dist"⟩ d' = (.ok report, d'') ∧
      d''.locate true (p.outputDir "dist") = .ok o ∧ d''.get? o = some .directory ∧
      (∀ names e, names ≠ [] → (d''.get? (o ++ names) = some e ↔
        names = ["index.html"] ∧ e = .file page.toUTF8 false ∨
        names = ["bundle.js"] ∧ e = .file script.toUTF8 false ∨
        names = ["bundle.css"] ∧ e = .file css.toUTF8 false)) ∧
      Starter.documentHtml title =
        Starter.unlines (Starter.pageTop ++ Starter.pageBottom title "" "") ∧
      page = Starter.unlines (Starter.pageTop ++ Starter.pageBottom title styleLink scriptTag) ∧
      report.scripts = [p.srcDir.child "App.tsx", p.srcDir.child "main.tsx"] ∧
      script = runtimeImports ++ "\n" ++ "// File: App.tsx\n" ++
        "// React imported from CDN\n// import ./App.css\n\nfunction App() \x7b" ++ rest ++
        "\n\n" ++ "// File: main.tsx\n" ++ Script.transform Starter.mountScript ++ "\n\n" ++
        Bundle.mountScript := by
  obtain ⟨rfl, slashless, laid⟩ :=
    isLaidOut_of_create storable workspace title now created fresh spared
  obtain ⟨report, d'', ran, located, directory, holds, ordered⟩ := laid.builds
  obtain ⟨rest, script⟩ := Starter.bundledScript_eq title
  refine ⟨report, d'', l ++ ["dist"], injectReferences (Starter.documentHtml title),
    Starter.bundledScript title, Starter.bundledStyles, rest, ran, located, directory, ?_,
    Starter.documentHtml_eq title, Starter.injectReferences_documentHtml title slashless, ordered,
    script⟩
  intro names e nonempty
  rw [holds names nonempty]
  exact generated?_eq_some_iff _ _ _ names e

/-- The directory that is made for the project of the examples below. -/
theorem bare_fresh : Fresh (makeDirs ((Path.mk "/work").child "n") bare).2
    ((Path.mk "/work").child "n") ["work", "n"] := by
  have spotted : bare.parentSpot ((Path.mk "/work").child "n") = .ok (["work"], some "n") := by
    decide
  have made := makeDirs_of_free ["work"] "n" spotted (by decide)
  obtain ⟨o, fresh, -⟩ := fresh_of_parentSpot bare_storable ["work"] "n" spotted (by decide) made
  have located : (bare.put ["work", "n"] .directory).locate true ((Path.mk "/work").child "n") =
      .ok ["work", "n"] := by
    decide
  cases fresh.located.symm.trans located
  rw [made]
  exact fresh

theorem new_project_builds : bare.IsStorable ∧ ∃ p d',
    unwritten.create ⟨"/work"⟩ "n" 5 bare = (.ok p, d') ∧
    Fresh (makeDirs ((Path.mk "/work").child "n") bare).2 ((Path.mk "/work").child "n")
      ["work", "n"] ∧
    (∀ names, d'.get? (["work", "n"] ++ names) =
      (scaffold ((Path.mk "/work").child "n") "n" bare).2.get? (["work", "n"] ++ names)) ∧
    ∃ report d'', Job.run ⟨p.path, p.outputDir "dist"⟩ d' = (.ok report, d'') := by
  obtain ⟨p, created⟩ : ∃ p, unwritten.create ⟨"/work"⟩ "n" 5 bare =
      (.ok p, (unwritten.create ⟨"/work"⟩ "n" 5 bare).2) := by
    apply exists_eq_ok_of_isOk
    decide +kernel
  have spared := spared_of_aims bare_storable _ _ _ created bare_fresh ["state"] "projects.json"
    bare_replaceable.aims bare_replaceable.temporary (by decide)
  obtain ⟨report, d'', _, _, _, _, _, ran, -⟩ :=
    create_builds bare_storable _ _ _ created bare_fresh spared
  exact ⟨bare_storable, p, _, created, bare_fresh, spared, report, d'', ran⟩

/-- A registry whose path leads through a project that is still to be made, and out of it. -/
def inward : Registry := ⟨⟨"/work/n/public/x/../../../r"⟩⟩

/-- Registering the project makes a directory in it, and the build takes that over. -/
theorem directory_taken_over : ∃ p d', inward.create ⟨"/work"⟩ "n" 5 bare = (.ok p, d') ∧
    d'.locate true inward.file = .ok ["work", "r"] ∧
    ¬∃ report d'' o, Job.run ⟨p.path, p.outputDir "dist"⟩ d' = (.ok report, d'') ∧
      d''.locate true (p.outputDir "dist") = .ok o ∧
      ∀ name, (d''.get? (o ++ [name])).isSome →
        name ∈ ["index.html", "bundle.js", "bundle.css"] := by
  have seen : (inward.create ⟨"/work"⟩ "n" 5 bare).1.isOk = true ∧
      (inward.create ⟨"/work"⟩ "n" 5 bare).2.locate true inward.file = .ok ["work", "r"] ∧
      (∀ name ∈ Starter.directories, (inward.create ⟨"/work"⟩ "n" 5 bare).2.get?
        (["work", "n"] ++ [name]) = some .directory) ∧
      (inward.create ⟨"/work"⟩ "n" 5 bare).2.get? ["work", "n", "public", "x"] = some .directory ∧
      (∀ x ∈ (inward.create ⟨"/work"⟩ "n" 5 bare).2.entries, ["work", "n", "dist"] <+: x.1 →
        x.1 = ["work", "n", "dist"]) := by
    decide +kernel
  obtain ⟨p, created⟩ := exists_eq_ok_of_isOk _ _ seen.1
  obtain ⟨mid, same, -, -, -, laid, saved⟩ := exists_scaffold bare_storable _ _ _ created bare_fresh
  have storable := save_storable laid.storable saved
  -- from here on the disk is not to be computed again
  obtain ⟨-, outside, directory, found, alone⟩ := seen
  generalize (inward.create ⟨"/work"⟩ "n" 5 bare).2 = d' at *
  have ready : Starter.IsReady ["work", "n"] d' := by
    refine ⟨storable, directory, fun rest nonempty => ?_⟩
    apply Option.eq_none_iff_forall_ne_some.mpr
    intro e there
    rw [get?_of_ne _ (by simp)] at there
    have listed := mem_entries_of_lookup _ e there
    have same := alone _ listed (List.prefix_append ["work", "n", "dist"] rest)
    exact nonempty (by simpa using same)
  refine ⟨p, d', created, outside, ?_⟩
  rintro ⟨report, d'', o, ran, located, only⟩
  subst same
  obtain ⟨there, taken⟩ := ready.directory_of_run report ran ["x"] (by simp) found
  cases located.symm.trans there
  have listed := only "x" (by rw [taken]; rfl)
  simp at listed

end Registry

end Workbench
