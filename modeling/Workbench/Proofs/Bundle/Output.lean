import Workbench.Proofs.Bundle.Document
import Workbench.Proofs.Bundle.Frame
import Workbench.Proofs.Disk.Copy

/-! What a build leaves in its output directory, if that was empty once it was made afresh and lies
apart from the sources and the public files. -/
namespace Workbench

namespace Bundle

open Disk

variable {d d' : Disk}

theorem sections_congr (heading : Path → String) (prepare : String → String) (sources : List Path)
    (same : ∀ p ∈ sources, d'.fileText p = d.fileText p) :
    sections d' heading prepare sources = sections d heading prepare sources := by
  induction sources with
  | nil => rfl
  | cons p rest ih =>
    rw [sections, sections, same p List.mem_cons_self,
      ih fun q member => same q (List.mem_cons_of_mem p member)]

/-- There is a style sheet if there are styles, and it is not empty. -/
theorem bundleStyles_eq_ok (src : Path) (styles : List Path) (style : Option String)
    (bundled : bundleStyles d src styles = .ok style) :
    (style = none ↔ styles = []) ∧ ∀ css, style = some css → css ≠ "" := by
  unfold bundleStyles at bundled
  split at bundled
  next empty =>
    cases bundled
    simp [empty]
  next nonempty =>
    obtain ⟨p, rest, rfl⟩ := List.exists_cons_of_ne_nil nonempty
    rw [sections] at bundled
    cases read : d.fileText p with
    | error e => simp [read, bind, Except.bind] at bundled
    | ok source =>
      cases more : sections d (fun p => "/* File: " ++ label src p ++ " */\n") id rest with
      | error e => simp [read, more, bind, Except.bind] at bundled
      | ok text =>
        simp only [read, more, bind, Except.bind, pure, Except.pure] at bundled
        cases bundled
        simp

/-- What a search for sources finds are files below the directory that is searched. -/
theorem get?_of_discovered (src : Path) (s : Location) (scripts styles : List Path)
    (located : d.locate true src = .ok s) (directory : d.get? s = some .directory)
    (discovered : discoverSources d src = .ok (scripts, styles)) (p : Path)
    (listed : p ∈ scripts ∨ p ∈ styles) :
    ∃ names content runnable, p = src.under names ∧ names ≠ [] ∧
      d.get? (s ++ names) = some (.file content runnable) := by
  obtain ⟨e, solid, walked⟩ := walk_eq_ok looksInto src s located directory
  simp only [discoverSources, filesBelow, walked, Except.mapError, bind, Except.bind, pure,
    Except.pure] at discovered
  cases discovered
  have member := Or.elim listed (fun script => (List.mem_filter.mp script).1)
    fun style => (List.mem_filter.mp style).1
  obtain ⟨⟨names, entry⟩, inside, same⟩ := List.mem_filterMap.mp member
  cases entry with
  | directory => cases same
  | link => cases same
  | file content runnable =>
    cases same
    rcases List.mem_cons.mp inside with start | below
    · -- the walk starts at no file
      cases start
      cases solid
    · obtain ⟨nonempty, found⟩ := get?_of_mem_below _ _ _ _ below
      exact ⟨names, content, runnable, rfl, nonempty, found⟩

/-- The files that a build makes out of the sources. -/
def generated? (script : String) (style : Option String) (page : String) (names : Location) :
    Option Entry :=
  if names = [documentName] then some (.file page.toUTF8 false)
  else if names = [styleName] then style.map fun css => .file css.toUTF8 false
  else if names = [scriptName] then some (.file script.toUTF8 false)
  else none

theorem generated?_document (script page : String) (style : Option String) :
    generated? script style page [documentName] = some (.file page.toUTF8 false) := rfl

theorem generated?_cases (script page : String) (style : Option String) (names : Location) :
    generated? script style page names = none ∨
      ∃ content runnable, generated? script style page names = some (.file content runnable) := by
  unfold generated?
  split
  · exact .inr ⟨_, _, rfl⟩
  · split
    · cases style with
      | none => exact .inl rfl
      | some css => exact .inr ⟨_, _, rfl⟩
    · split
      · exact .inr ⟨_, _, rfl⟩
      · exact .inl rfl

/-- With a style sheet three files are generated. -/
theorem generated?_eq_some_iff (script css page : String) (names : Location) (e : Entry) :
    generated? script (some css) page names = some e ↔
      names = [documentName] ∧ e = .file page.toUTF8 false ∨
      names = [scriptName] ∧ e = .file script.toUTF8 false ∨
      names = [styleName] ∧ e = .file css.toUTF8 false := by
  have apart : [scriptName] ≠ [documentName] ∧ [styleName] ≠ [documentName] ∧
      [scriptName] ≠ [styleName] := by decide
  unfold generated?
  split
  next here =>
    subst here
    simp [apart.1.symm, apart.2.1.symm, eq_comm]
  next other =>
    split
    next here =>
      subst here
      simp [apart.2.1, apart.2.2.symm, eq_comm]
    next other' =>
      simp [other, other', eq_comm]

namespace Job

/-- The parts that a build is made of. -/
theorem run_eq_ok (job : Job) (report : Report) (ran : job.run d = (.ok report, d')) :
    ∃ cleared document scripts styles script style mid₁ mid₂ mid₃,
      job.recreateOut d = (.ok (), cleared) ∧ job.document cleared = .ok document ∧
      cleared.isDir job.src = true ∧ discoverSources cleared job.src = .ok (scripts, styles) ∧
      bundleScripts cleared job.src (orderScripts scripts) = .ok script ∧
      writeText (job.out.child scriptName) script cleared = (.ok (), mid₁) ∧
      bundleStyles mid₁ job.src styles = .ok style ∧
      (style.getD "" ≠ "" ∧
          writeText (job.out.child styleName) (style.getD "") mid₁ = (.ok (), mid₂) ∨
        style.getD "" = "" ∧ mid₂ = mid₁) ∧
      writeText (job.out.child documentName) (injectReferences document) mid₂ = (.ok (), mid₃) ∧
      (mid₃.isDir job.assets = true ∧
          copyTree job.assets job.out (some documentName) mid₃ = (.ok report.assetsCopied, d') ∨
        mid₃.isDir job.assets = false ∧ report.assetsCopied = 0 ∧ d' = mid₃) ∧
      report = ⟨orderScripts scripts, styles, style.getD "" ≠ "", report.assetsCopied,
        d'.countFiles job.out⟩ := by
  unfold run at ran
  obtain ⟨_, cleared, made, ran⟩ := (bind_eq_ok_iff _ _ _ _ _).mp ran
  obtain ⟨document, read, ran⟩ := (Task.ask_bind_eq_ok_iff _ _ _).mp ran
  rw [Task.look_bind] at ran
  split at ran
  swap
  · cases ran
  next isDir =>
    obtain ⟨⟨scripts, styles⟩, discovered, ran⟩ := (Task.ask_bind_eq_ok_iff _ _ _).mp ran
    obtain ⟨script, bundled, ran⟩ := (Task.ask_bind_eq_ok_iff _ _ _).mp ran
    obtain ⟨_, mid₁, wrote₁, ran⟩ := (bind_eq_ok_iff _ _ _ _ _).mp ran
    obtain ⟨style, styled, ran⟩ := (Task.ask_bind_eq_ok_iff _ _ _).mp ran
    obtain ⟨mid₂, wrote₂, ran⟩ := (optional_eq_ok_iff _ _ _ _ _ _).mp ran
    obtain ⟨_, mid₃, wrote₃, ran⟩ := (bind_eq_ok_iff _ _ _ _ _).mp ran
    rw [Task.look_bind] at ran
    obtain ⟨copied, last, copies, ran⟩ := (branch_eq_ok_iff _ _ _ _ _ _ _).mp ran
    beta_reduce at ran
    rw [Task.look_bind] at ran
    cases ran
    refine ⟨cleared, document, scripts, styles, script, style, mid₁, mid₂, mid₃, made, read, isDir,
      discovered, bundled, wrote₁, styled, ?_, wrote₃, ?_, rfl⟩
    · simpa using wrote₂
    · simpa using copies

/-- The disk without what the output path names. -/
def withoutOut (job : Job) (d : Disk) : Disk :=
  match d.locate false job.out with
  | .ok a => d.eraseTree a
  | .error _ => d

/-- The output path does not go up, or the directory that it names an entry of is reached without
the old output. -/
def IsSteady (job : Job) (d : Disk) : Prop :=
  ".." ∉ job.out.names ∨ ∃ dir name, (job.withoutOut d).parentSpot job.out = .ok (dir, some name)

/-- Wherever they lead to, the output path leads away from the sources and from the public files. -/
structure IsDisjoint (job : Job) (d : Disk) : Prop where
  sources : ∀ o s, d.locate true job.out = .ok o → d.locate true job.src = .ok s → Apart s o
  assets : ∀ o a, d.locate true job.out = .ok o → d.locate true job.assets = .ok a → Apart a o

theorem IsDisjoint.of_located {job : Job} {d : Disk} {o s a : Location}
    (out : d.locate true job.out = .ok o) (source : d.locate true job.src = .ok s)
    (apart : Apart s o) (assets : d.locate true job.assets = .ok a) (apart' : Apart a o) :
    job.IsDisjoint d := by
  constructor
  · intro o' s' located located'
    rw [out] at located
    rw [source] at located'
    cases located
    cases located'
    exact apart
  · intro o' a' located located'
    rw [out] at located
    rw [assets] at located'
    cases located
    cases located'
    exact apart'

theorem withoutOut_isPartOf (job : Job) (d : Disk) :
    (job.withoutOut d).IsPartOf d ∧ (job.withoutOut d).workDir = d.workDir := by
  unfold withoutOut
  split
  · exact ⟨eraseTree_isPartOf _, rfl⟩
  · exact ⟨.refl d, rfl⟩

/-- What is removed with the old output lies at or below what the output path names. -/
theorem withoutOut_isPartOf_of_removed (job : Job) (a : Location)
    (located : d.locate false job.out = .ok a) (gone : Removed a d d') :
    (job.withoutOut d).IsPartOf d' ∧ d'.workDir = (job.withoutOut d).workDir := by
  rw [withoutOut, located]
  refine ⟨fun k e found => ⟨e, ?_, .refl e⟩, gone.workDir⟩
  rw [get?_eraseTree] at found
  split at found
  · cases found
  next outside =>
    by_cases root : k = []
    · subst root
      rw [get?_nil] at found ⊢
      exact found
    · rw [gone.same k fun within => outside ⟨within, root⟩, found]

/-- Before the output directory is made, none is at the output path, and all but the old output is
there. -/
theorem recreateOut_eq_ok (job : Job) (storable : d.IsStorable)
    (made : job.recreateOut d = (.ok (), d')) :
    ∃ mid : Disk, mid.IsStorable ∧ mid.isDir job.out = false ∧
      (job.withoutOut d).IsPartOf mid ∧ mid.workDir = (job.withoutOut d).workDir ∧
      makeDirs job.out mid = (.ok (), d') := by
  obtain ⟨part, work⟩ := job.withoutOut_isPartOf d
  unfold recreateOut at made
  rw [Task.look_bind] at made
  split at made
  next there =>
    obtain ⟨_, mid, removed, remade⟩ := (bind_eq_ok_iff _ _ _ _ _).mp made
    have removed := (Task.mapError_eq_ok_iff _ _ _).mp removed
    have remade := (Task.mapError_eq_ok_iff _ _ _).mp remade
    have solid := isDir_of_removeTree removed
    have gone := removed_of_removeTree job.out d
    rw [removed] at gone
    rcases gone with same | ⟨a, located, gone⟩
    · dsimp only at same
      subst same
      exact ⟨mid, storable, solid, part, work.symm, remade⟩
    · obtain ⟨part, work⟩ := job.withoutOut_isPartOf_of_removed a located gone
      exact ⟨mid, gone.storable storable, solid, part, work, remade⟩
  next absent =>
    have made := (Task.mapError_eq_ok_iff _ _ _).mp made
    have solid : d.isDir job.out = false := by
      by_contra isDir
      rw [Bool.not_eq_false, isDir_iff] at isDir
      obtain ⟨l, located, directory⟩ := isDir
      exact absent ((isThere_iff _).mpr ⟨l, located, by simp [directory]⟩)
    exact ⟨d, storable, solid, part, work.symm, made⟩

/-- An output directory that was made afresh is empty. -/
theorem recreateOut_fresh (job : Job) (storable : d.IsStorable) (nonempty : job.out.text ≠ "")
    (steady : job.IsSteady d) (made : job.recreateOut d = (.ok (), d')) :
    ∃ o, Fresh d' job.out o := by
  obtain ⟨mid, storable, solid, part, work, made⟩ := job.recreateOut_eq_ok storable made
  rcases steady with level | ⟨dir, name, spotted⟩
  · obtain ⟨o, fresh, -⟩ := fresh_of_makeDirs storable nonempty level solid made
    exact ⟨o, fresh⟩
  · have spotted := parentSpot_mono part work dir name spotted
    obtain ⟨o, fresh, -⟩ := fresh_of_parentSpot storable dir name spotted solid made
    exact ⟨o, fresh⟩

/-- The output directory is empty, and apart from the sources and the public files. -/
structure IsClear (job : Job) (base : Disk) (o : Location) : Prop where
  fresh : Fresh base job.out o
  sources : ∀ s, base.locate true job.src = .ok s → Apart s o
  assets : ∀ a, base.locate true job.assets = .ok a → Apart a o

theorem IsDisjoint.isClear {job : Job} {base : Disk} {o : Location} (disjoint : job.IsDisjoint base)
    (fresh : Fresh base job.out o) : job.IsClear base o :=
  ⟨fresh, fun s => disjoint.sources o s fresh.located, fun a => disjoint.assets o a fresh.located⟩

/-- The entry that a build takes over from the public directory under some names. -/
def asset? (job : Job) (base : Disk) (names : Location) : Option Entry :=
  match base.locate true job.assets with
  | .ok a => base.asset? (some documentName) a names
  | .error _ => none

/-- How many entries a build takes over from the public directory as files. -/
def assetCount (job : Job) (base : Disk) : Nat :=
  match base.locate true job.assets with
  | .ok a => base.countBelow (isCounted (some documentName)) a
  | .error _ => 0

/-- What stands under some names in the output directory: what was taken over from the public
directory, and else what was generated. A link is taken over as a file, with the content that it led
to. -/
def Leaves (job : Job) (base : Disk) (names : Location) (generated after : Option Entry) : Prop :=
  match job.asset? base names with
  | none => after = generated
  | some (.link _) => ∃ content runnable, after = some (.file content runnable) ∧
      ∀ content' runnable',
        base.entryAt (job.assets.under names) = .ok (.file content' runnable') →
          content' = content ∧ runnable' = runnable
  | some e => after = some e

variable {job : Job} {base : Disk} {o : Location}

theorem asset?_of_located (a names : Location) (located : base.locate true job.assets = .ok a) :
    job.asset? base names = base.asset? (some documentName) a names := by
  rw [asset?, located]

/-- What is taken over is in the public directory. -/
theorem get?_of_asset? (a names : Location) (e : Entry)
    (taken : base.asset? (some documentName) a names = some e) :
    base.get? (a ++ names) = some e := by
  unfold Disk.asset? at taken
  split at taken
  · split at taken
    · cases taken
    · cases taken
      assumption
  · cases taken

theorem Leaves.of_none {names : Location} {generated after : Option Entry}
    (left : job.Leaves base names generated after) (vacant : job.asset? base names = none) :
    after = generated := by
  rwa [Leaves, vacant] at left

theorem Leaves.of_file {names : Location} {generated after : Option Entry}
    (left : job.Leaves base names generated after) (content : ByteArray) (runnable : Bool)
    (taken : job.asset? base names = some (.file content runnable)) :
    after = some (.file content runnable) := by
  rwa [Leaves, taken] at left

theorem leaves_of_lays (tree : base.IsTree) (a names : Location)
    (located : base.locate true job.assets = .ok a) (before after : Option Entry)
    (lays : base.Lays (some documentName) job.assets a names before after) :
    job.Leaves base names before after := by
  unfold Lays at lays
  rw [Leaves, asset?_of_located a names located]
  cases found : base.asset? (some documentName) a names with
  | none =>
    rw [found] at lays
    exact lays
  | some e =>
    rw [found] at lays
    obtain ⟨e', rfl, copy, -⟩ := lays
    cases e with
    | directory => exact congrArg some copy
    | link target =>
      obtain ⟨⟨content, runnable, rfl⟩, read⟩ := copy
      refine ⟨content, runnable, rfl, fun content' runnable' led => ?_⟩
      have equal := read content' runnable' led
      cases equal
      exact ⟨rfl, rfl⟩
    | file content runnable =>
      -- the path of a file leads to the file itself
      have there := get?_of_asset? a names _ found
      have read : base.entryAt (job.assets.under names) = .ok (.file content runnable) :=
        (entryAt_eq_ok_iff _ _).mpr ⟨_, locate_under tree located names _ there
          (fun _ same => by cases same), there⟩
      rw [copy.2 content runnable read]

/-- Only a directory could be taken over in the place of the entry document. -/
theorem asset?_document_eq_none (job : Job) (base : Disk)
    (solid : job.asset? base [documentName] ≠ some .directory) :
    job.asset? base [documentName] = none := by
  unfold asset? Disk.asset? at solid ⊢
  split at solid
  · split at solid
    next e _ =>
      by_cases directory : e = .directory
      · simp [directory] at solid
      · simp [directory]
    next => rfl
  · rfl

/-- Nothing is taken over in a place that the public directory has no entry for. -/
theorem asset?_eq_none_of_absent (names : Location)
    (absent : ∀ a, base.locate true job.assets = .ok a → base.get? (a ++ names) = none) :
    job.asset? base names = none := by
  unfold asset?
  split
  next a there => rw [Disk.asset?, absent a there]
  next => rfl

/-- Without a public directory nothing is taken over. -/
theorem asset?_eq_none (tree : base.IsTree) (absent : base.isDir job.assets = false) :
    (∀ names, names ≠ [] → job.asset? base names = none) ∧ job.assetCount base = 0 := by
  unfold asset? assetCount
  cases located : base.locate true job.assets with
  | error fault => simp
  | ok a =>
    have solid : base.get? a ≠ some .directory := by
      intro directory
      have isDir := (isDir_iff _).mpr ⟨a, located, directory⟩
      simp [absent] at isDir
    constructor
    · intro names nonempty
      simp only [Disk.asset?, tree.none_below a names solid nonempty]
    · simp only [countBelow]
      rw [List.countP_eq_zero]
      rintro ⟨l, e⟩ listed counted
      simp only [Bool.and_eq_true, decide_eq_true_eq] at counted
      obtain ⟨⟨⟨rest, rfl⟩, apart⟩, -⟩ := counted
      have nonempty : rest ≠ [] := by simpa using apart
      have found := lookup_of_mem_entries tree.keys_nodup _ e listed
      rw [← get?_of_ne _ (by simp [nonempty]), tree.none_below a rest solid nonempty] at found
      cases found

/-- The files that a build generates are all that it writes before the public files are copied. -/
theorem filled_of_wrote (storable : base.IsStorable) (fresh : Fresh base job.out o)
    (script page : String) (style : Option String) (nonempty : ∀ css, style = some css → css ≠ "")
    (mid₁ mid₂ mid₃ : Disk)
    (wrote₁ : writeText (job.out.child scriptName) script base = (.ok (), mid₁))
    (wrote₂ : style.getD "" ≠ "" ∧
        writeText (job.out.child styleName) (style.getD "") mid₁ = (.ok (), mid₂) ∨
      style.getD "" = "" ∧ mid₂ = mid₁)
    (wrote₃ : writeText (job.out.child documentName) page mid₂ = (.ok (), mid₃)) :
    Filled o base mid₃ ∧ (∀ q, mid₃.isDir q = base.isDir q) ∧
      ∀ names, names ≠ [] → mid₃.get? (o ++ names) = generated? script style page names := by
  have absent := fresh.absent storable
  obtain ⟨filled₁, dirs₁, after₁⟩ := (fresh.filled storable).wrote_child storable fresh scriptName script
    (by decide) (absent _ (by simp)) wrote₁
  have between : Filled o base mid₂ ∧ (∀ q, mid₂.isDir q = base.isDir q) ∧
      ∀ names, mid₂.get? (o ++ names) =
        if names = [styleName] then style.map fun css => .file css.toUTF8 false
        else mid₁.get? (o ++ names) := by
    have free : mid₁.get? (o ++ [styleName]) = none := by
      rw [after₁, if_neg (by decide), absent _ (by simp)]
    cases style with
    | none =>
      obtain ⟨-, rfl⟩ := wrote₂.resolve_left (by simp)
      refine ⟨filled₁, dirs₁, fun names => ?_⟩
      split
      next here => rw [here, free, Option.map_none]
      next => rfl
    | some css =>
      obtain ⟨-, wrote₂⟩ := wrote₂.resolve_right (by simp [nonempty css rfl])
      obtain ⟨filled₂, dirs₂, after₂⟩ :=
        filled₁.wrote_child storable fresh styleName css (by decide) free wrote₂
      exact ⟨filled₂, fun q => (dirs₂ q).trans (dirs₁ q), after₂⟩
  obtain ⟨filled₂, dirs₂, after₂⟩ := between
  obtain ⟨filled₃, dirs₃, after₃⟩ := filled₂.wrote_child storable fresh documentName page (by decide)
    (by rw [after₂, if_neg (by decide), after₁, if_neg (by decide), absent _ (by simp)]) wrote₃
  refine ⟨filled₃, fun q => (dirs₃ q).trans (dirs₂ q), fun names named => ?_⟩
  rw [after₃, after₂, after₁, absent names named, generated?]

/-- The style sheet is that of the disk before the scripts were written. -/
theorem bundleStyles_eq (storable : base.IsStorable) (clear : job.IsClear base o)
    (isDir : base.isDir job.src = true) (scripts styles : List Path)
    (discovered : discoverSources base job.src = .ok (scripts, styles))
    (filled : Filled o base d) :
    bundleStyles d job.src styles = bundleStyles base job.src styles := by
  obtain ⟨s, located, directory⟩ := (isDir_iff _).mp isDir
  unfold bundleStyles
  rw [sections_congr]
  intro p member
  obtain ⟨names, content, runnable, rfl, nonempty, found⟩ :=
    get?_of_discovered job.src s scripts styles located directory discovered p (.inr member)
  have before := locate_under storable.toIsTree located names _ found (fun _ same => by cases same)
  have after := locate_mono (filled.isPartOf storable clear.fresh) filled.workDir before
  have same := filled.same (s ++ names) fun rest _ => (clear.sources s located).ne s o names rest
  have read : d.entryAt (job.src.under names) = base.entryAt (job.src.under names) := by
    rw [(entryAt_eq_ok_iff _ _).mpr ⟨_, before, found⟩,
      (entryAt_eq_ok_iff _ _).mpr ⟨_, after, same.trans found⟩]
  simp only [fileText, readText, readBytes, read]

/-- The public files are those of the disk before anything was generated, and are laid over what
was. No directory is taken over in the place of a generated file. -/
theorem leaves_of_copied (storable : base.IsStorable) (clear : job.IsClear base o)
    (script page : String) (style : Option String) (mid : Disk) (n : Nat) (filled : Filled o base mid)
    (dirs : ∀ q, mid.isDir q = base.isDir q)
    (after : ∀ names, names ≠ [] → mid.get? (o ++ names) = generated? script style page names)
    (copied : mid.isDir job.assets = true ∧
        copyTree job.assets job.out (some documentName) mid = (.ok n, d') ∨
      mid.isDir job.assets = false ∧ n = 0 ∧ d' = mid) :
    Filled o base d' ∧ n = job.assetCount base ∧ ∀ names, names ≠ [] →
      job.Leaves base names (generated? script style page names) (d'.get? (o ++ names)) ∧
      (job.asset? base names = some .directory → generated? script style page names = none) := by
  have fresh := clear.fresh
  rw [dirs] at copied
  rcases copied with ⟨listed, copied⟩ | ⟨absent, rfl, rfl⟩
  · obtain ⟨a, located, directory⟩ := (isDir_iff _).mp listed
    obtain ⟨laid, count⟩ := copyTree_laid storable fresh (clear.assets a located) located directory
      mid d' _ filled copied
    refine ⟨laid.filled, by rw [count, assetCount, located], fun names nonempty => ?_⟩
    have lays := laid.inside names nonempty
    rw [after names nonempty] at lays
    refine ⟨leaves_of_lays storable.toIsTree a names located _ _ lays, fun found => ?_⟩
    rw [asset?_of_located a names located] at found
    rw [Lays, found] at lays
    obtain ⟨_, -, -, vacant⟩ := lays
    refine (generated?_cases script _ style names).resolve_right ?_
    rintro ⟨content, runnable, file⟩
    exact vacant rfl content runnable file
  · obtain ⟨nothing, count⟩ := asset?_eq_none storable.toIsTree absent
    refine ⟨filled, count.symm, fun names nonempty => ⟨?_, fun found => ?_⟩⟩
    · rw [Leaves, nothing names nonempty]
      exact after names nonempty
    · simp [nothing names nonempty] at found

/-- What a build that went through leaves, told by the disk as it was once the output directory had
been made afresh. -/
theorem output_of_run (storable : d.IsStorable) (report : Report)
    (ran : job.run d = (.ok report, d')) (clear : job.IsClear (job.recreateOut d).2 o) :
    ∃ document scripts styles script style,
      job.document (job.recreateOut d).2 = .ok document ∧
      discoverSources (job.recreateOut d).2 job.src = .ok (scripts, styles) ∧
      bundleScripts (job.recreateOut d).2 job.src (orderScripts scripts) = .ok script ∧
      bundleStyles (job.recreateOut d).2 job.src styles = .ok style ∧
      Filled o (job.recreateOut d).2 d' ∧
      (∀ names, names ≠ [] →
        job.Leaves (job.recreateOut d).2 names
          (generated? script style (injectReferences document) names) (d'.get? (o ++ names)) ∧
        (job.asset? (job.recreateOut d).2 names = some .directory →
          generated? script style (injectReferences document) names = none)) ∧
      report = ⟨orderScripts scripts, styles, styles ≠ [], job.assetCount (job.recreateOut d).2,
        d'.countBelow (fun _ e => e.isFile) o⟩ := by
  have storable := job.recreateOut_storable storable
  obtain ⟨cleared, document, scripts, styles, script, style, mid₁, mid₂, mid₃, made, read, isDir,
    discovered, bundled, wrote₁, styled, wrote₂, wrote₃, copied, same⟩ := run_eq_ok job report ran
  have base : (job.recreateOut d).2 = cleared := by rw [made]
  rw [base] at storable clear ⊢
  have fresh := clear.fresh
  obtain ⟨filled₁, -⟩ := (fresh.filled storable).wrote_child storable fresh scriptName script (by decide)
    (fresh.absent storable _ (by simp)) wrote₁
  rw [bundleStyles_eq storable clear isDir scripts styles discovered filled₁] at styled
  obtain ⟨kind, nonempty⟩ := bundleStyles_eq_ok job.src styles style styled
  obtain ⟨filled₃, dirs, after⟩ := filled_of_wrote storable fresh script
    (injectReferences document) style nonempty mid₁ mid₂ mid₃ wrote₁ wrote₂ wrote₃
  have wroteStylesheet : (style.getD "" ≠ "") = (styles ≠ []) := by
    cases style with
    | none => simp [kind.mp rfl]
    | some css => simp [nonempty css rfl, ← kind]
  obtain ⟨filled, count, leaves⟩ := leaves_of_copied storable clear script
    (injectReferences document) style mid₃ report.assetsCopied filled₃ dirs after copied
  have files := countFiles_eq filled.storable.toIsTree job.out o (filled.located storable fresh)
    (filled.directory fresh)
  refine ⟨document, scripts, styles, script, style, read, discovered, bundled, styled, filled, leaves,
    ?_⟩
  rw [same, count, files]
  simp only [wroteStylesheet]

/-- The output directory of a build that went through was empty once it was made. -/
theorem isClear_of_run (job : Job) (storable : d.IsStorable) (report : Report)
    (ran : job.run d = (.ok report, d')) (nonempty : job.out.text ≠ "") (steady : job.IsSteady d)
    (disjoint : job.IsDisjoint (job.recreateOut d).2) :
    ∃ o, job.IsClear (job.recreateOut d).2 o := by
  obtain ⟨cleared, -, -, -, -, -, -, -, -, made, -⟩ := run_eq_ok job report ran
  rw [made] at disjoint ⊢
  obtain ⟨o, fresh⟩ := job.recreateOut_fresh storable nonempty steady made
  exact ⟨o, disjoint.isClear fresh⟩

/-- The output directory holds what was generated with the public files laid over it, and nothing
else. Sources and public files are those of the disk with the output directory just made. That disk
has every entry that did not lie at or below what the output path named, and beside those at most
new directories. -/
theorem run_leaves (storable : d.IsStorable) (job : Job) (report : Report)
    (ran : job.run d = (.ok report, d')) (nonempty : job.out.text ≠ "") (steady : job.IsSteady d)
    (disjoint : job.IsDisjoint (job.recreateOut d).2) :
    ∃ o document scripts styles script style,
      d'.locate true job.out = .ok o ∧ d'.get? o = some .directory ∧
      job.document (job.recreateOut d).2 = .ok document ∧
      discoverSources (job.recreateOut d).2 job.src = .ok (scripts, styles) ∧
      bundleScripts (job.recreateOut d).2 job.src (orderScripts scripts) = .ok script ∧
      bundleStyles (job.recreateOut d).2 job.src styles = .ok style ∧
      (style.isSome ↔ styles ≠ []) ∧
      (∀ names, names ≠ [] → job.Leaves (job.recreateOut d).2 names
        (generated? script style (injectReferences document) names) (d'.get? (o ++ names))) ∧
      report = ⟨orderScripts scripts, styles, styles ≠ [], job.assetCount (job.recreateOut d).2,
        d'.countBelow (fun _ e => e.isFile) o⟩ ∧
      (∀ l e, d.get? l = some e → (job.recreateOut d).2.get? l = some e ∨
        ∃ removed, d.locate false job.out = .ok removed ∧ removed <+: l) ∧
      ∀ l e, (job.recreateOut d).2.get? l = some e → d.get? l = some e ∨ e = .directory := by
  have cleared := job.recreateOut_storable storable
  obtain ⟨o, clear⟩ := job.isClear_of_run storable report ran nonempty steady disjoint
  obtain ⟨document, scripts, styles, script, style, read, discovered, bundled, styled, filled, leaves,
    same⟩ := output_of_run storable report ran clear
  have kind := (bundleStyles_eq_ok job.src styles style styled).1
  refine ⟨o, document, scripts, styles, script, style, filled.located cleared clear.fresh,
    filled.directory clear.fresh, read, discovered, bundled, styled, ?_,
    fun names named => (leaves names named).1, same, job.recreateOut_kept, job.recreateOut_new⟩
  rw [Option.isSome_iff_ne_none, ne_eq, kind]

/-- A project with a script and a public file, that was built before. -/
def withPublic (name content : String) : Disk where
  entries :=
    [(["p"], .directory), (["p", "src"], .directory),
      (["p", "src", "App.js"], .file "let a;".toUTF8 false), (["p", "public"], .directory),
      (["p", "public", name], .file content.toUTF8 false), (["p", "dist"], .directory),
      (["p", "dist", "old.js"], .file "".toUTF8 false)]
  workDir := []

theorem withPublic_storable : (withPublic "note.txt" "hi").IsStorable :=
  .of_listed (by decide) (by decide)

/-- What is found where, once the old output is gone. -/
theorem withPublic_cleared :
    let cleared := ((inside "dist").recreateOut (withPublic "note.txt" "hi")).2
    cleared.locate true (inside "dist").out = .ok ["p", "dist"] ∧
      cleared.locate true (inside "dist").src = .ok ["p", "src"] ∧
      cleared.locate true (inside "dist").assets = .ok ["p", "public"] ∧
      (inside "dist").asset? cleared ["note.txt"] = some (.file "hi".toUTF8 false) ∧
      (inside "dist").asset? cleared ["old.js"] = none ∧
      (inside "dist").assetCount cleared = 1 ∧
      cleared.get? ["p", "public", scriptName] = none ∧
      cleared.get? ["p", "public", styleName] = none := by
  decide +kernel

theorem withPublic_disjoint :
    (inside "dist").IsDisjoint ((inside "dist").recreateOut (withPublic "note.txt" "hi")).2 :=
  .of_located withPublic_cleared.1 withPublic_cleared.2.1 ⟨by decide, by decide⟩
    withPublic_cleared.2.2.1 ⟨by decide, by decide⟩

/-- A path without dots does not go up. -/
theorem inside_steady : (inside "dist").out.text ≠ "" ∧
    (inside "dist").IsSteady (withPublic "note.txt" "hi") :=
  ⟨by decide, .inl (by decide)⟩

theorem withPublic_built :
    let d' := ((inside "dist").run (withPublic "note.txt" "hi")).2
    d'.locate true (inside "dist").out = .ok ["p", "dist"] ∧
      ∃ report, (inside "dist").run (withPublic "note.txt" "hi") = (.ok report, d') := by
  have built : ((inside "dist").run (withPublic "note.txt" "hi")).2.locate true (inside "dist").out =
        .ok ["p", "dist"] ∧
      ((inside "dist").run (withPublic "note.txt" "hi")).1.isOk = true := by
    simp only [run, copyTree, copyListed_eq_copyEach, copyInto_eq_copyDeep]
    decide +kernel
  exact ⟨built.1, exists_eq_ok_of_isOk _ _ built.2⟩

/-- The public file is found in the output directory, and what stood there before is gone. -/
theorem note_left : (withPublic "note.txt" "hi").IsStorable ∧ (inside "dist").out.text ≠ "" ∧
    (inside "dist").IsSteady (withPublic "note.txt" "hi") ∧
    (inside "dist").IsDisjoint ((inside "dist").recreateOut (withPublic "note.txt" "hi")).2 ∧
    ∃ report, (inside "dist").run (withPublic "note.txt" "hi") =
        (.ok report, ((inside "dist").run (withPublic "note.txt" "hi")).2) ∧
      report.assetsCopied = 1 ∧
      ((inside "dist").run (withPublic "note.txt" "hi")).2.get? ["p", "dist", "note.txt"] =
        some (.file "hi".toUTF8 false) ∧
      ((inside "dist").run (withPublic "note.txt" "hi")).2.get? ["p", "dist", "old.js"] = none := by
  obtain ⟨place, report, ran⟩ := withPublic_built
  obtain ⟨-, -, -, taken, vacant, count, -⟩ := withPublic_cleared
  have disjoint := withPublic_disjoint
  obtain ⟨nonempty, steady⟩ := inside_steady
  obtain ⟨o, _, _, _, _, _, located, -, -, -, -, -, -, leaves, counts, -⟩ :=
    run_leaves withPublic_storable (inside "dist") report ran nonempty steady disjoint
  rw [place] at located
  cases located
  -- from here on the disk that was cleared is not to be computed again
  generalize ((inside "dist").recreateOut (withPublic "note.txt" "hi")).2 = cleared at *
  refine ⟨withPublic_storable, nonempty, steady, disjoint, report, ran,
    (congrArg Report.assetsCopied counts).trans count, (leaves ["note.txt"] (by simp)).of_file _ _ taken, ?_⟩
  refine ((leaves ["old.js"] (by simp)).of_none vacant).trans ?_
  simp only [generated?, documentName, styleName, scriptName, List.cons.injEq, String.reduceEq,
    false_and, if_false]

/-- A project whose path goes down and up again. -/
def downAndUp : Job := ⟨⟨"/p/src/.."⟩, (Project.make "p" ⟨"/p/src/.."⟩ 0).outputDir "dist"⟩

/-- The path of the project ends in dots, so that its page is called after no directory. -/
theorem title_without_name :
    (withPublic "note.txt" "hi").locate true downAndUp.root = .ok ["p"] ∧
      (downAndUp.run (withPublic "note.txt" "hi")).1.isOk = true ∧
      (downAndUp.run (withPublic "note.txt" "hi")).2.get? ["p", "dist", "index.html"] =
        some (.file (injectReferences (defaultDocument "App")).toUTF8 false) ∧
      injectReferences (defaultDocument "App") ≠ injectReferences (defaultDocument "p") := by
  obtain ⟨out, source, assets, directory, empty, vacant, own⟩ :
      let cleared := (downAndUp.recreateOut (withPublic "note.txt" "hi")).2
      cleared.locate true downAndUp.out = .ok ["p", "dist"] ∧
        cleared.locate true downAndUp.src = .ok ["p", "src"] ∧
        cleared.locate true downAndUp.assets = .ok ["p", "public"] ∧
        cleared.get? ["p", "dist"] = some .directory ∧ cleared.namesAt ["p", "dist"] = [] ∧
        downAndUp.asset? cleared [documentName] = none ∧
        cleared.isFile (downAndUp.assets.child documentName) = false := by
    decide +kernel
  have disjoint : downAndUp.IsDisjoint (downAndUp.recreateOut (withPublic "note.txt" "hi")).2 :=
    .of_located out source ⟨by decide, by decide⟩ assets ⟨by decide, by decide⟩
  have clear : downAndUp.IsClear (downAndUp.recreateOut (withPublic "note.txt" "hi")).2
      ["p", "dist"] :=
    disjoint.isClear ⟨out, directory, empty⟩
  have ok : (downAndUp.run (withPublic "note.txt" "hi")).1.isOk = true := by
    simp only [run, copyTree, copyListed_eq_copyEach, copyInto_eq_copyDeep]
    decide +kernel
  obtain ⟨report, ran⟩ := exists_eq_ok_of_isOk downAndUp.run (withPublic "note.txt" "hi") ok
  obtain ⟨document, scripts, styles, script, style, read, -, -, -, -, leaves, -⟩ :=
    output_of_run withPublic_storable report ran clear
  have nameless : downAndUp.root.fileName? = none := by decide
  generalize (downAndUp.recreateOut (withPublic "note.txt" "hi")).2 = cleared at *
  have titled : document = defaultDocument "App" := by
    rw [Job.document, own, nameless] at read
    exact (Except.ok.inj read).symm
  have page := (leaves [documentName] (by simp)).1.of_none vacant
  rw [titled, generated?_document] at page
  refine ⟨by decide +kernel, ok, page, fun same => ?_⟩
  obtain ⟨rest, length⟩ := length_of_title
  have lengths := congrArg String.length same
  rw [length, length] at lengths
  have same := Nat.add_right_cancel lengths
  have differ : "App".length ≠ "p".length := by decide
  exact differ same

/-- No public file takes the place of what was generated if none has its name. -/
theorem generated_survives (storable : d.IsStorable) (job : Job) (report : Report)
    (ran : job.run d = (.ok report, d')) (nonempty : job.out.text ≠ "") (steady : job.IsSteady d)
    (disjoint : job.IsDisjoint (job.recreateOut d).2)
    (unclaimed : ∀ a, (job.recreateOut d).2.locate true job.assets = .ok a →
      (job.recreateOut d).2.get? (a ++ [scriptName]) = none ∧
        (job.recreateOut d).2.get? (a ++ [styleName]) = none) :
    ∃ document scripts styles script style,
      job.document (job.recreateOut d).2 = .ok document ∧
      discoverSources (job.recreateOut d).2 job.src = .ok (scripts, styles) ∧
      bundleScripts (job.recreateOut d).2 job.src (orderScripts scripts) = .ok script ∧
      bundleStyles (job.recreateOut d).2 job.src styles = .ok style ∧
      d'.readText (job.out.child scriptName) = .ok script ∧
      d'.readText (job.out.child documentName) = .ok (injectReferences document) ∧
      (d'.isThere (job.out.child styleName) = true ↔ report.wroteStylesheet = true) ∧
      ∀ css, style = some css → d'.readText (job.out.child styleName) = .ok css := by
  obtain ⟨o, clear⟩ := job.isClear_of_run storable report ran nonempty steady disjoint
  obtain ⟨document, scripts, styles, script, style, read, discovered, bundled, styled, filled, leaves,
    same⟩ := output_of_run storable report ran clear
  have cleared := job.recreateOut_storable storable
  have located := filled.located cleared clear.fresh
  have kind := (bundleStyles_eq_ok job.src styles style styled).1
  have own (name : String) (vacant : job.asset? (job.recreateOut d).2 [name] = none) :
      d'.get? (o ++ [name]) = generated? script style (injectReferences document) [name] :=
    (leaves [name] (by simp)).1.of_none vacant
  have scriptVacant : job.asset? (job.recreateOut d).2 [scriptName] = none :=
    asset?_eq_none_of_absent _ fun a there => (unclaimed a there).1
  have styleVacant : job.asset? (job.recreateOut d).2 [styleName] = none :=
    asset?_eq_none_of_absent _ fun a there => (unclaimed a there).2
  have documentVacant : job.asset? (job.recreateOut d).2 [documentName] = none :=
    asset?_document_eq_none job _ fun directory => by
      have absent := (leaves [documentName] (by simp)).2 directory
      simp [generated?] at absent
  have text (name content : String)
      (there : d'.get? (o ++ [name]) = some (.file content.toUTF8 false)) :
      d'.readText (job.out.child name) = .ok content :=
    filled.readText_under located [name] content false there
  have styleThere := filled.isThere_under_iff located [styleName]
    (Location.isProper_singleton _ (by decide)) (by simp)
  refine ⟨document, scripts, styles, script, style, read, discovered, bundled, styled, ?_, ?_, ?_, ?_⟩
  · exact text scriptName script (by rw [own _ scriptVacant]; rfl)
  · exact text documentName _ (by rw [own _ documentVacant]; rfl)
  · refine styleThere.trans ?_
    rw [own _ styleVacant, same]
    have sheet : generated? script style (injectReferences document) [styleName] =
        style.map fun css => .file css.toUTF8 false := rfl
    cases style with
    | none => simp [sheet, kind.mp rfl]
    | some css => simp [sheet, ← kind]
  · rintro css rfl
    exact text styleName css (by rw [own _ styleVacant]; rfl)

theorem withPublic_unclaimed (a : Location)
    (located : ((inside "dist").recreateOut (withPublic "note.txt" "hi")).2.locate true
      (inside "dist").assets = .ok a) :
    ((inside "dist").recreateOut (withPublic "note.txt" "hi")).2.get? (a ++ [scriptName]) = none ∧
      ((inside "dist").recreateOut (withPublic "note.txt" "hi")).2.get? (a ++ [styleName]) =
        none := by
  obtain ⟨-, -, assets, -, -, -, script, style⟩ := withPublic_cleared
  rw [assets] at located
  cases located
  exact ⟨script, style⟩

/-- No public file has the name of the script bundle, which is what the sources say. -/
theorem script_left : (withPublic "note.txt" "hi").IsStorable ∧ (inside "dist").out.text ≠ "" ∧
    (inside "dist").IsSteady (withPublic "note.txt" "hi") ∧
    (inside "dist").IsDisjoint ((inside "dist").recreateOut (withPublic "note.txt" "hi")).2 ∧
    (∀ a, ((inside "dist").recreateOut (withPublic "note.txt" "hi")).2.locate true
        (inside "dist").assets = .ok a →
      ((inside "dist").recreateOut (withPublic "note.txt" "hi")).2.get? (a ++ [scriptName]) =
          none ∧
        ((inside "dist").recreateOut (withPublic "note.txt" "hi")).2.get? (a ++ [styleName]) =
          none) ∧
    ∃ report scripts styles script, (inside "dist").run (withPublic "note.txt" "hi") =
        (.ok report, ((inside "dist").run (withPublic "note.txt" "hi")).2) ∧
      discoverSources ((inside "dist").recreateOut (withPublic "note.txt" "hi")).2
        (inside "dist").src = .ok (scripts, styles) ∧
      bundleScripts ((inside "dist").recreateOut (withPublic "note.txt" "hi")).2
        (inside "dist").src (orderScripts scripts) = .ok script ∧
      ((inside "dist").run (withPublic "note.txt" "hi")).2.readText
        ((inside "dist").out.child scriptName) = .ok script := by
  obtain ⟨-, report, ran⟩ := withPublic_built
  obtain ⟨nonempty, steady⟩ := inside_steady
  obtain ⟨_, scripts, styles, script, _, -, discovered, bundled, -, left, -⟩ :=
    generated_survives withPublic_storable (inside "dist") report ran nonempty steady
      withPublic_disjoint withPublic_unclaimed
  exact ⟨withPublic_storable, nonempty, steady, withPublic_disjoint, withPublic_unclaimed, report,
    scripts, styles, script, ran, discovered, bundled, left⟩

/-- A public file that has the name of the script bundle takes its place. -/
theorem script_replaced :
    ((inside "dist").run (withPublic "bundle.js" "mine")).1.isOk = true ∧
      discoverSources ((inside "dist").recreateOut (withPublic "bundle.js" "mine")).2
        (inside "dist").src = .ok ([(inside "dist").src.child "App.js"], []) ∧
      bundleScripts ((inside "dist").recreateOut (withPublic "bundle.js" "mine")).2
        (inside "dist").src (orderScripts [(inside "dist").src.child "App.js"]) ≠ .ok "mine" ∧
      ((inside "dist").run (withPublic "bundle.js" "mine")).2.readText
        ((inside "dist").out.child scriptName) = .ok "mine" := by
  simp only [run, copyTree, copyListed_eq_copyEach, copyInto_eq_copyDeep]
  decide +kernel

end Job

end Bundle

end Workbench
