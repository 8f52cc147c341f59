import Workbench.Proofs.Bundle.Output
import Workbench.Proofs.Disk.Place

/-! When a build goes through. Its output directory is made afresh and is then apart from what the
build reads, so that writing the bundle changes nothing of that. Each file goes to a free name. -/
namespace Workbench

namespace Disk

variable {d d' : Disk} {p : Path} {l : Location}

/-- A file can be made under a free name in a directory. -/
theorem exists_writeText (located : d.locate true p = .ok l)
    (directory : d.get? l = some .directory) (name text : String) (named : IsName name)
    (absent : d.get? (l ++ [name]) = none) :
    ∃ d', writeText (p.child name) text d = (.ok (), d') := by
  have spotted := parentSpot_child located directory name named
  have level : (p.child name).endsInSlash = false := by
    have single := Location.isProper_singleton name named
    exact (Path.descends (leads_of_locate located).2.1 [name] single).endsInSlash (by simp)
  have opened := openForWriting_of_free true level spotted absent
  refine ⟨(d.put (l ++ [name]) (.file .empty false)).appendAt (l ++ [name]) text.toUTF8, ?_⟩
  refine (Task.mapError_eq_ok_iff _ _ _).mpr ((Task.change_eq_ok_iff _).mpr ?_)
  rw [writeBytes, opened]
  rfl

/-- In a directory that was made to be filled, too, and nothing else changes. -/
theorem Filled.exists_wrote_child {base : Disk} {o : Location} (filled : Filled o base d)
    (storable : base.IsStorable) (fresh : Fresh base p o) (name text : String) (named : IsName name)
    (absent : d.get? (o ++ [name]) = none) :
    ∃ d', writeText (p.child name) text d = (.ok (), d') ∧ Filled o base d' ∧
      (∀ q, d'.isDir q = d.isDir q) ∧ ∀ k, d'.get? (o ++ k) =
        if k = [name] then some (.file text.toUTF8 false) else d.get? (o ++ k) := by
  obtain ⟨d', wrote⟩ := exists_writeText (filled.located storable fresh) (filled.directory fresh)
    name text named absent
  exact ⟨d', wrote, filled.wrote_child storable fresh name text named absent wrote⟩

theorem fileText_under (tree : d.IsTree) (located : d.locate true p = .ok l) (names : List String)
    (text : String) (runnable : Bool)
    (found : d.get? (l ++ names) = some (.file text.toUTF8 runnable)) :
    d.fileText (p.under names) = .ok text := by
  have there := locate_under tree located names _ found fun _ same => by cases same
  have read : d.readText (p.under names) = .ok text :=
    (readText_eq_ok_iff _ _).mpr ((readBytes_eq_ok_iff _ _).mpr ⟨_, runnable, there, found⟩)
  rw [fileText, read]
  rfl

/-- Files with the name that is skipped are not copied. -/
theorem copyListed_skipped (skip : String) (levels : Nat) (dir : Location) (source target : Path)
    (listed : List (String × Entry)) (all : ∀ x ∈ listed, x.1 = skip ∧ x.2 ≠ .directory) :
    copyListed (some skip) levels dir source target listed d = (.ok 0, d) := by
  induction listed with
  | nil =>
    rw [copyListed]
    rfl
  | cons first rest ih =>
    obtain ⟨name, entry⟩ := first
    obtain ⟨rfl, solid⟩ := all (name, entry) List.mem_cons_self
    have later := ih fun x member => all x (List.mem_cons_of_mem _ member)
    rw [copyListed]
    dsimp only at solid ⊢
    rw [if_neg solid, if_pos rfl, pure_bind, bind_apply, later]
    rfl

/-- Of a directory that holds at most a file with the name that is skipped nothing is copied. -/
theorem copyTree_skipped (skip : String) (source target : Path)
    (located : d.locate true source = .ok l) (directory : d.get? l = some .directory)
    (only : ∀ name e, d.get? (l ++ [name]) = some e → name = skip ∧ e ≠ .directory) :
    copyTree source target (some skip) d = (.ok 0, d) := by
  have nothing := copyListed_skipped (d := d) skip pathLimit l source target (d.snapshot l)
    fun x member => only x.1 x.2 ((mem_snapshot l x.1 x.2).mp member)
  unfold copyTree
  rw [bind_apply]
  rcases locate_unfollowed located with here | ⟨k, aim, here, link⟩
  · rw [Task.mapError, Task.ask, here]
    dsimp only
    rw [Task.look_bind, directory]
    dsimp only
    rw [Task.look_bind]
    exact nothing
  · -- the link that the copy starts from is followed
    rw [Task.mapError, Task.ask, here]
    dsimp only
    rw [Task.look_bind, link]
    dsimp only
    rw [bind_apply, Task.mapError, Task.ask, located]
    dsimp only
    rw [Task.look_bind, if_pos (by simp [isDirAt, directory]), Task.look_bind]
    exact nothing

end Disk

namespace Bundle.Job

open Disk

variable {job : Job} {d mid base : Disk} {o : Location}

/-- An empty directory is made afresh by the path of its location. Everything is where it was. -/
theorem recreateOut_of_empty (storable : d.IsStorable) (l : Location) (name : String)
    (out : job.out = Location.path (l ++ [name])) (there : d.get? (l ++ [name]) = some .directory)
    (empty : ∀ rest, rest ≠ [] → d.get? (l ++ [name] ++ rest) = none) :
    ∃ d', job.recreateOut d = (.ok (), d') ∧ d'.IsStorable ∧ ∀ k, d'.get? k = d.get? k := by
  have below : l ++ [name] ≠ [] := by simp
  have tree := storable.toIsTree
  have named := tree.isName l name (by simp [there])
  have proper := tree.isProper (l ++ [name]) (by simp [there])
  have located : d.locate true job.out = .ok (l ++ [name]) := by
    rw [out]
    exact locate_path tree _ _ there Entry.isPlain_directory
  have isThere : d.isThere job.out = true := (isThere_iff _).mpr ⟨_, located, by simp [there]⟩
  have removed := removeTree_path storable there
  -- there was nothing in the directory that is gone with it
  have gone (k : Location) : ((d.eraseBelow (l ++ [name])).erase (l ++ [name])).get? k =
      if k = l ++ [name] then none else d.get? k := by
    rw [get?_erase _ below, get?_eraseBelow]
    split
    next => rfl
    next other =>
      split
      next inside =>
        obtain ⟨⟨rest, rfl⟩, -⟩ := inside
        exact (empty rest fun top => other (by simp [top])).symm
      next => rfl
  have storable' : ((d.eraseBelow (l ++ [name])).erase (l ++ [name])).IsStorable := by
    refine (storable.eraseBelow _).erase _ below fun rest nonempty => ?_
    rw [get?_eraseBelow, if_pos ⟨List.prefix_append _ _, by simp [nonempty]⟩]
  generalize (d.eraseBelow (l ++ [name])).erase (l ++ [name]) = mid at removed gone storable'
  have above : mid.get? l = some .directory := by
    rw [gone, if_neg (by simp), tree.parent_directory l name (by simp [there])]
  have absent : mid.get? (l ++ [name]) = none := by rw [gone, if_pos rfl]
  have spotted : mid.parentSpot job.out = .ok (l, some name) := by
    rw [out, Location.path_concat l name proper]
    exact parentSpot_child (locate_path storable'.toIsTree l _ above Entry.isPlain_directory) above
      name named
  have remade := makeDirs_of_free l name spotted absent
  refine ⟨mid.put (l ++ [name]) .directory, ?_, ?_, fun k => ?_⟩
  · rw [recreateOut, Task.look_bind, if_pos isThere, bind_apply, Task.mapError, out, removed]
    dsimp only
    rw [makeDirsAt, Task.mapError, ← out, remade]
  · exact storable'.put l name _ above named (by simp [absent]) Entry.isPlain_directory
  · rw [get?_put _ _ below, gone]
    split
    next here => rw [here, there]
    next => rfl

/-- While the output is written nothing changes in the public directory. If there is nothing to be
copied from there, nothing is. -/
theorem copies_nothing (storable : base.IsStorable) (clear : job.IsClear base o)
    (filled : Filled o base mid) (dirs : ∀ q, mid.isDir q = base.isDir q)
    (bare : ∀ a name e, base.locate true job.assets = .ok a → base.get? (a ++ [name]) = some e →
      name = documentName ∧ e ≠ .directory)
    (listed : mid.isDir job.assets = true) :
    copyTree job.assets job.out (some documentName) mid = (.ok 0, mid) := by
  rw [dirs] at listed
  obtain ⟨a, located, directory⟩ := (isDir_iff _).mp listed
  have part := filled.isPartOf storable clear.fresh
  have apart := clear.assets a located
  apply copyTree_skipped documentName job.assets job.out
    (locate_mono part filled.workDir located) (part.directory a directory)
  intro name e found
  rw [filled.same _ fun rest _ => apart.ne a o [name] rest] at found
  exact bare a name e located found

/-- A build goes through if its output directory is made afresh and lies apart from what it reads,
if the document and the sources are texts, and if there is nothing to be copied. -/
theorem exists_run (storable : base.IsStorable) (made : job.recreateOut d = (.ok (), base))
    (clear : job.IsClear base o) (isDir : base.isDir job.src = true) (document script : String)
    (scripts styles : List Path) (style : Option String) (read : job.document base = .ok document)
    (discovered : discoverSources base job.src = .ok (scripts, styles))
    (bundled : bundleScripts base job.src (orderScripts scripts) = .ok script)
    (styled : bundleStyles base job.src styles = .ok style)
    (bare : ∀ a name e, base.locate true job.assets = .ok a → base.get? (a ++ [name]) = some e →
      name = documentName ∧ e ≠ .directory) :
    ∃ report d', job.run d = (.ok report, d') := by
  have fresh := clear.fresh
  have absent := fresh.absent storable
  obtain ⟨mid₁, wrote₁, filled₁, dirs₁, after₁⟩ := (fresh.filled storable).exists_wrote_child
    storable fresh scriptName script (by decide) (absent _ (by simp))
  rw [← bundleStyles_eq storable clear isDir scripts styles discovered filled₁] at styled
  have free (name : String) (other : name ≠ scriptName) : mid₁.get? (o ++ [name]) = none := by
    rw [after₁, if_neg (by simpa using other), absent _ (by simp)]
  -- the style sheet is written if there is one
  obtain ⟨mid₂, wrote₂, filled₂, dirs₂, free₂⟩ : ∃ mid₂,
      (style.getD "" ≠ "" ∧
          writeText (job.out.child styleName) (style.getD "") mid₁ = (.ok (), mid₂) ∨
        ¬style.getD "" ≠ "" ∧ mid₂ = mid₁) ∧
      Filled o base mid₂ ∧ (∀ q, mid₂.isDir q = mid₁.isDir q) ∧
      mid₂.get? (o ++ [documentName]) = none := by
    by_cases nonempty : style.getD "" ≠ ""
    · obtain ⟨mid₂, wrote₂, filled₂, dirs₂, after₂⟩ := filled₁.exists_wrote_child storable fresh
        styleName (style.getD "") (by decide) (free styleName (by decide))
      refine ⟨mid₂, .inl ⟨nonempty, wrote₂⟩, filled₂, dirs₂, ?_⟩
      rw [after₂, if_neg (by decide), free documentName (by decide)]
    · exact ⟨mid₁, .inr ⟨nonempty, rfl⟩, filled₁, fun _ => rfl, free documentName (by decide)⟩
  obtain ⟨mid₃, wrote₃, filled₃, dirs₃, -⟩ := filled₂.exists_wrote_child storable fresh
    documentName (injectReferences document) (by decide) free₂
  have dirs (q : Path) : mid₃.isDir q = base.isDir q := by rw [dirs₃, dirs₂, dirs₁]
  refine ⟨⟨orderScripts scripts, styles, style.getD "" ≠ "", 0, mid₃.countFiles job.out⟩, mid₃, ?_⟩
  unfold run
  refine (bind_eq_ok_iff _ _ _ _ _).mpr ⟨(), base, made, ?_⟩
  refine (Task.ask_bind_eq_ok_iff _ _ _).mpr ⟨document, read, ?_⟩
  rw [Task.look_bind, if_pos isDir]
  refine (Task.ask_bind_eq_ok_iff _ _ _).mpr ⟨(scripts, styles), discovered, ?_⟩
  refine (Task.ask_bind_eq_ok_iff _ _ _).mpr ⟨script, bundled, ?_⟩
  refine (bind_eq_ok_iff _ _ _ _ _).mpr ⟨(), mid₁, wrote₁, ?_⟩
  refine (Task.ask_bind_eq_ok_iff _ _ _).mpr ⟨style, styled, ?_⟩
  refine (optional_eq_ok_iff _ _ _ _ _ _).mpr ⟨mid₂, wrote₂, ?_⟩
  refine (bind_eq_ok_iff _ _ _ _ _).mpr ⟨(), mid₃, wrote₃, ?_⟩
  rw [Task.look_bind]
  refine (branch_eq_ok_iff _ _ _ _ _ _ _).mpr ⟨0, mid₃, ?_, rfl⟩
  by_cases listed : mid₃.isDir job.assets = true
  · exact .inl ⟨listed, copies_nothing storable clear filled₃ dirs bare listed⟩
  · exact .inr ⟨listed, rfl, rfl⟩

end Bundle.Job

end Workbench
