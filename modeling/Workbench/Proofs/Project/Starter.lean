import Workbench.Project.Starter
import Workbench.Proofs.Disk.Aim
import Workbench.Proofs.Disk.Growth

/-! What the starter files of a project change. They are written at or below the directory of the
project, and nothing else is. -/
namespace Workbench

open Disk

/-- A path that goes down by two names is put together at once. -/
theorem Path.join_two (p : Path) (first second : String) (named : IsName first)
    (named' : IsName second) : p.join ⟨first ++ "/" ++ second⟩ = p.under [first, second] := by
  have ext (p q : Path) (same : p.text = q.text) : p = q := by cases p; cases q; cases same; rfl
  have relative := isAbsolute_name named
  have relative' : isAbsolute ⟨first ++ "/" ++ second⟩ = false := by
    have nonempty : first.toList ≠ [] := by simpa using named.nonempty
    simpa [isAbsolute, List.head?_append_of_ne_nil _ nonempty] using relative
  have isOpen : (p.child first).IsOpen :=
    ⟨text_join_ne named.nonempty, by rw [child, endsInSlash_join named.nonempty,
      endsInSlash_name named]⟩
  obtain ⟨front, joined⟩ := exists_text_join p
  refine ext _ _ ?_
  change _ = ((p.child first).join ⟨second⟩).text
  rw [text_join _ _ isOpen (isAbsolute_name named'), joined _ relative', child, joined _ relative]
  simp [String.append_assoc]

namespace Disk

/-- Directories and files were made or written where a path at or below `out` leads to. -/
structure Furnished (out : Path) (d d' : Disk) : Prop extends Extended d d' where
  same : ∀ k, d'.get? k = d.get? k ∨ d'.Reaches out k

/-- A storable disk on which the path leads to a directory is furnished, and no more. -/
def Furnishes (out : Path) (d d' : Disk) : Prop :=
  d.IsStorable → d.isDir out = true → Furnished out d d'

variable {out : Path} {d d' : Disk}

/-- Below a directory without links a path leads down only. -/
theorem Reaches.within {l k : Location} (reached : d.Reaches out k)
    (located : d.locate true out = .ok l)
    (linkless : ∀ rest, rest ≠ [] → ∀ target, d.get? (l ++ rest) ≠ some (.link target)) :
    l <+: k := by
  obtain ⟨names, proper, found⟩ := reached
  rw [eq_of_locate_under located names proper linkless k found]
  exact List.prefix_append l names

theorem Furnishes.refl (d : Disk) : Furnishes out d d :=
  fun storable _ => ⟨.refl storable, fun _ => .inl rfl⟩

theorem Extended.isDir (grown : Extended d d') (p : Path) (isDir : d.isDir p = true) :
    d'.isDir p = true := by
  obtain ⟨l, located, directory⟩ := (isDir_iff p).mp isDir
  exact (isDir_iff p).mpr
    ⟨l, locate_mono grown.part grown.workDir located, grown.part.directory l directory⟩

theorem Furnishes.trans (d d' d'' : Disk) (first : Furnishes out d d')
    (second : Furnishes out d' d'') : Furnishes out d d'' := by
  intro storable isDir
  have before := first storable isDir
  have after := second before.storable (before.isDir out isDir)
  refine ⟨before.toExtended.trans after.toExtended, fun k => ?_⟩
  rcases after.same k with same | reached
  · rcases before.same k with same' | ⟨names, proper, located⟩
    · exact .inl (same.trans same')
    · exact .inr ⟨names, proper, locate_mono after.part after.workDir located⟩
  · exact .inr reached

theorem makeDirsAt_furnishes (name : String) (named : IsName name) :
    Keeps (Furnishes out) (makeDirsAt (out.child name)) := by
  refine Task.Keeps.mapError _ _ fun d storable isDir => ?_
  obtain ⟨l, located, directory⟩ := (isDir_iff out).mp isDir
  rcases makeDirs_child located directory name named with ⟨absent, made⟩ | ⟨same, -⟩
  · have way := made_of_makeDirs (out.child name) d
    rw [made] at way ⊢
    have after (k : Location) := get?_put (d := d) (l ++ [name]) .directory (by simp) k
    refine ⟨way.extended storable, fun k => ?_⟩
    by_cases here : k = l ++ [name]
    · subst here
      have found := after (l ++ [name])
      rw [if_pos rfl] at found
      refine .inr ⟨[name], Location.isProper_singleton name named, ?_⟩
      exact locate_under (way.storable storable).toIsTree (locate_mono way.isPartOf rfl located)
        [name] .directory found Entry.isPlain_directory
    · exact .inl (by rw [after, if_neg here])
  · rw [same]
    exact Furnishes.refl d storable isDir

theorem writeText_furnishes (names : Location) (proper : names.IsProper) (text : String) :
    Keeps (Furnishes out) (writeText (out.under names) text) := by
  refine Task.Keeps.mapError _ _ fun d => ?_
  rcases Task.change_snd (writeBytes · (out.under names) text.toUTF8) d with same | wrote
  · rw [same]
    exact .refl d
  · obtain ⟨l, written, -⟩ := writeBytes_eq_ok _ wrote
    refine fun storable _ => ⟨written.extended storable, fun k => ?_⟩
    by_cases here : k = l
    · exact .inr ⟨names, proper, here ▸ written.located⟩
    · exact .inl (written.same k here)

end Disk

namespace Starter

/-- The path of a starter file goes down from the directory of the project by its own names. -/
theorem join_file (root : Path) (name : String) (file : String × String)
    (listed : file ∈ files name) :
    (Path.mk file.1).names ≠ [] ∧ Location.IsProper (Path.mk file.1).names ∧
      root.join ⟨file.1⟩ = root.under (Path.mk file.1).names := by
  have one (first : String) (named : IsName first) :
      (Path.mk first).names ≠ [] ∧ Location.IsProper (Path.mk first).names ∧
        root.join ⟨first⟩ = root.under (Path.mk first).names := by
    rw [Path.names_name named]
    exact ⟨by simp, Location.isProper_singleton first named, rfl⟩
  have two (first second : String) (named : IsName first) (named' : IsName second) :
      (Path.mk (first ++ "/" ++ second)).names ≠ [] ∧
        Location.IsProper (Path.mk (first ++ "/" ++ second)).names ∧
        root.join ⟨first ++ "/" ++ second⟩ = root.under (Path.mk (first ++ "/" ++ second)).names := by
    have names : (Path.mk (first ++ "/" ++ second)).names = [first, second] := by
      have isOpen : (Path.mk first).IsOpen := ⟨named.nonempty, Path.endsInSlash_name named⟩
      have joined : (Path.mk first).join ⟨second⟩ = ⟨first ++ "/" ++ second⟩ :=
        congrArg Path.mk (Path.text_join _ _ isOpen (Path.isAbsolute_name named'))
      rw [← joined, Path.names_join _ (Path.isAbsolute_name named'), Path.names_name named,
        Path.names_name named']
      rfl
    rw [names, root.join_two first second named named']
    refine ⟨by simp, ?_, rfl⟩
    rintro name (_ | ⟨_, _ | ⟨_, member⟩⟩)
    · exact named
    · exact named'
    · cases member
  simp only [files, List.mem_cons, List.not_mem_nil, or_false] at listed
  rcases listed with rfl | rfl | rfl | rfl | rfl | rfl | rfl | rfl
  · exact one "package.json" (by decide)
  · exact one "tsconfig.json" (by decide)
  · exact two "public" "index.html" (by decide) (by decide)
  · exact two "src" "App.tsx" (by decide) (by decide)
  · exact two "src" "App.css" (by decide) (by decide)
  · exact two "src" "main.tsx" (by decide) (by decide)
  · exact two "src" "index.css" (by decide) (by decide)
  · exact one "README.md" (by decide)
/-- What making each directory and writing each file keeps, writing the starter files keeps. -/
theorem write_keeps {R : Disk → Disk → Prop} (refl : ∀ d, R d d)
    (trans : ∀ d d' d'', R d d' → R d' d'' → R d d'') (root : Path) (name : String)
    (made : ∀ dir ∈ directories, Keeps R (makeDirsAt (root.child dir)))
    (written : ∀ file ∈ files name, Keeps R (writeText (root.join ⟨file.1⟩) file.2)) :
    Keeps R (write root name) := by
  have answer (α : Type) (a : α) : Keeps R (pure a : Task Error α) := Keeps.pure refl a
  have sequence (α β : Type) (x : Task Error α) (f : α → Task Error β) (first : Keeps R x)
      (later : ∀ a, Keeps R (f a)) : Keeps R (x >>= f) := Keeps.bind trans x f first later
  unfold write
  refine sequence _ _ _ _ (forIn_of_each (fun _ => Keeps R) answer sequence _ _ ?_) fun _ =>
    sequence _ _ _ _ (forIn_of_each (fun _ => Keeps R) answer sequence _ _ ?_) fun _ => answer _ _
  · exact fun dir listed => sequence _ _ _ _ (made dir listed) fun _ => answer _ _
  · exact fun file listed => sequence _ _ _ _ (written file listed) fun _ => answer _ _

theorem write_furnishes (root : Path) (name : String) :
    Keeps (Furnishes root) (write root name) := by
  refine write_keeps Furnishes.refl Furnishes.trans root name ?_ ?_
  · intro dir listed
    have named : IsName dir := by
      simp only [directories, List.mem_cons, List.not_mem_nil, or_false] at listed
      rcases listed with rfl | rfl | rfl <;> decide
    exact makeDirsAt_furnishes dir named
  · intro file listed
    obtain ⟨-, proper, same⟩ := join_file root name file listed
    rw [same]
    exact writeText_furnishes _ proper file.2

end Starter

end Workbench
