import Workbench.Disk.Edit
import Workbench.Proofs.Disk.Growth
import Workbench.Proofs.Disk.Swap

/-! What editing does at the path of a location. A deletion there takes away what lies at or below
it, and a new file with a name that meets no link lies below it. -/
namespace Workbench.Disk

open Workbench.Path (temporaryName)

variable {d d' : Disk} {l dir : Location} {name : String}

theorem parentSpot_path (tree : d.IsTree) (there : (d.get? (dir ++ [name])).isSome) :
    d.parentSpot (Location.path (dir ++ [name])) = .ok (dir, some name) := by
  have proper := tree.isProper _ there
  have directory := tree.parent_directory dir name there
  refine (parentSpot_eq_ok_iff dir name).mpr ⟨Location.path_hasNul _ proper,
    Location.path_text_ne _, directory, .of_isName name (tree.isName dir name there), dir,
    Location.path_names _ proper, 0, Nat.zero_le _, ?_⟩
  rw [startOf, if_pos (Location.path_isAbsolute _)]
  exact leads_names tree [] dir .directory directory Entry.isPlain_directory

theorem endsInSlash_path (proper : Location.IsProper (dir ++ [name])) :
    (Location.path (dir ++ [name])).endsInSlash = false := by
  simp [Location.path_endsInSlash _ proper]

theorem namesAt_eraseBelow (l : Location) : (d.eraseBelow l).namesAt l = [] := by
  refine List.eq_nil_iff_forall_not_mem.mpr fun name listed => ?_
  have there := (mem_namesAt l name).mp listed
  rw [get?_eraseBelow, if_pos ⟨List.prefix_append l [name], by simp⟩] at there
  cases there

/-- A directory is deleted by the path of its location, with all that lies below it. -/
theorem removeTree_path (storable : d.IsStorable)
    (found : d.get? (dir ++ [name]) = some .directory) :
    removeTree (Location.path (dir ++ [name])) d =
      (.ok (), (d.eraseBelow (dir ++ [name])).erase (dir ++ [name])) := by
  have there : (d.get? (dir ++ [name])).isSome := by simp [found]
  have spotted := parentSpot_path storable.toIsTree there
  have located := locate_of_parentSpot false dir name _ spotted found (.inl rfl)
    (.inl Entry.isPlain_directory)
  have stays : (d.eraseBelow (dir ++ [name])).get? (dir ++ [name]) = some .directory := by
    rw [get?_eraseBelow, if_neg (by simp), found]
  have still : ((d.eraseBelow (dir ++ [name])).get? (dir ++ [name])).isSome := by simp [stays]
  have emptied := parentSpot_path (storable.eraseBelow (dir ++ [name])).toIsTree still
  simp [removeTree, located, found, Task.change, removeDir, emptied, stays, namesAt_eraseBelow, bind,
    Except.bind]

/-- A file is deleted by the path of its location. -/
theorem removeFile_path (storable : d.IsStorable) (e : Entry)
    (found : d.get? (dir ++ [name]) = some e) (solid : e ≠ .directory) :
    d.removeFile (Location.path (dir ++ [name])) = .ok (d.erase (dir ++ [name])) := by
  have there : (d.get? (dir ++ [name])).isSome := by simp [found]
  have spotted := parentSpot_path storable.toIsTree there
  have level := endsInSlash_path (storable.isProper _ there)
  unfold removeFile
  cases e with
  | directory => exact absurd rfl solid
  | _ => simp [spotted, found, level, bind, Except.bind]

/-- What lies at a location and below it is deleted by the path of the location. -/
theorem deletePath_path (storable : d.IsStorable) (e : Entry) (below : l ≠ [])
    (found : d.get? l = some e) (plain : e.IsPlain) :
    ∃ d', deletePath l.path d = (.ok (), d') ∧ Removed l d d' ∧ ∀ k, l <+: k → d'.get? k = none := by
  obtain ⟨dir, name, rfl⟩ := (List.eq_nil_or_concat' l).resolve_left below
  have located := locate_path storable.toIsTree _ e found plain
  unfold deletePath
  rw [Task.look_bind]
  by_cases directory : e = .directory
  · subst directory
    have isDir : d.isDir (Location.path (dir ++ [name])) = true :=
      (isDir_iff _).mpr ⟨_, located, found⟩
    rw [if_pos isDir]
    refine ⟨_, (Task.mapError_eq_ok_iff _ _ _).mpr (removeTree_path storable found), ?_, ?_⟩
    · refine (Removed.eraseBelow _ d).trans (.erase below fun tree rest nonempty => ?_)
      exact tree.none_below_of_namesAt _ rest (namesAt_eraseBelow _) nonempty
    · intro k within
      rw [get?_erase _ below, get?_eraseBelow]
      split
      · rfl
      next other => rw [if_pos ⟨within, other⟩]
  · have isDir : ¬d.isDir (Location.path (dir ++ [name])) = true := by
      rw [isDir_iff]
      rintro ⟨k, located', there⟩
      rw [located] at located'
      cases located'
      exact directory (Option.some.inj (found.symm.trans there))
    rw [if_neg isDir]
    have leaf (tree : d.IsStorable) (rest : Location) (nonempty : rest ≠ []) :
        d.get? (dir ++ [name] ++ rest) = none :=
      tree.none_below _ rest (by simpa [found] using directory) nonempty
    refine ⟨_, (Task.mapError_eq_ok_iff _ _ _).mpr ((Task.change_eq_ok_iff _).mpr
      (removeFile_path storable e found directory)), .erase below leaf, ?_⟩
    rintro k ⟨rest, rfl⟩
    rw [get?_erase _ below]
    split
    · rfl
    next other => exact leaf storable rest (by simpa using other)

/-- A file is replaced by the path of its location, or the disk stays as it was. No directory had
the name of the temporary file. -/
theorem replace_path_cases (storable : d.IsStorable) (content : ByteArray) (runnable : Bool)
    (found : d.get? (dir ++ [name]) = some (.file content runnable))
    (unlinked : ∀ target, d.get? (dir ++ [temporaryName name]) ≠ some (.link target))
    (bytes : ByteArray) :
    (∃ e, replace (Location.path (dir ++ [name])) bytes d = (.error e, d)) ∨
      d.get? (dir ++ [temporaryName name]) ≠ some .directory ∧
        ∃ runnable', replace (Location.path (dir ++ [name])) bytes d =
            (.ok (), d.swapped dir name bytes runnable') ∧
          (d.swapped dir name bytes runnable').IsStorable ∧
          (d.swapped dir name bytes runnable').IsPartOf d := by
  have there : (d.get? (dir ++ [name])).isSome := by simp [found]
  have level := endsInSlash_path (storable.isProper _ there)
  have solid : d.get? (dir ++ [name]) ≠ some .directory := by simp [found]
  rcases replace_cases (parentSpot_path storable.toIsTree there) unlinked bytes with
    failed | ⟨short, solid', runnable', ⟨e, -, asked | directory⟩ | ⟨-, done⟩⟩
  · exact .inl failed
  · simp [level] at asked
  · exact absurd directory solid
  · refine .inr ⟨solid', runnable', done, ?_, fun k e got => ?_⟩
    · exact swapped_storable storable (storable.parent_directory dir name there)
        (storable.isName dir name there) short solid solid' bytes runnable'
    · rw [get?_swapped] at got
      split at got
      next here =>
        cases got
        exact ⟨_, here ▸ found, content, runnable, rfl⟩
      · split at got
        · cases got
        · exact ⟨e, got, .refl e⟩

/-- A file is replaced by the path of its location, or the disk stays as it was. -/
theorem replace_path (storable : d.IsStorable) (content : ByteArray) (runnable : Bool)
    (found : d.get? (dir ++ [name]) = some (.file content runnable))
    (unlinked : ∀ target, d.get? (dir ++ [temporaryName name]) ≠ some (.link target))
    (bytes : ByteArray) :
    (∃ e, replace (Location.path (dir ++ [name])) bytes d = (.error e, d)) ∨
      ∃ runnable', replace (Location.path (dir ++ [name])) bytes d =
          (.ok (), d.swapped dir name bytes runnable') ∧
        (d.swapped dir name bytes runnable').IsStorable ∧
        (d.swapped dir name bytes runnable').IsPartOf d :=
  (replace_path_cases storable content runnable found unlinked bytes).imp_right And.right

/-- New directories and files lie below a location, and the rest of the tree is as it was. -/
structure Added (l : Location) (d d' : Disk) : Prop where
  kept : ∀ k e, d.get? k = some e → d'.get? k = some e
  new : ∀ k, d.get? k = none → (d'.get? k).isSome → l <+: k
  link : ∀ k target, d'.get? k = some (.link target) → d.get? k = some (.link target)
  workDir : d'.workDir = d.workDir
  storable : d.IsStorable → d'.IsStorable

namespace Added

theorem refl (l : Location) (d : Disk) : Added l d d :=
  ⟨fun _ _ => id, fun _ absent there => by simp [absent] at there, fun _ _ => id, rfl, id⟩

theorem isPartOf (added : Added l d d') : d.IsPartOf d' :=
  fun k e found => ⟨e, added.kept k e found, .refl e⟩

theorem trans {d'' : Disk} (first : Added l d d') (second : Added l d' d'') : Added l d d'' := by
  refine ⟨fun k e found => second.kept k e (first.kept k e found), fun k absent there => ?_,
    fun k target found => first.link k target (second.link k target found),
    second.workDir.trans first.workDir, fun storable => second.storable (first.storable storable)⟩
  by_cases between : (d'.get? k).isSome
  · exact first.new k absent between
  · exact second.new k (by simpa using between) there

end Added

/-- Opened without being emptied, a file that is there stays as it is. -/
theorem kept_of_opened {p : Path} (opened : d.openForWriting false p = .ok (l, d')) (k : Location)
    (e : Entry) (found : d.get? k = some e) : d'.get? k = some e := by
  by_cases here : k = l
  · subst here
    rcases file_of_opened false opened with ⟨absent, -⟩ | ⟨content, runnable, file, same⟩
    · simp [absent] at found
    · rw [← found, file, same]
      rfl
  · rw [(written_of_opened false opened).same k here, found]

theorem map_snd_eq_ok_iff {ε α β : Type} (x : Except ε (α × β)) (b : β) :
    x.map Prod.snd = .ok b ↔ ∃ a, x = .ok (a, b) := by
  rcases x with e | ⟨a, b'⟩
  · simp [Except.map]
  · simp [Except.map]

/-- A name that meets no link below a location. -/
def IsUnlinked (d : Disk) (l : Location) (name : String) : Prop :=
  ∀ front, front <+: (Path.mk name).names.filter (· ≠ ".") → front ≠ [] →
    ∀ target, d.get? (l ++ front) ≠ some (.link target)

/-- The names of a path from a location lead down from there. -/
theorem below_of_leads (tree : d.IsTree) (e : Entry) (found : d.get? l = some e) (plain : e.IsPlain)
    (unlinked : d.IsUnlinked l name) (level : ".." ∉ (Path.mk name).names) (front : List String)
    (begins : front <+: l ++ (Path.mk name).names) (links : Nat) (k : Location)
    (leads : d.Leads [] front links k) : l <+: k ∨ k <+: l := by
  rcases List.prefix_or_prefix_of_prefix begins (List.prefix_append l _) with above | ⟨more, rfl⟩
  · right
    obtain ⟨rest, whole⟩ := above
    have there : ∃ e', d.get? front = some e' ∧ e'.IsPlain := by
      by_cases empty : rest = []
      · exact ⟨e, by rw [← found, ← whole, empty, List.append_nil], plain⟩
      · exact ⟨_, tree.directory_of_below front rest empty (by simp [whole, found]),
          Entry.isPlain_directory⟩
    obtain ⟨e', found', plain'⟩ := there
    obtain ⟨-, rfl⟩ := leads.unique _ _ _ _ _ _ (leads_names tree [] front e' found' plain')
    exact ⟨rest, whole⟩
  · left
    obtain ⟨mid, m, n, first, second, -⟩ := leads.split _ l more
    obtain ⟨-, rfl⟩ := first.unique _ _ _ _ _ _ (leads_names tree [] l e found plain)
    have rest : more <+: (Path.mk name).names := (List.prefix_append_right_inj _).mp begins
    obtain ⟨-, rfl⟩ := second.direct _ _ _ _ (fun up => level (rest.subset up))
      fun front begins nonempty target => by
        simpa using unlinked front (begins.trans (rest.filter _)) nonempty target
    simp

theorem level_of_not_climbs (level : climbs name = false) : ".." ∉ (Path.mk name).names := by
  intro member
  obtain ⟨piece, listed, same⟩ := List.mem_map.mp member
  have dots : piece = ['.', '.'] := by
    rw [← String.toList_ofList (l := piece), same]
    rfl
  subst dots
  have found : ['.', '.'] ∈ (Text.splitAt '/' name.toList).flatMap (Text.splitAt '\\') :=
    List.mem_flatMap.mpr ⟨_, (List.mem_filter.mp listed).1, by decide⟩
  simp [climbs, found] at level

section

variable {p : Path} (e : Entry) (found : d.get? l = some e) (plain : e.IsPlain)
  (unlinked : d.IsUnlinked l name) (level : ".." ∉ (Path.mk name).names)
  (names : p.names = l ++ (Path.mk name).names) (absolute : p.isAbsolute = true)
include found plain unlinked level names absolute

/-- Directories that are made on the way to a path below a location lie below it. -/
theorem Made.added (storable : d.IsStorable) (made : Made p d d') : Added l d d' := by
  refine ⟨made.kept, fun k absent there => ?_, made.link, made.workDir, made.storable⟩
  obtain ⟨-, front, links, begins, leads⟩ := made.made k absent there
  rw [names] at begins
  rw [startOf, if_pos absolute] at leads
  have unlinked' : d'.IsUnlinked l name := fun front begins nonempty target found =>
    unlinked front begins nonempty target (made.link _ target found)
  rcases below_of_leads (made.storable storable).toIsTree e (made.kept l e found) plain unlinked'
    level front begins links k leads with below | above
  · exact below
  · -- what lies above was there before
    obtain ⟨rest, rfl⟩ := above
    by_cases here : rest = []
    · simp [here]
    · rw [storable.directory_of_below k rest here (by simp [found])] at absent
      cases absent

/-- A file that is made by a path below a location lies below it. -/
theorem added_of_opened (storable : d.IsStorable) (k : Location)
    (opened : d.openForWriting false p = .ok (k, d')) : Added l d d' := by
  have written := written_of_opened false opened
  have kept := kept_of_opened opened
  refine ⟨kept, fun m absent there => ?_, written.link, written.workDir, written.storable⟩
  have here : m = k := by
    by_contra apart
    rw [written.same m apart, absent] at there
    cases there
  subst here
  obtain ⟨-, -, links, -, leads⟩ := leads_of_locate written.located
  rw [startOf, if_pos absolute, names] at leads
  have unlinked' : d'.IsUnlinked l name := fun front begins nonempty target found =>
    unlinked front begins nonempty target (written.link _ target found)
  rcases below_of_leads (written.storable storable).toIsTree e (kept l e found) plain unlinked'
    level _ List.prefix_rfl links m leads with below | above
  · exact below
  · obtain ⟨rest, rfl⟩ := above
    by_cases here : rest = []
    · simp [here]
    · rw [storable.directory_of_below m rest here (by simp [found])] at absent
      cases absent

theorem touch_added (storable : d.IsStorable) : Added l d (Task.mapError (Error.ofFault p)
    (Task.change fun d => (d.openForWriting false p).map Prod.snd) d).2 := by
  rw [Task.mapError_snd]
  rcases Task.change_snd (fun d => (d.openForWriting false p).map Prod.snd) d with same | done
  · rw [same]
    exact .refl l d
  · obtain ⟨k, opened⟩ := (map_snd_eq_ok_iff _ _).mp done
    exact added_of_opened e found plain unlinked level names absolute storable k opened

end

/-- A file that is made under a location, with the directories on its way, lies below it. -/
theorem createFile_added (storable : d.IsStorable) (e : Entry) (found : d.get? l = some e)
    (plain : e.IsPlain) (unlinked : d.IsUnlinked l name) :
    Added l d (createFile l.path name d).2 := by
  unfold createFile
  split
  · exact .refl l d
  · split
    · exact .refl l d
    next inside =>
      simp only [Bool.or_eq_true, not_or, Bool.not_eq_true] at inside
      obtain ⟨relative, level⟩ := inside
      have level := level_of_not_climbs level
      have proper := storable.isProper l (by simp [found])
      have names : (l.path.join ⟨name⟩).names = l ++ (Path.mk name).names := by
        rw [Path.names_join _ relative, Location.path_names l proper]
      have absolute : (l.path.join ⟨name⟩).isAbsolute = true := by
        rw [Path.isAbsolute_join (Location.path_text_ne l) relative, Location.path_isAbsolute]
      generalize l.path.join ⟨name⟩ = p at names absolute
      have first := (made_of_makeParent p d).added e found plain unlinked level names absolute storable
      dsimp only
      rw [bind_apply]
      generalize makeParent p d = made at first ⊢
      rcases made with ⟨fault | done, mid⟩
      · exact first
      · have unlinked' : mid.IsUnlinked l name := fun front begins nonempty target found =>
          unlinked front begins nonempty target (first.link _ target found)
        have second := touch_added e (first.kept l e found) plain unlinked' level names absolute
          (first.storable storable)
        dsimp only
        rw [bind_apply]
        generalize Task.mapError (Error.ofFault p)
          (Task.change fun d => (d.openForWriting false p).map Prod.snd) mid = touched at second ⊢
        rcases touched with ⟨fault | done, last⟩
        · exact first.trans second
        · exact first.trans second

/-- A file that is made is opened once the directories on its way are there. -/
theorem createFile_eq_ok (p q : Path) (done : createFile p name d = (.ok q, d')) :
    name ≠ "" ∧ (Path.mk name).isAbsolute = false ∧ q = p.join ⟨name⟩ ∧
      ∃ mid k, makeParent q d = (.ok (), mid) ∧ mid.openForWriting false q = .ok (k, d') := by
  unfold createFile at done
  split at done
  · cases done
  next nonempty =>
    split at done
    · cases done
    next inside =>
      simp only [Bool.or_eq_true, not_or, Bool.not_eq_true] at inside
      obtain ⟨⟨⟩, mid, parent, rest⟩ := (bind_eq_ok_iff _ _ _ _ _).mp done
      obtain ⟨⟨⟩, last, touched, answer⟩ := (bind_eq_ok_iff _ _ _ _ _).mp rest
      cases answer
      rw [Task.mapError_eq_ok_iff, Task.change_eq_ok_iff] at touched
      obtain ⟨k, opened⟩ := (map_snd_eq_ok_iff _ _).mp touched
      refine ⟨?_, inside.1, rfl, mid, k, parent, opened⟩
      rintro rfl
      exact nonempty (by decide)

/-- A storable disk is added to. -/
def Extends (d d' : Disk) : Prop := d.IsStorable → Extended d d'

theorem Extends.refl (d : Disk) : Extends d d := fun storable => .refl storable

theorem Extends.trans (d d' d'' : Disk) (first : Extends d d') (second : Extends d' d'') :
    Extends d d'' := fun storable => (first storable).trans (second (first storable).storable)

/-- Making a file adds to the disk, whatever links its name goes through. -/
theorem createFile_extends (p : Path) (name : String) : Keeps Extends (createFile p name) := by
  unfold createFile
  -- the two checks change nothing
  apply Keeps.optional Extends.trans _ _ () _ (Keeps.throw Extends.refl _)
  intro _
  apply Keeps.optional Extends.trans _ _ () _ (Keeps.throw Extends.refl _)
  intro _
  apply Keeps.bind Extends.trans
  · exact fun d => (made_of_makeParent _ d).extended
  · intro _
    apply Keeps.bind Extends.trans _ _ (Task.Keeps.mapError _ _ _)
      fun _ => Keeps.pure Extends.refl _
    intro d
    rcases Task.change_snd (fun d => (d.openForWriting false (p.join ⟨name⟩)).map Prod.snd) d
      with same | opened
    · rw [same]
      exact .refl d
    · obtain ⟨k, opened⟩ := (map_snd_eq_ok_iff _ _).mp opened
      exact (written_of_opened false opened).extended

/-- A file is made under a directory only. -/
theorem directory_of_createFile (storable : d.IsStorable) (e : Entry) (found : d.get? l = some e)
    (plain : e.IsPlain) (q : Path) (done : createFile l.path name d = (.ok q, d')) :
    d'.get? l = some .directory := by
  obtain ⟨nonempty, relative, rfl, mid, k, -, opened⟩ := createFile_eq_ok _ _ done
  have extended := createFile_extends l.path name d storable
  rw [done] at extended
  have proper := storable.isProper l (by simp [found])
  have named : (Path.mk name).names ≠ [] := by
    have steps := steps_ne_nil ⟨name⟩ nonempty
    have level : (Path.mk name).endsInSlash = false := by
      rw [← Path.endsInSlash_join (p := l.path) (q := ⟨name⟩) nonempty]
      by_contra closed
      rw [Bool.not_eq_false] at closed
      unfold openForWriting at opened
      rw [if_pos closed] at opened
      cases spotted : mid.parentSpot (l.path.join ⟨name⟩) <;>
        simp [spotted, bind, Except.bind] at opened
    simpa [Path.steps, level] using steps
  obtain ⟨step, rest, names⟩ := List.exists_cons_of_ne_nil named
  obtain ⟨-, -, links, -, leads⟩ := leads_of_locate (written_of_opened false opened).located
  have absolute : (l.path.join ⟨name⟩).isAbsolute = true := by
    rw [Path.isAbsolute_join (Location.path_text_ne l) relative, Location.path_isAbsolute]
  rw [startOf, if_pos absolute, Path.names_join _ relative, Location.path_names l proper,
    names] at leads
  -- the way to the file goes on from the location, by at least one step
  obtain ⟨here, m, n, first, second, -⟩ := leads.split _ l _
  obtain ⟨e', found', plain'⟩ := extended.part.plain l e found plain
  obtain ⟨-, rfl⟩ := first.unique _ _ _ _ _ _
    (leads_names extended.storable.toIsTree [] l e' found' plain')
  exact second.directory_of_cons

end Workbench.Disk
