import Workbench.Proofs.Disk.Copy
import Workbench.Proofs.Project.Distinct
import Workbench.Proofs.Text.Trim

/-! What a new project holds. Its directory was made for it, so that each starter file is written to
a free name and is found where its path says, and beside the starter files there is nothing. -/
namespace Workbench

open Disk

section

variable {σ ε β : Type} (f : β → PUnit → ExceptT ε (StateM σ) (ForInStep PUnit))
  (I : List β → σ → Prop)

/-- What holds of a state and the elements that a loop has been through, if each turn keeps it for
one element more. -/
theorem forIn_invariant (xs : List β) {s s' : σ} {answer : PUnit} (start : I [] s)
    (turn : ∀ front x back s s' step, xs = front ++ x :: back → I front s →
      f x ⟨⟩ s = (.ok step, s') → step = .yield ⟨⟩ ∧ I (front ++ [x]) s')
    (ran : forIn xs PUnit.unit f s = (.ok answer, s')) : I xs s' := by
  suffices later : ∀ back front s, xs = front ++ back → I front s →
      forIn back PUnit.unit f s = (.ok answer, s') → I xs s' from later xs [] s rfl start ran
  intro back
  induction back with
  | nil =>
    intro front s whole holds done
    cases done
    rwa [whole, List.append_nil]
  | cons x back ih =>
    intro front s whole holds done
    rw [List.forIn_cons, bind_eq_ok_iff] at done
    obtain ⟨step, mid, ran, done⟩ := done
    obtain ⟨rfl, holds⟩ := turn front x back s mid step whole holds ran
    exact ih (front ++ [x]) mid (by simpa using whole) holds done

end

namespace Disk

/-- Below a location there is what a list says, and nothing else. -/
def Holds (d : Disk) (l : Location) (listed : List (Location × Entry)) : Prop :=
  ∀ names, names ≠ [] → d.get? (l ++ names) = listed.lookup names

variable {base d d' : Disk} {p : Path} {l : Location} {listed : List (Location × Entry)}

/-- One entry more is found below a location, under names that were free. -/
theorem Holds.concat (holds : d.Holds l listed) (names : Location) (e : Entry)
    (new : listed.lookup names = none)
    (after : ∀ k, d'.get? (l ++ k) = if k = names then some e else d.get? (l ++ k)) :
    d'.Holds l (listed ++ [(names, e)]) := by
  intro k nonempty
  rw [after, List.lookup_append, List.lookup_cons, List.lookup_nil]
  by_cases here : k = names
  · simp [here, new]
  · have other : (k == names) = false := by simpa using here
    simp [here, other, holds k nonempty]

theorem lookup_of_nodup (front back : List (Location × Entry)) (added : Location × Entry)
    (distinct : ((front ++ added :: back).map Prod.fst).Nodup) :
    front.lookup added.1 = none := by
  rw [List.map_append, List.nodup_append] at distinct
  rw [List.lookup_eq_none_iff]
  intro other member
  have apart := distinct.2.2 other.1 (List.mem_map_of_mem member) added.1 (by simp)
  simpa using apart.symm

end Disk

namespace Starter

variable {base d d' : Disk} {root : Path} {l : Location}

def directoryEntry (name : String) : Location × Entry := ([name], .directory)

def fileEntry (file : String × String) : Location × Entry :=
  ((Path.mk file.1).names, .file file.2.toUTF8 false)

/-- What lies below the directory of a new project. -/
def entries (title : String) : List (Location × Entry) :=
  directories.map directoryEntry ++ (files title).map fileEntry

theorem nodup_entries (title : String) : ((entries title).map Prod.fst).Nodup := by
  simp only [entries, directories, files, List.map_append, List.map_cons, List.map_nil,
    directoryEntry, fileEntry]
  decide +kernel

section

variable (storable : base.IsStorable) (fresh : Fresh base root l)
include storable fresh

/-- A directory is made under a name that is still free. -/
theorem holds_of_makeDir (filled : Filled l base d) (listed : List (Location × Entry))
    (holds : d.Holds l listed) (name : String) (named : IsName name)
    (new : listed.lookup [name] = none)
    (made : makeDirsAt (root.child name) d = (.ok (), d')) :
    Filled l base d' ∧ d'.Holds l (listed ++ [directoryEntry name]) := by
  have made := (Task.mapError_eq_ok_iff _ _ _).mp made
  have above : d.get? (l ++ []) = some .directory := by
    rw [List.append_nil, filled.directory fresh]
  obtain ⟨filled', directory, -, same⟩ := filled.made storable fresh [] name
    (Location.isProper_singleton name named) above made
  refine ⟨filled', holds.concat [name] .directory new fun k => ?_⟩
  split
  next here => rw [here, ← directory, List.nil_append]
  next apart => exact same _ fun here => apart (List.append_cancel_left here)

/-- A file is written under names that are still free. -/
theorem holds_of_writeText (filled : Filled l base d) (listed : List (Location × Entry))
    (holds : d.Holds l listed) (title : String) (file : String × String)
    (starter : file ∈ files title) (new : listed.lookup (fileEntry file).1 = none)
    (wrote : writeText (root.join ⟨file.1⟩) file.2 d = (.ok (), d')) :
    Filled l base d' ∧ d'.Holds l (listed ++ [fileEntry file]) := by
  obtain ⟨nonempty, proper, path⟩ := join_file root title file starter
  rw [path] at wrote
  have absent : d.get? (l ++ (Path.mk file.1).names) = none := (holds _ nonempty).trans new
  obtain ⟨filled', -, after⟩ := filled.wrote storable fresh _ proper nonempty file.2 absent wrote
  exact ⟨filled', holds.concat _ _ new after⟩

/-- The starter files are all that is found in a directory that was empty. -/
theorem write_holds (title : String) (wrote : write root title base = (.ok (), d')) :
    Filled l base d' ∧ d'.Holds l (entries title) := by
  obtain ⟨⟨⟩, mid, made, wrote⟩ := (bind_eq_ok_iff _ _ _ _ _).mp wrote
  obtain ⟨⟨⟩, last, filled, done⟩ := (bind_eq_ok_iff _ _ _ _ _).mp wrote
  cases done
  have distinct := nodup_entries title
  -- first the directories, each one under a name that none before it has
  have dirs : Filled l base mid ∧ mid.Holds l (directories.map directoryEntry) := by
    refine forIn_invariant _ (fun front d => Filled l base d ∧ d.Holds l (front.map directoryEntry))
      directories ⟨fresh.filled storable, ?_⟩ ?_ made
    · intro names nonempty
      rw [fresh.absent storable names nonempty]
      rfl
    · rintro front dir back d d' step whole ⟨filled, holds⟩ turn
      obtain ⟨⟨⟩, last, made, done⟩ := (bind_eq_ok_iff _ _ _ _ _).mp turn
      cases done
      have named : IsName dir := by
        have listed : dir ∈ directories := by rw [whole]; simp
        simp only [directories, List.mem_cons, List.not_mem_nil, or_false] at listed
        rcases listed with rfl | rfl | rfl <;> decide
      have split : entries title = front.map directoryEntry ++ directoryEntry dir ::
          (back.map directoryEntry ++ (files title).map fileEntry) := by
        rw [entries, whole]
        simp
      rw [split] at distinct
      have new := lookup_of_nodup _ _ _ distinct
      rw [List.map_append]
      exact ⟨rfl, holds_of_makeDir storable fresh filled _ holds dir named new made⟩
  -- then the files, on top of them
  refine forIn_invariant _ (fun front d => Filled l base d ∧
    d.Holds l (directories.map directoryEntry ++ front.map fileEntry)) (files title) ?_ ?_ filled
  · simpa using dirs
  · rintro front file back d d' step whole ⟨filled, holds⟩ turn
    obtain ⟨⟨⟩, last, wrote, done⟩ := (bind_eq_ok_iff _ _ _ _ _).mp turn
    cases done
    have starter : file ∈ files title := by rw [whole]; simp
    have split : entries title = (directories.map directoryEntry ++ front.map fileEntry) ++
        fileEntry file :: back.map fileEntry := by
      rw [entries, whole]
      simp
    rw [split] at distinct
    have new := lookup_of_nodup _ _ _ distinct
    rw [List.map_append, ← List.append_assoc]
    exact ⟨rfl, holds_of_writeText storable fresh filled _ holds title file starter new wrote⟩

end

end Starter

namespace Starter

/-- The directory of a new project as it was made, wherever it is. -/
structure IsLaidOut (title : String) (l : Location) (d : Disk) : Prop where
  storable : d.IsStorable
  directory : d.get? l = some .directory
  holds : d.Holds l (entries title)

end Starter

namespace Registry

variable {r : Registry} {d d' : Disk} {p : Project} {l : Location}

/-- No title of a project has a slash. -/
theorem notMem_of_refusal? (title : String) (open_ : refusal? title = none) :
    '/' ∉ title.toList := by
  intro slash
  have kept := Text.mem_trim title '/' (by decide) slash
  simp only [refusal?, List.contains_iff_mem.mpr kept, Bool.or_true, Bool.true_or, if_true] at open_
  split at open_ <;> cases open_

/-- A project is created by laying it out in a directory that is made for it and then registering
it. -/
theorem exists_scaffold (storable : d.IsStorable) (workspace : Path) (title : String) (now : Int)
    (created : r.create workspace title now d = (.ok p, d'))
    (fresh : Fresh (makeDirs (workspace.child title) d).2 (workspace.child title) l) :
    ∃ mid, p = .make title l.path now ∧ '/' ∉ title.toList ∧
      scaffold (workspace.child title) title d = (.ok (), mid) ∧ Extended d mid ∧
      Starter.IsLaidOut title l mid ∧ r.save (r.list mid ++ [p]) mid = (.ok (), d') := by
  rcases r.create_cases workspace title now d with ⟨e, same⟩ | ⟨open_, -, whole⟩
  · rw [same] at created
    cases created
  rw [whole] at created
  obtain ⟨mid, path, scaffolded, asked, rfl, saved⟩ := establish_eq_ok created
  have nonempty : (workspace.child title).text ≠ "" := Path.text_join_ne (name_ne title open_)
  have grown : Extended d mid := by
    obtain ⟨grown, same | furnished⟩ :=
      scaffold_cases storable (workspace.child title) title nonempty
    · rw [← same, scaffolded] at grown
      exact grown
    · rw [scaffolded] at furnished
      exact grown.trans furnished.toExtended
  -- the starter files fill the directory that was made
  obtain ⟨⟨⟩, base, made, wrote⟩ := (bind_eq_ok_iff _ _ _ _ _).mp scaffolded
  have made := (Task.mapError_eq_ok_iff _ _ _).mp made
  have storable' := (made_of_makeDirs (workspace.child title) d).storable storable
  rw [made] at fresh storable'
  obtain ⟨filled, holds⟩ := Starter.write_holds storable' fresh title wrote
  obtain ⟨k, located, rfl⟩ := (canonical_eq_ok_iff _ _).mp asked
  cases located.symm.trans (filled.located storable' fresh)
  exact ⟨mid, rfl, notMem_of_refusal? title open_, scaffolded, grown,
    ⟨filled.storable, filled.directory fresh, holds⟩, saved⟩

theorem save_storable {projects : List Project} (storable : d.IsStorable)
    (saved : r.save projects d = (.ok (), d')) : d'.IsStorable := by
  rcases replaceText_cases storable r.file (encode projects) with
    ⟨e, last, failed, -⟩ | ⟨last, done, changed⟩
  · rw [save, failed] at saved
    cases saved
  · rw [save, done] at saved
    cases saved
    exact changed.storable

/-- A project that was created where nothing was is laid out at its path, if what was written to
register it went elsewhere. -/
theorem isLaidOut_of_create (storable : d.IsStorable) (workspace : Path) (title : String) (now : Int)
    (created : r.create workspace title now d = (.ok p, d'))
    (fresh : Fresh (makeDirs (workspace.child title) d).2 (workspace.child title) l)
    (spared : ∀ names, d'.get? (l ++ names) =
      (scaffold (workspace.child title) title d).2.get? (l ++ names)) :
    p = .make title l.path now ∧ '/' ∉ title.toList ∧ Starter.IsLaidOut title l d' := by
  obtain ⟨mid, same, slashless, scaffolded, -, laid, saved⟩ :=
    exists_scaffold storable workspace title now created fresh
  rw [scaffolded] at spared
  refine ⟨same, slashless, save_storable laid.storable saved, ?_, fun names nonempty => ?_⟩
  · have same := spared []
    rwa [List.append_nil, laid.directory] at same
  · rw [spared, laid.holds names nonempty]

/-- Registering a new project changes nothing in it, if the path of the registry goes down to a
place outside of the project. -/
theorem spared_of_aims (storable : d.IsStorable) (workspace : Path) (title : String) (now : Int)
    (created : r.create workspace title now d = (.ok p, d'))
    (fresh : Fresh (makeDirs (workspace.child title) d).2 (workspace.child title) l)
    (dir : Location) (name : String) (aims : Aims d r.file dir name)
    (temporary : ∀ target, d.get? (dir ++ [Path.temporaryName name]) ≠ some (.link target))
    (outside : ¬l <+: dir ++ [name]) (names : Location) :
    d'.get? (l ++ names) = (scaffold (workspace.child title) title d).2.get? (l ++ names) := by
  obtain ⟨mid, -, -, scaffolded, grown, laid, saved⟩ :=
    exists_scaffold storable workspace title now created fresh
  rw [scaffolded]
  exact (aims.extended grown).get?_of_replace laid.storable
    (fun target found => temporary target (grown.link _ target found)) _ saved l laid.directory
    outside names

end Registry

end Workbench
