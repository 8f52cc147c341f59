import Workbench.Proofs.Disk.Stock
import Workbench.Proofs.Project.Calls
/-!
# What a registry may come to read

The path of a registry may lead to another file once directories are made on its way. Whatever
calls write, a registry will read a list that it could read before, or a list that it was written
for, or nothing: none of the files of a new project can be taken for a list of projects.
-/
namespace Workbench

open Disk

namespace Json

theorem items?_of_number {s rest : List Char} {v : Json} (read : number s = some (v, rest)) :
    v.items? = none := by
  have told (real : Bool) (i : Int) (after : List Char)
      (same : (if real = true then some (Json.real, after) else some (.whole i, after)) =
        some (v, rest)) : v.items? = none := by
    cases real <;> cases same <;> rfl
  unfold number at read
  simp only [Option.bind_eq_bind, Option.bind_eq_some_iff] at read
  obtain ⟨⟨ds, tail⟩, -, read⟩ := read
  split at read
  · cases read
  · obtain ⟨_, -, read⟩ := Option.bind_eq_some_iff.mp read
    exact told _ _ _ read

/-- A text that is read as a list of values begins with a bracket. -/
theorem opens_of_value (fuel : Nat) (s rest : List Char) (items : List Json)
    (read : value fuel s = some (.array items, rest)) : (skip s).head? = some '[' := by
  cases fuel with
  | zero => cases read
  | succ fuel =>
    rw [value] at read
    split at read
    next => cases read
    next c more begins =>
      rw [begins]
      by_cases bracket : c = '['
      · rw [bracket]
        rfl
      · exfalso
        have apart (w : String) (v : Json) (plain : v.items? = none) (t : List Char) :
            word w v t ≠ some (.array items, rest) := by
          intro same
          unfold word at same
          split at same
          · cases same
            cases plain
          · cases same
        rw [if_neg bracket] at read
        split at read
        next =>
          obtain ⟨⟨t, after⟩, -, same⟩ := Option.map_eq_some_iff.mp read
          cases same
        split at read
        next =>
          -- an object is read as an object, whether it has members or not
          split at read
          · cases read
          · simp only [Option.bind_eq_bind, Option.bind_eq_some_iff] at read
            obtain ⟨_, -, _, -, same⟩ := read
            cases same
        split at read
        next => exact apart _ _ rfl _ read
        split at read
        next => exact apart _ _ rfl _ read
        split at read
        next => exact apart _ _ rfl _ read
        cases items?_of_number read

end Json

namespace Registry

/-- The projects that a text lists, which are none if it cannot be understood. -/
def projectsIn (text : String) : List Project := (decode? text).getD []

theorem projectsIn_encode (projects : List Project) (timely : ∀ p ∈ projects, p.IsTimely) :
    projectsIn (encode projects) = projects := by
  simp [projectsIn, decode?_encode projects timely]

/-- A text that does not begin with a bracket, or with blanks, lists no project. -/
theorem projectsIn_of_head {text : String} {c : Char} (begins : text.toList.head? = some c)
    (solid : Json.isSpace c = false) (other : c ≠ '[') : projectsIn text = [] := by
  obtain ⟨rest, chars⟩ := List.head?_eq_some_iff.mp begins
  unfold projectsIn decode?
  cases read : Json.parse? text with
  | none => rfl
  | some v =>
    cases v with
    | array items =>
      exfalso
      unfold Json.parse? at read
      split at read
      next v more whole =>
        split at read
        · cases read
          have opens := Json.opens_of_value _ _ _ _ whole
          rw [chars, Json.skip_of_solid c rest solid] at opens
          exact other (Option.some.inj opens)
        · cases read
      next => cases read
    | _ => rfl

theorem projectsIn_render {v : Json} (told : v.isTold = true) (plain : v.items? = none) :
    projectsIn v.render = [] := by
  simp [projectsIn, decode?, Json.parse?_render v told, plain]

end Registry

namespace Starter

open Registry (projectsIn)

theorem projectsIn_unlines (line : String) (rest : List String)
    (begins : (line.toList.head?.any fun c => !Json.isSpace c && c != '[') = true) :
    projectsIn (unlines (line :: rest)) = [] := by
  obtain ⟨c, first, told⟩ := Option.any_eq_true _ _ |>.mp begins
  simp only [Bool.and_eq_true, Bool.not_eq_true', bne_iff_ne] at told
  have nonempty : line.toList ≠ [] := by
    intro empty
    simp [empty] at first
  refine Registry.projectsIn_of_head (c := c) ?_ told.1 told.2
  rw [unlines, List.map_cons, String.join_cons, String.toList_append, String.toList_append,
    List.append_assoc, List.head?_append_of_ne_nil _ nonempty, first]

/-- No starter file lists a project. -/
theorem projectsIn_files (name : String) (file : String × String) (listed : file ∈ files name) :
    projectsIn file.2 = [] := by
  simp only [files, List.mem_cons, List.not_mem_nil, or_false] at listed
  rcases listed with rfl | rfl | rfl | rfl | rfl | rfl | rfl | rfl
  · exact Registry.projectsIn_render rfl rfl
  · exact Registry.projectsIn_render rfl rfl
  · exact projectsIn_unlines _ _ (by decide)
  · exact projectsIn_unlines _ _ (by decide)
  · exact projectsIn_unlines _ _ (by decide)
  · exact projectsIn_unlines _ _ (by decide)
  · exact projectsIn_unlines _ _ (by decide)
  · exact projectsIn_unlines _ _ (by simp [Json.isSpace])

theorem write_stocks (root : Path) (name : String) :
    Keeps (Stocks ((files name).map Prod.snd)) (write root name) :=
  write_keeps Stocks.refl Stocks.trans root name (fun dir _ => makeDirsAt_stocks (root.child dir))
    fun _ listed => writeText_stocks _ (List.mem_map_of_mem listed)

end Starter

namespace Registry

variable {r : Registry} {d d' : Disk} {texts : List String} {text : String}
  {projects : List Project}

theorem scaffold_stocks (root : Path) (name : String) :
    Keeps (Stocks ((Starter.files name).map Prod.snd)) (scaffold root name) :=
  Keeps.bind Stocks.trans _ _ (makeDirsAt_stocks root) fun _ => Starter.write_stocks root name

/-- What a registry reads, or may come to read although the file does not change, once directories
are made and other files are written. -/
def MayRead (r : Registry) (d : Disk) (projects : List Project) : Prop :=
  ∃ d' l text runnable, Extended d d' ∧ d'.locate true r.file = .ok l ∧
    d.get? l = some (.file (String.toUTF8 text) runnable) ∧ projects = projectsIn text

theorem list_cases (r : Registry) (storable : d.IsStorable) :
    r.list d = [] ∨ r.MayRead d (r.list d) := by
  unfold list
  split
  next text read =>
    obtain ⟨l, runnable, located, file⟩ :=
      (readBytes_eq_ok_iff _ _).mp ((readText_eq_ok_iff _ _).mp read)
    exact .inr ⟨d, l, text, runnable, .refl storable, located, file, rfl⟩
  next => exact .inl rfl

theorem MayRead.of_stocked (stocked : Stocked texts d d') (read : r.MayRead d' projects) :
    r.MayRead d projects ∨ ∃ text ∈ texts, projects = projectsIn text := by
  obtain ⟨d'', l, text, runnable, later, located, file, rfl⟩ := read
  rcases stocked.same l with same | directory | ⟨written, listed, runnable', new⟩
  · rw [same] at file
    exact .inl ⟨d'', l, text, runnable, stocked.toExtended.trans later, located, file, rfl⟩
  · rw [file] at directory
    cases directory
  · rw [file] at new
    simp only [Option.some.injEq, Entry.file.injEq] at new
    obtain rfl := String.toByteArray_inj.mp new.1
    exact .inr ⟨text, listed, rfl⟩

theorem MayRead.of_changed (changed : Changed r.file text d d') (read : r.MayRead d' projects) :
    projects = projectsIn text := by
  obtain ⟨d'', l, other, runnable, later, located, file, rfl⟩ := read
  have same := changed.content d'' l _ runnable later located file
  rw [String.toByteArray_inj.mp same]

end Registry

end Workbench
