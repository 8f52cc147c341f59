import Workbench.Proofs.Disk.Canonical
import Workbench.Proofs.Disk.Task
import Workbench.Proofs.Disk.Write
import Workbench.Proofs.Path.Sibling

/-! A file that was replaced reads back as it was written, unless the temporary file was reached
through the very entry that it replaced. -/
namespace Workbench

namespace WriteStep

theorem runAll_cons_iff (step : WriteStep) (rest : List WriteStep) (d d' : Disk) :
    runAll (step :: rest) d = (.ok (), d') ↔
      ∃ mid, step.run d = (.ok (), mid) ∧ runAll rest mid = (.ok (), d') := by
  rw [runAll, bind_eq_ok_iff]
  simp only [Task.mapError_eq_ok_iff]
  constructor
  · rintro ⟨⟨⟩, mid, ran, later⟩
    exact ⟨mid, ran, later⟩
  · rintro ⟨mid, ran, later⟩
    exact ⟨(), mid, ran, later⟩

/-- Steps are carried out with one more after them if they are and then that one is. -/
theorem runAll_concat_iff (steps : List WriteStep) (step : WriteStep) (d d' : Disk) :
    runAll (steps ++ [step]) d = (.ok (), d') ↔
      ∃ mid, runAll steps d = (.ok (), mid) ∧ step.run mid = (.ok (), d') := by
  induction steps generalizing d with
  | nil =>
    rw [List.nil_append, runAll_cons_iff]
    constructor
    · rintro ⟨mid, ran, same⟩
      cases same
      exact ⟨d, rfl, ran⟩
    · rintro ⟨mid, same, ran⟩
      cases same
      exact ⟨d', ran, rfl⟩
  | cons first rest ih =>
    rw [List.cons_append, runAll_cons_iff]
    constructor
    · rintro ⟨mid, ran, later⟩
      obtain ⟨last, between, final⟩ := (ih mid).mp later
      exact ⟨last, (runAll_cons_iff first rest d last).mpr ⟨mid, ran, between⟩, final⟩
    · rintro ⟨last, ran, final⟩
      obtain ⟨mid, start, between⟩ := (runAll_cons_iff first rest d last).mp ran
      exact ⟨mid, start, (ih mid).mpr ⟨last, between, final⟩⟩

end WriteStep

namespace Disk

/-- The disk without the entry that a path names. A link is taken away itself. -/
def without (d : Disk) (p : Path) : Disk :=
  match d.parentSpot p with
  | .ok (dir, some name) => d.erase (dir ++ [name])
  | _ => d

/-- The disk after all steps of replacing a file but the last, which gives the temporary file its
name. -/
def prepared (d : Disk) (p : Path) (bytes : ByteArray) : Disk :=
  (WriteStep.runAll (replaceSteps p bytes).dropLast d).2

/-- Whether the temporary file is reached without the entry that it is to replace. -/
def IsApart (d : Disk) (p : Path) (bytes : ByteArray) : Prop :=
  ((d.prepared p bytes).without p).isThere p.temporary = true

instance (d : Disk) (p : Path) (bytes : ByteArray) : Decidable (d.IsApart p bytes) :=
  inferInstanceAs (Decidable (_ = true))

variable {d d' : Disk} {p : Path} {dir a b : Location} {name temp : String} {e : Entry}

theorem isName_of_parentSpot (spotted : d.parentSpot p = .ok (dir, some name)) : IsName name := by
  obtain ⟨clean, -, -, proper, front, names, -⟩ := (parentSpot_eq_ok_iff dir name).mp spotted
  have listed : name ∈ p.steps := by
    rw [Path.steps, names]
    split <;> simp
  exact proper.isName name clean listed

theorem leads_dots (directory : d.get? dir = some .directory) (dots : List String)
    (still : ∀ step ∈ dots, step = ".") : d.Leads dir dots 0 dir := by
  induction dots with
  | nil => exact .arrive dir
  | cons dot dots ih =>
    rw [still dot List.mem_cons_self]
    exact .stay directory (ih fun step later => still step (List.mem_cons_of_mem _ later))

/-- Dots before the last step make no difference. -/
theorem Leads.dots_iff (here : Location) (above dots : List String)
    (still : ∀ step ∈ dots, step = ".") (last : String) (links : Nat) (l : Location) :
    d.Leads here (above ++ dots ++ [last]) links l ↔ d.Leads here (above ++ [last]) links l := by
  constructor
  · intro leads
    obtain ⟨mid, m, k, upper, lower, rfl⟩ := leads.split _ (above ++ dots) [last]
    exact (upper.of_dots_behind _ above dots still).append _ mid above [last] m k l lower
  · intro leads
    obtain ⟨mid, m, k, upper, lower, rfl⟩ := leads.split _ above [last]
    have stays := leads_dots lower.directory_of_cons dots still
    have dotted := upper.append _ mid above dots m 0 mid stays
    exact dotted.append _ mid (above ++ dots) [last] m k l lower

/-- A path that names an entry of the directory that some steps lead to, dots apart. -/
structure NamesEntry (p : Path) (above : List String) (name : String) : Prop where
  names : ∃ dots, (∀ step ∈ dots, step = ".") ∧ p.names = above ++ dots ++ [name]
  level : p.endsInSlash = false

theorem NamesEntry.locate_iff {above : List String} (entry : NamesEntry p above name)
    (l : Location) : d.locate true p = .ok l ↔ p.hasNul = false ∧ p.text ≠ "" ∧
      ∃ links, links ≤ linkLimit ∧ d.Leads (d.startOf p) (above ++ [name]) links l := by
  obtain ⟨dots, still, names⟩ := entry.names
  have steps : p.steps = above ++ dots ++ [name] := by
    rw [Path.steps, entry.level, names]
    rfl
  rw [locate_eq_ok_iff, steps, trace_eq_taken_iff]
  simp only [Leads.dots_iff _ above dots still]

theorem Leads.solid_of_file (dir : Location) (proper : IsStep name) (links : Nat) (l : Location)
    (leads : d.Leads dir [name] links l) (content : ByteArray) (runnable : Bool)
    (file : d.get? l = some (.file content runnable)) :
    d.get? (dir ++ [name]) ≠ some .directory := by
  rcases leads.step_cases _ _ _ _ _ proper with ⟨_, _, _, tail⟩ | ⟨_, _, there, -⟩
  · cases tail
    simp [file]
  · simp [there]

theorem moveAt_of_solid (old new : Location) (e : Entry) (found : d.get? old = some e)
    (solid : e ≠ .directory) : d.moveAt old new = (d.erase old).put new e := by
  unfold moveAt
  cases e with
  | directory => exact absurd rfl solid
  | _ => simp [found]

/-- Both paths of a renaming name entries, and an entry that is no directory is moved to a place
that is not asked for as one. -/
theorem rename_eq_ok (source target : Path) (renamed : d.rename source target = .ok d') :
    ∃ dir name dir' name' e, d.parentSpot source = .ok (dir, some name) ∧
      d.parentSpot target = .ok (dir', some name') ∧ d.get? (dir ++ [name]) = some e ∧
      (e ≠ .directory → target.endsInSlash = false ∧ (dir ++ [name] ≠ dir' ++ [name'] →
        d' = (d.erase (dir ++ [name])).put (dir' ++ [name']) e)) := by
  unfold rename at renamed
  cases old : d.parentSpot source with
  | error fault => simp [old, bind, Except.bind] at renamed
  | ok origin =>
    cases new : d.parentSpot target with
    | error fault => simp [old, new, bind, Except.bind] at renamed
    | ok aim =>
      obtain ⟨dir, last⟩ := origin
      obtain ⟨dir', last'⟩ := aim
      cases last with
      | none => simp [old, new, bind, Except.bind] at renamed
      | some name =>
        cases last' with
        | none => simp [old, new, bind, Except.bind] at renamed
        | some name' =>
          simp only [old, new, bind, Except.bind] at renamed
          cases found : d.get? (dir ++ [name]) with
          | none => simp [found] at renamed
          | some e =>
            refine ⟨dir, name, dir', name', e, rfl, rfl, found, fun solid => ?_⟩
            rw [← moveAt_of_solid _ _ e found solid]
            cases e with
            | directory => exact absurd rfl solid
            | _ =>
              simp only [found] at renamed
              split at renamed
              · cases renamed
              next open_ =>
                simp only [Bool.or_eq_true, not_or, Bool.not_eq_true] at open_
                refine ⟨open_.2, fun differs => ?_⟩
                rw [if_neg differs] at renamed
                repeat' split at renamed
                all_goals cases renamed
                all_goals rfl

/-- Without its new name, what an entry was moved on is part of the disk that it was moved from. -/
theorem erase_moved_isPartOf (below : a ≠ []) (below' : b ≠ []) (e : Entry) :
    (((d.erase a).put b e).erase b).IsPartOf d := by
  intro l other found
  rw [get?_erase _ below'] at found
  split at found
  · cases found
  next apart =>
    rw [get?_put _ _ below', if_neg apart] at found
    exact ⟨other, get?_of_erase below l other found, .refl other⟩

/-- An entry that is moved to a name beside it is renamed, if what had that name is left out. -/
theorem renamed_of_moved (dir : Location) (differs : dir ++ [temp] ≠ dir ++ [name])
    (found : d.get? (dir ++ [temp]) = some e) :
    Renamed (d.erase (dir ++ [name])) ((d.erase (dir ++ [temp])).put (dir ++ [name]) e)
      dir temp name e := by
  constructor
  · simp [get?_erase, differs, found]
  · simp [get?_put]
  · simp [get?_erase]
  · simp [get?_put, get?_erase, differs]
  · intro l first second
    simp [get?_put, get?_erase, first, second]

/-- On the first disk a temporary file is beside the file that a path names. It leads to a location,
and on the second disk it has got the name of the file. -/
structure Replaced (d d' : Disk) (p : Path) (front : List String) (dir : Location) (name : String)
    (e : Entry) (l : Location) : Prop where
  spotted : d.parentSpot p = .ok (dir, some name)
  source : NamesEntry p.temporary front (Path.temporaryName name)
  target : NamesEntry p front name
  start : ∀ d : Disk, d.startOf p.temporary = d.startOf p
  proper : IsStep (Path.temporaryName name)
  found : d.get? (dir ++ [Path.temporaryName name]) = some e
  solid : e ≠ .directory
  way : ∃ links, d.Leads (d.startOf p) front links dir
  lower : ∃ links, d.Leads dir [Path.temporaryName name] links l
  moved : d' = (d.erase (dir ++ [Path.temporaryName name])).put (dir ++ [name]) e

theorem replaced_of_rename (l : Location) (content : ByteArray) (runnable : Bool)
    (located : d.locate true p.temporary = .ok l)
    (file : d.get? l = some (.file content runnable))
    (renamed : d.rename p.temporary p = .ok d') :
    ∃ front dir name e, Replaced d d' p front dir name e l := by
  obtain ⟨dir', temp, dir, name, e, old, new, found, moved⟩ := rename_eq_ok _ _ renamed
  obtain ⟨-, -, -, proper, front, names, links, -, way⟩ :=
    (parentSpot_eq_ok_iff dir name).mp new
  obtain ⟨-, -, -, proper', front', names', links', -, way'⟩ :=
    (parentSpot_eq_ok_iff dir' temp).mp old
  have named := isName_of_parentSpot new
  have beside := Path.beside_temporary names proper.1 proper.2.1 named.no_slash
  obtain ⟨above, dots, rfl, still, both⟩ := beside.names
  -- the two paths name entries of one directory
  obtain ⟨rfl, last⟩ := List.append_inj' (names'.symm.trans both) rfl
  obtain rfl := List.singleton_inj.mp last
  have start (d : Disk) : d.startOf p.temporary = d.startOf p := by
    simp only [startOf, beside.isAbsolute]
  rw [start] at way'
  have way := way.of_dots_behind _ front' dots still
  obtain ⟨-, rfl⟩ := way'.unique _ _ _ _ _ _ way
  have source : NamesEntry p.temporary front' (Path.temporaryName name) :=
    ⟨⟨[], by simp, by rw [both, List.append_nil]⟩, beside.level⟩
  obtain ⟨-, -, k, -, whole⟩ := (source.locate_iff l).mp located
  rw [start] at whole
  obtain ⟨top, i, j, above, lower, rfl⟩ := whole.split _ front' [Path.temporaryName name]
  obtain ⟨-, rfl⟩ := above.unique _ _ _ _ _ _ way
  have solid : e ≠ .directory := fun same =>
    lower.solid_of_file top proper' j l content runnable file (same ▸ found)
  obtain ⟨level, same⟩ := moved solid
  have differs : top ++ [Path.temporaryName name] ≠ top ++ [name] := by
    simpa using Path.temporaryName_ne name
  exact ⟨front', top, name, e, new, source, ⟨⟨dots, still, names⟩, level⟩, start, proper', found,
    solid, ⟨_, way⟩, ⟨j, lower⟩, same differs⟩

/-- A temporary file that is given the name of the file reads as before by that name if it is found
without the entry that it replaces. If not, nothing can be read by that name. -/
theorem readBytes_rename_iff (l : Location) (content : ByteArray) (runnable : Bool)
    (located : d.locate true p.temporary = .ok l)
    (file : d.get? l = some (.file content runnable))
    (renamed : d.rename p.temporary p = .ok d') (read : ByteArray) :
    d'.readBytes p = .ok read ↔ read = content ∧ (d.without p).isThere p.temporary = true := by
  obtain ⟨front', top, name, e, replaced⟩ := replaced_of_rename l content runnable located file renamed
  obtain ⟨spotted, source, target, start, proper', found, solid, ⟨i, way⟩, ⟨j, below⟩, rfl⟩ := replaced
  obtain ⟨clean, nonempty, -, proper, -⟩ := (parentSpot_eq_ok_iff top name).mp spotted
  obtain ⟨clean', nonempty', -⟩ := (source.locate_iff l).mp located
  have whole := way.append _ _ _ _ _ _ _ below
  have differs : top ++ [Path.temporaryName name] ≠ top ++ [name] := by
    simpa using Path.temporaryName_ne name
  have without : d.without p = d.erase (top ++ [name]) := by simp [Disk.without, spotted]
  have swap := renamed_of_moved top differs found
  have kept := get?_of_erase (d := d) (a := top ++ [name]) (by simp)
  have part := d.erase_isPartOf (top ++ [name]) (by simp)
  rw [without, readBytes_eq_ok_iff, isThere_iff]
  constructor
  · -- the way to the file by its new name gives one by the old name: the disks change places
    rintro ⟨l', runnable', located', file'⟩
    obtain ⟨-, -, k', short', whole'⟩ := (target.locate_iff l').mp located'
    obtain ⟨mid, m, n, upper, lower, rfl⟩ := whole'.split _ front' [name]
    have directory := lower.directory_of_cons
    have moved : (((d.erase (top ++ [Path.temporaryName name])).put (top ++ [name]) e).erase
        (top ++ [name])).IsPartOf d := erase_moved_isPartOf (by simp) (by simp) e
    have avoids := Leads.avoids_renamed moved found swap.target solid proper' _ l below content
      runnable file _ _ _ _ upper directory
    obtain ⟨-, rfl⟩ := way.unique _ _ _ _ _ _ (avoids.mono moved)
    obtain ⟨l'', leads, file''⟩ := swap.symm.leads solid proper proper' _ front' m n l' read
      runnable' upper lower file'
    obtain ⟨-, rfl⟩ := (leads.mono part).unique _ _ _ _ _ _ whole
    rw [kept l'' _ file''] at file
    cases file
    refine ⟨rfl, l'', (source.locate_iff l'').mpr ⟨clean', nonempty', _, short', ?_⟩, ?_⟩
    · rw [start]
      exact leads
    · rw [file'']
      rfl
  · -- a way that does without the entry leads to the same file as before
    rintro ⟨rfl, l', located', there⟩
    obtain ⟨-, -, k', short', whole'⟩ := (source.locate_iff l').mp located'
    rw [start] at whole'
    obtain ⟨-, rfl⟩ := (whole'.mono part).unique _ _ _ _ _ _ whole
    have file' : (d.erase (top ++ [name])).get? l' = some (.file read runnable) := by
      obtain ⟨e', found'⟩ := Option.isSome_iff_exists.mp there
      rw [found', ← file, kept l' e' found']
    obtain ⟨mid, m, n, upper, lower, rfl⟩ := whole'.split _ front' [Path.temporaryName name]
    obtain ⟨-, rfl⟩ := (upper.mono part).unique _ _ _ _ _ _ way
    obtain ⟨l'', leads, file''⟩ := swap.leads solid proper' proper _ front' m n l' read runnable
      upper lower file'
    exact ⟨l'', runnable, (target.locate_iff l'').mpr ⟨clean, nonempty, _, short', leads⟩, file''⟩

/-- Opening a file for writing and appending to it is writing it. -/
theorem writeBytes_of_appended (opened : Disk) (bytes : ByteArray)
    (emptied : (d.openForWriting true p).map Prod.snd = .ok opened)
    (appended : WriteStep.appendTo p bytes opened = .ok d') : d.writeBytes p bytes = .ok d' := by
  cases open_ : d.openForWriting true p with
  | error fault => simp [open_, Except.map] at emptied
  | ok result =>
    obtain ⟨l, after⟩ := result
    obtain rfl : after = opened := by simpa [open_, Except.map] using emptied
    have located := (written_of_opened true open_).located
    simpa [writeBytes, WriteStep.appendTo, open_, located, bind, Except.bind] using appended

/-- A file that was replaced without a fault reads as it was written if the temporary file was
reached without the entry that it replaced. If not, it cannot be read. -/
theorem readBytes_replace_iff (bytes : ByteArray) (replaced : replace p bytes d = (.ok (), d'))
    (read : ByteArray) : d'.readBytes p = .ok read ↔ read = bytes ∧ d.IsApart p bytes := by
  have steps : replaceSteps p bytes = (p.parent?.map WriteStep.makeDirs).toList ++
      [.openEmpty p.temporary] ++ [.append p.temporary bytes] ++ [.settle p.temporary] ++
        [.rename p.temporary p] := by
    simp [replaceSteps]
  -- the steps are taken off from the last to the first
  rw [replace, steps, WriteStep.runAll_concat_iff] at replaced
  obtain ⟨mid, settled, renamed⟩ := replaced
  have prepared : d.prepared p bytes = mid := by
    rw [Disk.prepared, steps, List.dropLast_concat, settled]
  rw [WriteStep.runAll_concat_iff] at settled
  obtain ⟨written, appended, same⟩ := settled
  cases same
  rw [WriteStep.runAll_concat_iff] at appended
  obtain ⟨opened, emptied, appended⟩ := appended
  rw [WriteStep.runAll_concat_iff] at emptied
  obtain ⟨made, -, emptied⟩ := emptied
  rw [IsApart, prepared]
  simp only [WriteStep.run, Task.change_eq_ok_iff] at emptied appended renamed
  obtain ⟨l, written, runnable, file, -⟩ :=
    writeBytes_eq_ok bytes (writeBytes_of_appended opened bytes emptied appended)
  exact readBytes_rename_iff l bytes runnable written.located file renamed read

theorem readText_replaceText_iff (text : String)
    (replaced : replaceText p text d = (.ok (), d')) (read : String) :
    d'.readText p = .ok read ↔ read = text ∧ d.IsApart p text.toUTF8 := by
  rw [readText_eq_ok_iff, readBytes_replace_iff text.toUTF8 replaced]
  simp only [← String.toByteArray_inj, String.toUTF8]

end Disk

end Workbench
