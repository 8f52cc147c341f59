import Workbench.Proofs.Disk.Swap
/-!
# What writing brings onto a disk

Whoever makes directories and writes files brings nothing onto a disk but directories and the texts
that are written. A replacement that fails is no exception. One that goes through leaves all
directories where they are, and from then on nothing but its text is read by the path, whatever links
there are.
-/
namespace Workbench.Disk

variable {d d' : Disk} {p q : Path} {texts more : List String} {text : String}

/-- Directories were made, and a file that is new or has changed holds one of some texts. -/
structure Stocked (texts : List String) (d d' : Disk) : Prop extends Extended d d' where
  same : ∀ k, d'.get? k = d.get? k ∨ d'.get? k = some .directory ∨
    ∃ text ∈ texts, ∃ runnable, d'.get? k = some (.file text.toUTF8 runnable)

/-- A disk that can be stored is stocked with some texts. -/
def Stocks (texts : List String) (d d' : Disk) : Prop := d.IsStorable → Stocked texts d d'

theorem Stocked.refl (texts : List String) (storable : d.IsStorable) : Stocked texts d d :=
  ⟨.refl storable, fun _ => .inl rfl⟩

theorem Stocked.trans {d'' : Disk} (first : Stocked texts d d') (second : Stocked texts d' d'') :
    Stocked texts d d'' := by
  refine ⟨first.toExtended.trans second.toExtended, fun k => ?_⟩
  rcases second.same k with same | new
  · rw [same]
    exact first.same k
  · exact .inr new

theorem Stocks.refl (d : Disk) : Stocks texts d d := Stocked.refl texts

theorem Stocks.trans (d d' d'' : Disk) (first : Stocks texts d d') (second : Stocks texts d' d'') :
    Stocks texts d d'' := by
  intro storable
  have before := first storable
  exact before.trans (second before.storable)

theorem Made.stocked (made : Made p d d') (storable : d.IsStorable) : Stocked texts d d' := by
  refine ⟨made.extended storable, fun k => ?_⟩
  cases was : d.get? k with
  | some e => exact .inl (made.kept k e was)
  | none =>
    cases found : d'.get? k with
    | none => exact .inl rfl
    | some e =>
      have directory := (made.made k was (by simp [found])).1
      exact .inr (.inl (found.symm.trans directory))

theorem Written.stocked {l : Location} {runnable : Bool} (written : Written d p l d')
    (file : d'.get? l = some (.file text.toUTF8 runnable)) (listed : text ∈ texts)
    (storable : d.IsStorable) : Stocked texts d d' := by
  refine ⟨written.extended storable, fun k => ?_⟩
  by_cases here : k = l
  · rw [here]
    exact .inr (.inr ⟨text, listed, runnable, file⟩)
  · exact .inl (written.same k here)

theorem makeDirs_stocks (p : Path) : Keeps (Stocks texts) (makeDirs p) :=
  fun d => (made_of_makeDirs p d).stocked

theorem makeDirsAt_stocks (p : Path) : Keeps (Stocks texts) (makeDirsAt p) :=
  Task.Keeps.mapError _ _ (makeDirs_stocks p)

theorem writeText_stocks (p : Path) (listed : text ∈ texts) :
    Keeps (Stocks texts) (writeText p text) := by
  refine Task.Keeps.mapError _ _ fun d => ?_
  rcases Task.change_snd (writeBytes · p text.toUTF8) d with same | wrote
  · rw [same]
    exact .refl d
  · obtain ⟨l, written, runnable, file, -⟩ := writeBytes_eq_ok _ wrote
    exact written.stocked file listed

/-- An entry that is no directory is left where it is or gets another place, where no directory
is. -/
theorem rename_solid {dir : Location} {name : String} {e : Entry}
    (renamed : d.rename p q = .ok d') (spotted : d.parentSpot p = .ok (dir, some name))
    (found : d.get? (dir ++ [name]) = some e) (solid : e ≠ .directory) :
    d' = d ∨ ∃ dir' name', d.parentSpot q = .ok (dir', some name') ∧
      dir ++ [name] ≠ dir' ++ [name'] ∧ d.get? (dir' ++ [name']) ≠ some .directory ∧
      d' = (d.erase (dir ++ [name])).put (dir' ++ [name']) e := by
  unfold rename at renamed
  cases new : d.parentSpot q with
  | error fault => simp [spotted, new, bind, Except.bind] at renamed
  | ok aim =>
    obtain ⟨dir', last⟩ := aim
    cases last with
    | none => simp [spotted, new, bind, Except.bind] at renamed
    | some name' =>
      have moved := moveAt_of_solid (dir ++ [name]) (dir' ++ [name']) e found solid
      simp only [spotted, new, bind, Except.bind, found] at renamed
      cases e with
      | directory => exact absurd rfl solid
      | _ =>
        split at renamed
        · cases renamed
        · split at renamed
          next => exact .inl (Except.ok.inj renamed).symm
          next apart =>
            split at renamed
            · cases renamed
            · split at renamed
              · cases renamed
              next free =>
                exact .inr ⟨dir', name', rfl, apart, free, by rw [← moved, Except.ok.inj renamed]⟩

/-- Any entry that a storable disk has may get another place where no directory is. -/
theorem IsStorable.move (storable : d.IsStorable) {a dir : Location} {name : String} {e : Entry}
    (found : d.get? a = some e) (solid : e ≠ .directory) (directory : d.get? dir = some .directory)
    (named : IsName name) (apart : a ≠ dir ++ [name])
    (free : d.get? (dir ++ [name]) ≠ some .directory) :
    ((d.erase a).put (dir ++ [name]) e).IsStorable ∧
      ∀ k, d.get? k = some .directory →
        ((d.erase a).put (dir ++ [name]) e).get? k = some .directory := by
  have below := ne_nil_of_get? e found solid
  have below' : dir ++ [name] ≠ [] := by simp
  have erased := storable.erase a below fun rest nonempty =>
    storable.none_below a rest (by simpa [found] using solid) nonempty
  have elsewhere (k : Location) (there : d.get? k = some .directory) : k ≠ a := by
    rintro rfl
    exact solid (Option.some.inj (found.symm.trans there))
  have still : (d.erase a).get? dir = some .directory := by
    rw [get?_erase _ below, if_neg (elsewhere dir directory), directory]
  have free' : (d.erase a).get? (dir ++ [name]) ≠ some .directory := by
    rwa [get?_erase _ below, if_neg apart.symm]
  constructor
  · refine ⟨erased.toIsTree.put dir name e still named free' ?_, fun k target link => ?_⟩
    · rintro target rfl
      exact storable.links a target found
    · rw [get?_put _ _ below'] at link
      split at link
      · exact storable.clean_links a target (found.trans link)
      · exact erased.clean_links k target link
  · intro k there
    have other : k ≠ dir ++ [name] := by
      rintro rfl
      exact free there
    rw [get?_put _ _ below', if_neg other, get?_erase _ below, if_neg (elsewhere k there), there]

/-- A path to a file names an entry that is no directory, which may be renamed. -/
theorem rename_file {l : Location} {content : ByteArray} {runnable : Bool}
    (storable : d.IsStorable) (located : d.locate true p = .ok l)
    (file : d.get? l = some (.file content runnable)) (renamed : d.rename p q = .ok d') :
    d'.IsStorable ∧ ∀ k, d.get? k = some .directory → d'.get? k = some .directory := by
  obtain ⟨dir, name, dir', name', e, spotted, -, found, -⟩ := rename_eq_ok p q renamed
  have solid : e ≠ .directory := by
    rintro rfl
    have there := locate_of_parentSpot true dir name _ spotted found (.inl rfl)
      (.inl Entry.isPlain_directory)
    rw [located] at there
    cases there
    rw [found] at file
    cases file
  rcases rename_solid renamed spotted found solid with rfl | ⟨dir', name', aim, apart, free, rfl⟩
  · exact ⟨storable, fun _ => id⟩
  · have directory := ((parentSpot_eq_ok_iff dir' name').mp aim).2.2.1
    exact storable.move found solid directory (isName_of_parentSpot aim) apart free

/-- A disk may have any entry in one place. -/
theorem exists_changed (d : Disk) {a : Location} (below : a ≠ []) (e? : Option Entry) :
    ∃ mid : Disk, mid.get? a = e? ∧ ∀ k, k ≠ a → mid.get? k = d.get? k := by
  cases e? with
  | none =>
    refine ⟨d.erase a, by rw [get?_erase _ below, if_pos rfl], fun k apart => ?_⟩
    rw [get?_erase _ below, if_neg apart]
  | some e =>
    refine ⟨d.put a e, by rw [get?_put _ _ below, if_pos rfl], fun k apart => ?_⟩
    rw [get?_put _ _ below, if_neg apart]

namespace Replaced

variable {d'' : Disk} {front : List String} {dir l : Location} {name : String} {e : Entry}
  {content : ByteArray} {runnable : Bool}
  (replaced : Replaced d d' p front dir name e l)
include replaced

theorem after (k : Location) : d'.get? k =
    if k = dir ++ [name] then some e
    else if k = dir ++ [Path.temporaryName name] then none else d.get? k := by
  rw [replaced.moved, get?_put _ _ (by simp), get?_erase _ (by simp)]

/-- The entry leads to the location by itself, or is a link that does. -/
theorem cases_lower : l = dir ++ [Path.temporaryName name] ∨
    ∃ aim links, e = .link aim ∧ d.Leads (baseOf dir aim) aim.steps links l := by
  obtain ⟨_, lower⟩ := replaced.lower
  rcases lower.step_cases _ _ _ _ _ replaced.proper with
    ⟨_, _, _, tail⟩ | ⟨aim, links, there, -, tail⟩
  · cases tail
    exact .inl rfl
  · rw [replaced.found] at there
    cases there
    rw [List.append_nil] at tail
    exact .inr ⟨aim, links, rfl, tail⟩

variable (part : d'.IsPartOf d'')
include part

/-- Whatever comes to a disk later, it has room on one disk with all that was there before the
renaming but the temporary file, if only the file is left out. -/
theorem exists_common : ∃ mid : Disk, (d.erase (dir ++ [Path.temporaryName name])).IsPartOf mid ∧
    (d''.erase (dir ++ [name])).IsPartOf mid := by
  have below : dir ++ [name] ≠ [] := by simp
  obtain ⟨mid, old, same⟩ := exists_changed d'' below (d.get? (dir ++ [name]))
  refine ⟨mid, fun k e' there => ?_, fun k e' there => ?_⟩
  · rw [get?_erase _ (by simp)] at there
    split at there
    · cases there
    next apart =>
      by_cases here : k = dir ++ [name]
      · subst here
        exact ⟨e', old.trans there, .refl e'⟩
      · rw [same k here]
        exact part k e' (by rw [replaced.after, if_neg here, if_neg apart, there])
  · rw [get?_erase _ below] at there
    split at there
    · cases there
    next apart => exact ⟨e', (same k apart).trans there, .refl e'⟩

theorem solid_later : d''.get? (dir ++ [name]) ≠ some .directory := by
  obtain ⟨e', there, like⟩ := part (dir ++ [name]) e (by rw [replaced.after, if_pos rfl])
  rw [there]
  cases e with
  | directory => exact absurd rfl replaced.solid
  | file =>
    obtain ⟨_, _, rfl⟩ := like
    simp
  | link =>
    cases like
    simp

theorem eq_link {aim : Path} (link : d''.get? (dir ++ [name]) = some (.link aim)) :
    e = .link aim := by
  obtain ⟨e', there, like⟩ := part (dir ++ [name]) e (by rw [replaced.after, if_pos rfl])
  rw [link] at there
  cases there
  cases e with
  | directory => exact absurd rfl replaced.solid
  | file =>
    obtain ⟨_, _, same⟩ := like
    cases same
  | link =>
    cases like
    rfl

variable (file : d.get? l = some (.file content runnable))
include file

/-- A link that was renamed leads to the file that it led to, which is where it was. -/
theorem of_link {aim : Path} (link : d''.get? (dir ++ [name]) = some (.link aim)) {m : Nat}
    {k : Location} (leads : d''.Leads (baseOf dir aim) aim.steps m k) :
    k = l ∧ (l = dir ++ [name] ∨ d'.get? l = some (.file content runnable)) := by
  obtain rfl := replaced.eq_link part link
  have found := replaced.found
  have apart : l ≠ dir ++ [Path.temporaryName name] := by
    rintro rfl
    rw [found] at file
    cases file
  obtain ⟨_, _, same, aimed⟩ := replaced.cases_lower.resolve_left apart
  cases same
  obtain ⟨mid, before, behind⟩ := replaced.exists_common part
  obtain ⟨-, rfl⟩ := ((leads.avoids_link _ _ _ _ _ link).mono behind).unique _ _ _ _ _ _
    ((aimed.avoids_link _ _ _ _ _ found).mono before)
  refine ⟨rfl, ?_⟩
  rw [replaced.after, if_neg apart]
  split
  next here => exact .inl here
  next => exact .inr file

/-- The path of the file still leads to its directory, if it leads to any. -/
theorem eq_dir {m : Nat} {k : Location} (upper : d''.Leads (d.startOf p) front m k)
    (ends : d''.get? k = some .directory) : k = dir := by
  obtain ⟨-, -, directory, proper, -⟩ := (parentSpot_eq_ok_iff dir name).mp replaced.spotted
  obtain ⟨_, way⟩ := replaced.way
  obtain ⟨_, lower⟩ := replaced.lower
  obtain ⟨mid, before, behind⟩ := replaced.exists_common part
  have solid' := replaced.solid_later part
  rcases upper.avoids_or_passes dir name solid' with avoids | ⟨rest, _, -, -, passes⟩
  · have solid : d.get? (dir ++ [Path.temporaryName name]) ≠ some .directory := by
      simp [replaced.found, replaced.solid]
    have way' := (lower.avoids_file _ _ solid _ _ _ _ file _ _ _ _ way directory).mono before
    exact ((avoids.mono behind).unique _ _ _ _ _ _ way').2
  · exfalso
    rcases passes.step_cases _ _ _ _ _ proper with ⟨_, _, _, tail⟩ | ⟨aim, _, link, -, tail⟩
    · exact solid' (tail.directory_of_end _ _ _ _ ends)
    · -- no step leads on from the file that the link leads to
      obtain ⟨x, _, _, first, second, -⟩ := tail.split _ aim.steps rest
      have onward := second.directory_of_end _ _ _ _ ends
      obtain ⟨rfl, rfl | kept⟩ := replaced.of_link part file link first
      · exact solid' onward
      · obtain ⟨_, there, _, _, rfl⟩ := part x _ kept
        rw [onward] at there
        cases there

end Replaced

/-- Once a temporary file has got the name of the file, nothing but its content will be read by that
name, whatever is made and written besides. -/
theorem content_of_rename {d'' : Disk} {l k : Location} {content read : ByteArray}
    {runnable runnable' : Bool} (located : d.locate true p.temporary = .ok l)
    (file : d.get? l = some (.file content runnable))
    (renamed : d.rename p.temporary p = .ok d') (part : d'.IsPartOf d'')
    (work : d''.workDir = d'.workDir) (later : d''.locate true p = .ok k)
    (was : d'.get? k = some (.file read runnable')) : read = content := by
  obtain ⟨front, dir, name, e, replaced⟩ := replaced_of_rename l content runnable located file renamed
  obtain ⟨-, -, -, proper, -⟩ := (parentSpot_eq_ok_iff dir name).mp replaced.spotted
  obtain ⟨-, -, _, -, whole⟩ := (replaced.target.locate_iff k).mp later
  have start : d''.startOf p = d.startOf p := by
    simp only [startOf, work, replaced.moved]
    rfl
  rw [start] at whole
  obtain ⟨reached, _, _, upper, last, -⟩ := whole.split _ front [name]
  obtain rfl := replaced.eq_dir part file upper last.directory_of_cons
  rcases last.step_cases _ _ _ _ _ proper with ⟨_, _, _, tail⟩ | ⟨aim, _, link, -, tail⟩
  · cases tail
    rw [replaced.after, if_pos rfl] at was
    cases was
    rcases replaced.cases_lower with rfl | ⟨_, _, same, -⟩
    · rw [replaced.found] at file
      cases file
      rfl
    · cases same
  · rw [List.append_nil] at tail
    obtain ⟨rfl, rfl | kept⟩ := replaced.of_link part file link tail
    · obtain rfl := replaced.eq_link part link
      rw [replaced.after, if_pos rfl] at was
      cases was
    · rw [kept] at was
      cases was
      rfl

/-- Once its directory is there, a file is replaced by writing the temporary file and renaming it. -/
theorem runAll_replacing (storable : d.IsStorable) (p t : Path) (text : String) :
    let steps : List WriteStep :=
      [.openEmpty t, .append t text.toUTF8, .settle t, .rename t p]
    (∃ e d', WriteStep.runAll steps d = (.error e, d') ∧ Stocked [text] d d') ∨
      ∃ mid d' l runnable, WriteStep.runAll steps d = (.ok (), d') ∧ Stocked [text] d mid ∧
        mid.locate true t = .ok l ∧ mid.get? l = some (.file text.toUTF8 runnable) ∧
        mid.rename t p = .ok d' := by
  intro steps
  cases opened : d.openForWriting true t with
  | error fault =>
    refine .inl ⟨.ofFault t fault, d, ?_, .refl _ storable⟩
    simp [steps, runAll_cons, WriteStep.run, Task.change, opened, Except.map, WriteStep.subject]
  | ok result =>
    obtain ⟨l, empty⟩ := result
    have emptied : (d.openForWriting true t).map Prod.snd = .ok empty := by rw [opened]; rfl
    have located := (written_of_opened true opened).located
    have appended : WriteStep.appendTo t text.toUTF8 empty = .ok (empty.appendAt l text.toUTF8) := by
      simp [WriteStep.appendTo, located, bind, Except.bind, pure, Except.pure]
    obtain ⟨m, written, runnable, file, -⟩ :=
      writeBytes_eq_ok _ (writeBytes_of_appended empty text.toUTF8 emptied appended)
    have stocked := written.stocked file (List.mem_singleton_self text) storable
    have last : WriteStep.runAll steps d =
        WriteStep.runAll [.rename t p] (empty.appendAt l text.toUTF8) := by
      simp only [steps, runAll_cons, WriteStep.run, Task.change, emptied, appended]
      rfl
    rw [last, runAll_cons, WriteStep.run, Task.change]
    cases renamed : (empty.appendAt l text.toUTF8).rename t p with
    | error fault => exact .inl ⟨_, _, rfl, stocked⟩
    | ok d' => exact .inr ⟨_, d', m, runnable, rfl, stocked, written.located, file, renamed⟩

/-- What a replacement that goes through leaves: all directories are where they were, and nothing but
the text will be read by the path, whatever is made and written besides. -/
structure Changed (p : Path) (text : String) (d d' : Disk) : Prop where
  storable : d'.IsStorable
  directories : ∀ k, d.get? k = some .directory → d'.get? k = some .directory
  content : ∀ d'' k read runnable, Extended d' d'' → d''.locate true p = .ok k →
    d'.get? k = some (.file read runnable) → read = text.toUTF8

/-- A replacement that fails brings no more than its text onto the disk. -/
theorem replaceText_cases (storable : d.IsStorable) (p : Path) (text : String) :
    (∃ e d', replaceText p text d = (.error e, d') ∧ Stocked [text] d d') ∨
      ∃ d', replaceText p text d = (.ok (), d') ∧ Changed p text d d' := by
  have rest (mid : Disk) (grown : Stocked [text] d mid) :
      (∃ e d', WriteStep.runAll [.openEmpty p.temporary, .append p.temporary text.toUTF8,
          .settle p.temporary, .rename p.temporary p] mid = (.error e, d') ∧ Stocked [text] d d') ∨
        ∃ d', WriteStep.runAll [.openEmpty p.temporary, .append p.temporary text.toUTF8,
            .settle p.temporary, .rename p.temporary p] mid = (.ok (), d') ∧ Changed p text d d' := by
    rcases runAll_replacing grown.storable p p.temporary text with
      ⟨e, d', failed, stocked⟩ | ⟨last, d', l, runnable, done, stocked, located, file, renamed⟩
    · exact .inl ⟨e, d', failed, grown.trans stocked⟩
    · obtain ⟨storable', kept⟩ := rename_file stocked.storable located file renamed
      refine .inr ⟨d', done, storable', fun k there => kept k ?_, ?_⟩
      · exact (grown.trans stocked).part.directory k there
      · intro d'' k read runnable later located' was
        exact content_of_rename located file renamed later.part later.workDir located' was
  cases parent : p.parent? with
  | none =>
    rw [replaceText, replace, replaceSteps, parent]
    exact rest d (.refl _ storable)
  | some q =>
    rw [replaceText, replace_of_parent parent]
    have made : Stocked [text] d (makeDirs q d).2 := makeDirs_stocks q d storable
    generalize makeDirs q d = done at made
    obtain ⟨fault | ⟨⟩, mid⟩ := done
    · exact .inl ⟨_, mid, rfl, made⟩
    · exact rest mid made

end Workbench.Disk
