import Workbench.Proofs.Disk.Fresh
import Workbench.Proofs.Disk.Growth

/-! What a copy of a directory tree leaves. The target is a directory without links, and the source
lies apart from it. Each entry of the source that is not skipped is found at the same place below the
target, and nothing else changed. A target that was empty on an earlier disk and has been filled
since, as that of a bundle, is a case of this. -/
namespace Workbench.Disk

/-- A disk that differs from an earlier one below a directory only, where it has no links. -/
structure Filled (o : Location) (base d : Disk) : Prop where
  storable : d.IsStorable
  same : ∀ l, (∀ rest, rest ≠ [] → l ≠ o ++ rest) → d.get? l = base.get? l
  linkless : ∀ rest, rest ≠ [] → ∀ target, d.get? (o ++ rest) ≠ some (.link target)
  workDir : d.workDir = base.workDir

/-- Neither of two locations lies at or below the other. -/
def Apart (l k : Location) : Prop := ¬l <+: k ∧ ¬k <+: l

theorem Apart.ne (l k rest rest' : Location) (apart : Apart l k) : l ++ rest ≠ k ++ rest' := by
  intro same
  rcases List.prefix_or_prefix_of_prefix (List.prefix_append l rest)
    (same ▸ List.prefix_append k rest') with below | below
  · exact apart.1 below
  · exact apart.2 below

theorem eq_of_isPrefix_concat {front names : Location} {name name' : String}
    (first : front ++ [name] <+: names) (second : front ++ [name'] <+: names) : name = name' := by
  have same := List.IsPrefix.eq_of_length
    (List.prefix_of_prefix_length_le first second (by simp)) (by simp)
  simpa using same

variable {base d d' : Disk} {out : Path} {o : Location}

section

variable (storable : base.IsStorable) (fresh : Fresh base out o)
include storable fresh

theorem Fresh.absent (rest : Location) (nonempty : rest ≠ []) : base.get? (o ++ rest) = none :=
  storable.none_below_of_namesAt o rest fresh.empty nonempty

/-- At first nothing is filled in. -/
theorem Fresh.filled : Filled o base base :=
  ⟨storable, fun _ _ => rfl,
    fun rest nonempty target => by simp [fresh.absent storable rest nonempty], rfl⟩

theorem Filled.isPartOf (filled : Filled o base d) : base.IsPartOf d := by
  intro l e found
  refine ⟨e, ?_, .refl e⟩
  rw [filled.same l, found]
  rintro rest nonempty rfl
  simp [fresh.absent storable rest nonempty] at found

theorem Filled.located (filled : Filled o base d) : d.locate true out = .ok o :=
  locate_mono (filled.isPartOf storable fresh) filled.workDir fresh.located

end

theorem Filled.directory (fresh : Fresh base out o) (filled : Filled o base d) :
    d.get? o = some .directory := by
  rw [filled.same o fun rest nonempty => by simpa using nonempty, fresh.directory]

/-- Nothing below the target is a link, so that a path there leads where the names say. -/
theorem Filled.isThere_under_iff (filled : Filled o base d) (located : d.locate true out = .ok o)
    (names : Location) (proper : names.IsProper) (nonempty : names ≠ []) :
    d.isThere (out.under names) = true ↔ (d.get? (o ++ names)).isSome = true := by
  rw [isThere_iff]
  constructor
  · rintro ⟨l, found, there⟩
    have here := eq_of_locate_under located names proper filled.linkless l found
    rwa [here] at there
  · intro there
    obtain ⟨e, found⟩ := Option.isSome_iff_exists.mp there
    have plain : e.IsPlain := fun target same =>
      filled.linkless names nonempty target (same ▸ found)
    exact ⟨_, locate_under filled.storable.toIsTree located names e found plain, there⟩

theorem Filled.readText_under (filled : Filled o base d) (located : d.locate true out = .ok o)
    (names : Location) (text : String) (runnable : Bool)
    (there : d.get? (o ++ names) = some (.file text.toUTF8 runnable)) :
    d.readText (out.under names) = .ok text := by
  refine (readText_eq_ok_iff _ _).mpr ((readBytes_eq_ok_iff _ _).mpr ⟨_, runnable, ?_, there⟩)
  exact locate_under filled.storable.toIsTree located names _ there fun _ same => by cases same

/-- A directory that a path leads to may have been filled, and nothing that was there is gone. -/
structure Overlaid (out : Path) (o : Location) (base d : Disk) : Prop extends Filled o base d where
  part : base.IsPartOf d
  located : d.locate true out = .ok o
  directory : d.get? o = some .directory

namespace Overlaid

/-- What is written below the target lies where the names say. -/
theorem written (overlaid : Overlaid out o base d) (names : Location) (proper : names.IsProper)
    (nonempty : names ≠ []) (l : Location) (written : Written d (out.under names) l d') :
    l = o ++ names ∧ Overlaid out o base d' := by
  have located := locate_mono written.isPartOf written.workDir overlaid.located
  have linkless : ∀ rest, rest ≠ [] → ∀ target, d'.get? (o ++ rest) ≠ some (.link target) :=
    fun rest nonempty target found =>
      overlaid.linkless rest nonempty target (written.link _ target found)
  have here := eq_of_locate_under located names proper linkless l written.located
  refine ⟨here, ⟨written.storable overlaid.storable, fun k outside => ?_, linkless,
    written.workDir.trans overlaid.workDir⟩, overlaid.part.trans written.isPartOf, located,
    written.isPartOf.directory o overlaid.directory⟩
  rw [written.same k (here ▸ outside names nonempty), overlaid.same k outside]

/-- A directory that is made below the target lies where the names say. -/
theorem made (overlaid : Overlaid out o base d) (front : Location) (name : String)
    (proper : Location.IsProper (front ++ [name])) (above : d.get? (o ++ front) = some .directory)
    (done : makeDirs (out.under (front ++ [name])) d = (.ok (), d')) :
    Overlaid out o base d' ∧ d'.get? (o ++ (front ++ [name])) = some .directory ∧
      (d.get? (o ++ (front ++ [name])) = none ∨
        d.get? (o ++ (front ++ [name])) = some .directory) ∧
      ∀ k, k ≠ o ++ (front ++ [name]) → d'.get? k = d.get? k := by
  have inside := locate_under overlaid.storable.toIsTree overlaid.located front .directory above
    Entry.isPlain_directory
  have named : IsName name := proper name (by simp)
  rw [← List.append_assoc]
  rw [Path.under_concat] at done
  rcases makeDirs_child inside above name named with ⟨absent, made⟩ | ⟨same, isDir⟩
  · rw [done] at made
    cases made
    have place : o ++ front ++ [name] ≠ [] := by simp
    have made := overlaid.storable.put (o ++ front) name .directory above named
      (by rw [absent]; simp) Entry.isPlain_directory
    have after (k : Location) := get?_put (d := d) (o ++ front ++ [name]) .directory place k
    have part : d.IsPartOf (d.put (o ++ front ++ [name]) .directory) := by
      intro k e found
      refine ⟨e, ?_, .refl e⟩
      rw [after, if_neg, found]
      rintro rfl
      rw [absent] at found
      cases found
    refine ⟨⟨⟨made, fun k outside => ?_, fun rest nonempty target found => ?_, overlaid.workDir⟩,
      overlaid.part.trans part, locate_mono part rfl overlaid.located,
      part.directory o overlaid.directory⟩,
      by rw [after, if_pos rfl], .inl absent, fun k apart => by rw [after, if_neg apart]⟩
    · have apart : k ≠ o ++ front ++ [name] := by
        rw [List.append_assoc]
        exact outside _ (by simp)
      rw [after, if_neg apart, overlaid.same k outside]
    · rw [after] at found
      split at found
      · cases found
      · exact overlaid.linkless rest nonempty target found
  · rw [done] at same isDir
    subst same
    obtain ⟨l, there, directory⟩ := (isDir_iff _).mp (isDir rfl)
    rw [← Path.under_concat] at there
    have here := eq_of_locate_under overlaid.located _ proper overlaid.linkless l there
    rw [here, ← List.append_assoc] at directory
    exact ⟨overlaid, directory, .inr directory, fun _ _ => rfl⟩

end Overlaid

section

variable (storable : base.IsStorable) (fresh : Fresh base out o)
include storable fresh

theorem Filled.overlaid (filled : Filled o base d) : Overlaid out o base d :=
  ⟨filled, filled.isPartOf storable fresh, filled.located storable fresh, filled.directory fresh⟩

theorem Filled.written (filled : Filled o base d) (names : Location) (proper : names.IsProper)
    (nonempty : names ≠ []) (l : Location) (written : Written d (out.under names) l d') :
    l = o ++ names ∧ Filled o base d' := by
  obtain ⟨here, overlaid⟩ :=
    (filled.overlaid storable fresh).written names proper nonempty l written
  exact ⟨here, overlaid.toFilled⟩

/-- A text that is written to a free place below the target is found there, and nothing else is. -/
theorem Filled.wrote (filled : Filled o base d) (names : Location) (proper : names.IsProper)
    (nonempty : names ≠ []) (text : String) (absent : d.get? (o ++ names) = none)
    (wrote : writeText (out.under names) text d = (.ok (), d')) :
    Filled o base d' ∧ (∀ q, d'.isDir q = d.isDir q) ∧
      ∀ k, d'.get? (o ++ k) =
        if k = names then some (.file text.toUTF8 false) else d.get? (o ++ k) := by
  have changed := (Task.change_eq_ok_iff _).mp ((Task.mapError_eq_ok_iff _ _ _).mp wrote)
  obtain ⟨l, written, runnable, file, new⟩ := writeBytes_eq_ok _ changed
  obtain ⟨rfl, filled'⟩ := filled.written storable fresh names proper nonempty l written
  refine ⟨filled', written.isDir_eq, fun k => ?_⟩
  split
  next here => rw [here, file, new absent]
  next other => exact written.same _ fun same => other (List.append_cancel_left same)

/-- A text that is written to a free name in the target. -/
theorem Filled.wrote_child (filled : Filled o base d) (name text : String) (named : IsName name)
    (absent : d.get? (o ++ [name]) = none)
    (wrote : writeText (out.child name) text d = (.ok (), d')) :
    Filled o base d' ∧ (∀ q, d'.isDir q = d.isDir q) ∧
      ∀ k, d'.get? (o ++ k) =
        if k = [name] then some (.file text.toUTF8 false) else d.get? (o ++ k) :=
  filled.wrote storable fresh [name] (Location.isProper_singleton name named) (by simp) text absent
    wrote

theorem Filled.made (filled : Filled o base d) (front : Location) (name : String)
    (proper : Location.IsProper (front ++ [name])) (above : d.get? (o ++ front) = some .directory)
    (done : makeDirs (out.under (front ++ [name])) d = (.ok (), d')) :
    Filled o base d' ∧ d'.get? (o ++ (front ++ [name])) = some .directory ∧
      (d.get? (o ++ (front ++ [name])) = none ∨
        d.get? (o ++ (front ++ [name])) = some .directory) ∧
      ∀ k, k ≠ o ++ (front ++ [name]) → d'.get? k = d.get? k := by
  obtain ⟨overlaid, rest⟩ := (filled.overlaid storable fresh).made front name proper above done
  exact ⟨overlaid.toFilled, rest⟩

/-- Directories that are made on the way to a path below the target lie below it. -/
theorem Filled.of_made (filled : Filled o base d) (names : Location) (proper : names.IsProper)
    (made : Made (out.under names) d d') : Filled o base d' := by
  have part := (filled.isPartOf storable fresh).trans made.isPartOf
  have linkless : ∀ rest, rest ≠ [] → ∀ target, d'.get? (o ++ rest) ≠ some (.link target) :=
    fun rest lower target found => filled.linkless rest lower target (made.link _ target found)
  refine ⟨made.storable filled.storable, fun l outside => ?_, linkless,
    made.workDir.trans filled.workDir⟩
  have was := filled.same l outside
  cases found : d.get? l with
  | some e => rw [made.kept l e found, ← found, was]
  | none =>
    rw [← was, found]
    by_contra there
    obtain ⟨-, nonempty, links', -, way⟩ := leads_of_locate fresh.located
    have descends := Path.descends nonempty names proper
    obtain ⟨-, front, links, begins, leads⟩ := made.made l found
      (Option.isSome_iff_ne_none.mpr there)
    rw [startOf, descends.isAbsolute, filled.workDir, ← startOf] at leads
    rw [descends.names] at begins
    rcases List.prefix_or_prefix_of_prefix begins (List.prefix_append out.names names) with
      ⟨rest, above⟩ | ⟨more, rfl⟩
    · -- the way to the target leads through the place, which was a directory before
      rw [← above] at way
      obtain ⟨mid, m, n, first, second, -⟩ := way.split _ front rest
      obtain ⟨-, rfl⟩ := (first.mono part).unique _ _ _ _ _ _ leads
      rw [was, second.directory_of_end _ _ _ _ fresh.directory] at found
      cases found
    · -- below the target the names lead down
      obtain ⟨mid, m, n, first, second, -⟩ := leads.split _ out.names more
      obtain ⟨-, rfl⟩ := (way.mono part).unique _ _ _ _ _ _ first
      have rest : more <+: names := (List.prefix_append_right_inj _).mp begins
      obtain ⟨noUp, same⟩ := Location.IsProper.filter_ne_here more
        fun name member => proper name (rest.subset member)
      obtain ⟨-, down⟩ := second.direct _ _ _ _ noUp fun front _ lower => linkless front lower
      rw [same] at down
      by_cases here : more = []
      · rw [down, here, List.append_nil, filled.directory fresh] at found
        cases found
      · exact outside more here down

/-- Whatever is made and written below the target only fills it. -/
theorem Filled.isKeptBelow :
    IsKeptBelow out (fun d d' => Filled o base d → Filled o base d') where
  refl _ filled := filled
  trans _ _ _ first second filled := second (first filled)
  storable _ _ keeps filled := keeps filled.storable filled
  made names _ _ proper made filled := filled.of_made storable fresh names proper made
  written names l _ _ proper nonempty written filled :=
    (filled.written storable fresh names proper nonempty l written).2

end

/-- The entry of the source that a copy takes to the same place below the target, if any. -/
def asset? (base : Disk) (skip : Option String) (a names : Location) : Option Entry :=
  match base.get? (a ++ names) with
  | some e => if e ≠ .directory ∧ skip = names.getLast? then none else some e
  | none => none

/-- Whether an entry counts as a copied file. -/
def isCounted (skip : Option String) (l : Location) (e : Entry) : Bool :=
  decide (e ≠ .directory) && decide (skip ≠ l.getLast?)

/-- What an entry of a copied directory adds to the number of copied files. -/
def countOf (base : Disk) (skip : Option String) (dir : Location) (listed : String × Entry) : Nat :=
  (if isCounted skip (dir ++ [listed.1]) listed.2 then 1 else 0) +
    if listed.2 = .directory then base.countBelow (isCounted skip) (dir ++ [listed.1]) else 0

/-- What an entry is copied to: a directory to a directory, and anything else to a file, with the
content that the path of the entry led to. -/
def IsCopy (base : Disk) (p : Path) : Entry → Entry → Prop
  | .directory, e => e = .directory
  | _, e => (∃ content runnable, e = .file content runnable) ∧
      ∀ content runnable, base.entryAt p = .ok (.file content runnable) → e = .file content runnable

/-- What a copy makes of what stood at a place: the copied entry, or what it was if there is none. A
directory takes no file's place. -/
def Lays (base : Disk) (skip : Option String) (source : Path) (a names : Location)
    (before after : Option Entry) : Prop :=
  match base.asset? skip a names with
  | none => after = before
  | some e => ∃ e', after = some e' ∧ base.IsCopy (source.under names) e e' ∧
      (e = .directory → ∀ content runnable, before ≠ some (.file content runnable))

/-- A part of a source was copied, and nothing else was changed. -/
structure Laid (base : Disk) (skip : Option String) (source : Path) (a o : Location)
    (covered : Location → Prop) (d d' : Disk) : Prop where
  filled : Filled o base d'
  inside : ∀ names, covered names →
    base.Lays skip source a names (d.get? (o ++ names)) (d'.get? (o ++ names))
  outside : ∀ l, (∀ names, covered names → l ≠ o ++ names) → d'.get? l = d.get? l

namespace Laid

variable {skip : Option String} {source : Path} {a : Location} {covered covered' : Location → Prop}

theorem nothing (filled : Filled o base d) : Laid base skip source a o (fun _ => False) d d :=
  ⟨filled, fun _ => False.elim, fun _ _ => rfl⟩

/-- Two parts that have nothing in common may be copied one after the other. -/
theorem union {mid : Disk} (first : Laid base skip source a o covered d mid)
    (second : Laid base skip source a o covered' mid d')
    (disjoint : ∀ names, covered names → ¬covered' names) :
    Laid base skip source a o (fun names => covered names ∨ covered' names) d d' := by
  refine ⟨second.filled, fun names member => ?_, fun l outside => ?_⟩
  · rcases member with earlier | later
    · have kept := second.outside (o ++ names) fun names' other same =>
        disjoint names earlier (List.append_cancel_left same ▸ other)
      rw [kept]
      exact first.inside names earlier
    · have kept := first.outside (o ++ names) fun names' other same =>
        disjoint names' other (List.append_cancel_left same ▸ later)
      rw [← kept]
      exact second.inside names later
  · rw [second.outside l fun names member => outside names (.inr member),
      first.outside l fun names member => outside names (.inl member)]

/-- Places where the source has nothing may be counted in. -/
theorem extend (laid : Laid base skip source a o covered d d')
    (within : ∀ names, covered names → covered' names)
    (vacant : ∀ names, covered' names → ¬covered names → base.asset? skip a names = none) :
    Laid base skip source a o covered' d d' := by
  refine ⟨laid.filled, fun names member => ?_, fun l outside =>
    laid.outside l fun names member => outside names (within names member)⟩
  by_cases already : covered names
  · exact laid.inside names already
  · have kept := laid.outside (o ++ names) fun names' other same =>
      already (List.append_cancel_left same ▸ other)
    rw [Lays, vacant names member already]
    exact kept

end Laid

/-- Below what is no directory there is nothing to copy. -/
theorem asset?_below (tree : base.IsTree) (skip : Option String) (a names rest : Location)
    (deeper : rest ≠ []) (solid : base.get? (a ++ names) ≠ some .directory) :
    base.asset? skip a (names ++ rest) = none := by
  rw [asset?, ← List.append_assoc, tree.none_below _ rest solid deeper]

theorem asset?_unlisted (tree : base.IsTree) (skip : Option String) (a front : Location)
    (name : String) (rest : Location) (absent : base.get? (a ++ (front ++ [name])) = none) :
    base.asset? skip a (front ++ name :: rest) = none := by
  by_cases last : rest = []
  · rw [last, asset?, absent]
  · rw [List.append_cons]
    exact asset?_below tree skip a _ rest last (by rw [absent]; simp)

section

variable {skip : Option String} {source : Path} {a : Location}

theorem copyEntry_eq_ok (old new : Path) (copied : copyEntry old new d = (.ok (), d')) :
    ∃ mid, makeParent new d = (.ok (), mid) ∧ mid.copyFile old new = .ok d' := by
  obtain ⟨_, mid, made, changed⟩ := (bind_eq_ok_iff _ _ _ _ _).mp copied
  exact ⟨mid, made, (Task.change_eq_ok_iff _).mp ((Task.mapError_eq_ok_iff _ _ _).mp changed)⟩

theorem checkLength_eq_ok {p : Path} (short : checkLength p d = (.ok (), d')) : d' = d := by
  unfold checkLength at short
  split at short <;> cases short
  rfl

/-- How a listed entry is copied, with how many files that are and the disk after it. -/
inductive CopiesEntry (skip : Option String) (levels : Nat) (dir : Location) (old new : Path)
    (name : String) (entry : Entry) (d : Disk) : Nat → Disk → Prop where
  | directory (n : Nat) (mid : Disk) (isDirectory : entry = .directory)
      (into : copyInto skip levels (dir ++ [name]) (old.child name) (new.child name) d =
        (.ok n, mid)) : CopiesEntry skip levels dir old new name entry d n mid
  | skipped (solid : entry ≠ .directory) (isSkipped : skip = some name) :
      CopiesEntry skip levels dir old new name entry d 0 d
  | copied (mid : Disk) (solid : entry ≠ .directory) (kept : skip ≠ some name)
      (one : copyEntry (old.child name) (new.child name) d = (.ok (), mid)) :
      CopiesEntry skip levels dir old new name entry d 1 mid

/-- The parts that a copied list of entries is made of. -/
theorem copyListed_cons_eq_ok (levels : Nat) (dir : Location) (old new : Path) (name : String)
    (entry : Entry) (rest : List (String × Entry)) (n : Nat)
    (copied : copyListed skip levels dir old new ((name, entry) :: rest) d = (.ok n, d')) :
    ∃ here there mid, n = here + there ∧
      CopiesEntry skip levels dir old new name entry d here mid ∧
      copyListed skip levels dir old new rest mid = (.ok there, d') := by
  have later (here : Nat) (mid : Disk)
      (ran : (do
        let there ← copyListed skip levels dir old new rest
        pure (here + there) : Task Error Nat) mid = (.ok n, d')) :
      ∃ there, n = here + there ∧
        copyListed skip levels dir old new rest mid = (.ok there, d') := by
    obtain ⟨there, last, ran, done⟩ := (bind_eq_ok_iff _ _ _ _ _).mp ran
    cases done
    exact ⟨there, rfl, ran⟩
  rw [copyListed] at copied
  split at copied
  next directory =>
    obtain ⟨here, mid, first, ran⟩ := (bind_eq_ok_iff _ _ _ _ _).mp copied
    obtain ⟨there, sum, ran⟩ := later here mid ran
    exact ⟨here, there, mid, sum, .directory here mid directory first, ran⟩
  next solid =>
    split at copied
    next skipped =>
      obtain ⟨there, sum, ran⟩ := later 0 d copied
      exact ⟨0, there, d, sum, .skipped solid skipped, ran⟩
    next kept =>
      obtain ⟨_, checked, short, entered⟩ := (bind_eq_ok_iff _ _ _ _ _).mp copied
      rw [checkLength_eq_ok short] at entered
      obtain ⟨_, mid, first, ran⟩ := (bind_eq_ok_iff _ _ _ _ _).mp entered
      obtain ⟨there, sum, ran⟩ := later 1 mid ran
      exact ⟨1, there, mid, sum, .copied mid solid kept first, ran⟩

theorem copyInto_eq_ok (levels : Nat) (dir : Location) (old new : Path) (n : Nat)
    (copied : copyInto skip levels dir old new d = (.ok n, d')) :
    ∃ deeper mid, levels = deeper + 1 ∧ makeDirs new d = (.ok (), mid) ∧
      copyListed skip deeper dir old new (d.snapshot dir) mid = (.ok n, d') := by
  rw [copyInto] at copied
  rw [bind_apply] at copied
  obtain ⟨_, checked, short, entered⟩ := (bind_eq_ok_iff _ _ _ _ _).mp copied
  rw [checkLength_eq_ok short] at entered
  obtain ⟨_, mid, made, ran⟩ := (bind_eq_ok_iff _ _ _ _ _).mp entered
  cases levels with
  | zero => cases ran
  | succ deeper => exact ⟨deeper, mid, rfl, (Task.mapError_eq_ok_iff _ _ _).mp made, ran⟩

theorem isCopy_iff (p : Path) (e e' : Entry) (solid : e ≠ .directory) :
    base.IsCopy p e e' ↔ (∃ content runnable, e' = .file content runnable) ∧
      ∀ content runnable, base.entryAt p = .ok (.file content runnable) →
        e' = .file content runnable := by
  cases e with
  | directory => exact absurd rfl solid
  | file | link => rfl

theorem makeParent_child {p : Path} {l : Location} (located : d.locate true p = .ok l)
    (directory : d.get? l = some .directory) (name : String) (named : IsName name) :
    makeParent (p.child name) d = (.ok (), d) := by
  have nonempty : p.text ≠ "" := ((locate_eq_ok_iff true p l).mp located).2.1
  simp only [makeParent, Path.parent?_child_eq nonempty named, makeDirsAt]
  exact (Task.mapError_eq_ok_iff _ _ _).mpr
    (makeDirs_of_located (locate_trimmed located directory) directory)

/-- A link to the source is followed, and then the source is listed. -/
theorem copyTree_eq_copyListed (located : d.locate true source = .ok a)
    (directory : d.get? a = some .directory) :
    copyTree source out skip d = copyListed skip pathLimit a source out (d.snapshot a) d := by
  unfold copyTree
  rw [bind_apply]
  rcases locate_unfollowed located with same | ⟨k, target, linked, link⟩
  · simp only [Task.mapError, Task.ask, same, bind_apply, Task.look, directory]
  · simp only [Task.mapError, Task.ask, linked, bind_apply, Task.look, link, located, isDirAt,
      directory]
    rfl

/-- A directory is made at its place, or was there already. -/
theorem Overlaid.laid_of_made (overlaid : Overlaid out o base d) (storable : base.IsStorable)
    (front : Location) (name : String)
    (found : base.get? (a ++ (front ++ [name])) = some .directory)
    (above : d.get? (o ++ front) = some .directory)
    (made : makeDirs (out.under (front ++ [name])) d = (.ok (), d')) :
    Laid base skip source a o (· = front ++ [name]) d d' ∧ Overlaid out o base d' ∧
      d'.get? (o ++ (front ++ [name])) = some .directory := by
  have proper : Location.IsProper (front ++ [name]) := fun n member =>
    storable.isProper _ (by rw [found]; rfl) n (List.mem_append_right a member)
  obtain ⟨overlaid', directory, before, others⟩ := overlaid.made front name proper above made
  refine ⟨⟨overlaid'.toFilled, ?_, fun k outside => others k (outside _ rfl)⟩, overlaid', directory⟩
  rintro names rfl
  have asset : base.asset? skip a (front ++ [name]) = some .directory := by simp [asset?, found]
  rw [Lays, asset]
  refine ⟨.directory, directory, rfl, fun _ content runnable file => ?_⟩
  rcases before with absent | there
  · simp [absent] at file
  · simp [there] at file

/-- What the entries of a source lead to was not below the target before. -/
def ReadsOutside (base : Disk) (source : Path) (a o : Location) : Prop :=
  ∀ names l content runnable, (base.get? (a ++ names)).isSome →
    base.locate true (source.under names) = .ok l → base.get? l = some (.file content runnable) →
    ∀ rest, rest ≠ [] → l ≠ o ++ rest

section

variable (reads : base.ReadsOutside source a o)
include reads

/-- A file, or what a link leads to, is copied to the place of the entry. -/
theorem Overlaid.copied (overlaid : Overlaid out o base d) (front : Location) (name : String)
    (proper : Location.IsProper (front ++ [name])) (above : d.get? (o ++ front) = some .directory)
    (entry : Entry) (found : base.get? (a ++ (front ++ [name])) = some entry)
    (solid : entry ≠ .directory) (kept : skip ≠ some name)
    (copied : copyEntry (source.under (front ++ [name])) (out.under (front ++ [name])) d =
      (.ok (), d')) :
    Laid base skip source a o (· = front ++ [name]) d d' ∧ Overlaid out o base d' := by
  have named : IsName name := proper name (by simp)
  have inside := locate_under overlaid.storable.toIsTree overlaid.located front .directory above
    Entry.isPlain_directory
  obtain ⟨mid, made, changed⟩ := copyEntry_eq_ok _ _ copied
  rw [Path.under_concat out, makeParent_child inside above name named] at made
  cases made
  obtain ⟨l, content, runnable, t, content', located, file, written, there, same⟩ :=
    copyFile_eq_ok _ _ changed
  obtain ⟨rfl, overlaid'⟩ := overlaid.written _ proper (by simp) t written
  refine ⟨⟨overlaid'.toFilled, ?_, fun k outside => written.same k (outside _ rfl)⟩, overlaid'⟩
  rintro names rfl
  have asset : base.asset? skip a (front ++ [name]) = some entry := by
    simp [asset?, found, kept]
  rw [Lays, asset]
  refine ⟨_, there, (isCopy_iff _ _ _ solid).mpr ⟨⟨_, _, rfl⟩, fun content₀ runnable₀ read => ?_⟩,
    fun directory => absurd directory solid⟩
  -- what the source led to before lies outside the target, and is as it was
  obtain ⟨l₀, located₀, file₀⟩ := (entryAt_eq_ok_iff _ _).mp read
  have mono := locate_mono overlaid.part overlaid.workDir located₀
  rw [located] at mono
  cases mono
  have outside := reads _ l _ _ (by rw [found]; rfl) located₀ file₀
  rw [overlaid.same l outside, file₀] at file
  cases file
  rw [same (outside _ (by simp))]

variable (storable : base.IsStorable)
include storable

/-- Directories are copied with all that is in them, as far down as the levels allow. -/
def CopiesDirectories (base : Disk) (skip : Option String) (source out : Path) (a o : Location)
    (levels : Nat) : Prop :=
  ∀ front name d d' n, Overlaid out o base d → d.get? (o ++ front) = some .directory →
    base.get? (a ++ (front ++ [name])) = some .directory →
    copyInto skip levels (a ++ (front ++ [name])) (source.under (front ++ [name]))
      (out.under (front ++ [name])) d = (.ok n, d') →
    Laid base skip source a o (front ++ [name] <+: ·) d d' ∧ Overlaid out o base d' ∧
      n = base.countBelow (isCounted skip) (a ++ (front ++ [name]))

/-- What an entry leaves, whatever kind it is: all that is below its place, and nothing else. -/
theorem CopiesEntry.laid (levels : Nat)
    (inner : CopiesDirectories base skip source out a o levels) (front : Location) (name : String)
    (entry : Entry) (found : base.get? (a ++ (front ++ [name])) = some entry) (d d' : Disk) (n : Nat)
    (overlaid : Overlaid out o base d) (above : d.get? (o ++ front) = some .directory)
    (copies : CopiesEntry skip levels (a ++ front) (source.under front) (out.under front) name
      entry d n d') :
    Laid base skip source a o (front ++ [name] <+: ·) d d' ∧ Overlaid out o base d' ∧
      n = base.countOf skip (a ++ front) (name, entry) := by
  have proper : Location.IsProper (front ++ [name]) := fun n member =>
    storable.isProper _ (by rw [found]; rfl) n (List.mem_append_right a member)
  cases copies with
  | directory _ _ isDirectory into =>
    subst isDirectory
    rw [← Path.under_concat, ← Path.under_concat, List.append_assoc] at into
    obtain ⟨laid, after, count⟩ := inner front name d d' n overlaid above found into
    exact ⟨laid, after, by simp [countOf, isCounted, count]⟩
  | skipped solid isSkipped =>
    refine ⟨(Laid.nothing overlaid.toFilled).extend (fun _ => False.elim) fun names below _ => ?_,
      overlaid, by simp [countOf, isCounted, solid, isSkipped]⟩
    obtain ⟨rest, rfl⟩ := below
    by_cases last : rest = []
    · simp [asset?, last, found, solid, isSkipped]
    · exact asset?_below storable.toIsTree skip a _ rest last (by simpa [found] using solid)
  | copied _ solid kept one =>
    rw [← Path.under_concat, ← Path.under_concat] at one
    obtain ⟨single, after⟩ := overlaid.copied reads front name proper above entry found solid kept one
    refine ⟨single.extend (fun names same => same ▸ List.prefix_rfl) fun names below other => ?_,
      after, by simp [countOf, isCounted, solid, kept]⟩
    obtain ⟨rest, rfl⟩ := below
    have deeper : rest ≠ [] := by
      rintro rfl
      simp at other
    exact asset?_below storable.toIsTree skip a _ rest deeper (by simpa [found] using solid)

/-- A list of entries is copied entry by entry. -/
theorem copyListed_laid (levels : Nat)
    (inner : CopiesDirectories base skip source out a o levels) (front : Location)
    (listed : List (String × Entry))
    (entries : ∀ entry ∈ listed, base.get? (a ++ (front ++ [entry.1])) = some entry.2)
    (distinct : (listed.map Prod.fst).Nodup) (d d' : Disk) (n : Nat)
    (overlaid : Overlaid out o base d)
    (above : d.get? (o ++ front) = some .directory)
    (copied : copyListed skip levels (a ++ front) (source.under front) (out.under front) listed d =
      (.ok n, d')) :
    Laid base skip source a o (fun names => ∃ entry ∈ listed, front ++ [entry.1] <+: names) d d' ∧
      Overlaid out o base d' ∧ n = (listed.map (base.countOf skip (a ++ front))).sum := by
  induction listed generalizing d n with
  | nil =>
    rw [copyListed] at copied
    cases copied
    refine ⟨(Laid.nothing overlaid.toFilled).extend (fun _ => False.elim) fun names covers => ?_,
      overlaid, rfl⟩
    simp at covers
  | cons first rest ih =>
    obtain ⟨name, entry⟩ := first
    obtain ⟨here, there, mid, sum, copies, later⟩ := copyListed_cons_eq_ok levels _ _ _ _ _ _ _ copied
    obtain ⟨head, overlaid', counted⟩ := copies.laid reads storable levels inner front name entry
      (entries _ List.mem_cons_self) d mid here overlaid above
    have stays : mid.get? (o ++ front) = some .directory := by
      rw [head.outside, above]
      rintro names ⟨rest, rfl⟩ same
      simp at same
    obtain ⟨tail, last, counted'⟩ :=
      ih (fun entry member => entries entry (List.mem_cons_of_mem _ member))
        (List.nodup_cons.mp distinct).2 mid there overlaid' stays later
    refine ⟨(head.union tail ?_).extend ?_ ?_, last, by rw [sum, counted, counted']; rfl⟩
    · -- the other entries have other names
      rintro names first ⟨entry, member, second⟩
      refine (List.nodup_cons.mp distinct).1 ?_
      rw [eq_of_isPrefix_concat first second]
      exact List.mem_map.mpr ⟨entry, member, rfl⟩
    · rintro names (first | ⟨entry, member, below⟩)
      · exact ⟨_, List.mem_cons_self, first⟩
      · exact ⟨entry, List.mem_cons_of_mem _ member, below⟩
    · rintro names ⟨entry, member, below⟩ uncovered
      rcases List.mem_cons.mp member with rfl | later
      · exact absurd (.inl below) uncovered
      · exact absurd (.inr ⟨entry, later, below⟩) uncovered

/-- What a directory lists is copied with all that is below, whenever it was listed. -/
theorem copySnapshot_laid (apart : Apart a o) (levels : Nat)
    (inner : CopiesDirectories base skip source out a o levels) (front : Location)
    (before d d' : Disk) (n : Nat) (earlier : Overlaid out o base before)
    (overlaid : Overlaid out o base d) (above : d.get? (o ++ front) = some .directory)
    (copied : copyListed skip levels (a ++ front) (source.under front) (out.under front)
      (before.snapshot (a ++ front)) d = (.ok n, d')) :
    Laid base skip source a o (fun names => ∃ x more, names = front ++ x :: more) d d' ∧
      Overlaid out o base d' ∧ n = base.countBelow (isCounted skip) (a ++ front) := by
  -- the source lies apart from the target, so that its entries are as they were
  have kept (x : String) : before.get? (a ++ front ++ [x]) = base.get? (a ++ (front ++ [x])) := by
    rw [earlier.same _ fun rest _ => ?_, List.append_assoc]
    rw [List.append_assoc]
    exact apart.ne a o _ rest
  obtain ⟨laid, last, counted⟩ := copyListed_laid reads storable levels inner front _
    (fun entry member => (kept entry.1).symm.trans ((mem_snapshot _ _ _).mp member))
    (nodup_snapshot earlier.storable.toIsTree _) d d' n overlaid above copied
  refine ⟨laid.extend ?_ ?_, last, ?_⟩
  · rintro names ⟨entry, -, more, rfl⟩
    exact ⟨entry.1, more, by simp⟩
  · -- what the directory does not list has nothing below it either
    rintro names ⟨x, more, rfl⟩ uncovered
    refine asset?_unlisted storable.toIsTree skip a front x more ?_
    by_contra there
    obtain ⟨e, there⟩ := Option.ne_none_iff_exists'.mp there
    refine uncovered ⟨(x, e), (mem_snapshot _ _ _).mpr ?_, more, by simp⟩
    rw [kept, there]
  · have perm := perm_snapshot storable.toIsTree earlier.storable.toIsTree (a ++ front)
      fun x => by rw [kept, List.append_assoc a]
    rw [counted, countBelow_eq_sum storable.toIsTree]
    exact (perm.map _).sum_nat

/-- A directory is copied with all that is in it. -/
theorem copyInto_laid (apart : Apart a o) (levels : Nat) :
    CopiesDirectories base skip source out a o levels := by
  induction levels with
  | zero =>
    intro front name d d' n _ _ _ copied
    obtain ⟨deeper, _, level, -⟩ := copyInto_eq_ok _ _ _ _ _ copied
    cases level
  | succ levels ih =>
    intro front name d d' n overlaid above found copied
    obtain ⟨deeper, mid, same, made, listed⟩ := copyInto_eq_ok _ _ _ _ _ copied
    cases same
    obtain ⟨own, overlaid', directory⟩ :=
      overlaid.laid_of_made storable front name found above made
    obtain ⟨inside, last, counted⟩ := copySnapshot_laid reads storable apart levels ih
      (front ++ [name]) d mid d' n overlaid overlaid' directory listed
    refine ⟨(own.union inside ?_).extend ?_ ?_, last, counted⟩
    · rintro names rfl ⟨x, more, same⟩
      simp at same
    · rintro names (rfl | ⟨x, more, rfl⟩)
      · exact List.prefix_rfl
      · exact List.prefix_append _ _
    · rintro names ⟨rest, rfl⟩ uncovered
      cases rest with
      | nil => exact absurd (.inl (List.append_nil _)) uncovered
      | cons x more => exact absurd (.inr ⟨x, more, rfl⟩) uncovered

/-- A tree is copied entry by entry. -/
theorem Overlaid.copyTree_laid (apart : Apart a o) (located : base.locate true source = .ok a)
    (directory : base.get? a = some .directory) (d d' : Disk) (n : Nat)
    (overlaid : Overlaid out o base d) (copied : copyTree source out skip d = (.ok n, d')) :
    Laid base skip source a o (· ≠ []) d d' ∧ n = base.countBelow (isCounted skip) a := by
  have there : d.get? a = some .directory := by
    rw [← directory, overlaid.same a fun rest _ => by simpa using apart.ne a o [] rest]
  rw [copyTree_eq_copyListed (locate_mono overlaid.part overlaid.workDir located) there] at copied
  obtain ⟨laid, -, counted⟩ := copySnapshot_laid reads storable apart pathLimit
    (copyInto_laid reads storable apart pathLimit) [] d d d' n overlaid overlaid
    (by simpa using overlaid.directory) (by simpa using copied)
  refine ⟨laid.extend ?_ ?_, by simpa using counted⟩
  · rintro names ⟨x, more, rfl⟩
    simp
  · intro names nonempty uncovered
    exact absurd (List.exists_cons_of_ne_nil nonempty) uncovered

end

/-- A tree is copied to a directory that was empty, out of what was there at that time. -/
theorem copyTree_laid (storable : base.IsStorable) (fresh : Fresh base out o) (apart : Apart a o)
    (located : base.locate true source = .ok a) (directory : base.get? a = some .directory)
    (d d' : Disk) (n : Nat) (filled : Filled o base d)
    (copied : copyTree source out skip d = (.ok n, d')) :
    Laid base skip source a o (· ≠ []) d d' ∧ n = base.countBelow (isCounted skip) a := by
  have reads : base.ReadsOutside source a o := by
    rintro names l content runnable - - file rest nonempty rfl
    simp [fresh.absent storable rest nonempty] at file
  exact (filled.overlaid storable fresh).copyTree_laid reads storable apart located directory d d' n
    copied

end

/-! A copy by recursion on the levels, which can be evaluated. -/

/-- Copy the listed entries, with a given way to copy a directory. -/
def copyEach (skip : Option String) (into : Location → Path → Path → Task Error Nat)
    (dir : Location) (source target : Path) : List (String × Entry) → Task Error Nat
  | [] => pure 0
  | (name, entry) :: rest => do
    let old := source.child name
    let new := target.child name
    let here ←
      if entry = .directory then into (dir ++ [name]) old new
      else if skip = some name then pure 0
      else do
        checkLength new
        copyEntry old new
        pure 1
    let there ← copyEach skip into dir source target rest
    return here + there

def copyDeep (skip : Option String) : (levels : Nat) → Location → Path → Path → Task Error Nat
  | 0, _, _, target => do
    checkLength target
    makeDirsAt target
    throw (.io target .nameTooLong)
  | levels + 1, dir, source, target => do
    let listed ← Task.look (snapshot · dir)
    checkLength target
    makeDirsAt target
    copyEach skip (copyDeep skip levels) dir source target listed

theorem copyListed_eq_copyEach (skip : Option String) (levels : Nat) :
    copyListed skip levels = copyEach skip (copyInto skip levels) := by
  funext dir source target listed
  induction listed with
  | nil => rw [copyListed, copyEach]
  | cons first rest ih => rw [copyListed, copyEach, ih]

theorem copyInto_eq_copyDeep (skip : Option String) (levels : Nat) :
    copyInto skip levels = copyDeep skip levels := by
  induction levels with
  | zero =>
    funext dir source target
    rw [copyInto]
    rfl
  | succ levels ih =>
    funext dir source target
    rw [copyInto, copyDeep, ← ih, ← copyListed_eq_copyEach]

end Workbench.Disk
