import Workbench.Proofs.Disk.Trace

/-! Canonical paths. A path has a canonical form if it leads to an entry, and the canonical form
leads to the same entry and is its own. What is asked of a path is asked of the entry. -/
namespace Workbench.Disk

variable {d : Disk}

theorem locate_eq_ok_iff (follow : Bool) (p : Path) (l : Location) :
    d.locate follow p = .ok l ↔
      p.hasNul = false ∧ p.text ≠ "" ∧
        d.trace follow linkLimit (d.startOf p) p.steps = .ok (.taken l) := by
  unfold locate spot
  by_cases nul : p.hasNul = true
  · simp [nul, bind, Except.bind]
  · by_cases empty : p.text = ""
    · simp [nul, empty, bind, Except.bind]
    · cases traced : d.trace follow linkLimit (d.startOf p) p.steps with
      | error fault => simp [nul, empty, bind, Except.bind]
      | ok spot => cases spot <;> simp [nul, empty, bind, Except.bind]

/-- A path that is not empty takes at least one step. -/
theorem steps_ne_nil (p : Path) (nonempty : p.text ≠ "") : p.steps ≠ [] := by
  rw [Path.steps]
  split
  · simp
  next open_ =>
    obtain ⟨c, last⟩ := Option.ne_none_iff_exists'.mp
      (mt List.getLast?_eq_none_iff.mp (by simpa using nonempty : p.text.toList ≠ []))
    have other : c ≠ '/' := by
      rintro rfl
      simp [Path.endsInSlash, last] at open_
    -- the last character stands in a stretch between slashes, which is a name
    have member : c ∈ Text.joinWith ['/'] p.segments := by
      rw [Path.segments, Text.joinWith_splitAt]
      exact List.mem_of_getLast? last
    obtain ⟨piece, listed, inside⟩ := (Text.mem_joinWith '/' c _ member).resolve_left other
    have solid : piece ≠ [] := List.ne_nil_of_mem inside
    exact List.ne_nil_of_mem
      (List.mem_map_of_mem (List.mem_filter.mpr ⟨listed, by simpa using solid⟩))

/-- A path leads to an entry that is no link. -/
theorem locate_plain (tree : d.IsTree) (p : Path) (l : Location)
    (located : d.locate true p = .ok l) : ∃ e, d.get? l = some e ∧ e.IsPlain := by
  obtain ⟨-, nonempty, taken⟩ := (locate_eq_ok_iff true p l).mp located
  obtain ⟨links, -, leads⟩ := leads_of_trace _ _ _ _ taken
  -- the first step is taken from a directory
  obtain ⟨step, rest, steps⟩ := List.exists_cons_of_ne_nil (steps_ne_nil p nonempty)
  rw [steps] at leads
  have start := leads.directory_of_cons
  exact leads.plain tree _ _ _ _ ⟨.directory, start, Entry.isPlain_directory⟩

/-- The absolute path of an entry that is no link leads to it. -/
theorem locate_path (tree : d.IsTree) (l : Location) (e : Entry)
    (found : d.get? l = some e) (plain : e.IsPlain) : d.locate true l.path = .ok l := by
  have proper : l.IsProper := tree.isProper l (by simp [found])
  have start : d.startOf l.path = [] := by simp [startOf, Location.path_isAbsolute]
  refine (locate_eq_ok_iff true l.path l).mpr
    ⟨Location.path_hasNul l proper, Location.path_text_ne l, ?_⟩
  rw [start, Location.path_steps l proper]
  split
  next root =>
    subst root
    -- the path of the root ends in a slash, which is a step to the same place
    exact trace_of_leads _ _ _ 0 [] (.stay get?_nil (.arrive [])) (Nat.zero_le _)
  next =>
    have leads := leads_names tree [] l e found plain
    exact trace_of_leads _ _ _ 0 l leads (Nat.zero_le _)

theorem isDir_iff (p : Path) : d.isDir p = true ↔
    ∃ l, d.locate true p = .ok l ∧ d.get? l = some .directory := by
  unfold isDir entryAt
  cases d.locate true p with
  | error fault => simp [bind, Except.bind]
  | ok l =>
    cases found : d.get? l with
    | none => simp [bind, Except.bind, found]
    | some e => cases e <;> simp [bind, Except.bind, found]

theorem entryAt_eq_ok_iff (p : Path) (e : Entry) :
    d.entryAt p = .ok e ↔ ∃ l, d.locate true p = .ok l ∧ d.get? l = some e := by
  unfold entryAt
  cases d.locate true p with
  | error fault => simp [bind, Except.bind]
  | ok l => cases found : d.get? l <;> simp [bind, Except.bind, found]

theorem isThere_iff (p : Path) :
    d.isThere p = true ↔ ∃ l, d.locate true p = .ok l ∧ (d.get? l).isSome := by
  unfold isThere entryAt
  cases d.locate true p with
  | error fault => simp [bind, Except.bind, Except.isOk, Except.toBool]
  | ok l => cases found : d.get? l <;> simp [bind, Except.bind, Except.isOk, Except.toBool, found]

theorem readBytes_eq_ok_iff (p : Path) (content : ByteArray) :
    d.readBytes p = .ok content ↔
      ∃ l runnable, d.locate true p = .ok l ∧ d.get? l = some (.file content runnable) := by
  unfold readBytes entryAt
  cases d.locate true p with
  | error fault => simp [bind, Except.bind]
  | ok l =>
    cases found : d.get? l with
    | none => simp [bind, Except.bind, found]
    | some e => cases e <;> simp [bind, Except.bind, found, -Bool.exists_bool]

theorem readText_eq_ok_iff (p : Path) (text : String) :
    d.readText p = .ok text ↔ d.readBytes p = .ok text.toUTF8 := by
  unfold readText
  cases d.readBytes p with
  | error fault => simp [bind, Except.bind]
  | ok bytes =>
    simp only [bind, Except.bind, String.fromUTF8?]
    constructor
    · intro decoded
      split at decoded
      next found =>
        split at found
        next valid =>
          cases found
          cases decoded
          rfl
        next => cases found
      next => cases decoded
    · intro same
      cases same
      have valid : text.toUTF8.IsValidUTF8 := text.isValidUTF8
      rw [dif_pos valid]
      rfl

theorem canonical_eq_ok_iff (p q : Path) :
    d.canonical p = .ok q ↔ ∃ l, d.locate true p = .ok l ∧ l.path = q := by
  unfold canonical
  cases d.locate true p with
  | error fault => simp [bind, Except.bind]
  | ok l => simp [bind, Except.bind, pure, Except.pure]

/-- A canonical form is its own. -/
theorem canonical_canonical (tree : d.IsTree) (p q : Path)
    (formOf : d.canonical p = .ok q) : d.canonical q = .ok q := by
  obtain ⟨l, located, rfl⟩ := (canonical_eq_ok_iff p q).mp formOf
  obtain ⟨e, found, plain⟩ := locate_plain tree p l located
  exact (canonical_eq_ok_iff _ _).mpr ⟨l, locate_path tree l e found plain, rfl⟩

end Workbench.Disk
