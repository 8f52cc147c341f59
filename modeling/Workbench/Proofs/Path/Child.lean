import Workbench.Disk.Atomic
import Workbench.Proofs.Path.Location

/-! The path of an entry of a directory, by the path of the directory and the name of the entry, and
the stretches that a path is put together of. -/
namespace Workbench.Path

/-- A path of a directory that is not written with a slash at the end. -/
structure IsOpen (p : Path) : Prop where
  nonempty : p.text ≠ ""
  unclosed : p.endsInSlash = false

theorem IsOpen.ends (p : Path) (isOpen : p.IsOpen) : p.text.toList.getLast? ≠ some '/' := by
  simpa [endsInSlash] using isOpen.unclosed

/-- Whatever is joined to a path, the same text comes before it. -/
theorem exists_text_join (p : Path) :
    ∃ front : String, ∀ q : Path, q.isAbsolute = false → (p.join q).text = front ++ q.text := by
  -- a slash is put in between, unless the path is empty or ends in one
  by_cases closed : (p.text = "" || p.text.toList.getLast? = some '/') = true
  · refine ⟨p.text, fun q relative => ?_⟩
    simp [join, relative, closed]
  · refine ⟨p.text ++ "/", fun q relative => ?_⟩
    simp [join, relative, closed]

theorem text_join (p q : Path) (isOpen : p.IsOpen) (relative : q.isAbsolute = false) :
    (p.join q).text = p.text ++ "/" ++ q.text := by
  have ends := isOpen.ends
  simp [join, relative, isOpen.nonempty, ends]

variable {p : Path} {name : String}

theorem isAbsolute_name (named : IsName name) : isAbsolute ⟨name⟩ = false := by
  have free := named.no_slash
  cases chars : name.toList with
  | nil => simp [isAbsolute, chars]
  | cons c rest =>
    rw [chars, List.mem_cons, not_or] at free
    simpa [isAbsolute, chars] using Ne.symm free.1

theorem text_child (isOpen : p.IsOpen) (named : IsName name) :
    (p.child name).text.toList = p.text.toList ++ '/' :: name.toList := by
  rw [child, text_join p ⟨name⟩ isOpen (isAbsolute_name named)]
  simp

theorem segments_child (isOpen : p.IsOpen) (named : IsName name) :
    (p.child name).segments = p.segments ++ [name.toList] := by
  rw [segments, text_child isOpen named, Text.splitAt_append,
    Text.splitAt_of_notMem '/' name.toList named.no_slash]
  rfl

/-- A path is what its anchor and the stretches after it are put together to. -/
theorem ofBody_body (p : Path) : ofBody p.anchor p.body = p := by
  have joined := Text.joinWith_splitAt '/' p.text.toList
  by_cases absolute : p.isAbsolute = true
  · have anchored : p.anchor = .root := by simp [anchor, absolute]
    -- the stretch in front of the first slash is empty and is left out
    obtain ⟨rest, chars⟩ := List.head?_eq_some_iff.mp (by simpa [isAbsolute] using absolute)
    have body : p.body = Text.splitAt '/' rest := by
      simp [Path.body, anchored, segments, chars, Text.splitAt]
    rw [anchored, body, ofBody, Text.joinWith_splitAt, ← chars, String.ofList_toList]
  · by_cases dotted : p.segments.head? = some ['.']
    · have anchored : p.anchor = .here := by simp [anchor, absolute, dotted]
      -- the first stretch is the dot, which the anchor stands for
      obtain ⟨rest, segments⟩ := List.head?_eq_some_iff.mp dotted
      have body : p.body = rest := by simp [Path.body, anchored, segments]
      rw [← Path.segments, segments] at joined
      rw [anchored, body, ofBody]
      cases rest with
      | nil =>
        have text : p.text = "." := String.toList_injective joined.symm
        simp [← text]
      | cons next more =>
        have text : p.text.toList = '.' :: '/' :: Text.joinWith ['/'] (next :: more) := joined.symm
        rw [if_neg (by simp), ← text, String.ofList_toList]
    · have anchored : p.anchor = .none := by simp [anchor, absolute, dotted]
      -- no stretch is left out
      have body : p.body = p.segments := by simp [Path.body, anchored]
      rw [anchored, body, ofBody, segments, joined, String.ofList_toList]

theorem isVoid_name (named : IsName name) : isVoid name.toList = false := by
  have nonempty : name.toList ≠ [] := by simpa using named.nonempty
  have dotless : name.toList ≠ ['.'] :=
    fun same => named.not_here (String.toList_injective (by simpa using same))
  simp [isVoid, nonempty, dotless]

/-- A path is told by the stretches between its slashes. -/
theorem eq_of_segments {p q : Path} (same : p.segments = q.segments) : p = q := by
  have chars : p.text.toList = q.text.toList := by
    rw [← Text.joinWith_splitAt '/' p.text.toList, ← Text.joinWith_splitAt '/' q.text.toList]
    exact congrArg _ same
  cases p
  cases q
  exact congrArg Path.mk (String.toList_injective chars)

end Workbench.Path

namespace Workbench.Location

open Workbench.Path

/-- The path of an entry is that of its directory with its name joined to it. -/
theorem path_concat (l : Location) (name : String) (proper : (l ++ [name]).IsProper) :
    (l ++ [name]).path = l.path.child name := by
  have named : IsName name := proper name (by simp)
  apply Path.eq_of_segments
  rw [path_segments _ proper, if_neg (by simp)]
  by_cases root : l = []
  · -- the path of the root ends in a slash already
    subst root
    have text : ((path []).child name).text.toList = '/' :: name.toList := by
      simp [Path.child, Path.join, isAbsolute_name named, path, Text.joinWith]
    rw [Path.segments, text, Text.splitAt, if_pos rfl,
      Text.splitAt_of_notMem '/' name.toList named.no_slash]
    rfl
  · have above : l.IsProper := fun n member => proper n (List.mem_append_left _ member)
    have isOpen : l.path.IsOpen := ⟨path_text_ne l, by simp [path_endsInSlash l above, root]⟩
    rw [segments_child isOpen named, path_segments l above, if_neg root]
    simp

end Workbench.Location
