import Workbench.Proofs.Editor.Answer

/-! What a deletion removes. A target is taken for what it leads to, so that a link is left where it
is and what it leads to goes. -/
namespace Workbench.Editor

open Disk

variable {desk : Desk}

/-- What a target leads to is gone after a deletion, with all that lies below it, and everything
else is as it was. It is what the target names, or the target names a link, which stays unless it
lies below. -/
theorem removes_what_is_led_to (storable : desk.disk.IsStorable) (target : Path)
    (done : (delete target desk).1 = .ok ()) :
    ∃ root l named : Location, desk.editor.canonicalRoot desk.disk = .ok root.path ∧
      desk.disk.locate true (root.path.join target) = .ok l ∧
      desk.disk.locate false (root.path.join target) = .ok named ∧ root <+: l ∧ l ≠ root ∧
      (∀ k, (delete target desk).2.disk.get? k = if l <+: k then none else desk.disk.get? k) ∧
      (named = l ∨ ∃ aim, desk.disk.get? named = some (.link aim) ∧
        (¬l <+: named → (delete target desk).2.disk.get? named = some (.link aim))) := by
  rcases delete_answer storable target with ⟨⟨e, failed⟩, -⟩ |
    ⟨project, root, l, d', tree, -, -, top, led, below, apart, removed, gone, -, deleted⟩
  · rw [failed] at done
    cases done
  · have frame (k : Location) :
        (delete target desk).2.disk.get? k = if l <+: k then none else desk.disk.get? k := by
      rw [deleted]
      split
      next within => exact gone k within
      next outside => exact removed.same k outside
    rcases locate_unfollowed led with same | ⟨named, aim, same, link⟩
    · exact ⟨root, l, l, top, led, same, below, apart, frame, .inl rfl⟩
    · -- the last step of the way is a link, and that is not where the way leads
      refine ⟨root, l, named, top, led, same, below, apart, frame, .inr ⟨aim, link, fun outside => ?_⟩⟩
      rw [frame, if_neg outside, link]

/-- A link and what it leads to are in the project. -/
theorem link_contained : projectOpen.editor.contained projectOpen.disk ⟨"link"⟩ =
    .ok (Location.path ["p", "a.txt"]) := by decide +kernel

theorem deleted_by_link : (delete ⟨"link"⟩ projectOpen).1 = .ok () := by
  rcases delete_answer projectOpen_storable ⟨"link"⟩ with ⟨-, whole⟩ | deleted
  · have top := whole _ link_contained
    exact absurd top (by decide +kernel)
  · obtain ⟨_, _, _, _, _, -, -, -, -, -, -, -, -, -, done⟩ := deleted
    rw [done]

/-- The file that the link leads to is gone. -/
theorem removed_by_link : projectOpen.disk.IsStorable ∧ (delete ⟨"link"⟩ projectOpen).1 = .ok () ∧
    ∃ root l named : Location, projectOpen.editor.canonicalRoot projectOpen.disk = .ok root.path ∧
      projectOpen.disk.locate true (root.path.join ⟨"link"⟩) = .ok l ∧
      projectOpen.disk.locate false (root.path.join ⟨"link"⟩) = .ok named ∧ root <+: l ∧ l ≠ root ∧
      (∀ k, (delete ⟨"link"⟩ projectOpen).2.disk.get? k =
        if l <+: k then none else projectOpen.disk.get? k) ∧
      (named = l ∨ ∃ aim, projectOpen.disk.get? named = some (.link aim) ∧
        (¬l <+: named → (delete ⟨"link"⟩ projectOpen).2.disk.get? named = some (.link aim))) :=
  ⟨projectOpen_storable, deleted_by_link,
    removes_what_is_led_to projectOpen_storable ⟨"link"⟩ deleted_by_link⟩

/-- The link that the target names is there after the deletion, and the file beside it is not. -/
theorem link_outlives_deletion : (delete ⟨"link"⟩ projectOpen).1 = .ok () ∧
    projectOpen.disk.locate false (Path.join ⟨"/p"⟩ ⟨"link"⟩) = .ok ["p", "link"] ∧
    (delete ⟨"link"⟩ projectOpen).2.disk.get? ["p", "link"] = some (.link ⟨"a.txt"⟩) ∧
    projectOpen.disk.get? ["p", "a.txt"] = some (.file "old".toUTF8 false) ∧
    (delete ⟨"link"⟩ projectOpen).2.disk.get? ["p", "a.txt"] = none := by
  refine ⟨deleted_by_link, by decide +kernel, ?_⟩
  rcases delete_answer projectOpen_storable ⟨"link"⟩ with ⟨-, whole⟩ |
    ⟨project, root, l, d', tree, -, -, top, led, -, -, removed, gone, -, done⟩
  · exact absurd (whole _ link_contained) (by decide +kernel)
  · have form : projectOpen.editor.canonicalRoot projectOpen.disk = .ok ⟨"/p"⟩ := by decide +kernel
    have here : projectOpen.disk.locate true (Path.join ⟨"/p"⟩ ⟨"link"⟩) = .ok ["p", "a.txt"] := by
      decide +kernel
    rw [form] at top
    rw [← Except.ok.inj top, here] at led
    cases led
    rw [done]
    exact ⟨(removed.same _ (by decide)).trans (by decide +kernel), by decide +kernel,
      gone _ (by decide)⟩

end Workbench.Editor
