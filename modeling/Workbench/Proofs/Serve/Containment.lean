import Workbench.Proofs.Disk.Canonical
import Workbench.Serve.Response

/-! What a request is answered with lies at or below the canonical root, whatever dots and links
the request goes through. -/
namespace Workbench.Serve

/-- A canonical path that something is at, at or below the canonical form of `root`. -/
structure Inside (d : Disk) (root p : Path) : Prop where
  below : ∃ top, d.canonical root = .ok top ∧ top.components <+: p.components
  canonical : d.canonical p = .ok p
  there : d.isThere p = true

/-- The content of a regular file at or below the location that `root` leads to. -/
def IsContentBelow (d : Disk) (root : Path) (content : ByteArray) : Prop :=
  ∃ top l runnable, d.locate true root = .ok top ∧ top <+: l ∧
    d.get? l = some (.file content runnable)

variable {d : Disk}

theorem resolveWithin_inside (formed : d.WellFormed) (root : Path) (request : String) (p : Path)
    (resolved : resolveWithin d root request = .file p ∨
      resolveWithin d root request = .directory p) : Inside d root p := by
  unfold resolveWithin at resolved
  cases rooted : d.canonical root with
  | error fault => simp [rooted] at resolved
  | ok top =>
    cases reached : d.canonical (top.join (relative request)) with
    | error fault => simp [rooted, reached] at resolved
    | ok q =>
      simp only [rooted, reached] at resolved
      split at resolved
      · simp at resolved
      next within =>
        have same : q = p := by
          split at resolved <;> simpa using resolved
        subst same
        -- the answer is a canonical form, and canonical forms are their own
        have fixed := Disk.canonical_canonical formed.isTree _ q reached
        obtain ⟨l, located, -⟩ := (Disk.canonical_eq_ok_iff q q).mp fixed
        obtain ⟨e, found, -⟩ := Disk.locate_plain formed.isTree q l located
        refine ⟨⟨top, rooted, ?_⟩, fixed, ?_⟩
        · simpa [isWithin, Path.startsWith] using within
        · simp [Disk.isThere, Disk.entryAt, located, found, bind, Except.bind, Except.isOk,
            Except.toBool]

theorem isDir_of_resolveWithin (root : Path) (request : String) (p : Path) :
    (resolveWithin d root request = .file p → d.isDir p = false) ∧
      (resolveWithin d root request = .directory p → d.isDir p = true) := by
  unfold resolveWithin
  constructor
  all_goals
    intro resolved
    repeat' split at resolved
    all_goals simp_all

theorem Inside.trans (root middle p : Path) (outer : Inside d root middle)
    (inner : Inside d middle p) : Inside d root p := by
  obtain ⟨top, rooted, upper⟩ := outer.below
  obtain ⟨same, canonical, lower⟩ := inner.below
  -- the middle is canonical, so that it is the root that the inner answer lies below
  have equal : same = middle := Except.ok.inj (canonical.symm.trans outer.canonical)
  subst equal
  exact ⟨⟨top, rooted, upper.trans lower⟩, inner.canonical, inner.there⟩

/-- The index of a directory is found by a second resolution, whose root is the directory. -/
theorem lookup_inside (formed : d.WellFormed) (root : Path) (request : String) (p : Path)
    (found : lookup d root request = .file p) : Inside d root p ∧ d.isDir p = false := by
  unfold lookup at found
  simp only at found
  split at found
  · cases found
  next file resolved =>
    cases found
    exact ⟨resolveWithin_inside formed root _ p (.inl resolved),
      (isDir_of_resolveWithin root _ p).1 resolved⟩
  next dir resolved =>
    split at found
    next index indexed =>
      cases found
      have outer := resolveWithin_inside formed root _ dir (.inr resolved)
      have inner := resolveWithin_inside formed dir _ p (.inl indexed)
      exact ⟨outer.trans root dir p inner, (isDir_of_resolveWithin dir _ p).1 indexed⟩
    · cases found

/-- A file read by a path inside the root has its content below the root. -/
theorem Inside.isContentBelow (formed : d.WellFormed) (root p : Path) (content : ByteArray)
    (inside : Inside d root p) (read : d.readBytes p = .ok content) :
    IsContentBelow d root content := by
  obtain ⟨top, rooted, upper⟩ := inside.below
  obtain ⟨r, locatedRoot, rfl⟩ := (Disk.canonical_eq_ok_iff root top).mp rooted
  obtain ⟨l, located, same⟩ := (Disk.canonical_eq_ok_iff p p).mp inside.canonical
  obtain ⟨er, foundRoot, -⟩ := Disk.locate_plain formed.isTree root r locatedRoot
  obtain ⟨e, found, -⟩ := Disk.locate_plain formed.isTree p l located
  -- components of absolute paths are compared as the names of their locations are
  have lower : r <+: l := by
    refine (Location.path_startsWith_iff l r (formed.isTree.isProper l (by simp [found]))
      (formed.isTree.isProper r (by simp [foundRoot]))).mp ?_
    rw [same, Path.startsWith, List.isPrefixOf_iff_prefix]
    exact upper
  cases e with
  | file bytes runnable =>
    have equal : bytes = content := by
      simpa [Disk.readBytes, Disk.entryAt, located, found, bind, Except.bind] using read
    exact ⟨r, l, runnable, locatedRoot, lower, equal ▸ found⟩
  | directory => simp [Disk.readBytes, Disk.entryAt, located, found, bind, Except.bind] at read
  | link target => simp [Disk.readBytes, Disk.entryAt, located, found, bind, Except.bind] at read

theorem respond_ok (root : Path) (request : String) (ok : (respond d root request).status = 200) :
    ∃ p, lookup d root request = .file p ∧ d.readBytes p = .ok (respond d root request).body := by
  unfold respond at ok ⊢
  split at ok
  · simp [Response.message] at ok
  · simp [Response.message] at ok
  next p looked =>
    split at ok
    next content read => exact ⟨p, looked, by simp [read]⟩
    · simp [Response.message] at ok

/-- Files and directories that requests lead to lie inside the canonical root, those reached
through the index of a directory among them, and an answer of 200 carries the bytes of such a
file, or none if only the head was asked for. -/
theorem answers_inside_root (formed : d.WellFormed) (root : Path) :
    (∀ request p, resolveWithin d root request = .file p → Inside d root p ∧ d.isDir p = false) ∧
    (∀ request p, resolveWithin d root request = .directory p →
      Inside d root p ∧ d.isDir p = true) ∧
    (∀ request p, lookup d root request = .file p → Inside d root p ∧ d.isDir p = false) ∧
    (∀ r : Request, (answer d root r).status = 200 →
      ∃ p content, lookup d root r.path = .file p ∧ Inside d root p ∧
        d.readBytes p = .ok content ∧ IsContentBelow d root content ∧
        (answer d root r).body = if r.method = "HEAD" then .empty else content) := by
  refine ⟨fun request p resolved => ?_, fun request p resolved => ?_, ?_, fun r ok => ?_⟩
  · exact ⟨resolveWithin_inside formed root request p (.inl resolved),
      (isDir_of_resolveWithin root request p).1 resolved⟩
  · exact ⟨resolveWithin_inside formed root request p (.inr resolved),
      (isDir_of_resolveWithin root request p).2 resolved⟩
  · exact lookup_inside formed root
  · have answered : (respond d root r.path).status = 200 := by
      unfold answer at ok
      split at ok <;> exact ok
    obtain ⟨p, looked, read⟩ := respond_ok root r.path answered
    have inside := (lookup_inside formed root r.path p looked).1
    refine ⟨p, _, looked, inside, read, inside.isContentBelow formed root p _ read, ?_⟩
    unfold answer
    split <;> rfl

/-- A site that is served through a link. The index of its documents is a link to another page,
and one of its pages is a link out of it. -/
def linkedSite : Disk where
  entries :=
    [(["site"], .directory), (["site", "docs"], .directory),
      (["site", "docs", "index.html"], .link ⟨"../docs/page.html"⟩),
      (["site", "docs", "page.html"], .file "<p>".toUTF8 false),
      (["site", "leak.html"], .link ⟨"../secret"⟩), (["secret"], .file "key".toUTF8 false),
      (["www"], .link ⟨"site/."⟩)]
  workDir := []

/-- The index is served by its canonical path below the site; the page that leads out is not. -/
theorem linkedSite_inside_root :
    linkedSite.WellFormed ∧
    lookup linkedSite ⟨"www"⟩ "//docs/" = .file ⟨"/site/docs/page.html"⟩ ∧
    Inside linkedSite ⟨"www"⟩ ⟨"/site/docs/page.html"⟩ ∧
    lookup linkedSite ⟨"www"⟩ "/leak.html" = .notFound := by
  have formed : linkedSite.WellFormed := by decide
  have looked : lookup linkedSite ⟨"www"⟩ "//docs/" = .file ⟨"/site/docs/page.html"⟩ := by
    decide +kernel
  have inside := (answers_inside_root formed ⟨"www"⟩).2.2.1 "//docs/" _ looked
  exact ⟨formed, looked, inside.1, by decide +kernel⟩

end Workbench.Serve
