import Workbench.Proofs.Path.Descent
import Workbench.Proofs.Serve.Containment
import Workbench.Proofs.Disk.Spot

/-! What answers tell of the disk. Requests that never go up above the root are answered the same on
disks that have the same tree below it. -/
namespace Workbench.Serve

open Disk

/-- Steps that never lead above the place that they start `depth` names below. -/
def staysBelow : (depth : Nat) → List String → Bool
  | _, [] => true
  | depth, step :: rest =>
    if step = "." then staysBelow depth rest
    else if step = ".." then 0 < depth && staysBelow (depth - 1) rest
    else staysBelow (depth + 1) rest

theorem staysBelow_concat_here (depth : Nat) (steps : List String) :
    staysBelow depth (steps ++ ["."]) = staysBelow depth steps := by
  induction steps generalizing depth with
  | nil => rfl
  | cons step rest ih => simp [staysBelow, ih]

/-- Two disks have the same tree without links below a location. -/
structure Agree (d d' : Disk) (r : Location) : Prop where
  same : ∀ names, d'.get? (r ++ names) = d.get? (r ++ names)
  linkless : ∀ names target, d.get? (r ++ names) ≠ some (.link target)

variable {d d' : Disk} {r : Location}

namespace Agree

theorem symm (agree : Agree d d' r) : Agree d' d r :=
  ⟨fun names => (agree.same names).symm, fun names target => by
    rw [agree.same names]
    exact agree.linkless names target⟩

theorem of_isPrefix (agree : Agree d d' r) {l : Location} (below : r <+: l) : Agree d d' l := by
  obtain ⟨rest, rfl⟩ := below
  constructor
  · intro names
    rw [List.append_assoc]
    exact agree.same (rest ++ names)
  · intro names target
    rw [List.append_assoc]
    exact agree.linkless (rest ++ names) target

variable (agree : Agree d d' r)
include agree

/-- Steps that stay below the location lead to the same place on both disks. -/
theorem leads (names : Location) (steps : List String) (links : Nat) (l : Location)
    (stays : staysBelow names.length steps = true) (leads : d.Leads (r ++ names) steps links l) :
    d'.Leads (r ++ names) steps links l ∧ r <+: l := by
  generalize whole : r ++ names = here at leads
  -- induction on the way: a step up takes a name off, and any other step but a dot adds its own
  induction leads generalizing names with
  | arrive => exact ⟨.arrive _, whole ▸ List.prefix_append r names⟩
  | stay directory _ ih =>
    subst whole
    obtain ⟨rest, below⟩ := ih names (by simpa [staysBelow] using stays) rfl
    exact ⟨.stay (agree.same names ▸ directory) rest, below⟩
  | climb directory _ ih =>
    subst whole
    simp only [staysBelow, String.reduceEq, if_false, if_true, Bool.and_eq_true,
      decide_eq_true_eq] at stays
    obtain ⟨front, last, rfl⟩ := (List.eq_nil_or_concat' names).resolve_left
      (List.length_pos_iff.mp stays.1)
    have up : (r ++ (front ++ [last])).dropLast = r ++ front := by
      rw [← List.append_assoc, List.dropLast_concat]
    rw [up] at ih
    obtain ⟨rest, below⟩ := ih front (by simpa using stays.2) rfl
    exact ⟨.climb (agree.same _ ▸ directory) (up ▸ rest), below⟩
  | @enter _ step _ e _ _ directory proper found plain _ ih =>
    subst whole
    rw [List.append_assoc] at found ih
    obtain ⟨rest, below⟩ := ih (names ++ [step])
      (by simpa [staysBelow, proper.1, proper.2.1] using stays) rfl
    refine ⟨.enter (agree.same names ▸ directory) proper ?_ plain ?_, below⟩
    · rw [List.append_assoc, agree.same, found]
    · rwa [List.append_assoc]
  | @follow _ step _ target _ _ _ _ found _ _ =>
    subst whole
    rw [List.append_assoc] at found
    exact absurd found (agree.linkless _ target)

section

variable (tree : d.IsTree) (tree' : d'.IsTree) (e : Entry) (found : d.get? r = some e)
include tree tree' found

/-- A path that stays below the location leads to the same place on both disks. -/
theorem locate (q : Path) (relative : q.isAbsolute = false) (stays : staysBelow 0 q.names = true)
    (l : Location) (located : d.locate true (r.path.join q) = .ok l) :
    d'.locate true (r.path.join q) = .ok l ∧ r <+: l := by
  have proper := tree.isProper r (by simp [found])
  have plain : e.IsPlain := fun target same => agree.linkless [] target (by
    rw [List.append_nil, found, same])
  have found' : d'.get? r = some e := by
    have same := agree.same []
    rwa [List.append_nil, found] at same
  obtain ⟨clean, nonempty, taken⟩ := (locate_eq_ok_iff true _ l).mp located
  obtain ⟨links, within, whole⟩ := leads_of_trace _ _ _ _ taken
  have absolute : (r.path.join q).isAbsolute = true := by
    rw [Path.isAbsolute_join (Location.path_text_ne r) relative, Location.path_isAbsolute]
  obtain ⟨more, steps, stays⟩ : ∃ more, (r.path.join q).steps = r ++ more ∧
      staysBelow 0 more = true := by
    rw [Path.steps, Path.names_join _ relative, Location.path_names r proper]
    split
    · exact ⟨q.names ++ ["."], by rw [List.append_assoc], by rwa [staysBelow_concat_here]⟩
    · exact ⟨q.names, rfl, stays⟩
  rw [startOf, if_pos absolute, steps] at whole
  obtain ⟨mid, m, k, first, second, rfl⟩ := whole.split _ r more
  obtain ⟨rfl, rfl⟩ := first.unique _ _ _ _ _ _ (leads_names tree [] r e found plain)
  obtain ⟨second, below⟩ := agree.leads [] more k l stays (by rwa [List.append_nil])
  refine ⟨(locate_eq_ok_iff true _ l).mpr ⟨clean, nonempty, ?_⟩, below⟩
  rw [startOf, if_pos absolute, steps]
  rw [List.append_nil] at second
  exact trace_of_leads _ _ _ _ l ((leads_names tree' [] _ e found' plain).append _ _ _ _ _ _ _
    second) within

end

/-- What is at or below the location has the same entry on both disks. -/
theorem get? {l : Location} (below : r <+: l) : d'.get? l = d.get? l := by
  obtain ⟨names, rfl⟩ := below
  exact agree.same names

variable (tree : d.IsTree) (tree' : d'.IsTree)
include tree tree'

theorem canonical_path {l : Location} (below : r <+: l) (e : Entry) (found : d.get? l = some e) :
    d.locate true l.path = .ok l ∧ d'.locate true l.path = .ok l := by
  have plain : e.IsPlain := by
    obtain ⟨names, rfl⟩ := below
    exact fun target same => agree.linkless names target (same ▸ found)
  exact ⟨locate_path tree l e found plain,
    locate_path tree' l e (by rw [agree.get? below, found]) plain⟩

theorem isDir_path {l : Location} (below : r <+: l) (e : Entry) (found : d.get? l = some e) :
    d'.isDir l.path = d.isDir l.path := by
  obtain ⟨located, located'⟩ := agree.canonical_path tree tree' below e found
  simp only [isDir, entryAt, located, located', bind, Except.bind, agree.get? below]

theorem readBytes_path {l : Location} (below : r <+: l) (e : Entry) (found : d.get? l = some e) :
    d'.readBytes l.path = d.readBytes l.path := by
  obtain ⟨located, located'⟩ := agree.canonical_path tree tree' below e found
  simp only [readBytes, entryAt, located, located', bind, Except.bind, agree.get? below]

end Agree

theorem relative_isAbsolute (request : String) : (relative request).isAbsolute = false := by
  by_contra absolute
  simp only [Path.isAbsolute, relative, String.toList_ofList, Bool.not_eq_false, beq_iff_eq]
    at absolute
  have kept := List.head?_dropWhile_not (fun c => c == '/' || c == '\\') request.toList
  rw [absolute] at kept
  simp at kept

/-- What a request leads to below a root, told by the location of the root. -/
theorem resolveWithin_of_located (root : Path) (request : String)
    (rooted : d.locate true root = .ok r) :
    resolveWithin d root request =
      match d.locate true (r.path.join (relative request)) with
      | .error _ => .missing
      | .ok l =>
        if !isWithin r.path l.path then .missing
        else if d.isDir l.path then .directory l.path
        else .file l.path := by
  have top : d.canonical root = .ok r.path := (canonical_eq_ok_iff _ _).mpr ⟨r, rooted, rfl⟩
  rw [resolveWithin, top]
  dsimp only
  cases located : d.locate true (r.path.join (relative request)) with
  | error fault => simp [canonical, located, bind, Except.bind]
  | ok l => simp [canonical, located, bind, Except.bind, pure, Except.pure]

/-- A request that stays below the root leads to the same place at or below it on both disks. -/
theorem resolveWithin_congr (agree : Agree d d' r) (tree : d.IsTree) (tree' : d'.IsTree)
    (root root' : Path) (rooted : d.locate true root = .ok r)
    (rooted' : d'.locate true root' = .ok r) (request : String)
    (stays : staysBelow 0 (relative request).names = true) :
    resolveWithin d root request = resolveWithin d' root' request ∧
      ∀ p, resolveWithin d root request = .file p ∨ resolveWithin d root request = .directory p →
        ∃ l e, p = Location.path l ∧ r <+: l ∧ d.get? l = some e := by
  rw [resolveWithin_of_located root request rooted, resolveWithin_of_located root' request rooted']
  have free := relative_isAbsolute request
  obtain ⟨e, found, -⟩ := locate_plain tree root r rooted
  obtain ⟨e', found', -⟩ := locate_plain tree' root' r rooted'
  generalize relative request = q at stays free ⊢
  cases located : d.locate true (r.path.join q) with
  | error fault =>
    cases located' : d'.locate true (r.path.join q) with
    | error fault' => simp
    | ok l =>
      -- what is found on the second disk is found on the first
      obtain ⟨there, -⟩ := agree.symm.locate tree' tree e' found' q free stays l located'
      rw [located] at there
      cases there
  | ok l =>
    obtain ⟨there, below⟩ := agree.locate tree tree' e found q free stays l located
    obtain ⟨entry, found, -⟩ := locate_plain tree _ l located
    rw [there]
    dsimp only
    rw [agree.isDir_path tree tree' below entry found]
    refine ⟨rfl, fun p resolved => ⟨l, entry, ?_, below, found⟩⟩
    repeat' split at resolved
    all_goals simp at resolved
    all_goals exact resolved.symm

section

variable (agree : Agree d d' r) (tree : d.IsTree) (tree' : d'.IsTree) (root root' : Path)
  (rooted : d.locate true root = .ok r) (rooted' : d'.locate true root' = .ok r)
include agree tree tree' rooted rooted'

theorem lookup_congr (request : String) (stays : staysBelow 0 (relative request).names = true) :
    lookup d root request = lookup d' root' request ∧
      ∀ p, lookup d root request = .file p →
        ∃ l e, p = Location.path l ∧ r <+: l ∧ d.get? l = some e := by
  have stays : staysBelow 0 (relative (if request = "/" then "/" ++ directoryIndex
      else request)).names = true := by
    split
    · decide
    · exact stays
  unfold lookup
  dsimp only
  generalize (if request = "/" then "/" ++ directoryIndex else request) = asked at stays
  obtain ⟨same, inside⟩ := resolveWithin_congr agree tree tree' root root' rooted rooted' asked stays
  rw [← same]
  cases resolved : resolveWithin d root asked with
  | missing => exact ⟨rfl, fun p served => by cases served⟩
  | file p =>
    refine ⟨rfl, fun q found => ?_⟩
    cases found
    exact inside p (.inl resolved)
  | directory dir =>
    obtain ⟨l, e, rfl, below, found⟩ := inside dir (.inr resolved)
    obtain ⟨located, located'⟩ := agree.canonical_path tree tree' below e found
    -- the index is looked for with the directory as the root
    obtain ⟨same, inside⟩ := resolveWithin_congr (agree.of_isPrefix below) tree tree' l.path l.path
      located located' directoryIndex (by decide)
    dsimp only
    rw [← same]
    cases indexed : resolveWithin d l.path directoryIndex with
    | missing => exact ⟨rfl, fun p served => by cases served⟩
    | directory p => exact ⟨rfl, fun p served => by cases served⟩
    | file p =>
      refine ⟨rfl, fun q found => ?_⟩
      cases found
      obtain ⟨k, e, same, lower, found⟩ := inside p (.inl indexed)
      exact ⟨k, e, same, below.trans lower, found⟩

/-- A request whose path never goes up above the root is answered the same whatever lies outside of
the root. -/
theorem answer_congr (request : Request)
    (stays : staysBelow 0 (relative request.path).names = true) :
    answer d root request = answer d' root' request := by
  obtain ⟨same, inside⟩ := lookup_congr agree tree tree' root root' rooted rooted' request.path stays
  have responds : respond d root request.path = respond d' root' request.path := by
    unfold respond
    rw [← same]
    cases looked : lookup d root request.path with
    | forbidden => rfl
    | notFound => rfl
    | file p =>
      obtain ⟨l, e, rfl, below, found⟩ := inside p looked
      dsimp only
      rw [agree.readBytes_path tree tree' below e found]
  rw [answer, answer, responds]

end

/-- A site with a page. -/
def site : Disk where
  entries := [(["www"], .directory), (["www", "a.txt"], .file "hi".toUTF8 false),
    (["www", "sub"], .directory)]
  workDir := []

/-- The site with a directory beside its root. -/
def siteWithSecret : Disk where
  entries := [(["www"], .directory), (["www", "a.txt"], .file "hi".toUTF8 false),
    (["www", "sub"], .directory), (["secret"], .directory)]
  workDir := []

theorem site_agree : Agree site siteWithSecret ["www"] := by
  constructor
  · intro names
    rw [get?_of_ne _ (by simp), get?_of_ne _ (by simp)]
    simp [site, siteWithSecret, List.lookup_cons]
  · intro names target found
    rw [get?_of_ne _ (by simp)] at found
    have listed := mem_entries_of_lookup _ _ found
    simp [site] at listed

/-- A page that is asked for by way of a directory below the root is served, whether there is a
directory beside the root or not. -/
theorem page_told : Agree site siteWithSecret ["www"] ∧ site.IsTree ∧ siteWithSecret.IsTree ∧
    site.locate true ⟨"www"⟩ = .ok ["www"] ∧ siteWithSecret.locate true ⟨"/www"⟩ = .ok ["www"] ∧
    staysBelow 0 (relative (Request.path ⟨"GET", "/sub/../a.txt"⟩)).names = true ∧
    answer site ⟨"www"⟩ ⟨"GET", "/sub/../a.txt"⟩ =
      answer siteWithSecret ⟨"/www"⟩ ⟨"GET", "/sub/../a.txt"⟩ ∧
    (answer site ⟨"www"⟩ ⟨"GET", "/sub/../a.txt"⟩).status = 200 := by
  have formed : site.WellFormed := by decide
  have formed' : siteWithSecret.WellFormed := by decide
  have rooted : site.locate true ⟨"www"⟩ = .ok ["www"] := by decide
  have rooted' : siteWithSecret.locate true ⟨"/www"⟩ = .ok ["www"] := by decide
  have stays : staysBelow 0 (relative (Request.path ⟨"GET", "/sub/../a.txt"⟩)).names = true := by
    decide
  exact ⟨site_agree, formed.isTree, formed'.isTree, rooted, rooted', stays,
    answer_congr site_agree formed.isTree formed'.isTree _ _ rooted rooted' _ stays,
    by decide +kernel⟩

/-- A request that goes up above the root is answered with the page exactly if there is a directory
beside the root. -/
theorem secret_told :
    (answer site ⟨"www"⟩ ⟨"GET", "/../secret/../www/a.txt"⟩).status = 404 ∧
      (answer siteWithSecret ⟨"www"⟩ ⟨"GET", "/../secret/../www/a.txt"⟩).status = 200 :=
  ⟨by decide, by decide +kernel⟩

end Workbench.Serve
