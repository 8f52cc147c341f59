import Workbench.Proofs.Serve.Secrecy

/-! What a request is answered with, told by the entries below the root. Below a root without links
a request path leads down by its names, and the entry that it leads to decides. -/
namespace Workbench.Serve

open Disk

/-- A stretch of a request path that leads one name down. -/
structure IsSegment (s : String) : Prop where
  nonempty : s ≠ ""
  not_here : s ≠ "."
  not_up : s ≠ ".."
  no_slash : '/' ∉ s.toList

instance (s : String) : Decidable (IsSegment s) :=
  decidable_of_iff (s ≠ "" ∧ s ≠ "." ∧ s ≠ ".." ∧ '/' ∉ s.toList)
    ⟨fun ⟨nonempty, here, up, slash⟩ => ⟨nonempty, here, up, slash⟩,
      fun segment => ⟨segment.1, segment.2, segment.3, segment.4⟩⟩

/-- A directory that requests are answered from, with no link in it. -/
structure IsSite (d : Disk) (root : Path) (r : Location) : Prop where
  rooted : d.locate true root = .ok r
  directory : d.get? r = some .directory
  linkless : ∀ names target, d.get? (r ++ names) ≠ some (.link target)

def Response.ofFile (p : Path) (content : ByteArray) : Response :=
  ⟨200, Serve.contentType p, content.size, content⟩

def Response.forbidden : Response := .message 403 "Directory listing not allowed"

def Response.notFound : Response := .message 404 "File not found"

/-- The answer that the entry at a location decides on: a file is sent, a directory stands for its
index, and nothing else is there to be had. -/
def decided (d : Disk) (l : Location) : Response :=
  match d.get? l with
  | some (.file content _) => .ofFile l.path content
  | some .directory =>
    match d.get? (l ++ [directoryIndex]) with
    | some (.file content _) => .ofFile (Location.path (l ++ [directoryIndex])) content
    | _ => .forbidden
  | _ => .notFound

section

variable {names : List String} {request : String}

theorem relative_path (deep : names ≠ []) (segments : ∀ s ∈ names, IsSegment s)
    (plain : ∀ s ∈ names.head?, s.toList.head? ≠ some '\\') :
    (relative (Location.path names).text).text.toList =
      Text.joinWith ['/'] (names.map String.toList) := by
  obtain ⟨s, rest, rfl⟩ := List.exists_cons_of_ne_nil deep
  obtain ⟨c, more, chars⟩ := List.exists_cons_of_ne_nil
    (by simpa using (segments s List.mem_cons_self).nonempty : s.toList ≠ [])
  have slash : c ≠ '/' := by
    rintro rfl
    exact (segments s List.mem_cons_self).no_slash (by simp [chars])
  have backslash : c ≠ '\\' := by
    rintro rfl
    exact plain s rfl (by simp [chars])
  obtain ⟨tail, joined⟩ : ∃ tail,
      Text.joinWith ['/'] ((s :: rest).map String.toList) = c :: tail := by
    cases rest <;> simp [Text.joinWith, chars]
  rw [relative, String.toList_ofList, Location.path_chars, joined]
  simp [slash, backslash]

variable (asked : (relative request).text.toList = Text.joinWith ['/'] (names.map String.toList))
  (deep : names ≠ []) (segments : ∀ s ∈ names, IsSegment s)

include asked segments in
theorem relative_names : (relative request).names = names := by
  have free : ∀ piece ∈ names.map String.toList, '/' ∉ piece := by
    intro piece listed
    obtain ⟨s, member, rfl⟩ := List.mem_map.mp listed
    exact (segments s member).no_slash
  have kept : (names.map String.toList).filter (· ≠ []) = names.map String.toList := by
    rw [List.filter_eq_self]
    intro piece listed
    obtain ⟨s, member, rfl⟩ := List.mem_map.mp listed
    simpa using (segments s member).nonempty
  rw [Path.names_eq_namesOf, asked, Path.namesOf_splitAt_joinWith _ free, Path.namesOf, kept,
    Location.map_ofList_toList]

include asked deep segments

theorem relative_endsInSlash : (relative request).endsInSlash = false := by
  obtain ⟨front, s, rfl⟩ := (List.eq_nil_or_concat' names).resolve_left deep
  have segment := segments s (by simp)
  have nonempty : s.toList ≠ [] := by simpa using segment.nonempty
  obtain ⟨c, last⟩ := Option.ne_none_iff_exists'.mp (mt List.getLast?_eq_none_iff.mp nonempty)
  have other : c ≠ '/' := fun same => segment.no_slash (same ▸ List.mem_of_getLast? last)
  rw [Path.endsInSlash, asked, Location.joinWith_getLast? _ s.toList (by simp) nonempty, last]
  simp [other]

theorem relative_text_ne : (relative request).text ≠ "" := by
  intro empty
  have names := relative_names asked segments
  rw [Path.names_eq_namesOf, empty] at names
  exact deep names.symm

end

namespace IsSite

variable {d : Disk} {root : Path} {r : Location} (tree : d.IsTree) (site : IsSite d root r)
include tree site

/-- A directory below a site is a site of its own. -/
theorem below {names : List String} (directory : d.get? (r ++ names) = some .directory) :
    IsSite d (Location.path (r ++ names)) (r ++ names) where
  rooted := locate_path tree _ _ directory Entry.isPlain_directory
  directory := directory
  linkless rest target := by
    rw [List.append_assoc]
    exact site.linkless (names ++ rest) target

variable {names : List String} {request : String}
  (asked : (relative request).text.toList = Text.joinWith ['/'] (names.map String.toList))
  (deep : names ≠ []) (segments : ∀ s ∈ names, IsSegment s)
include asked deep segments

/-- A request leads down from the root by its names, and nowhere else. -/
theorem locate_iff (l : Location) : d.locate true (r.path.join (relative request)) = .ok l ↔
    l = r ++ names ∧ (d.get? l).isSome := by
  have free := relative_isAbsolute request
  have proper := tree.isProper r (by simp [site.directory])
  have steps : (r.path.join (relative request)).steps = r ++ names := by
    rw [Path.steps, Path.endsInSlash_join (relative_text_ne asked deep segments),
      relative_endsInSlash asked deep segments, Path.names_join _ free,
      Location.path_names r proper, relative_names asked segments]
    rfl
  have start : d.startOf (r.path.join (relative request)) = [] := by
    rw [startOf, Path.isAbsolute_join (Location.path_text_ne r) free, Location.path_isAbsolute]
    rfl
  have upper := leads_names tree [] r _ site.directory Entry.isPlain_directory
  rw [locate_eq_ok_iff, start, steps]
  constructor
  · -- the way goes to the root first, and from there down by names only, as there are no links
    rintro ⟨-, -, taken⟩
    obtain ⟨links, -, leads⟩ := leads_of_trace _ _ _ _ taken
    obtain ⟨mid, m, k, first, second, -⟩ := leads.split _ r names
    obtain ⟨-, rfl⟩ := first.unique _ _ _ _ _ _ upper
    have level : ".." ∉ names := fun up => (segments _ up).not_up rfl
    have kept : names.filter (· ≠ ".") = names := by
      rw [List.filter_eq_self]
      intro s member
      simpa using (segments s member).not_here
    have down := (second.direct _ _ _ _ level fun front _ _ => site.linkless front).2
    rw [kept] at down
    obtain ⟨e, found, -⟩ := leads.plain tree _ _ _ _ ⟨_, get?_nil, Entry.isPlain_directory⟩
    exact ⟨down, by simp [found]⟩
  · rintro ⟨rfl, there⟩
    obtain ⟨e, found⟩ := Option.isSome_iff_exists.mp there
    have named : Location.IsProper names := fun name member =>
      tree.isProper _ there name (List.mem_append_right _ member)
    have clean : (relative request).hasNul = false := by
      have whole := Location.path_hasNul names named
      rw [Path.hasNul, Location.path_chars, ← asked] at whole
      simpa [Path.hasNul] using whole
    have plain : e.IsPlain := fun target same => site.linkless names target (same ▸ found)
    refine ⟨?_, Path.text_join_ne (relative_text_ne asked deep segments), ?_⟩
    · rw [Path.hasNul_join free, Location.path_hasNul r proper, clean]
      rfl
    · exact trace_of_leads _ _ _ 0 _ (leads_names tree [] _ e found plain) (Nat.zero_le _)

/-- What a request leads to is what lies below the root by its names. -/
theorem resolveWithin_eq : resolveWithin d root request =
    match d.get? (r ++ names) with
    | none => .missing
    | some .directory => .directory (Location.path (r ++ names))
    | some _ => .file (Location.path (r ++ names)) := by
  have located := site.locate_iff tree asked deep segments
  rw [resolveWithin_of_located root request site.rooted]
  cases found : d.get? (r ++ names) with
  | none =>
    cases reached : d.locate true (r.path.join (relative request)) with
    | error fault => rfl
    | ok l =>
      obtain ⟨rfl, there⟩ := (located l).mp reached
      simp [found] at there
  | some e =>
    rw [(located (r ++ names)).mpr ⟨rfl, by simp [found]⟩]
    have plain : e.IsPlain := fun target same => site.linkless names target (same ▸ found)
    have within : isWithin r.path (Location.path (r ++ names)) = true :=
      (Location.path_startsWith_iff _ r (tree.isProper _ (by simp [found]))
        (tree.isProper r (by simp [site.directory]))).mpr (List.prefix_append r names)
    have same := locate_path tree (r ++ names) e found plain
    cases e <;> simp [within, isDir, entryAt, same, found, bind, Except.bind]

end IsSite

theorem index_asked : (relative directoryIndex).text.toList =
    Text.joinWith ['/'] ([directoryIndex].map String.toList) := by decide

variable {d : Disk} {root : Path} {r : Location}

/-- Any other request than for the root itself leads to a file, or to a directory, which stands for
its index. -/
theorem lookup_of_ne {request : String} (other : request ≠ "/") : lookup d root request =
    match resolveWithin d root request with
    | .missing => .notFound
    | .file p => .file p
    | .directory dir =>
      match resolveWithin d dir directoryIndex with
      | .file p => .file p
      | _ => .forbidden := by
  unfold lookup
  rewrite [if_neg other]
  rfl

theorem respond_of_lookup (tree : d.IsTree) (l : Location) (content : ByteArray) (runnable : Bool)
    (found : d.get? l = some (.file content runnable)) (request : String)
    (looked : lookup d root request = .file l.path) :
    respond d root request = .ofFile l.path content := by
  have located := locate_path tree l _ found fun _ same => by cases same
  have read : d.readBytes l.path = .ok content :=
    (readBytes_eq_ok_iff _ _).mpr ⟨l, runnable, located, found⟩
  rw [respond, looked]
  simp only [read, Response.ofFile]

/-- A request is answered as the entry decides that it leads down to. -/
theorem IsSite.respond_eq (tree : d.IsTree) (site : IsSite d root r) {names : List String}
    (deep : names ≠ []) (segments : ∀ s ∈ names, IsSegment s)
    (plain : ∀ s ∈ names.head?, s.toList.head? ≠ some '\\') :
    respond d root (Location.path names).text = decided d (r ++ names) := by
  have other : (Location.path names).text ≠ "/" := by
    intro same
    have chars := relative_text_ne (relative_path deep segments plain) deep segments
    rw [same] at chars
    exact chars (by decide)
  have resolved := site.resolveWithin_eq tree (relative_path deep segments plain) deep segments
  have looked : lookup d root (Location.path names).text = _ := lookup_of_ne other
  rw [resolved] at looked
  unfold decided
  cases found : d.get? (r ++ names) with
  | none =>
    rw [found] at looked
    rw [respond, looked]
    rfl
  | some e =>
    rw [found] at looked
    cases e with
    | link target => exact absurd found (site.linkless names target)
    | file content runnable => exact respond_of_lookup tree _ content runnable found _ looked
    | directory =>
      -- the directory is the root that the index is looked for from
      have inner := site.below tree found
      have indexed := inner.resolveWithin_eq tree index_asked (List.cons_ne_nil _ _) (by decide)
      dsimp only at looked ⊢
      rw [indexed] at looked
      cases entry : d.get? (r ++ names ++ [directoryIndex]) with
      | none =>
        rw [entry] at looked
        rw [respond, looked]
        rfl
      | some e =>
        rw [entry] at looked
        cases e with
        | link target =>
          rw [List.append_assoc] at entry
          exact absurd entry (site.linkless _ target)
        | directory =>
          rw [respond, looked]
          rfl
        | file content runnable => exact respond_of_lookup tree _ content runnable entry _ looked

/-- A root that is not there has no files. -/
theorem respond_of_missing (tree : d.IsTree) (missing : d.isThere root = false) (request : String) :
    respond d root request = .notFound := by
  have fails : ∃ fault, d.canonical root = .error fault := by
    cases rooted : d.canonical root with
    | error fault => exact ⟨fault, rfl⟩
    | ok top =>
      obtain ⟨l, located, -⟩ := (canonical_eq_ok_iff root top).mp rooted
      obtain ⟨e, found, -⟩ := locate_plain tree root l located
      have there := (isThere_iff root).mpr ⟨l, located, by simp [found]⟩
      rw [missing] at there
      cases there
  obtain ⟨fault, gone⟩ := fails
  simp only [respond, lookup, resolveWithin, gone]
  rfl

/-- An answer of 200 sends a file that the request was resolved to. -/
theorem sent_file (formed : d.WellFormed) (request : String)
    (ok : (respond d root request).status = 200) : ∃ l content runnable,
      d.canonical l.path = .ok l.path ∧ lookup d root request = .file l.path ∧
      d.get? l = some (.file content runnable) ∧
      respond d root request = .ofFile l.path content := by
  obtain ⟨p, looked, -⟩ := respond_ok root request ok
  obtain ⟨inside, solid⟩ := lookup_inside formed root request p looked
  obtain ⟨l, located, rfl⟩ := (canonical_eq_ok_iff p p).mp inside.canonical
  obtain ⟨e, found, plain⟩ := locate_plain formed.isTree _ l located
  -- what is resolved is neither a link nor a directory
  cases e with
  | file content runnable =>
    exact ⟨l, content, runnable, inside.canonical, looked, found,
      respond_of_lookup formed.isTree l content runnable found request looked⟩
  | link target => exact absurd rfl (plain target)
  | directory =>
    have directory := (isDir_iff l.path).mpr ⟨l, located, found⟩
    rw [solid] at directory
    cases directory

theorem respond_root (d : Disk) (root : Path) :
    respond d root "/" = respond d root "/index.html" := by
  have index : "/" ++ directoryIndex = "/index.html" := by decide
  have looked : lookup d root "/" = lookup d root "/index.html" := by
    rw [lookup, lookup, if_pos rfl, if_neg (by decide), index]
  rw [respond, respond, looked]

/-- Requests below a root without links are answered as the entry decides that their names lead down
to; the root stands for its index, and a root that is not there has nothing. An answer of 200 tells
the length of what it sends, and a type that goes by the extension of the file that is sent. -/
theorem answers_decided (formed : d.WellFormed) (root : Path) :
    (∀ r, IsSite d root r → ∀ names ≠ [], (∀ s ∈ names, IsSegment s) →
      (∀ s ∈ names.head?, s.toList.head? ≠ some '\\') →
      respond d root (Location.path names).text = decided d (r ++ names)) ∧
    respond d root "/" = respond d root "/index.html" ∧
    (d.isThere root = false → ∀ request, respond d root request = .notFound) ∧
    ∀ request, (respond d root request).status = 200 → ∃ l content runnable,
      d.canonical l.path = .ok l.path ∧ lookup d root request = .file l.path ∧
      d.get? l = some (.file content runnable) ∧
      (respond d root request).body = content ∧
      (respond d root request).contentLength = (respond d root request).body.size ∧
      (respond d root request).contentType =
        typeOfExtension
          (String.ofList ((l.path.fileExtension?.getD "").toList.map Char.toLower)) := by
  refine ⟨fun r site names deep segments plain => site.respond_eq formed.isTree deep segments plain,
    respond_root d root, fun missing => respond_of_missing formed.isTree missing,
    fun request ok => ?_⟩
  obtain ⟨l, content, runnable, canonical, looked, found, answered⟩ := sent_file formed request ok
  refine ⟨l, content, runnable, canonical, looked, found, ?_⟩
  rw [answered]
  simp only [Response.ofFile, contentType, and_self]

/-- A site that is reached through a link, with a page, a directory with an index, and one
without. -/
def servedSite : Disk where
  entries :=
    [(["site"], .directory), (["site", "docs"], .directory),
      (["site", "docs", "index.html"], .file "<p>".toUTF8 false),
      (["site", "img"], .directory), (["site", "img", "logo.SVG"], .file "<svg>".toUTF8 false),
      (["www"], .link ⟨"site/."⟩)]
  workDir := []

theorem servedSite_isSite : IsSite servedSite ⟨"www"⟩ ["site"] where
  rooted := by decide
  directory := by decide
  linkless names target found := by
    rw [get?_of_ne _ (by simp)] at found
    have listed := mem_entries_of_lookup _ _ found
    simp [servedSite] at listed

/-- The image is sent as its name says, the documents by their index, and the images are not
listed. -/
theorem servedSite_decided : servedSite.WellFormed ∧ IsSite servedSite ⟨"www"⟩ ["site"] ∧
    respond servedSite ⟨"www"⟩ "/img/logo.SVG" =
      ⟨200, "image/svg+xml", 5, "<svg>".toUTF8⟩ ∧
    respond servedSite ⟨"www"⟩ "/docs" = ⟨200, "text/html", 3, "<p>".toUTF8⟩ ∧
    respond servedSite ⟨"www"⟩ "/img" = .forbidden ∧
    servedSite.isThere ⟨"gone"⟩ = false ∧ respond servedSite ⟨"gone"⟩ "/docs" = .notFound ∧
    (respond servedSite ⟨"www"⟩ "/docs").status = 200 ∧
    ∃ l content runnable, lookup servedSite ⟨"www"⟩ "/docs" = .file l.path ∧
      servedSite.get? l = some (.file content runnable) ∧
      (respond servedSite ⟨"www"⟩ "/docs").body = content := by
  have formed : servedSite.WellFormed := by decide
  have missing : servedSite.isThere ⟨"gone"⟩ = false := by decide
  obtain ⟨down, -, gone, -⟩ := answers_decided formed ⟨"gone"⟩
  obtain ⟨down, -, -, sent⟩ := answers_decided formed ⟨"www"⟩
  have answered (names : List String) (deep : names ≠ [])
      (proper : ∀ s ∈ names, IsSegment s ∧ s.toList.head? ≠ some '\\') :
      respond servedSite ⟨"www"⟩ (Location.path names).text =
        decided servedSite (["site"] ++ names) :=
    down _ servedSite_isSite names deep (fun s listed => (proper s listed).1) fun s first =>
      (proper s (List.mem_of_mem_head? first)).2
  have image := answered ["img", "logo.SVG"] (List.cons_ne_nil _ _) (by decide)
  have documents := answered ["docs"] (List.cons_ne_nil _ _) (by decide)
  have images := answered ["img"] (List.cons_ne_nil _ _) (by decide)
  have index : respond servedSite ⟨"www"⟩ "/docs" = ⟨200, "text/html", 3, "<p>".toUTF8⟩ :=
    documents.trans (by decide +kernel)
  have ok : (respond servedSite ⟨"www"⟩ "/docs").status = 200 := by rw [index]
  obtain ⟨l, content, runnable, -, looked, found, body, -⟩ := sent "/docs" ok
  exact ⟨formed, servedSite_isSite, image.trans (by decide +kernel), index,
    images.trans (by decide +kernel), missing, gone missing "/docs", ok, l, content, runnable,
    looked, found, body⟩

end Workbench.Serve
