import Workbench.Proofs.Bundle.Output
import Workbench.Proofs.Serve.Decision
import Workbench.Text.Numeral

/-! Names that travel through a request percent-encoded. Nothing decodes them: a request asks for the
entry that is called as the encoding is written. A file is sent if all characters of its names are such
that they stand for themselves. -/
namespace Workbench.Serve

open Disk

/-- The characters that may stand in a segment of a path for themselves. -/
def isPathChar (c : Char) : Bool :=
  c.isAlphanum || ['-', '.', '_', '~', '!', '$', '&', '\'', '(', ')', '*', '+', ',', ';', '=', ':',
    '@'].contains c

def hexDigit (n : Nat) : Char := (Text.digitChar n).toUpper

def encodeByte (b : UInt8) : List Char :=
  ['%', hexDigit (b.toNat / 16), hexDigit (b.toNat % 16)]

/-- There is neither a host in front of a target that begins with a slash, nor, if it has no such
sign, a query behind it. -/
theorem Request.path_of_slash (method target : String) (head : target.toList.head? = some '/')
    (whole : ∀ c ∈ target.toList, c ≠ '?' ∧ c ≠ '#') : Request.path ⟨method, target⟩ = target := by
  have taken : (target.toList.takeWhile fun c => c != '?' && c != '#') = target.toList :=
    List.takeWhile_eq_self_iff.mpr fun c member => by simpa using whole c member
  have nonempty : target.toList ≠ [] := by
    intro empty
    rw [empty] at head
    cases head
  unfold Request.path
  dsimp only
  cases Text.cutAt? "://".toList target.toList with
  | none => simp only [taken, if_neg nonempty, String.ofList_toList]
  | some cut => simp only [head, if_true, taken, if_neg nonempty, String.ofList_toList]

variable (keep : Char → Bool)

def encodeChar (c : Char) : List Char :=
  if keep c then [c] else (String.utf8EncodeChar c).flatMap encodeByte

/-- A name with every character encoded that is not kept: by its bytes, each behind a percent
sign. -/
def encode (name : String) : String := String.ofList (name.toList.flatMap (encodeChar keep))

/-- The path of a request for what some names lead to: the encoded names, with slashes between. -/
def encodedPath (names : List String) : String := (Location.path (names.map (encode keep))).text

theorem isPathChar_hexDigit (n : Nat) (small : n < 16) : isPathChar (hexDigit n) = true := by
  have all : ∀ n < 16, isPathChar (hexDigit n) = true := by decide
  exact all n small

theorem encodeChar_of_not_kept (c : Char) (lost : keep c = false) :
    '%' ∈ encodeChar keep c := by
  have nonempty : String.utf8EncodeChar c ≠ [] := by
    rw [← List.length_pos_iff, String.length_utf8EncodeChar]
    exact c.utf8Size_pos
  obtain ⟨b, rest, bytes⟩ := List.exists_cons_of_ne_nil nonempty
  simp [encodeChar, lost, bytes, encodeByte]

/-- A name of which everything is kept is its own encoding. -/
theorem encode_of_kept (name : String) (kept : ∀ c ∈ name.toList, keep c = true) :
    encode keep name = name := by
  have same (cs : List Char) (kept : ∀ c ∈ cs, keep c = true) :
      cs.flatMap (encodeChar keep) = cs := by
    induction cs with
    | nil => rfl
    | cons c rest ih =>
      rw [List.flatMap_cons, ih fun c' member => kept c' (List.mem_cons_of_mem _ member),
        encodeChar, if_pos (kept c List.mem_cons_self)]
      rfl
  rw [encode, same _ kept, String.ofList_toList]

/-- An encoding without a percent sign is the name itself. -/
theorem encode_of_no_percent (name : String) (plain : '%' ∉ (encode keep name).toList) :
    encode keep name = name := by
  apply encode_of_kept
  intro c member
  by_contra lost
  apply plain
  rw [encode, String.toList_ofList, List.mem_flatMap]
  exact ⟨c, member, encodeChar_of_not_kept keep c (by simpa using lost)⟩

section

variable (kept : ∀ c, keep c = true → isPathChar c = true)
include kept

theorem isPathChar_of_mem_encode (name : String) (c : Char) (member : c ∈ (encode keep name).toList) :
    isPathChar c = true ∨ c = '%' := by
  rw [encode, String.toList_ofList, List.mem_flatMap] at member
  obtain ⟨origin, -, member⟩ := member
  unfold encodeChar at member
  split at member
  next same =>
    rw [List.mem_singleton.mp member]
    exact .inl (kept origin same)
  next =>
    obtain ⟨b, -, member⟩ := List.mem_flatMap.mp member
    have small : b.toNat < 256 := b.toNat_lt
    simp only [encodeByte, List.mem_cons, List.not_mem_nil, or_false] at member
    rcases member with rfl | rfl | rfl
    · exact .inr rfl
    · exact .inl (isPathChar_hexDigit _ (by omega))
    · exact .inl (isPathChar_hexDigit _ (by omega))

/-- No character that has a meaning in a request is left in an encoding. -/
theorem notMem_encode (name : String) (c : Char) (meaning : c ∈ ['/', '\\', '?', '#']) :
    c ∉ (encode keep name).toList := by
  intro member
  have foreign : ['/', '\\', '?', '#'].all (fun c => !isPathChar c && c != '%') = true := by decide
  obtain ⟨outside, other⟩ : isPathChar c = false ∧ c ≠ '%' := by
    simpa using List.all_eq_true.mp foreign c meaning
  rcases isPathChar_of_mem_encode keep kept name c member with inside | same
  · simp [outside] at inside
  · exact other same

theorem isSegment_encode (name : String) (named : IsName name) : IsSegment (encode keep name) := by
  -- the dots that are no names have no percent sign in them
  have apart (dots : String) (proper : name ≠ dots) (plain : '%' ∉ dots.toList) :
      encode keep name ≠ dots := by
    intro same
    have own := encode_of_no_percent keep name (by rwa [same])
    exact proper (own.symm.trans same)
  constructor
  · exact apart "" named.nonempty (by decide)
  · exact apart "." named.not_here (by decide)
  · exact apart ".." named.not_up (by decide)
  · exact notMem_encode keep kept name '/' (by decide)

theorem segments_encode (names : Location) (proper : names.IsProper) :
    ∀ s ∈ names.map (encode keep), IsSegment s := by
  intro s listed
  obtain ⟨name, member, rfl⟩ := List.mem_map.mp listed
  exact isSegment_encode keep kept name (proper name member)

/-- A request that is written with an encoded path asks for that path. -/
theorem path_encoded (method : String) (names : List String) :
    Request.path ⟨method, encodedPath keep names⟩ = encodedPath keep names := by
  have chars : (encodedPath keep names).toList =
      '/' :: Text.joinWith ['/'] ((names.map (encode keep)).map String.toList) :=
    Location.path_chars _
  apply Request.path_of_slash
  · rw [chars]
    rfl
  · intro c member
    rw [chars] at member
    rcases List.mem_cons.mp member with rfl | inside
    · decide
    · rcases Text.mem_joinWith '/' c _ inside with rfl | ⟨piece, listed, there⟩
      · decide
      · obtain ⟨s, encoded, rfl⟩ := List.mem_map.mp listed
        obtain ⟨name, -, rfl⟩ := List.mem_map.mp encoded
        constructor
        · rintro rfl
          exact notMem_encode keep kept name '?' (by decide) there
        · rintro rfl
          exact notMem_encode keep kept name '#' (by decide) there

variable {d : Disk} {root : Path} {r : Location} (tree : d.IsTree) (site : IsSite d root r)
  {names : List String}
include tree site

/-- A request for a file by its encoded path is answered as the entry decides that is called as the
encoding is written. -/
theorem IsSite.answer_encoded (there : (d.get? (r ++ names)).isSome) (deep : names ≠ [])
    (request : Request) (full : request.method ≠ "HEAD")
    (asked : request.path = encodedPath keep names) :
    answer d root request = decided d (r ++ names.map (encode keep)) := by
  have proper : Location.IsProper names := fun name member =>
    tree.isProper _ there name (List.mem_append_right _ member)
  have plain : ∀ s ∈ (names.map (encode keep)).head?, s.toList.head? ≠ some '\\' := by
    intro s first backslash
    obtain ⟨name, -, rfl⟩ := List.mem_map.mp (List.mem_of_mem_head? first)
    exact notMem_encode keep kept name '\\' (by decide) (List.mem_of_mem_head? backslash)
  rw [answer, if_neg full, asked]
  exact site.respond_eq tree (by simpa using deep) (segments_encode keep kept names proper) plain

/-- A file whose names stand for themselves is sent. -/
theorem IsSite.answer_kept (content : ByteArray) (runnable : Bool)
    (found : d.get? (r ++ names) = some (.file content runnable))
    (self : ∀ name ∈ names, ∀ c ∈ name.toList, keep c = true) (request : Request)
    (full : request.method ≠ "HEAD") (asked : request.path = encodedPath keep names) :
    answer d root request = .ofFile (Location.path (r ++ names)) content := by
  have deep : names ≠ [] := by
    rintro rfl
    rw [List.append_nil, site.directory] at found
    cases found
  have same : names.map (encode keep) = names := by
    conv_rhs => rw [← List.map_id names]
    exact List.map_congr_left fun name member => encode_of_kept keep name (self name member)
  rw [site.answer_encoded keep kept tree (by simp [found]) deep request full asked, same, decided,
    found]

end

open Workbench.Bundle

section

variable {d d' : Disk} {job : Job}

/-- What a build leaves is a site, in which the public files are. -/
theorem isSite_of_run (storable : d.IsStorable) (report : Report)
    (ran : job.run d = (.ok report, d')) (nonempty : job.out.text ≠ "") (steady : job.IsSteady d)
    (disjoint : job.IsDisjoint (job.recreateOut d).2) :
    d'.IsTree ∧ ∃ o, IsSite d' job.out o ∧ ∀ names ≠ [], ∀ e,
      job.asset? (job.recreateOut d).2 names = some e → e ≠ .directory →
        ∃ content runnable, d'.get? (o ++ names) = some (.file content runnable) ∧
          ∀ content' runnable',
            (job.recreateOut d).2.entryAt (job.assets.under names) = .ok (.file content' runnable') →
              content' = content := by
  have cleared := job.recreateOut_storable storable
  obtain ⟨o, clear⟩ := job.isClear_of_run storable report ran nonempty steady disjoint
  obtain ⟨_, _, _, _, _, -, -, -, -, filled, leaves, -⟩ := Job.output_of_run storable report ran clear
  have directory := filled.directory clear.fresh
  have site : IsSite d' job.out o := by
    constructor
    · exact filled.located cleared clear.fresh
    · exact directory
    · intro names target
      by_cases empty : names = []
      · simp [empty, directory]
      · exact filled.linkless names empty target
  refine ⟨filled.storable.toIsTree, o, site, ?_⟩
  intro names named e taken solid
  have left := (leaves names named).1
  cases e with
  | directory => exact absurd rfl solid
  | link target =>
    rw [Job.Leaves, taken] at left
    obtain ⟨content, runnable, after, led⟩ := left
    exact ⟨content, runnable, after, fun content' runnable' read => (led content' runnable' read).1⟩
  | file content runnable =>
    refine ⟨content, runnable, left.of_file content runnable taken, ?_⟩
    intro content' runnable' read
    -- the path of a public file leads to the file itself
    cases located : (job.recreateOut d).2.locate true job.assets with
    | error fault => simp [Job.asset?, located] at taken
    | ok a =>
      rw [Job.asset?_of_located a names located] at taken
      have there := Job.get?_of_asset? a names _ taken
      have own : (job.recreateOut d).2.entryAt (job.assets.under names) =
          .ok (.file content runnable) :=
        (entryAt_eq_ok_iff _ _).mpr ⟨_, locate_under cleared.toIsTree located names _ there
          (fun _ same => by cases same), there⟩
      rw [read] at own
      cases own
      rfl

end

/-- No request is decoded. A file of a site is sent for its encoded path if its names hold only
characters that are kept, and otherwise the entry decides that is called as the encoding is written.
So a build's public files are sent that are called so. -/
theorem answers_undecoded (keep : Char → Bool)
    (kept : ∀ c, keep c = true → isPathChar c = true) :
    (∀ method names, Request.path ⟨method, encodedPath keep names⟩ = encodedPath keep names) ∧
    (∀ (d : Disk) (root : Path) (r : Location) (names : List String) (content : ByteArray)
        (runnable : Bool), d.IsTree → IsSite d root r →
      d.get? (r ++ names) = some (.file content runnable) →
      ∀ request : Request, request.method ≠ "HEAD" → request.path = encodedPath keep names →
        answer d root request = decided d (r ++ names.map (encode keep)) ∧
          ((∀ name ∈ names, ∀ c ∈ name.toList, keep c = true) →
            answer d root request = .ofFile (Location.path (r ++ names)) content)) ∧
    ∀ (d d' : Disk) (job : Job) (report : Report), d.IsStorable →
      job.run d = (.ok report, d') → job.out.text ≠ "" → job.IsSteady d →
      job.IsDisjoint (job.recreateOut d).2 → ∀ names ≠ [], ∀ e,
      job.asset? (job.recreateOut d).2 names = some e → e ≠ .directory →
      (∀ name ∈ names, ∀ c ∈ name.toList, keep c = true) →
        ∃ o content,
          (∀ content' runnable',
            (job.recreateOut d).2.entryAt (job.assets.under names) = .ok (.file content' runnable') →
              content' = content) ∧
          ∀ request : Request, request.method ≠ "HEAD" → request.path = encodedPath keep names →
            answer d' job.out request = .ofFile (Location.path (o ++ names)) content := by
  refine ⟨path_encoded keep kept, ?_, ?_⟩
  · intro d root r names content runnable tree site found request full asked
    have deep : names ≠ [] := by
      rintro rfl
      rw [List.append_nil, site.directory] at found
      cases found
    exact ⟨site.answer_encoded keep kept tree (by simp [found]) deep request full asked,
      fun self => site.answer_kept keep kept tree content runnable found self request full asked⟩
  · intro d d' job report storable ran nonempty steady disjoint names named e taken solid self
    obtain ⟨tree, o, site, copied⟩ := isSite_of_run storable report ran nonempty steady disjoint
    obtain ⟨content, runnable, found, read⟩ := copied names named e taken solid
    exact ⟨o, content, read, fun request full asked =>
      site.answer_kept keep kept tree content runnable found self request full asked⟩

/-- The image of a site is sent, and the public file of a project that was built. -/
theorem answers_undecoded_plain :
    (∀ c, isPathChar c = true → isPathChar c = true) ∧
    (servedSite.IsTree ∧ IsSite servedSite ⟨"www"⟩ ["site"] ∧
      answer servedSite ⟨"www"⟩ ⟨"GET", "/img/logo.SVG"⟩ =
        .ofFile (Location.path (["site"] ++ ["img", "logo.SVG"])) "<svg>".toUTF8) ∧
    ∃ report o content,
      (Job.inside "dist").run (Job.withPublic "note.txt" "hi") =
        (.ok report, ((Job.inside "dist").run (Job.withPublic "note.txt" "hi")).2) ∧
      answer ((Job.inside "dist").run (Job.withPublic "note.txt" "hi")).2 (Job.inside "dist").out
          ⟨"GET", "/note.txt"⟩ = .ofFile (Location.path (o ++ ["note.txt"])) content := by
  have formed : servedSite.WellFormed := by decide
  have kept (c : Char) (char : isPathChar c = true) : isPathChar c = true := char
  have plain (names : List String) (all : names.all (·.toList.all isPathChar) = true) :
      ∀ name ∈ names, ∀ c ∈ name.toList, isPathChar c = true := fun name listed =>
    List.all_eq_true.mp (List.all_eq_true.mp all name listed)
  obtain ⟨path, sites, builds⟩ := answers_undecoded isPathChar kept
  have image : encodedPath isPathChar ["img", "logo.SVG"] = "/img/logo.SVG" := by decide
  have note : encodedPath isPathChar ["note.txt"] = "/note.txt" := by decide
  obtain ⟨-, report, ran⟩ := Job.withPublic_built
  obtain ⟨-, -, -, taken, -⟩ := Job.withPublic_cleared
  obtain ⟨nonempty, steady⟩ := Job.inside_steady
  obtain ⟨o, content, -, answered⟩ := builds _ _ (Job.inside "dist") report
    Job.withPublic_storable ran nonempty steady Job.withPublic_disjoint ["note.txt"] (by simp) _
    taken (by simp) (plain _ (by decide))
  refine ⟨kept, ⟨formed.isTree, servedSite_isSite, ?_⟩, report, o, content, ran, ?_⟩
  · have found : servedSite.get? (["site"] ++ ["img", "logo.SVG"]) =
        some (.file "<svg>".toUTF8 false) := by decide
    refine (sites servedSite _ _ _ _ _ formed.isTree servedSite_isSite found ⟨"GET", _⟩ (by decide)
      ?_).2 (plain _ (by decide))
    rw [← image]
    exact path "GET" _
  · apply answered
    · decide
    · rw [← note]
      exact path "GET" _

/-- A site with a file that has a space in its name. -/
def spaced : Disk where
  entries := [(["s"], .directory), (["s", "a b.txt"], .file "hi".toUTF8 false)]
  workDir := []

/-- The file is there, and not found. -/
theorem space_not_found : spaced.WellFormed ∧ IsSite spaced ⟨"/s"⟩ ["s"] ∧
    spaced.get? (["s"] ++ ["a b.txt"]) = some (.file "hi".toUTF8 false) ∧
    Request.path ⟨"GET", "/a%20b.txt"⟩ = encodedPath isPathChar ["a b.txt"] ∧
    answer spaced ⟨"/s"⟩ ⟨"GET", "/a%20b.txt"⟩ = .notFound := by
  refine ⟨by decide, ⟨by decide, by decide, ?_⟩, by decide, by decide, by decide +kernel⟩
  intro names target found
  rw [get?_of_ne _ (by simp)] at found
  have listed := mem_entries_of_lookup _ _ found
  simp [spaced] at listed

end Workbench.Serve
