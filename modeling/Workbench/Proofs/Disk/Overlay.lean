import Workbench.Proofs.Disk.Copy

/-! A copy into a directory that may have entries already. What the source has is laid over them:
directories are kept or made, files take the place of files, and what the source does not have, or
is told to skip, stays as it was. -/
namespace Workbench.Disk

variable {d d' : Disk} {source target : Path} {a o : Location} {skip : Option String}

/-- Nothing at or below a location is a link. -/
def IsLinklessAt (d : Disk) (l : Location) : Prop :=
  ∀ rest target, d.get? (l ++ rest) ≠ some (.link target)

/-- Whether an entry is a file that is not to be skipped. -/
def isTaken (skip : Option String) (l : Location) (e : Entry) : Bool :=
  e.isFile && decide (skip ≠ l.getLast?)

/-- At first nothing is laid over a directory. -/
theorem overlaid_self (storable : d.IsStorable) (located : d.locate true target = .ok o)
    (directory : d.get? o = some .directory) (linkless : d.IsLinklessAt o) :
    Overlaid target o d d where
  storable := storable
  same _ _ := rfl
  linkless rest _ := linkless rest
  workDir := rfl
  part := .refl d
  located := located
  directory := directory

/-- Two tests count the same below a location if they agree on what is there. -/
theorem countBelow_congr (tree : d.IsTree) (test test' : Location → Entry → Bool) (l : Location)
    (same : ∀ rest e, d.get? (l ++ rest) = some e → test (l ++ rest) e = test' (l ++ rest) e) :
    d.countBelow test l = d.countBelow test' l := by
  apply List.countP_congr
  rintro ⟨k, e⟩ listed
  simp only [Bool.and_eq_true, decide_eq_true_eq]
  apply and_congr_right
  rintro ⟨⟨rest, rfl⟩, -⟩
  have found : d.get? (l ++ rest) = some e := by
    rw [get?_of_ne _ fun empty => tree.no_root (empty ▸ List.mem_map_of_mem listed)]
    exact lookup_of_mem_entries tree.keys_nodup _ e listed
  rw [same rest e found]

section

variable (storable : d.IsStorable) (located : d.locate true source = .ok a)
include storable located

/-- Without links the entries of a source lead to themselves. -/
theorem readsOutside_of_apart (linkless : d.IsLinklessAt a) (apart : Apart a o) :
    d.ReadsOutside source a o := by
  intro names l content runnable there leads _ rest _
  obtain ⟨e, found⟩ := Option.isSome_iff_exists.mp there
  have direct := locate_under storable.toIsTree located names e found fun target same =>
    linkless names target (same ▸ found)
  rw [direct] at leads
  cases leads
  exact apart.ne a o names rest

/-- A file of a source is copied as it is. -/
theorem eq_of_isCopy (names : Location) (content : ByteArray) (runnable : Bool) (e : Entry)
    (found : d.get? (a ++ names) = some (.file content runnable))
    (copy : d.IsCopy (source.under names) (.file content runnable) e) :
    e = .file content runnable := by
  have direct := locate_under storable.toIsTree located names _ found fun target same => by
    cases same
  exact copy.2 content runnable ((entryAt_eq_ok_iff _ _).mpr ⟨_, direct, found⟩)

end

namespace Laid

variable {base : Disk} (laid : Laid base skip source a o (· ≠ []) d d')
include laid

/-- Each directory of the source is one in the target. -/
theorem get?_of_directory (above : d.get? o = some .directory) (names : Location)
    (found : base.get? (a ++ names) = some .directory) : d'.get? (o ++ names) = some .directory := by
  by_cases top : names = []
  · rw [top, List.append_nil, laid.outside o fun names nonempty => by simpa using nonempty, above]
  · have asset : base.asset? skip a names = some .directory := by simp [asset?, found]
    have lays := laid.inside names top
    rw [Lays, asset] at lays
    obtain ⟨e, there, rfl, -⟩ := lays
    exact there

theorem get?_of_asset?_eq_none (names : Location) (nonempty : names ≠ [])
    (absent : base.asset? skip a names = none) : d'.get? (o ++ names) = d.get? (o ++ names) := by
  have lays := laid.inside names nonempty
  rwa [Lays, absent] at lays

/-- What is at no place of a copied entry is as it was. -/
theorem get?_eq (l : Location) (apart : ∀ names e, names ≠ [] → base.get? (a ++ names) = some e →
    e = .directory ∨ skip ≠ names.getLast? → l ≠ o ++ names) : d'.get? l = d.get? l := by
  by_cases below : ∃ names, names ≠ [] ∧ l = o ++ names
  · obtain ⟨names, nonempty, rfl⟩ := below
    apply laid.get?_of_asset?_eq_none names nonempty
    cases found : base.get? (a ++ names) with
    | none => simp [asset?, found]
    | some e =>
      have skipped : e ≠ .directory ∧ skip = names.getLast? := by
        by_contra taken
        exact apart names e nonempty found (by tauto) rfl
      simp [asset?, found, skipped]
  · exact laid.outside l fun names nonempty same => below ⟨names, nonempty, same⟩

end Laid

/-- A tree that is copied to a directory apart from it, both without links, is laid over what is
there. Each directory is found at its place below the target. So is each file that is not called by
the name to skip, with its content; a file that is called so leaves its place as it was. Whatever
else there is below the target and elsewhere is as it was, the source too, and the number is that of
the files that were copied. -/
theorem copyTree_overlays (storable : d.IsStorable) (located : d.locate true source = .ok a)
    (directory : d.get? a = some .directory) (linkless : d.IsLinklessAt a)
    (located' : d.locate true target = .ok o) (directory' : d.get? o = some .directory)
    (linkless' : d.IsLinklessAt o) (apart : Apart a o) (n : Nat)
    (copied : copyTree source target skip d = (.ok n, d')) :
    (∀ names, d.get? (a ++ names) = some .directory →
      d'.get? (o ++ names) = some .directory) ∧
    (∀ names content runnable, d.get? (a ++ names) = some (.file content runnable) →
      skip ≠ names.getLast? → d'.get? (o ++ names) = some (.file content runnable)) ∧
    (∀ names content runnable, d.get? (a ++ names) = some (.file content runnable) →
      skip = names.getLast? → d'.get? (o ++ names) = d.get? (o ++ names)) ∧
    (∀ l, (∀ names e, names ≠ [] → d.get? (a ++ names) = some e →
        e = .directory ∨ skip ≠ names.getLast? → l ≠ o ++ names) → d'.get? l = d.get? l) ∧
    (∀ names, d'.get? (a ++ names) = d.get? (a ++ names)) ∧
    n = d.countBelow (isTaken skip) a := by
  have overlaid := overlaid_self storable located' directory' linkless'
  have reads := readsOutside_of_apart storable located linkless apart
  obtain ⟨laid, count⟩ := overlaid.copyTree_laid reads storable apart located directory d d' n copied
  have some_of_file (names : Location) (content : ByteArray) (runnable : Bool)
      (found : d.get? (a ++ names) = some (.file content runnable)) : names ≠ [] := by
    rintro rfl
    rw [List.append_nil, directory] at found
    cases found
  refine ⟨laid.get?_of_directory directory', ?_, ?_, laid.get?_eq, ?_, ?_⟩
  · intro names content runnable found kept
    have asset : d.asset? skip a names = some (.file content runnable) := by
      simp [asset?, found, kept]
    have lays := laid.inside names (some_of_file names content runnable found)
    rw [Lays, asset] at lays
    obtain ⟨e, there, copy, -⟩ := lays
    rw [there, eq_of_isCopy storable located names content runnable e found copy]
  · intro names content runnable found skipped
    apply laid.get?_of_asset?_eq_none names (some_of_file names content runnable found)
    simp [asset?, found, skipped]
  · intro names
    exact laid.outside _ fun rest _ => apart.ne a o names rest
  · -- without links, what is no directory is a file
    rw [count]
    apply countBelow_congr storable.toIsTree
    intro rest e found
    cases e with
    | link target => exact absurd found (linkless rest target)
    | file | directory => simp [isCounted, isTaken, Entry.isFile]

/-- A directory to copy, and one that has some of its names already. -/
def stocked : Disk where
  entries :=
    [(["s"], .directory), (["s", "a.txt"], .file "new".toUTF8 false), (["s", "b"], .directory),
      (["s", "b", "own"], .file "x".toUTF8 false), (["s", "own"], .directory),
      (["s", "own", "d.txt"], .file "d".toUTF8 true), (["t"], .directory),
      (["t", "z.txt"], .file "z".toUTF8 false), (["t", "a.txt"], .file "old".toUTF8 false),
      (["t", "b"], .directory), (["t", "b", "own"], .file "kept".toUTF8 false)]
  workDir := ["t"]

/-- The name to skip keeps a file from being copied, and no directory. -/
theorem stocked_overlaid : ∃ d', copyTree ⟨"../s"⟩ ⟨"b/.."⟩ (some "own") stocked = (.ok 2, d') ∧
    d'.get? ["t", "a.txt"] = some (.file "new".toUTF8 false) ∧
    d'.get? ["t", "b", "own"] = some (.file "kept".toUTF8 false) ∧
    d'.get? ["t", "own", "d.txt"] = some (.file "d".toUTF8 true) ∧
    d'.get? ["t", "z.txt"] = some (.file "z".toUTF8 false) := by
  have linkless (l : Location) : stocked.IsLinklessAt l := fun rest =>
    get?_ne_link (by simp [stocked]) (l ++ rest)
  have source : stocked.locate true ⟨"../s"⟩ = .ok ["s"] := by decide +kernel
  have listed : stocked.snapshot ["s"] = [("a.txt", .file "new".toUTF8 false), ("b", .directory),
      ("own", .directory)] := by
    have sorted : sortNames (stocked.namesAt ["s"]) = ["a.txt", "b", "own"] :=
      List.mergeSort_of_pairwise (by decide)
    rw [snapshot, sorted]
    decide
  have ok : (copyTree ⟨"../s"⟩ ⟨"b/.."⟩ (some "own") stocked).1 = .ok 2 := by
    rw [copyTree_eq_copyListed source (by decide), listed, copyListed_eq_copyEach,
      copyInto_eq_copyDeep]
    decide +kernel
  have target : stocked.locate true ⟨"b/.."⟩ = .ok ["t"] := by decide +kernel
  have copied : copyTree ⟨"../s"⟩ ⟨"b/.."⟩ (some "own") stocked =
      (.ok 2, (copyTree ⟨"../s"⟩ ⟨"b/.."⟩ (some "own") stocked).2) := Prod.ext ok rfl
  obtain ⟨-, files, skipped, others, -⟩ := copyTree_overlays (.of_listed (by decide) (by decide))
    source (by decide) (linkless _) target (by decide) (linkless _) ⟨by decide, by decide⟩ 2 copied
  refine ⟨_, copied, ?_, ?_, ?_, ?_⟩
  · exact files ["a.txt"] _ _ (by decide) (by decide)
  · exact (skipped ["b", "own"] "x".toUTF8 false (by decide) rfl).trans (by decide)
  · exact files ["own", "d.txt"] _ _ (by decide) (by decide)
  · refine (others ["t", "z.txt"] ?_).trans (by decide)
    rintro names e - found - same
    obtain rfl : names = ["z.txt"] := (List.cons.inj same).2.symm
    have absent : stocked.get? (["s"] ++ ["z.txt"]) = none := by decide
    rw [absent] at found
    cases found

end Workbench.Disk
