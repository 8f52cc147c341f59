import Workbench.Config.Store
import Workbench.Proofs.Config.Document
import Workbench.Proofs.Disk.Swap

/-! A configuration that was saved is loaded as it was, and saving it once more changes nothing. -/
namespace Workbench

namespace Disk

variable {d d' : Disk} {p : Path} {l : Location}

theorem putIn_of_lookup (l : Location) (e : Entry) (entries : List (Location × Entry))
    (found : entries.lookup l = some e) : putIn l e entries = entries := by
  induction entries with
  | nil => cases found
  | cons listed rest ih =>
    obtain ⟨k, old⟩ := listed
    rw [List.lookup_cons] at found
    by_cases same : k = l
    · subst same
      simp only [beq_self_eq_true, Option.some.injEq] at found
      simp [putIn, found]
    · rw [beq_false_of_ne (Ne.symm same)] at found
      simp [putIn, same, ih found]

/-- Putting an entry where it is changes nothing. -/
theorem put_of_get? (e : Entry) (below : l ≠ []) (found : d.get? l = some e) : d.put l e = d := by
  rw [get?_of_ne l below] at found
  simp [put, putIn_of_lookup l e d.entries found]

theorem readBytes_writeBytes (bytes : ByteArray) (wrote : d.writeBytes p bytes = .ok d') :
    d'.readBytes p = .ok bytes := by
  obtain ⟨l, written, runnable, file, -⟩ := writeBytes_eq_ok bytes wrote
  exact (readBytes_eq_ok_iff p bytes).mpr ⟨l, runnable, written.located, file⟩

/-- Writing the same once more changes nothing. -/
theorem writeBytes_writeBytes (bytes : ByteArray) (level : p.endsInSlash = false)
    (wrote : d.writeBytes p bytes = .ok d') : d'.writeBytes p bytes = .ok d' := by
  obtain ⟨l, written, runnable, file, -⟩ := writeBytes_eq_ok bytes wrote
  have below : l ≠ [] := ne_nil_of_get? _ file (by simp)
  -- what was written is found again, and is emptied first
  have taken : d'.spot true p = .ok (.taken l) := by
    have located := written.located
    unfold locate at located
    cases spotted : d'.spot true p with
    | error fault => simp [spotted, bind, Except.bind] at located
    | ok spot =>
      cases spot with
      | free dir name => simp [spotted, bind, Except.bind] at located
      | taken there => simpa [spotted, bind, Except.bind] using located
  have emptied : (d'.put l (.file .empty runnable)).get? l = some (.file .empty runnable) := by
    rw [get?_put _ _ below, if_pos rfl]
  simp [writeBytes, openForWriting, level, taken, file, appendAt, emptied, bind, Except.bind, pure,
    Except.pure, put_put, put_of_get? _ below file]

/-- A path that leads to a file names an entry of a directory. -/
theorem parentSpot_of_located (front : List String) (name : String)
    (names : p.names = front ++ [name]) (proper : IsStep name)
    (located : d.locate true p = .ok l) : ∃ dir, d.parentSpot p = .ok (dir, some name) := by
  obtain ⟨clean, nonempty, links, within, leads⟩ := leads_of_locate located
  rw [names] at leads
  obtain ⟨dir, m, k, above, below, rfl⟩ := leads.split _ front [name]
  exact ⟨dir, (parentSpot_eq_ok_iff dir name).mpr ⟨clean, nonempty, below.directory_of_cons, proper,
    front, names, m, by omega, above⟩⟩

end Disk

namespace Config

variable {home : Option String} {d d' : Disk} {file : Path}

theorem userFile?_eq_some (found : userFile? home = some file) :
    file.endsInSlash = false ∧ ∃ front, file.names = front ++ ["config.toml"] := by
  obtain ⟨dir, rfl, rfl⟩ := Option.map_eq_some_iff.mp found
  have names := Path.names_join ⟨dir⟩ (q := ⟨".config/bento/config.toml"⟩) (by decide)
  have last : Path.names ⟨".config/bento/config.toml"⟩ =
      [".config", "bento"] ++ ["config.toml"] := by decide
  rw [last, ← List.append_assoc] at names
  exact ⟨(Path.endsInSlash_join (by decide)).trans (by decide), _, names⟩

theorem isStep_fileName : Disk.IsStep "config.toml" := ⟨by decide, by decide, by decide⟩

theorem save_eq_ok_iff (c : Config) (found : userFile? home = some file) (dir : Path)
    (above : file.parent? = some dir) : c.save home d = (.ok (), d') ↔
      ∃ mid, Disk.makeDirs dir d = (.ok (), mid) ∧
        mid.writeBytes file c.render.toUTF8 = .ok d' := by
  simp only [save, found, above]
  rw [bind_eq_ok_iff]
  simp only [Task.mapError_eq_ok_iff, Task.change_eq_ok_iff]
  constructor
  · rintro ⟨⟨⟩, mid, made, wrote⟩
    exact ⟨mid, made, wrote⟩
  · rintro ⟨mid, made, wrote⟩
    exact ⟨(), mid, made, wrote⟩

/-- What is loaded is the user's own configuration, where there is one. -/
theorem load_of_text (c : Config) (found : userFile? home = some file)
    (written : d.readBytes file = .ok c.render.toUTF8) : load d home = .ok c := by
  have text := (Disk.readText_eq_ok_iff file c.render).mpr written
  have there : d.isThere file = true := by
    obtain ⟨l, runnable, located, content⟩ := (Disk.readBytes_eq_ok_iff file _).mp written
    exact (Disk.isThere_iff file).mpr ⟨l, located, by rw [content]; rfl⟩
  rw [load, found]
  simp [there, text, Except.mapError, c.parse_render, bind, Except.bind]

/-- The user's file holds the text of a configuration that was saved without a fault. As long as it
does, the configuration is what is loaded, and saving it once more leaves the disk as it is. -/
theorem saved_is_loaded (c : Config) (home : Option String) (d d' : Disk)
    (saved : c.save home d = (.ok (), d')) :
    load d' home = .ok c ∧ c.save home d' = (.ok (), d') ∧
      ∃ file, userFile? home = some file ∧ d'.readBytes file = .ok c.render.toUTF8 ∧
        ∀ later : Disk, later.readBytes file = d'.readBytes file → load later home = .ok c := by
  cases found : userFile? home with
  | none =>
    -- without a home directory nothing is saved
    simp only [save, found] at saved
    cases saved
  | some file =>
    obtain ⟨level, front, names⟩ := userFile?_eq_some found
    obtain ⟨parent, -, above, -⟩ := Path.exists_parent names isStep_fileName.1 isStep_fileName.2.1
    obtain ⟨mid, made, wrote⟩ := (c.save_eq_ok_iff found parent above).mp saved
    have written := Disk.readBytes_writeBytes _ wrote
    have again : c.save home d' = (.ok (), d') := by
      refine (c.save_eq_ok_iff found parent above).mpr ⟨d', ?_,
        Disk.writeBytes_writeBytes _ level wrote⟩
      -- the directory of the file is there, since the file is found in it
      obtain ⟨l, runnable, located, -⟩ := (Disk.readBytes_eq_ok_iff file _).mp written
      obtain ⟨dir, spotted⟩ := Disk.parentSpot_of_located front _ names isStep_fileName located
      obtain ⟨parent', same, idle⟩ := Disk.makeDirs_parent spotted
      rw [above] at same
      cases same
      exact idle
    exact ⟨c.load_of_text found written, again, file, rfl, written,
      fun later same => c.load_of_text found (same.trans written)⟩

/-- Settings for which texts of every form and lists of every length have to be written. -/
def motley : Config where
  workspace := ⟨"", "C:\\pro\"jects"⟩
  server := ⟨"\"it's\" me", 65535⟩
  build := ⟨.toolchain, "a\\b'c\t"⟩
  toolchain := ⟨[], ["\"\"\"\n\u0000"], ["line one\nline 'two'", "🜁\x7f\r\n"]⟩
  logging := ⟨"'''", some "\"\"\"\\"⟩

/-- A home directory, and a working directory with a file that is no configuration. -/
def twoFiles : Disk :=
  ⟨[(["home"], .directory), (["work"], .directory),
    (["work", "bento.toml"], .file "[".toUTF8 false)], ["work"]⟩

theorem motley_is_loaded : ∃ d, motley.save (some "/home") twoFiles = (.ok (), d) ∧
    load d (some "/home") = .ok motley := by
  obtain ⟨⟨⟩, saved⟩ :=
    exists_eq_ok_of_isOk (motley.save (some "/home")) twoFiles (by decide +kernel)
  exact ⟨_, saved, (saved_is_loaded motley _ _ _ saved).1⟩

end Config

end Workbench
