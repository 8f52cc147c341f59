import Workbench.Project.BuildRecord
import Workbench.Proofs.Disk.Replace
import Workbench.Proofs.Disk.Task
import Workbench.Proofs.Project.Registry

/-! Projects and records of builds are read back as they were saved, every character and the whole
range of times included. -/
namespace Workbench

@[simp]
theorem StrategyKind.ofName?_name (kind : StrategyKind) : ofName? kind.name = some kind := by
  cases kind <;> rfl

@[simp]
theorem BuildOutcome.ofName?_name (outcome : BuildOutcome) :
    ofName? outcome.name = some outcome := by
  cases outcome <;> rfl

namespace BuildRecord

theorem ofJson?_toJson (r : BuildRecord) (timely : IsInt64 r.timestamp) :
    ofJson? r.toJson = some r := by
  have time := (Json.int64?_eq_some_iff _ _).mpr ⟨rfl, timely⟩
  simp [ofJson?, toJson, Json.fields?, Json.record, memberNames, Json.text, Json.text?,
    Json.choice?, time]

/-- What a record is written as stands for it. -/
theorem parse?_render (r : BuildRecord) (timely : IsInt64 r.timestamp) :
    (Json.parse? r.toJson.render).bind ofJson? = some r := by
  have told : r.toJson.isTold = true := rfl
  rw [Json.parse?_render r.toJson told]
  exact r.ofJson?_toJson timely

/-- A record that was saved without a fault reads back as it was written exactly if the temporary
file was reached without the entry of the record. -/
theorem readText_save_iff (project : Path) (r : BuildRecord) (d d' : Disk)
    (saved : save project r d = (.ok (), d')) :
    d'.readText (file project) = .ok r.toJson.render ↔
      d.IsApart (file project) r.toJson.render.toUTF8 := by
  rw [Disk.readText_replaceText_iff r.toJson.render saved]
  exact and_iff_right rfl

/-- No other record is found than the one that was saved. -/
theorem load?_save_iff (project : Path) (r : BuildRecord) (timely : IsInt64 r.timestamp)
    (d d' : Disk) (saved : save project r d = (.ok (), d')) (found : BuildRecord) :
    load? d' project = some found ↔
      found = r ∧ d.IsApart (file project) r.toJson.render.toUTF8 := by
  have reads := Disk.readText_replaceText_iff r.toJson.render saved
  unfold load?
  cases text : d'.readText (file project) with
  | ok content =>
    -- whatever is read is what was written
    obtain ⟨rfl, apart⟩ := (reads content).mp text
    dsimp only
    rw [r.parse?_render timely, Option.some.injEq]
    exact ⟨fun same => ⟨same.symm, apart⟩, fun same => same.1.symm⟩
  | error fault =>
    constructor
    · intro parsed
      cases parsed
    · rintro ⟨-, apart⟩
      rw [(reads _).mpr ⟨rfl, apart⟩] at text
      cases text

end BuildRecord

/-- The text of a registry stands for its projects, and what is read after a save without a fault is
what was saved, exactly if the temporary file was reached without the entry that it replaced. -/
theorem saved_reads_back :
    (∀ projects : List Project, (∀ p ∈ projects, p.IsTimely) →
      Registry.decode? (Registry.encode projects) = some projects ∧
      ∀ (r : Registry) (d d' : Disk), r.save projects d = (.ok (), d') →
        r.list d' =
          if d.IsApart r.file (Registry.encode projects).toUTF8 then projects else []) ∧
    ∀ r : BuildRecord, IsInt64 r.timestamp →
      ∀ (project : Path) (d d' : Disk), BuildRecord.save project r d = (.ok (), d') →
        ∀ found, BuildRecord.load? d' project = some found ↔
          found = r ∧ d.IsApart (BuildRecord.file project) r.toJson.render.toUTF8 := by
  constructor
  · intro projects timely
    refine ⟨Registry.decode?_encode projects timely, fun r d d' saved => ?_⟩
    exact r.list_save projects timely saved
  · intro r timely project d d' saved found
    exact BuildRecord.load?_save_iff project r timely d d' saved found

namespace Persistence

/-- A directory with no entries. -/
def emptySite : Disk := ⟨[(["p"], .directory)], []⟩

/-- A project with every kind of character, and the first and the last time. -/
def farProject : Project :=
  ⟨"\"\\/\x08\t\n\x7f\u2028🜁", ⟨"é\u0000/🜁"⟩, Int64.minValue.toInt,
    Int64.maxValue.toInt⟩

def farRecord : BuildRecord := ⟨Int64.minValue.toInt, .failed, .toolchain, "\"\\\r\n\u0000🜁"⟩

def shelf : Registry := ⟨⟨"p/projects.json"⟩⟩

/-- Both are read back from a disk where nothing was saved before. -/
theorem far_reads_back : ∃ d d',
    shelf.save [farProject] emptySite = (.ok (), d) ∧ shelf.list d = [farProject] ∧
    BuildRecord.save ⟨"p"⟩ farRecord emptySite = (.ok (), d') ∧
    BuildRecord.load? d' ⟨"p"⟩ = some farRecord := by
  obtain ⟨listed, recorded⟩ := saved_reads_back
  have timely : ∀ p ∈ [farProject], p.IsTimely := by
    intro p member
    obtain rfl := List.mem_singleton.mp member
    exact ⟨by decide, by decide⟩
  obtain ⟨⟨⟩, saved⟩ :=
    exists_eq_ok_of_isOk (shelf.save [farProject]) emptySite (by decide +kernel)
  obtain ⟨⟨⟩, kept⟩ :=
    exists_eq_ok_of_isOk (BuildRecord.save ⟨"p"⟩ farRecord) emptySite (by decide +kernel)
  refine ⟨_, _, saved, ?_, kept, ?_⟩
  · rw [(listed [farProject] timely).2 shelf _ _ saved]
    exact if_pos (by decide +kernel)
  · exact (recorded farRecord (by decide) _ _ _ kept _).mpr ⟨rfl, by decide +kernel⟩

/-- The same directory with a link under the temporary name of the record, which leads to the
record. -/
def knottedPlace : Disk :=
  ⟨[(["p"], .directory), (["p", ".bento"], .directory), (["p", ".bento", "state"], .directory),
    (["p", ".bento", "state", ".build.json.tmp"], .link ⟨"build.json"⟩)], []⟩

/-- The link takes the place of the record, which was saved without a fault and is lost. -/
theorem record_lost_by_knot : ∃ (r : BuildRecord) (d : Disk), IsInt64 r.timestamp ∧
    BuildRecord.save ⟨"p"⟩ r knottedPlace = (.ok (), d) ∧ BuildRecord.load? d ⟨"p"⟩ ≠ some r := by
  obtain ⟨⟨⟩, saved⟩ :=
    exists_eq_ok_of_isOk (BuildRecord.save ⟨"p"⟩ farRecord) knottedPlace (by decide +kernel)
  exact ⟨farRecord, _, by decide, saved, by decide +kernel⟩

end Persistence

end Workbench
