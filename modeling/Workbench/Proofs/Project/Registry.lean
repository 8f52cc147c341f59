import Workbench.Project.Registry
import Workbench.Proofs.Disk.Replace
import Workbench.Proofs.Json.Value

/-! The text of a registry stands for the projects that it was written for. -/
namespace Workbench

/-- Whether a number has a place in 64 bits. -/
def IsInt64 (i : Int) : Prop := Int64.minValue.toInt ≤ i ∧ i ≤ Int64.maxValue.toInt

instance (i : Int) : Decidable (IsInt64 i) := inferInstanceAs (Decidable (_ ∧ _))

theorem Json.int64?_eq_some_iff (v : Json) (i : Int) :
    v.int64? = some i ↔ v = .whole i ∧ IsInt64 i := by
  cases v with
  | whole j =>
    simp only [Json.int64?, IsInt64, whole.injEq]
    split
    next inside =>
      constructor
      · intro same
        cases same
        exact ⟨rfl, inside⟩
      · rintro ⟨rfl, -⟩
        rfl
    next outside =>
      constructor
      · intro same
        cases same
      · rintro ⟨rfl, inside⟩
        exact absurd inside outside
  | _ => simp [Json.int64?]

namespace Project

/-- A project whose times have a place in 64 bits. -/
structure IsTimely (p : Project) : Prop where
  created : IsInt64 p.createdAt
  modified : IsInt64 p.lastModified

theorem isTimely_make (name : String) (path : Path) (now : Int) (timely : IsInt64 now) :
    (make name path now).IsTimely := ⟨timely, timely⟩

theorem ofJson?_toJson (p : Project) (timely : p.IsTimely) : ofJson? p.toJson = some p := by
  have created := (Json.int64?_eq_some_iff _ _).mpr ⟨rfl, timely.created⟩
  have modified := (Json.int64?_eq_some_iff _ _).mpr ⟨rfl, timely.modified⟩
  simp [ofJson?, toJson, Json.fields?, Json.record, memberNames, Json.text, Json.text?, created,
    modified]

theorem isTimely_of_ofJson? (v : Json) (p : Project) (read : ofJson? v = some p) : p.IsTimely := by
  unfold ofJson? at read
  split at read
  next name path created modified _ =>
    simp only [Option.bind_eq_bind, Option.bind_eq_some_iff, Option.some.injEq] at read
    obtain ⟨_, -, _, -, c, first, m, second, rfl⟩ := read
    exact ⟨((Json.int64?_eq_some_iff _ _).mp first).2, ((Json.int64?_eq_some_iff _ _).mp second).2⟩
  next => cases read

end Project

namespace Registry

/-- What a registry is written for is read from it. -/
theorem decode?_encode (projects : List Project) (timely : ∀ p ∈ projects, p.IsTimely) :
    decode? (encode projects) = some projects := by
  have told : Json.itemsTold (projects.map Project.toJson) = true := by
    induction projects with
    | nil => rfl
    | cons p rest ih =>
      simp only [List.map_cons, Json.itemsTold, Bool.and_eq_true]
      exact ⟨rfl, ih fun q member => timely q (List.mem_cons_of_mem _ member)⟩
  have read := Json.parse?_render (.array (projects.map Project.toJson)) told
  have back : (projects.map Project.toJson).mapM Project.ofJson? = some projects := by
    clear told read
    induction projects with
    | nil => rfl
    | cons p rest ih =>
      rw [List.map_cons, List.mapM_cons, p.ofJson?_toJson (timely p List.mem_cons_self),
        ih fun q member => timely q (List.mem_cons_of_mem _ member)]
      rfl
  rw [decode?, encode, read]
  exact back

theorem timely_of_mapM (items : List Json) (projects : List Project)
    (read : items.mapM Project.ofJson? = some projects) : ∀ p ∈ projects, p.IsTimely := by
  induction items generalizing projects with
  | nil =>
    cases read
    intro p listed
    cases listed
  | cons item rest ih =>
    simp only [List.mapM_cons, Option.bind_eq_bind, Option.bind_eq_some_iff, Option.pure_def,
      Option.some.injEq] at read
    obtain ⟨p, first, more, later, rfl⟩ := read
    intro q member
    rcases List.mem_cons.mp member with rfl | further
    · exact Project.isTimely_of_ofJson? item q first
    · exact ih more later q further

variable (r : Registry) {d d' : Disk}

/-- The times of projects that are known have a place in 64 bits. -/
theorem timely_of_list : ∀ p ∈ r.list d, p.IsTimely := by
  unfold list
  split
  next text _ =>
    cases read : decode? text with
    | none =>
      intro p listed
      cases listed
    | some projects =>
      unfold decode? at read
      simp only [Option.bind_eq_bind, Option.bind_eq_some_iff] at read
      obtain ⟨_, -, items, -, back⟩ := read
      exact timely_of_mapM items projects back
  next =>
    intro p listed
    cases listed

theorem timely_of_list_concat {p : Project} (timely : p.IsTimely) :
    ∀ q ∈ r.list d ++ [p], q.IsTimely := by
  intro q member
  rcases List.mem_append.mp member with old | new
  · exact r.timely_of_list q old
  · rwa [List.mem_singleton.mp new]

/-- A registry that reads the same holds the same projects. -/
theorem list_congr
    (same : ∀ bytes, d'.readBytes r.file = .ok bytes ↔ d.readBytes r.file = .ok bytes) :
    r.list d' = r.list d := by
  have text (content : String) :
      d'.readText r.file = .ok content ↔ d.readText r.file = .ok content := by
    rw [Disk.readText_eq_ok_iff, Disk.readText_eq_ok_iff, same]
  unfold list
  cases before : d.readText r.file with
  | ok content => rw [(text content).mpr before]
  | error fault =>
    cases after : d'.readText r.file with
    | ok content =>
      rw [(text content).mp after] at before
      cases before
    | error fault' => rfl

theorem list_of_content (projects : List Project) (timely : ∀ p ∈ projects, p.IsTimely)
    (content : d.readBytes r.file = .ok (encode projects).toUTF8) : r.list d = projects := by
  have text := (Disk.readText_eq_ok_iff r.file (encode projects)).mpr content
  rw [list, text]
  simp [decode?_encode projects timely]

/-- A registry that was saved without a fault holds what it was saved with, unless it cannot be read
any more. -/
theorem list_save (projects : List Project) (timely : ∀ p ∈ projects, p.IsTimely)
    (saved : r.save projects d = (.ok (), d')) :
    r.list d' = if d.IsApart r.file (encode projects).toUTF8 then projects else [] := by
  have reads := Disk.readText_replaceText_iff (encode projects) saved
  unfold list
  cases text : d'.readText r.file with
  | ok content =>
    obtain ⟨rfl, apart⟩ := (reads content).mp text
    rw [if_pos apart]
    simp [decode?_encode projects timely]
  | error fault =>
    rw [if_neg]
    intro apart
    rw [(reads _).mpr ⟨rfl, apart⟩] at text
    cases text

end Registry

end Workbench
