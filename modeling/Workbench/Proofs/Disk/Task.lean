import Workbench.Disk.Edit

/-! How a task goes on from one part to the next. What every part of a task keeps of the state is
kept by the task, however it ends. -/
namespace Workbench

section

variable {σ ε α β : Type} {R : σ → σ → Prop}

theorem bind_apply (x : ExceptT ε (StateM σ) α) (f : α → ExceptT ε (StateM σ) β) (s : σ) :
    (x >>= f) s = match x s with
      | (.ok a, s') => f a s'
      | (.error e, s') => (.error e, s') := by
  simp only [bind, ExceptT.bind, ExceptT.mk, StateT.bind]
  rcases x s with ⟨_ | _, _⟩ <;> rfl

/-- A sequence goes through if its parts do, each on what the one before it left. -/
theorem bind_eq_ok_iff (x : ExceptT ε (StateM σ) α) (f : α → ExceptT ε (StateM σ) β) (s s' : σ)
    (b : β) : (x >>= f) s = (.ok b, s') ↔ ∃ a mid, x s = (.ok a, mid) ∧ f a mid = (.ok b, s') := by
  rw [bind_apply]
  rcases x s with ⟨e | a, mid⟩
  · constructor
    · intro same
      cases same
    · rintro ⟨_, _, same, -⟩
      cases same
  · constructor
    · intro ran
      exact ⟨a, mid, rfl, ran⟩
    · rintro ⟨_, _, same, ran⟩
      cases same
      exact ran

theorem exists_eq_ok_of_isOk (x : ExceptT ε (StateM σ) α) (s : σ) (ok : (x s).1.isOk = true) :
    ∃ a, x s = (.ok a, (x s).2) := by
  rcases result : x s with ⟨e | a, s'⟩
  · simp [result, Except.isOk, Except.toBool] at ok
  · exact ⟨a, rfl⟩

theorem branch_eq_ok_iff (c : Prop) [Decidable c] (x : ExceptT ε (StateM σ) α) (a : α)
    (f : α → ExceptT ε (StateM σ) β) (s s' : σ) (b : β) :
    (if c then x >>= f else pure a >>= f) s = (.ok b, s') ↔
      ∃ a' mid, (c ∧ x s = (.ok a', mid) ∨ ¬c ∧ a' = a ∧ mid = s) ∧ f a' mid = (.ok b, s') := by
  split
  next holds => simp [bind_eq_ok_iff, holds]
  next fails =>
    constructor
    · exact fun ran => ⟨a, s, .inr ⟨fails, rfl, rfl⟩, ran⟩
    · rintro ⟨_, _, ⟨holds, -⟩ | ⟨-, rfl, rfl⟩, ran⟩
      · exact absurd holds fails
      · exact ran

theorem optional_eq_ok_iff (c : Prop) [Decidable c] (x : ExceptT ε (StateM σ) Unit)
    (f : Unit → ExceptT ε (StateM σ) β) (s s' : σ) (b : β) :
    (if c then x >>= f else f ()) s = (.ok b, s') ↔
      ∃ mid, (c ∧ x s = (.ok (), mid) ∨ ¬c ∧ mid = s) ∧ f () mid = (.ok b, s') := by
  have joined := branch_eq_ok_iff c x () f s s' b
  rw [pure_bind] at joined
  rw [joined]
  constructor
  · rintro ⟨⟨⟩, mid, ran⟩
    exact ⟨mid, by simpa using ran⟩
  · rintro ⟨mid, ran⟩
    exact ⟨(), mid, by simpa using ran⟩

/-- However a task ends, what it leaves of a state is related to the state. -/
def Keeps (R : σ → σ → Prop) (x : ExceptT ε (StateM σ) α) : Prop := ∀ s, R s (x s).2

theorem Keeps.pure (refl : ∀ s, R s s) (a : α) :
    Keeps R (Pure.pure a : ExceptT ε (StateM σ) α) := fun s => refl s

theorem Keeps.throw (refl : ∀ s, R s s) (e : ε) :
    Keeps R (MonadExcept.throw e : ExceptT ε (StateM σ) α) := fun s => refl s

theorem Keeps.bind (trans : ∀ s s' s'', R s s' → R s' s'' → R s s'') (x : ExceptT ε (StateM σ) α)
    (f : α → ExceptT ε (StateM σ) β) (first : Keeps R x) (later : ∀ a, Keeps R (f a)) :
    Keeps R (x >>= f) := by
  intro s
  have step := first s
  rw [bind_apply]
  generalize x s = result at step
  rcases result with ⟨e | a, s'⟩
  · exact step
  · exact trans _ _ _ step (later a s')

/-- A part that is left out under a condition. -/
theorem Keeps.optional (trans : ∀ s s' s'', R s s' → R s' s'' → R s s'') (c : Prop) [Decidable c]
    (x : ExceptT ε (StateM σ) α) (a : α) (f : α → ExceptT ε (StateM σ) β) (first : Keeps R x)
    (later : ∀ a, Keeps R (f a)) : Keeps R (if c then x >>= f else f a) := by
  split
  · exact Keeps.bind trans x f first later
  · exact later a

/-- What holds of every turn of a loop holds of the loop, if it holds of answers and of sequences. -/
theorem forIn_of_each (P : ∀ α : Type, ExceptT ε (StateM σ) α → Prop)
    (answer : ∀ α (a : α), P α (pure a))
    (sequence : ∀ α β (x : ExceptT ε (StateM σ) α) (f : α → ExceptT ε (StateM σ) β),
      P α x → (∀ a, P β (f a)) → P β (x >>= f))
    (xs : List β) (f : β → PUnit → ExceptT ε (StateM σ) (ForInStep PUnit))
    (each : ∀ x ∈ xs, P _ (f x ⟨⟩)) : P _ (forIn xs PUnit.unit f) := by
  induction xs with
  | nil => exact answer _ _
  | cons x xs ih =>
    rw [List.forIn_cons]
    refine sequence _ _ _ _ (each x List.mem_cons_self) fun turn => ?_
    cases turn with
    | done => exact answer _ _
    | yield => exact ih fun x later => each x (List.mem_cons_of_mem _ later)

end

namespace Task

variable {ε δ α β : Type} {R : Disk → Disk → Prop} {d d' : Disk}

theorem mapError_snd (f : ε → δ) (task : Task ε α) (d : Disk) :
    (Task.mapError f task d).2 = (task d).2 := by
  unfold Task.mapError
  rcases task d with ⟨_ | _, _⟩ <;> rfl

theorem mapError_eq_ok_iff (f : ε → δ) (task : Task ε α) (a : α) :
    Task.mapError f task d = (.ok a, d') ↔ task d = (.ok a, d') := by
  unfold Task.mapError
  rcases task d with ⟨e | b, mid⟩
  · constructor <;> intro same <;> cases same
  · constructor <;> intro same <;> cases same <;> rfl

theorem mapError_eq_error_iff (f : ε → δ) (task : Task ε α) (e : δ) :
    Task.mapError f task d = (.error e, d') ↔
      ∃ fault, task d = (.error fault, d') ∧ e = f fault := by
  unfold Task.mapError
  rcases task d with ⟨fault | b, mid⟩
  · constructor
    · intro same
      cases same
      exact ⟨fault, rfl, rfl⟩
    · rintro ⟨_, same, rfl⟩
      cases same
      rfl
  · constructor
    · intro same
      cases same
    · rintro ⟨_, same, -⟩
      cases same

theorem change_eq_ok_iff (f : Disk → Except ε Disk) :
    Task.change f d = (.ok (), d') ↔ f d = .ok d' := by
  unfold Task.change
  cases f d with
  | error e => constructor <;> intro same <;> cases same
  | ok mid => constructor <;> intro same <;> cases same <;> rfl

/-- A change that fails leaves the disk as it was. -/
theorem change_snd (f : Disk → Except ε Disk) (d : Disk) :
    (Task.change f d).2 = d ∨ f d = .ok (Task.change f d).2 := by
  unfold Task.change
  cases f d with
  | error e => exact .inl rfl
  | ok mid => exact .inr rfl

theorem ask_eq_ok_iff (f : Disk → Except ε α) (a : α) :
    Task.ask f d = (.ok a, d') ↔ f d = .ok a ∧ d' = d := by
  constructor
  · intro same
    exact ⟨congrArg Prod.fst same, (congrArg Prod.snd same).symm⟩
  · rintro ⟨found, rfl⟩
    rw [Task.ask, found]

theorem ask_bind_eq_ok_iff (f : Disk → Except ε α) (g : α → Task ε β) (b : β) :
    (Task.ask f >>= g) d = (.ok b, d') ↔ ∃ a, f d = .ok a ∧ g a d = (.ok b, d') := by
  rw [bind_eq_ok_iff]
  constructor
  · rintro ⟨a, mid, asked, ran⟩
    obtain ⟨found, rfl⟩ := (ask_eq_ok_iff f a).mp asked
    exact ⟨a, found, ran⟩
  · rintro ⟨a, found, ran⟩
    exact ⟨a, d, (ask_eq_ok_iff f a).mpr ⟨found, rfl⟩, ran⟩

theorem look_bind (f : Disk → α) (g : α → Task ε β) : (Task.look f >>= g) d = g (f d) d := by
  rw [bind_apply]
  rfl

theorem Keeps.mapError (f : ε → δ) (task : Task ε α) (keeps : Keeps R task) :
    Keeps R (Task.mapError f task) := fun d => by
  rw [mapError_snd]
  exact keeps d

theorem Keeps.ask (refl : ∀ d, R d d) (f : Disk → Except ε α) : Keeps R (Task.ask f) :=
  fun d => refl d

theorem Keeps.look (refl : ∀ d, R d d) (f : Disk → α) : Keeps R (Task.look f : Task ε α) :=
  fun d => refl d

end Task

end Workbench
