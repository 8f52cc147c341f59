import Workbench.Proofs.Supervisor.World

/-! Where sessions are. At most one is alive, and it is stored in the slot or carried by the call
that holds the lock, which has served it or has begun to stop it. -/
namespace Workbench

theorem Hold.session?_of_carried (h : Hold) (s : Supervisor) (session : Session)
    (fits : h.Fits s) (carried : h.carried? = some session) : h.session? s = some session := by
  cases h <;> simp_all [Fits, carried?, Hold.session?]

/-- No more sessions are alive than are accounted for after a need was answered if that was so
before. -/
theorem Need.live_sublist (need : Need) (o : Outside) (live : List Session)
    (before : Option Session) (kept : live.Sublist before.toList)
    (stops : ∀ session, need = .stopped session → before = some session)
    (serves : ∀ p, need = .served p → before = none) :
    (need.live o live).Sublist (need.session? o before).toList := by
  cases need with
  | stopped session =>
    rw [stops session rfl] at kept
    have gone : (live.erase session).Sublist ([session].erase session) := kept.erase session
    simpa [Need.live, Need.session?] using gone
  | served p =>
    rw [serves p rfl] at kept ⊢
    have empty : live = [] := by simpa using kept
    subst empty
    cases served : o.served <;> simp [Need.live, Need.session?, served]
  | _ => exact kept

namespace World

/-- The session that is stored, or else carried by the call that holds the lock. -/
def session? (w : World) : Option Session := w.holding.session? w.supervisor

/-- Whether a session was returned by the strategy to a call. -/
def WasServed (w : World) (id : Nat) (p : Project) (session : Session) : Prop :=
  ∃ o before after, .turn id (.run p .serve) o before after ∈ w.past ∧ o.served = .ok session

/-- Whether a call to serve a project has stopped the session that it was given. -/
def WasDropped (w : World) (id : Nat) (p : Project) (session : Session) : Prop :=
  ∃ o before after, .turn id (.run p (.drop session)) o before after ∈ w.past

variable {kind : StrategyKind} {w w' : World}

theorem session?_turned (guarded : w.Guarded) (id : Nat) (stage next : Stage) (o : Outside)
    (time : Int) (s : Supervisor) (under : w.calls id = some stage)
    (passes : Passes id (stage.need w.supervisor) o w.supervisor stage.hold s next.hold) :
    (w.turned kind id stage o time s next).session? =
      (stage.need w.supervisor).session? o w.session? := by
  rcases guarded.holding_turned kind id stage next o time s under passes with
    ⟨was, is⟩ | ⟨free, -, same⟩
  · unfold session?
    rw [was, is]
    exact passes.session (was ▸ guarded.fits)
  · -- a call without the lock neither stops nor serves a session
    have slot := (passes.leaves ((Hold.holds_eq_false_iff _).mpr free)).1
    have asked : (stage.need w.supervisor).session? o w.session? = w.session? := by
      cases need : stage.need w.supervisor with
      | stopped session =>
        have carried := passes.stops session need
        simp [free, Hold.carried?] at carried
      | served p =>
        have vacant := passes.serves p need
        simp [free] at vacant
      | _ => rfl
    rw [asked, session?, session?, same, Hold.session?, Hold.session?]
    exact congrArg (· <|> w.holding.carried?) slot

/-- No session is alive but the one that is stored or carried. -/
theorem Reachable.live_sublist (reached : Reachable kind w) :
    w.live.Sublist w.session?.toList := by
  induction reached with
  | start log disk => exact List.nil_sublist _
  | next w w' reached step ih =>
    -- a session is stopped only by the call that carries it, and served only to one that has the
    -- lock while the slot is empty
    have guarded := reached.guarded
    cases step with
    | begin id r unused =>
      unfold session?
      rw [holding_begin id r unused]
      exact ih
    | turn id stage next o time s under truly moved =>
      have passes := Stage.advance_passes id o w.supervisor s stage next moved
      rw [session?_turned guarded id stage next o time s under passes]
      have was (held : stage.hold ≠ .free) : w.holding = stage.hold := by
        rcases guarded.holding_turned kind id stage next o time s under passes with
          ⟨was, -⟩ | ⟨free, -⟩
        · exact was
        · exact absurd free held
      refine Need.live_sublist _ o w.live _ ih (fun session asked => ?_) fun p asked => ?_
      · have carried := passes.stops session asked
        have held := was fun free => by simp [free, Hold.carried?] at carried
        exact Hold.session?_of_carried _ _ session guarded.fits (held ▸ carried)
      · have vacant := passes.serves p asked
        have fits := guarded.fits
        rw [was (by simp [vacant]), vacant] at fits
        unfold session?
        rw [was (by simp [vacant]), vacant]
        simp [Hold.session?, fits.2, Hold.carried?]
    | exit session => exact List.erase_sublist.trans ih
    | other log disk => exact ih

/-- Where a call is that was given a session: it goes on with it, or it has stopped it. -/
def IsWith (w : World) (id : Nat) (p : Project) (session : Session) : Option Stage → Prop
  | some (.run q (.adopt s)) | some (.run q (.store s)) | some (.run q (.drop s)) =>
    q = p ∧ s = session
  | some (.run _ (.release true)) | some (.done true) => True
  | some (.run q (.giveUp _)) | some (.run q (.release false)) =>
    q = p ∧ w.WasDropped id p session
  | some (.done false) => w.WasDropped id p session
  | _ => False

theorem IsWith.mono (id : Nat) (p : Project) (session : Session) (stage? : Option Stage)
    (kept : w.WasDropped id p session → w'.WasDropped id p session)
    (isWith : w.IsWith id p session stage?) : w'.IsWith id p session stage? := by
  unfold IsWith at isWith ⊢
  split <;> simp_all

/-- A call that goes on after it was given a session stops the session before it gives up. -/
theorem IsWith.turned (id : Nat) (p : Project) (session : Session) (stage next : Stage)
    (o : Outside) (time : Int) (s : Supervisor) (isWith : w.IsWith id p session (some stage))
    (moved : stage.advance id o w.supervisor = some (s, next)) :
    (w.turned kind id stage o time s next).IsWith id p session (some next) := by
  have kept : w.WasDropped id p session →
      (w.turned kind id stage o time s next).WasDropped id p session :=
    fun ⟨o, before, after, member⟩ => ⟨o, before, after, List.mem_cons_of_mem _ member⟩
  cases stage with
  | run q r =>
    cases r with
    | adopt s =>
      obtain ⟨rfl, rfl⟩ := isWith
      simp only [Stage.advance, Serving.advance] at moved
      split at moved <;> cases moved
      · exact ⟨rfl, rfl⟩
      · exact ⟨rfl, rfl⟩
    | store s =>
      cases moved
      exact trivial
    | drop s =>
      obtain ⟨rfl, rfl⟩ := isWith
      cases moved
      exact ⟨rfl, o, w.disk, _, List.mem_cons_self⟩
    | giveUp trouble =>
      cases moved
      exact ⟨isWith.1, kept isWith.2⟩
    | release running =>
      cases moved
      cases running with
      | true => exact trivial
      | false => exact kept isWith.2
    | _ => exact isWith.elim
  | done answer => cases moved
  | _ => exact isWith.elim

theorem Reachable.isWith (reached : Reachable kind w) (id : Nat) (p : Project) (session : Session)
    (served : w.WasServed id p session) : w.IsWith id p session (w.calls id) := by
  induction reached with
  | start log disk =>
    obtain ⟨o, before, after, member, -⟩ := served
    cases member
  | next w w' reached step ih =>
    cases step.sees id with
    | begun r unused =>
      have isWith := ih served
      rw [unused] at isWith
      exact isWith.elim
    | turned stage next o time s under truly moved =>
      obtain ⟨o', before, after, member, answered⟩ := served
      rw [calls_turned]
      rcases List.mem_cons.mp member with new | old
      · cases new
        simp only [Stage.advance, Serving.advance, answered] at moved
        cases moved
        exact ⟨rfl, rfl⟩
      · have isWith := ih ⟨o', before, after, old, answered⟩
        rw [under] at isWith
        exact isWith.turned id p session stage next o time s moved
    | spared news w' spares =>
      rw [spares.calls]
      refine (ih ?_).mono id p session _ ?_
      · simpa only [WasServed, spares.turns] using served
      · simp only [WasDropped, spares.turns, imp_self]

end World

end Workbench
