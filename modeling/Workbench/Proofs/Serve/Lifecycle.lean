import Mathlib.Data.List.Nodup
import Workbench.Serve.Server
/-!
# The life of a server

A server is started, stopped and given other roots in any order, while directories come and go,
addresses are bound and left by others, and binding fails for reasons of its own. Through all of it
the server remembers a listener exactly while that listener is at work, and no other listener that
it ever opened is left over.
-/
namespace Workbench

namespace Network

variable {n n' : Network} {a : SocketAddress} {root : Path} {l : Listener} {id : Nat}

/-- Every listener has a number that was handed out, and no two share an address. -/
structure IsSound (n : Network) : Prop where
  numbered : ∀ l ∈ n.listeners, l.id < n.next
  apart : (n.listeners.map (·.bound)).Nodup

/-- Whoever binds an address gets a fresh number, and one more listener is at work. -/
theorem bind_eq_ok (bound : n.bind a root = .ok (l, n')) :
    (∀ o ∈ n.listeners, o.bound ≠ l.bound) ∧ l.id = n.next ∧ l.root = root ∧
      n' = { n with listeners := n.listeners ++ [l], next := n.next + 1 } := by
  unfold bind at bound
  cases blocked : n.obstacle a with
  | some fault => simp [blocked] at bound
  | none =>
    cases taken : n.isTaken (n.choose a) with
    | true => simp [blocked, taken] at bound
    | false =>
      simp only [blocked, taken, Bool.false_eq_true, if_false, Except.ok.injEq,
        Prod.mk.injEq] at bound
      obtain ⟨rfl, rfl⟩ := bound
      simp only [isTaken, List.any_eq_false, decide_eq_true_eq] at taken
      exact ⟨taken, rfl, rfl, rfl⟩

theorem IsSound.bind (sound : n.IsSound) (bound : n.bind a root = .ok (l, n')) : n'.IsSound := by
  obtain ⟨free, number, -, rfl⟩ := bind_eq_ok bound
  constructor
  · intro o at_work
    rcases List.mem_append.mp at_work with before | new
    · have := sound.numbered o before
      dsimp only
      omega
    · obtain rfl := List.mem_singleton.mp new
      dsimp only
      omega
  · rw [List.map_append, List.nodup_append]
    refine ⟨sound.apart, List.nodup_singleton _, ?_⟩
    intro b before b' new same
    obtain ⟨o, at_work, rfl⟩ := List.mem_map.mp before
    obtain rfl := List.mem_singleton.mp new
    exact free o at_work same

theorem IsSound.close (sound : n.IsSound) (id : Nat) : (n.close id).IsSound where
  numbered l at_work := sound.numbered l ((List.mem_filter.mp at_work).1)
  apart := sound.apart.sublist (List.filter_sublist.map _)

/-- What was bound is gone without a trace once it is closed again. -/
theorem listeners_close_bind (sound : n.IsSound) (bound : n.bind a root = .ok (l, n')) :
    (n'.close l.id).listeners = n.listeners := by
  obtain ⟨-, number, -, rfl⟩ := bind_eq_ok bound
  have kept : n.listeners.filter (·.id ≠ l.id) = n.listeners := by
    apply List.filter_eq_self.mpr
    intro o at_work
    have := sound.numbered o at_work
    simp only [ne_eq, decide_eq_true_eq]
    omega
  simp only [Network.close, List.filter_append, kept]
  simp

/-- Addresses lead to one listener each, and its root answers. -/
theorem IsSound.request (sound : n.IsSound) (at_work : l ∈ n.listeners)
    (reachable : n.reachable = true) (d : Disk) (r : Serve.Request) :
    n.request d l.bound r = some (Serve.answer d l.root r) := by
  have found : n.listeners.find? (·.bound = l.bound) = some l := by
    obtain ⟨before, after, split⟩ := List.append_of_mem at_work
    have apart := sound.apart
    rw [split, List.map_append, List.map_cons, List.nodup_append] at apart
    have none_before : before.find? (·.bound = l.bound) = none := by
      apply List.find?_eq_none.mpr
      intro o met same
      exact apart.2.2 o.bound (List.mem_map_of_mem met) l.bound (by simp) (by simpa using same)
    rw [split, List.find?_append, none_before]
    simp
  rw [Network.request, if_pos reachable, found]
  rfl

end Network

namespace StaticServer

variable {s s' : StaticServer} {d : Disk} {n n' : Network}

/-- What a start can come to: the server runs already, it fails and leaves nothing open, or it has
a listener of its own at last. -/
inductive Started (s : StaticServer) (d : Disk) (n : Network) :
    Outcome SocketAddress × StaticServer × Network → Prop
  | already {l} : s.listener = some l → n.hasListener l.id = true →
      Started s d n (.ok l.bound, s, n)
  | failed {f} : s.isRunning n = false → Started s d n (.error f, s, n)
  | unread {f l m} : s.isRunning n = false → n.bind s.address s.root = .ok (l, m) →
      Started s d n (.error f, s, m.close l.id)
  | bound {l m} : s.isRunning n = false → n.bind s.address s.root = .ok (l, m) →
      Started s d n (.ok l.bound, { s with listener := some l }, m)

theorem started (s : StaticServer) (d : Disk) (n : Network) : Started s d n (s.start d n) := by
  unfold start
  split
  case h_1 l kept =>
    obtain ⟨remembered, at_work⟩ := Option.filter_eq_some_iff.mp kept
    exact .already remembered at_work
  case h_2 absent =>
    have stopped : s.isRunning n = false := by
      cases remembered : s.listener with
      | none => simp [isRunning, remembered]
      | some l =>
        rw [remembered, Option.filter_eq_none_iff] at absent
        simpa [isRunning, remembered] using absent l rfl
    split
    · exact .failed stopped
    · split
      case h_1 => exact .failed stopped
      case h_2 l m bound =>
        split
        · exact .unread stopped bound
        · exact .bound stopped bound

theorem start_of_isRunning (running : s.isRunning n = true) {a : SocketAddress}
    (known : s.localAddress? = some a) (d : Disk) : s.start d n = (.ok a, s, n) := by
  obtain ⟨l, remembered, rfl⟩ := Option.map_eq_some_iff.mp known
  have at_work : n.hasListener l.id = true := by simpa [isRunning, remembered] using running
  have kept : s.listener.filter (fun l => n.hasListener l.id) = some l := by
    rw [remembered, Option.filter_some, if_pos at_work]
  simp only [start, kept]

theorem setRoot_of_isRunning (running : s.isRunning n = true) (root : Path) :
    s.setRoot n root = (.error (.refused .rootOfRunningServer), s) := by
  rw [setRoot, if_pos running]

theorem setRoot_of_not_isRunning (stopped : s.isRunning n = false) (root : Path) :
    s.setRoot n root = (.ok (), { s with root }) := by
  rw [setRoot, stopped]
  rfl

theorem stop_listener (s : StaticServer) (n : Network) : (s.stop n).1 = { s with listener := none } := by
  cases remembered : s.listener with
  | none =>
    obtain ⟨root, address, listener⟩ := s
    simp_all [stop]
  | some l => simp [stop, remembered]

theorem stop_stop (s : StaticServer) (n : Network) :
    (s.stop n).1.stop (s.stop n).2 = s.stop n := by
  have forgotten : (s.stop n).1.listener = none := by rw [stop_listener]
  rw [stop, forgotten]

/-- A server among others: the files that it serves, the network that it works in, and the numbers
of all listeners that it ever opened. -/
structure Life where
  server : StaticServer
  disk : Disk
  network : Network
  opened : List Nat := []

/-- What a server can be told. -/
inductive Call where
  | start
  | stop
  | setRoot (root : Path)

namespace Life

/-- The listeners at work that the server opened. -/
def own (life : Life) : List Listener := life.network.listeners.filter (·.id ∈ life.opened)

def isRunning (life : Life) : Bool := life.server.isRunning life.network

def call (life : Life) : Call → Life
  | .start =>
    let (_, server, network) := life.server.start life.disk life.network
    -- the server opened whatever got its number meanwhile
    let fresh := List.range' life.network.next (network.next - life.network.next)
    { life with server, network, opened := life.opened ++ fresh }
  | .stop =>
    let (server, network) := life.server.stop life.network
    { life with server, network }
  | .setRoot root => { life with server := (life.server.setRoot life.network root).2 }

/-- How a server can come to be where it is. Between two calls any file may change, others may bind
addresses and close listeners that are theirs, and whatever keeps an address from being bound, read
or reached may come and go. -/
inductive Reached (root : Path) (address : SocketAddress) : Life → Prop
  | new {disk network} : network.IsSound →
      Reached root address ⟨{ root, address }, disk, network, []⟩
  | call {life} (c : Call) : Reached root address life → Reached root address (life.call c)
  | files {life} (disk : Disk) : Reached root address life →
      Reached root address { life with disk }
  | bound {life a other l network} : life.network.bind a other = .ok (l, network) →
      Reached root address life → Reached root address { life with network }
  | closed {life id} : id ∉ life.opened → Reached root address life →
      Reached root address { life with network := life.network.close id }
  | weather {life} (obstacle unreadable : SocketAddress → Option Fault) (reachable : Bool) :
      Reached root address life →
      Reached root address
        { life with network := { life.network with obstacle, unreadable, reachable } }

variable {life : Life} {root : Path} {address : SocketAddress}

/-- The listener that the server remembers is the only one of its own at work, and serves its
root. -/
structure IsSound (life : Life) : Prop where
  network : life.network.IsSound
  issued : ∀ id ∈ life.opened, id < life.network.next
  own : life.own = life.server.listener.toList
  served : ∀ l ∈ life.server.listener, l.root = life.server.root

theorem IsSound.isRunning (sound : life.IsSound) :
    life.isRunning = life.server.listener.isSome := by
  have kept := sound.own
  cases remembered : life.server.listener with
  | none => simp [Life.isRunning, StaticServer.isRunning, remembered]
  | some l =>
    have own : l ∈ life.own := by
      rw [kept, remembered]
      exact List.mem_singleton_self l
    simp only [Life.isRunning, StaticServer.isRunning, remembered, Option.any_some,
      Network.hasListener, Option.isSome_some, List.any_eq_true, decide_eq_true_eq]
    exact ⟨l, (List.mem_filter.mp own).1, rfl⟩

theorem IsSound.listener_eq_none (sound : life.IsSound) (stopped : life.isRunning = false) :
    life.server.listener = none := by
  rw [sound.isRunning] at stopped
  simpa using stopped

/-- A number that nobody had before is no listener's. -/
theorem filter_opened_append (sound : life.IsSound) (id : Nat) (fresh : life.network.next ≤ id) :
    life.network.listeners.filter (·.id ∈ life.opened ++ [id]) = life.own := by
  apply List.filter_congr
  intro l at_work
  have := sound.network.numbered l at_work
  have other : l.id ≠ id := by omega
  simp [other]

/-- Whoever else binds an address, the server's own listeners stay as they are. -/
theorem own_of_bind (sound : life.IsSound) {a : SocketAddress} {other : Path} {l : Listener}
    {n : Network} (bound : life.network.bind a other = .ok (l, n)) :
    n.listeners.filter (·.id ∈ life.opened) = life.own := by
  obtain ⟨-, number, -, rfl⟩ := Network.bind_eq_ok bound
  have foreign : l.id ∉ life.opened := by
    intro own
    have := sound.issued l.id own
    omega
  simp [List.filter_append, foreign, own]

theorem IsSound.start (sound : life.IsSound) : (life.call .start).IsSound := by
  have outcome := started life.server life.disk life.network
  unfold Life.call
  generalize life.server.start life.disk life.network = answer at outcome
  cases outcome with
  | already remembered at_work =>
    simp only [Nat.sub_self, List.range'_zero, List.append_nil]
    exact sound
  | failed stopped =>
    simp only [Nat.sub_self, List.range'_zero, List.append_nil]
    exact sound
  | @unread f l m stopped bound =>
    have listeners := Network.listeners_close_bind sound.network bound
    have network := (sound.network.bind bound).close l.id
    obtain ⟨-, -, -, rfl⟩ := Network.bind_eq_ok bound
    simp only [Network.close, Nat.add_sub_cancel_left, List.range'_one] at listeners network ⊢
    constructor
    · exact network
    · intro id own
      rcases List.mem_append.mp own with before | new
      · exact Nat.lt_succ_of_lt (sound.issued id before)
      · rw [List.mem_singleton.mp new]
        exact Nat.lt_succ_self _
    · simp only [Life.own, listeners]
      rw [filter_opened_append sound _ (Nat.le_refl _)]
      exact sound.own
    · exact sound.served
  | @bound l m stopped bound =>
    have network := sound.network.bind bound
    obtain ⟨-, number, root, rfl⟩ := Network.bind_eq_ok bound
    simp only [Nat.add_sub_cancel_left, List.range'_one]
    constructor
    · exact network
    · intro id own
      rcases List.mem_append.mp own with before | new
      · exact Nat.lt_succ_of_lt (sound.issued id before)
      · rw [List.mem_singleton.mp new]
        exact Nat.lt_succ_self _
    · -- nothing of its own was at work before, so that the new listener is the only one
      have nothing : life.own = [] := by rw [sound.own, sound.listener_eq_none stopped]; rfl
      simp only [Life.own, List.filter_append, Option.toList_some]
      rw [filter_opened_append sound _ (Nat.le_refl _), nothing]
      simp [number]
    · intro o remembered
      obtain rfl := Option.some.inj remembered
      exact root

theorem IsSound.stop (sound : life.IsSound) : (life.call .stop).IsSound := by
  dsimp only [Life.call, StaticServer.stop]
  cases remembered : life.server.listener with
  | none => exact sound
  | some l =>
    refine ⟨sound.network.close l.id, sound.issued, ?_, by simp⟩
    have own : life.own = [l] := by rw [sound.own, remembered]; rfl
    calc (life.network.listeners.filter (·.id ≠ l.id)).filter (·.id ∈ life.opened)
        = life.own.filter (·.id ≠ l.id) := by
          simp only [Life.own, List.filter_filter, Bool.and_comm]
      _ = [] := by rw [own]; simp

theorem IsSound.setRoot (sound : life.IsSound) (root : Path) :
    (life.call (.setRoot root)).IsSound := by
  dsimp only [Life.call]
  cases running : life.isRunning with
  | true =>
    rw [setRoot_of_isRunning running root]
    exact sound
  | false =>
    rw [setRoot_of_not_isRunning running root]
    refine ⟨sound.network, sound.issued, sound.own, ?_⟩
    intro l remembered
    rw [sound.listener_eq_none running] at remembered
    cases remembered

/-- Closing a listener that is somebody else's leaves the server's own at work. -/
theorem IsSound.closed (sound : life.IsSound) {id : Nat} (foreign : id ∉ life.opened) :
    IsSound { life with network := life.network.close id } := by
  refine ⟨sound.network.close id, sound.issued, ?_, sound.served⟩
  rw [← sound.own]
  simp only [Life.own, Network.close, List.filter_filter]
  apply List.filter_congr
  intro l at_work
  by_cases own : l.id ∈ life.opened
  · have other : l.id ≠ id := by
      intro same
      exact foreign (same ▸ own)
    simp [own, other]
  · simp [own]

theorem Reached.isSound (reached : Reached root address life) : life.IsSound := by
  induction reached with
  | new sound => exact ⟨sound, by simp, by simp [Life.own], by simp⟩
  | call c _ sound =>
    cases c with
    | start => exact sound.start
    | stop => exact sound.stop
    | setRoot root => exact sound.setRoot root
  | files disk _ sound => exact ⟨sound.network, sound.issued, sound.own, sound.served⟩
  | bound bound _ sound =>
    refine ⟨sound.network.bind bound, ?_, ?_, sound.served⟩
    · intro id own
      obtain ⟨-, -, -, rfl⟩ := Network.bind_eq_ok bound
      exact Nat.lt_succ_of_lt (sound.issued id own)
    · rw [← sound.own]
      exact own_of_bind sound bound
  | closed foreign _ sound => exact sound.closed foreign
  | weather obstacle unreadable reachable _ sound =>
    exact ⟨⟨sound.network.numbered, sound.network.apart⟩, sound.issued, sound.own, sound.served⟩

/-- While the server runs, its one listener answers whatever is asked of it from its root. -/
theorem IsSound.serves (sound : life.IsSound) (running : life.isRunning = true) :
    ∃ l, life.own = [l] ∧ life.server.localAddress? = some l.bound ∧
      l.root = life.server.root ∧
      (life.network.reachable = true → ∀ r, life.network.request life.disk l.bound r =
        some (Serve.answer life.disk life.server.root r)) := by
  rw [sound.isRunning] at running
  obtain ⟨l, remembered⟩ := Option.isSome_iff_exists.mp running
  have own : life.own = [l] := by rw [sound.own, remembered]; rfl
  have root := sound.served l remembered
  refine ⟨l, own, by rw [localAddress?, remembered]; rfl, root, ?_⟩
  intro reachable r
  have at_work : l ∈ life.network.listeners := by
    have listed : l ∈ life.own := by rw [own]; exact List.mem_singleton_self l
    exact (List.mem_filter.mp listed).1
  rw [← root]
  exact sound.network.request at_work reachable life.disk r

/-- A start that fails leaves the server as it was, which is stopped, and opens nothing. -/
theorem IsSound.start_failed (sound : life.IsSound) {f : Error} {s : StaticServer} {n : Network}
    (failed : life.server.start life.disk life.network = (.error f, s, n)) :
    s = life.server ∧ s.isRunning n = false ∧ n.listeners = life.network.listeners := by
  have outcome := started life.server life.disk life.network
  rw [failed] at outcome
  cases outcome with
  | failed stopped => exact ⟨rfl, stopped, rfl⟩
  | unread stopped bound =>
    have forgotten := sound.listener_eq_none stopped
    refine ⟨rfl, ?_, Network.listeners_close_bind sound.network bound⟩
    rw [StaticServer.isRunning, forgotten]
    rfl

theorem setRoot_isOk_iff (life : Life) (other : Path) :
    ((life.server.setRoot life.network other).1 = .ok () ↔ life.isRunning = false) ∧
      (life.server.setRoot life.network other).2 =
        if life.isRunning then life.server else { life.server with root := other } := by
  cases running : life.isRunning with
  | true =>
    rw [setRoot_of_isRunning running other]
    simp
  | false =>
    rw [setRoot_of_not_isRunning running other]
    simp

theorem call_stop_isRunning (life : Life) : (life.call .stop).isRunning = false := by
  dsimp only [Life.isRunning, Life.call]
  rw [stop_listener]
  rfl

theorem call_stop_stop (life : Life) : (life.call .stop).call .stop = life.call .stop := by
  dsimp only [Life.call]
  rw [stop_stop]

/-- Whatever a server went through, it runs exactly while it has an address, at most one listener
of its own is at work, none while it is stopped, and the one that is at work answers from its root.
Starting it once more changes nothing, a start that fails leaves it stopped, its root can be changed
exactly while it is stopped, and stopping it again is no different from stopping it. -/
theorem lifecycle_of_reached (reached : Reached root address life) :
    (life.isRunning = true ↔ life.server.localAddress?.isSome = true) ∧
    life.own.length ≤ 1 ∧
    (life.isRunning = false → life.own = []) ∧
    (life.isRunning = true → ∃ l, life.own = [l] ∧ life.server.localAddress? = some l.bound ∧
      l.root = life.server.root ∧
      (life.network.reachable = true → ∀ r, life.network.request life.disk l.bound r =
        some (Serve.answer life.disk life.server.root r))) ∧
    (life.isRunning = true → ∃ a, life.server.localAddress? = some a ∧
      life.server.start life.disk life.network = (.ok a, life.server, life.network)) ∧
    (∀ f s n, life.server.start life.disk life.network = (.error f, s, n) →
      s = life.server ∧ s.isRunning n = false ∧ n.listeners = life.network.listeners) ∧
    (∀ other, ((life.server.setRoot life.network other).1 = .ok () ↔ life.isRunning = false) ∧
      (life.server.setRoot life.network other).2 =
        if life.isRunning then life.server else { life.server with root := other }) ∧
    (life.call .stop).isRunning = false ∧
    (life.call .stop).call .stop = life.call .stop := by
  have sound := reached.isSound
  have own := sound.own
  refine ⟨?_, ?_, ?_, sound.serves, ?_, ?_, setRoot_isOk_iff life, call_stop_isRunning life,
    call_stop_stop life⟩
  · rw [sound.isRunning, localAddress?, Option.isSome_map]
  · rw [own]
    cases life.server.listener <;> simp
  · intro stopped
    rw [own, sound.listener_eq_none stopped]
    rfl
  · intro running
    obtain ⟨l, -, known, -⟩ := sound.serves running
    exact ⟨l.bound, known, start_of_isRunning running known life.disk⟩
  · intro f s n failed
    exact sound.start_failed failed

/-- A server on a network that tells nobody an address. -/
def untold : Life :=
  ⟨{ root := ⟨"www"⟩, address := ⟨.v4 #v[127, 0, 0, 1], 80, 0⟩ }, ⟨[(["www"], .directory)], []⟩,
    { unreadable := fun _ => some .invalid }, []⟩

/-- The server after it failed to start on such a network. -/
def failed : Life := untold.call .start

/-- The server after it started on a better network and lost its root. -/
def restarted : Life :=
  { ({ failed with network := { failed.network with
        obstacle := fun _ => none, unreadable := fun _ => none, reachable := true } } : Life).call
      .start with disk := ⟨[], []⟩ }

theorem restarted_reached : Reached ⟨"www"⟩ ⟨.v4 #v[127, 0, 0, 1], 80, 0⟩ restarted := by
  have fresh : Reached ⟨"www"⟩ ⟨.v4 #v[127, 0, 0, 1], 80, 0⟩ untold :=
    .new ⟨by simp, by simp⟩
  exact .files _ (.call .start (.weather _ _ _ (.call .start fresh)))

/-- The first listener of the server has no address to tell and is given up again, and the second
one outlives the root that it serves. -/
theorem lifecycle_of_restarted : Reached ⟨"www"⟩ ⟨.v4 #v[127, 0, 0, 1], 80, 0⟩ restarted ∧
    restarted.opened = [0, 1] ∧ restarted.own.map (·.id) = [1] ∧
    restarted.own.length ≤ 1 ∧ ∃ a, restarted.server.localAddress? = some a ∧
      restarted.server.start restarted.disk restarted.network =
        (.ok a, restarted.server, restarted.network) := by
  have running : restarted.isRunning = true := by decide
  obtain ⟨-, single, -, -, again, -⟩ := lifecycle_of_reached restarted_reached
  exact ⟨restarted_reached, by decide, by decide, single, again running⟩

end Life

end StaticServer

end Workbench
