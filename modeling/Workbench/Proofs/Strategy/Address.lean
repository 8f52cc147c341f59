import Workbench.Proofs.Address.Reader
import Workbench.Strategy.Basic

/-! Which hosts can be served at. The host and the port of the settings are joined with a colon, and
the socket address is read from that: this undoes the joining for an address of the first family and
for one of the second family in brackets, but not for one as it is commonly written, without them. -/
namespace Workbench.Config

open Address

/-- The settings with another host and another port to listen at. -/
def listeningAt (c : Config) (host : String) (port : UInt16) : Config :=
  { c with server := ⟨host, port⟩ }

/-- What the builtin strategy is with these settings. -/
def builtin (c : Config) : Outcome Strategy :=
  Strategy.ofConfig { c with build := { c.build with strategy := .builtin } }

/-- With these settings, projects can be served, and at this address. -/
structure ServesAt (c : Config) (a : SocketAddress) : Prop where
  address : c.serverAddress = .ok a
  strategy : c.builtin = .ok (Strategy.builtin c.build.outDir a)

/-- With these settings there is neither an address to serve at nor a strategy that would need it. -/
structure Unserved (c : Config) (why : Error) : Prop where
  address : c.serverAddress = .error why
  strategy : c.builtin = .error why

/-- The address depends on the settings of the server alone. -/
theorem serverAddress_congr {c c' : Config} (server : c.server = c'.server) :
    c.serverAddress = c'.serverAddress := by
  -- `unfold` would have to compute what the reader of addresses does
  delta serverAddress
  rw [server]

theorem builtin_eq (c : Config) :
    c.builtin = c.serverAddress.map (Strategy.builtin c.build.outDir) := by
  let builtin : Config := { c with build := { c.build with strategy := .builtin } }
  have address : builtin.serverAddress = c.serverAddress := serverAddress_congr rfl
  exact congrArg (Except.map (Strategy.builtin c.build.outDir)) address

theorem servesAt_of_parse? (c : Config) (host : String) (p : UInt16) (a : SocketAddress)
    (read : parse? (host ++ ":" ++ Text.decimal p.toNat) = some a) :
    (c.listeningAt host p).ServesAt a := by
  have address : (c.listeningAt host p).serverAddress = .ok a := by
    delta serverAddress listeningAt
    dsimp only
    rw [read]
  exact ⟨address, by rw [builtin_eq, address, Except.map]⟩

theorem unserved_of_parse? (c : Config) (host : String) (p : UInt16)
    (unread : parse? (host ++ ":" ++ Text.decimal p.toNat) = none) :
    (c.listeningAt host p).Unserved
      (.config (.badAddress (host ++ ":" ++ Text.decimal p.toNat))) := by
  have address : (c.listeningAt host p).serverAddress =
      .error (.config (.badAddress (host ++ ":" ++ Text.decimal p.toNat))) := by
    delta serverAddress listeningAt
    dsimp only
    rw [unread]
  exact ⟨address, by rw [builtin_eq, address, Except.map]⟩

/-- A host of the first family and a port, joined with a colon, are the text of a socket address. -/
theorem joined_v4 (bytes : Vector UInt8 4) (p : UInt16) :
    (HostAddress.v4 bytes).text ++ ":" ++ Text.decimal p.toNat =
      SocketAddress.text ⟨.v4 bytes, p, 0⟩ := by
  rw [← String.toList_inj, toList_withPort, HostAddress.text, SocketAddress.text,
    String.toList_ofList, String.toList_ofList, chars_socketV4]

/-- So are they for one of the second family, if it is in brackets. -/
theorem joined_v6 (groups : Vector UInt16 8) (p : UInt16) :
    "[" ++ (HostAddress.v6 groups).text ++ "]" ++ ":" ++ Text.decimal p.toNat =
      SocketAddress.text ⟨.v6 groups, p, 0⟩ := by
  have bracketed : ("[" ++ (HostAddress.v6 groups).text ++ "]").toList =
      '[' :: ((HostAddress.v6 groups).chars ++ [']']) := by
    simp [HostAddress.text]
  have zoneless : zoned 0 = [] := rfl
  rw [← String.toList_inj, toList_withPort, bracketed, SocketAddress.text, String.toList_ofList,
    chars_socketV6, zoneless, List.cons_append, List.append_assoc, List.singleton_append,
    List.nil_append]

/-- Whatever the other settings are, projects are served at every host of the first family that is
given by its text, and at every host of the second family that is given in brackets. A host of the
second family that is given by its text alone is refused, at every port. -/
theorem hosts_served (c : Config) (p : UInt16) :
    (∀ bytes, (c.listeningAt (HostAddress.v4 bytes).text p).ServesAt ⟨.v4 bytes, p, 0⟩) ∧
    (∀ groups, (c.listeningAt ("[" ++ (HostAddress.v6 groups).text ++ "]") p).ServesAt
      ⟨.v6 groups, p, 0⟩) ∧
    ∀ groups, (c.listeningAt (HostAddress.v6 groups).text p).Unserved
      (.config (.badAddress ((HostAddress.v6 groups).text ++ ":" ++ Text.decimal p.toNat))) := by
  refine ⟨fun bytes => servesAt_of_parse? c _ p _ ?_, fun groups => servesAt_of_parse? c _ p _ ?_,
    fun groups => unserved_of_parse? c _ p (parse?_unenclosed groups p)⟩
  · rw [joined_v4]
    exact parse?_text _ fun _ _ => rfl
  · rw [joined_v6]
    exact parse?_text _ fun _ => nofun

/-- The loopback address of the second family, as it is commonly written. -/
example : (HostAddress.v6 #v[0, 0, 0, 0, 0, 0, 0, 1]).text = "::1" ∧
    parse? "::1:3000" = none ∧ parse? "[::1]:3000" ≠ none := by
  decide +kernel

end Workbench.Config
