import Workbench.Text.Basic
import Workbench.Text.Numeral
/-!
# Network addresses

Internet addresses of both families with a port, and their written form. In an address of the
second family the first of the longest runs of zero groups is left out, if it has more than one
group.
-/
namespace Workbench

/-- The address of a host. -/
inductive HostAddress where
  | v4 (bytes : Vector UInt8 4)
  | v6 (groups : Vector UInt16 8)
  deriving DecidableEq, Repr

/-- A host address, a port and, for local addresses of the second family, a zone. -/
structure SocketAddress where
  host : HostAddress
  port : UInt16
  zone : UInt32
  deriving DecidableEq, Repr

namespace HostAddress

def dotted (bytes : List UInt8) : List Char :=
  Text.joinWith ['.'] (bytes.map fun b => Text.numeral 10 b.toNat)

def coloned (groups : List UInt16) : List Char :=
  Text.joinWith [':'] (groups.map fun g => Text.numeral 16 g.toNat)

/-- Where the first of the longest runs of zero groups starts, and its length. The second and
third arguments are the position and the run that ends there. -/
def longestZeros : List UInt16 → Nat → Nat → Nat × Nat → Nat × Nat
  | [], _, _, best => best
  | g :: rest, position, run, best =>
    if g = 0 then
      let run := run + 1
      let best := if best.2 < run then (position + 1 - run, run) else best
      longestZeros rest (position + 1) run best
    else longestZeros rest (position + 1) 0 best

/-- The first address of the second family within which the first family is embedded. -/
def embedded? : List UInt16 → Option (List UInt8)
  | [0, 0, 0, 0, 0, 0xFFFF, a, b] =>
    some [(a >>> 8).toUInt8, a.toUInt8, (b >>> 8).toUInt8, b.toUInt8]
  | _ => none

def chars : HostAddress → List Char
  | .v4 bytes => dotted bytes.toList
  | .v6 groups =>
    let groups := groups.toList
    match embedded? groups with
    | some bytes => "::ffff:".toList ++ dotted bytes
    | none =>
      let (start, run) := longestZeros groups 0 0 (0, 0)
      if 1 < run then
        coloned (groups.take start) ++ "::".toList ++ coloned (groups.drop (start + run))
      else coloned groups

def text (a : HostAddress) : String := String.ofList a.chars

end HostAddress

namespace SocketAddress

def chars (a : SocketAddress) : List Char :=
  let port := ':' :: Text.numeral 10 a.port.toNat
  match a.host with
  | .v4 _ => a.host.chars ++ port
  | .v6 _ =>
    let zone := if a.zone = 0 then [] else '%' :: Text.numeral 10 a.zone.toNat
    '[' :: a.host.chars ++ zone ++ ']' :: port

def text (a : SocketAddress) : String := String.ofList a.chars

end SocketAddress

end Workbench
