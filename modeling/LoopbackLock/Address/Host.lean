/-!
# Hosts and endpoints

An IPv4 address is four octets, an IPv6 address eight groups of sixteen bits. An endpoint is an
address with a port, and with a zone where an IPv6 address needs one.
-/

namespace LoopbackLock

/-- An internet address. -/
inductive Host
  /-- Four octets. -/
  | v4 (a b c d : UInt8)
  /-- Eight groups. -/
  | v6 (groups : Vector UInt16 8)
  deriving DecidableEq, Repr

namespace Host

/-- The address 127.0.0.1. -/
def loopback : Host := v4 127 0 0 1

/-- The address ::1. -/
def loopback6 : Host := v6 #v[0, 0, 0, 0, 0, 0, 0, 1]

/-- An address that leads back to the machine it is used on: the whole block 127.0.0.0/8, and
::1 alone. An IPv4 address inside an IPv6 one does not count. -/
def isLoopback : Host → Bool
  | v4 a _ _ _ => a == 127
  | v6 groups => v6 groups == loopback6

/-- The group that holds two octets. -/
def group (high low : UInt8) : UInt16 := high.toUInt16 * 256 + low.toUInt16

/-- The two octets of a group. -/
def octets (g : UInt16) : UInt8 × UInt8 := ((g / 256).toUInt8, g.toUInt8)

/-- The IPv4 address that an IPv6 address of the form ::ffff:a.b.c.d stands for. -/
def mapped? (groups : Vector UInt16 8) : Option Host :=
  match groups.toList with
  | [0, 0, 0, 0, 0, 0xFFFF, g, h] =>
    let (a, b) := octets g
    let (c, d) := octets h
    some (v4 a b c d)
  | _ => none

/-- The address that receives what is sent to this one: a mapped address is its IPv4 address. -/
def plain : Host → Host
  | v4 a b c d => v4 a b c d
  | v6 groups => (mapped? groups).getD (v6 groups)

/-- An IPv6 address that is for one link alone, fe80::/10. -/
def isLinkLocal : Host → Bool
  | v4 .. => false
  | v6 groups => groups[0] &&& 0xFFC0 == 0xFE80

/-- An IPv6 address of a group of machines, ff00::/8. -/
def isMulticast6 : Host → Bool
  | v4 .. => false
  | v6 groups => groups[0] &&& 0xFF00 == 0xFF00

/-- The address that stands for every address of its kind. -/
def isUnspecified : Host → Bool
  | v4 a b c d => a == 0 && b == 0 && c == 0 && d == 0
  | v6 groups => groups.toList.all (· == 0)

end Host

/-- An address and a port. -/
structure Endpoint where
  host : Host
  port : UInt16
  /-- Which of the networks that use the same IPv6 addresses is meant; 0 names none. -/
  zone : UInt32 := 0
  deriving DecidableEq, Repr

end LoopbackLock
