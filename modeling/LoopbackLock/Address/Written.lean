import LoopbackLock.Address.Host
import LoopbackLock.Text.Numeral

/-!
# Addresses as text

IPv4 addresses are dotted decimals. IPv6 addresses are hexadecimal groups in lower case between
colons; the longest run of zero groups, the first of the longest if there are several, is written
as a double colon when it has two groups or more. A mapped address keeps its dotted form.
-/

namespace LoopbackLock.Host

/-- Joins pieces with a separator between them. -/
def joinWith (sep : Char) : List (List Char) → List Char
  | [] => []
  | [p] => p
  | p :: ps => p ++ sep :: joinWith sep ps

/-- Octets as dotted decimals. -/
def dotted (a b c d : UInt8) : List Char :=
  joinWith '.' ([a, b, c, d].map fun o => Text.digits 10 o.toNat)

/-- Groups in hexadecimal, with colons between them. -/
def hexGroups (gs : List UInt16) : List Char :=
  joinWith ':' (gs.map fun g => Text.digits 16 g.toNat)

/-- How many zero groups a list starts with. -/
def leadingZeros (gs : List UInt16) : Nat := (gs.takeWhile (· == 0)).length

/-- Where the first of the longest runs of zero groups starts, and how many groups it has. -/
def longestZeros : List UInt16 → Nat × Nat
  | [] => (0, 0)
  | g :: gs =>
    let own := leadingZeros (g :: gs)
    let (start, len) := longestZeros gs
    if len ≤ own then (0, own) else (start + 1, len)

/-- The text of eight groups. -/
def compressed (gs : List UInt16) : List Char :=
  let (start, len) := longestZeros gs
  if 2 ≤ len then
    hexGroups (gs.take start) ++ [':', ':'] ++ hexGroups (gs.drop (start + len))
  else hexGroups gs

/-- The characters of an address. -/
def chars : Host → List Char
  | v4 a b c d => dotted a b c d
  | v6 groups =>
    match mapped? groups with
    | some (v4 a b c d) => "::ffff:".toList ++ dotted a b c d
    | _ => compressed groups.toList

/-- An address as text. -/
def text (h : Host) : String := String.ofList h.chars

end LoopbackLock.Host

namespace LoopbackLock.Endpoint

/-- The zone of an endpoint as it is written behind the address: not at all if it names none. -/
def zoneText (e : Endpoint) : String :=
  if e.zone = 0 then "" else "%" ++ Text.decimal e.zone.toNat

/-- An endpoint as text, given how its port is to be written; the brackets keep the colons of an
IPv6 address apart from the port's. -/
def textWith (e : Endpoint) (port : String) : String :=
  match e.host with
  | .v4 .. => e.host.text ++ ":" ++ port
  | .v6 _ => "[" ++ e.host.text ++ e.zoneText ++ "]:" ++ port

/-- An endpoint as text. -/
def text (e : Endpoint) : String := e.textWith (Text.decimal e.port.toNat)

end LoopbackLock.Endpoint
