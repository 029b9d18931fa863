import LoopbackLock.Address.Host
import LoopbackLock.Text.Numeral

/-!
# Reading addresses

An octet is one to three decimal digits without a leading zero; a group is one to four hexadecimal
digits. A double colon stands for one group or more, and the last two groups may be written as an
IPv4 address. Ports and zones are decimal and may have leading zeros.
-/

namespace LoopbackLock.Host

/-- A number of at most `width` digits: all the digits there are, or nothing. -/
def readNumber (radix width : Nat) (cs : List Char) : Option (Nat × List Char) :=
  let ds := cs.takeWhile fun c => (Text.digitOf? radix c).isSome
  if ds.isEmpty || width < ds.length then none
  else (Text.ofDigits? radix ds).map (·, cs.drop ds.length)

/-- An octet. -/
def readOctet (cs : List Char) : Option (UInt8 × List Char) :=
  match readNumber 10 3 cs with
  | some (n, rest) =>
    if 255 < n || (cs.head? == some '0' && 1 < cs.length - rest.length) then none
    else some (n.toUInt8, rest)
  | none => none

/-- Drops one given character. -/
def expect (c : Char) : List Char → Option (List Char)
  | [] => none
  | d :: cs => if c = d then some cs else none

/-- Four octets with points between them. -/
def readDotted (cs : List Char) : Option ((UInt8 × UInt8 × UInt8 × UInt8) × List Char) := do
  let (a, cs) ← readOctet cs
  let cs ← expect '.' cs
  let (b, cs) ← readOctet cs
  let cs ← expect '.' cs
  let (c, cs) ← readOctet cs
  let cs ← expect '.' cs
  let (d, cs) ← readOctet cs
  return ((a, b, c, d), cs)

/-- What a run of groups came to: the groups, whether a dotted address ended it, and the rest. -/
structure GroupRun where
  groups : List UInt16
  dotted : Bool
  rest : List Char

/-- Reads at most `limit` groups; `first` tells that no colon goes before the next one. The run
ends before the first group that cannot be read. -/
def readGroups : Nat → Bool → List Char → GroupRun
  | 0, _, cs => ⟨[], false, cs⟩
  | limit + 1, first, cs =>
    match if first then some cs else expect ':' cs with
    | none => ⟨[], false, cs⟩
    | some body =>
      match if 1 ≤ limit then readDotted body else none with
      | some ((a, b, c, d), rest) => ⟨[group a b, group c d], true, rest⟩
      | none =>
        match readNumber 16 4 body with
        | none => ⟨[], false, cs⟩
        | some (g, rest) =>
          let run := readGroups limit false rest
          ⟨g.toUInt16 :: run.groups, run.dotted, run.rest⟩

/-- Eight groups as an address. -/
def ofGroups? (gs : List UInt16) : Option Host :=
  if h : gs.length = 8 then some (v6 ⟨gs.toArray, by simp [h]⟩) else none

/-- Reads an IPv6 address. -/
def readV6 (cs : List Char) : Option (Host × List Char) := do
  let head := readGroups 8 true cs
  if head.groups.length = 8 then return (← ofGroups? head.groups, head.rest)
  if head.dotted then none
  let cs ← expect ':' head.rest
  let cs ← expect ':' cs
  let tail := readGroups (7 - head.groups.length) true cs
  let zeros := List.replicate (8 - head.groups.length - tail.groups.length) 0
  return (← ofGroups? (head.groups ++ zeros ++ tail.groups), tail.rest)

/-- Reads an IPv4 address. -/
def readV4 (cs : List Char) : Option (Host × List Char) :=
  (readDotted cs).map fun ((a, b, c, d), rest) => (v4 a b c d, rest)

/-- The address a text is, if it is one as a whole. -/
def parse? (s : String) : Option Host :=
  match (readV4 s.toList).orElse fun _ => readV6 s.toList with
  | some (h, []) => some h
  | _ => none

end LoopbackLock.Host

namespace LoopbackLock.Endpoint

/-- Reads a decimal number up to a limit, with as many leading zeros as there are. -/
def readDecimal (limit : Nat) (cs : List Char) : Option (Nat × List Char) := do
  let (n, rest) ← Host.readNumber 10 cs.length cs
  if n ≤ limit then some (n, rest) else none

/-- Reads a port. -/
def readPort (cs : List Char) : Option (UInt16 × List Char) :=
  (readDecimal 65535 cs).map fun (n, rest) => (n.toUInt16, rest)

/-- Reads a zone after a percent sign. Where there is none it is 0, and nothing is read. -/
def readZone (cs : List Char) : UInt32 × List Char :=
  match (Host.expect '%' cs).bind (readDecimal 4294967295) with
  | some (n, rest) => (n.toUInt32, rest)
  | none => (0, cs)

/-- Reads an IPv6 address in brackets, with a zone if there is one. -/
def readBracketed (cs : List Char) : Option ((Host × UInt32) × List Char) := do
  let (host, rest) ← Host.readV6 (← Host.expect '[' cs)
  let (zone, rest) := readZone rest
  return ((host, zone), ← Host.expect ']' rest)

/-- The endpoint a text is: a dotted address or a bracketed IPv6 address, a colon and a port. -/
def parse? (s : String) : Option Endpoint := do
  let cs := s.toList
  let ((host, zone), rest) ←
    match Host.readV4 cs with
    | some (host, rest) => some ((host, 0), rest)
    | none => readBracketed cs
  match ← readPort (← Host.expect ':' rest) with
  | (port, []) => some { host, port, zone }
  | _ => none

end LoopbackLock.Endpoint
