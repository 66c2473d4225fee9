import Rollout.Net.Ipv4
import Rollout.Text.Front

/-!
# Socket addresses

An address to listen on: `a.b.c.d:port`, or `[group:…:group]:port` with eight groups of up to four
hexadecimal digits, of which a run of zero groups may be left out once and the last two may be
spelt as an IPv4 address.
-/

namespace Rollout.Net

open Text (readChar?)

inductive SocketAddress where
  | v4 (host : Ipv4) (port : Nat)
  | v6 (groups : List Nat) (scope : Nat) (port : Nat)
  deriving DecidableEq, Repr

namespace SocketAddress

/-- Read a decimal number up to `greatest`, with any number of leading zeros. -/
def readNumber? (greatest : Nat) (s : List Char) : Option (Nat × List Char) :=
  let (ds, rest) := spanDigits 10 s
  if ds.isEmpty || greatest < numeral 10 ds then none else some (numeral 10 ds, rest)

/-- Read a group: one to four hexadecimal digits. -/
def readGroup? (s : List Char) : Option (Nat × List Char) :=
  let (ds, rest) := spanDigits 16 s
  if ds.isEmpty || 4 < ds.length then none else some (numeral 16 ds, rest)

/-- Read up to `limit` groups, the first of them without a colon before it.  An IPv4 address may
stand for the last two. -/
def readGroups (first : Bool) : Nat → List Char → List Nat × Bool × List Char
  | 0, s => ([], false, s)
  | limit + 1, s =>
    let start := if first then some s else readChar? ':' s
    let embedded := if limit = 0 then none else start.bind Ipv4.read?
    match embedded with
    | some (x, rest) => ([x.toNat / 0x10000, x.toNat % 0x10000], true, rest)
    | none =>
      match start.bind readGroup? with
      | none => ([], false, s)
      | some (g, rest) =>
        let (more, ipv4, rest) := readGroups false limit rest
        (g :: more, ipv4, rest)

def readIpv6? (s : List Char) : Option (List Nat × List Char) :=
  let (head, ipv4, rest) := readGroups true 8 s
  if head.length = 8 then some (head, rest)
  else if ipv4 then none
  else do
    let rest ← readChar? ':' (← readChar? ':' rest)
    let (tail, _, rest) := readGroups true (7 - head.length) rest
    some (head ++ List.replicate (8 - head.length - tail.length) 0 ++ tail, rest)

/-- Read the port after a colon; it ends the text. -/
def readPort? (s : List Char) : Option Nat := do
  match ← readNumber? 65535 (← readChar? ':' s) with
  | (port, []) => some port
  | _ => none

def parse? (text : String) : Option SocketAddress :=
  match text.toList with
  | '[' :: s => do
    let (groups, rest) ← readIpv6? s
    let (scope, rest) ← match rest with
      | '%' :: rest => readNumber? 0xFFFFFFFF rest
      | rest => some (0, rest)
    some (.v6 groups scope (← readPort? (← readChar? ']' rest)))
  | s => do
    let (host, rest) ← Ipv4.read? s
    some (.v4 host (← readPort? rest))

def port : SocketAddress → Nat
  | v4 _ port => port
  | v6 _ _ port => port

def zeroRun (groups : List Nat) : Nat := (groups.takeWhile (· == 0)).length

/-- The start and the length of the longest run of zeros, the first of equals. -/
def longestRun (groups : List Nat) : Nat × Nat :=
  (List.range groups.length).foldl
    (fun best i ↦ let n := zeroRun (groups.drop i); if best.2 < n then (i, n) else best) (0, 0)

def groupsText (groups : List Nat) : String :=
  ":".intercalate (groups.map fun g ↦ String.ofList (Nat.toDigits 16 g))

/-- The text of an IPv6 address: its longest run of two zero groups or more is left out. -/
def ipv6Text (groups : List Nat) : String :=
  match groups with
  | [0, 0, 0, 0, 0, 0xFFFF, a, b] => "::ffff:" ++ Ipv4.text (UInt32.ofNat (a * 0x10000 + b))
  | groups =>
    let (start, n) := longestRun groups
    if 1 < n then groupsText (groups.take start) ++ "::" ++ groupsText (groups.drop (start + n))
    else groupsText groups

def text : SocketAddress → String
  | v4 host port => host.text ++ ":" ++ toString port
  | v6 groups scope port =>
    "[" ++ ipv6Text groups ++ (if scope = 0 then "" else "%" ++ toString scope) ++ "]:" ++
      toString port

end SocketAddress
end Rollout.Net
