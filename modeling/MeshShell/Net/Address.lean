import MeshShell.Text.Decimal
import MeshShell.Text.Hex

/-! # Literal network addresses

The grammar of IPv4 and IPv6 addresses as hosts write them: four decimal parts
without leading zeros, or eight groups of up to four hexadecimal digits, of
which one run may be left out and the last two may be an IPv4 address.
-/
namespace MeshShell

inductive Address
  | v4 (parts : List Nat)
  | v6 (groups : List Nat)
  deriving DecidableEq, Repr

namespace Address

/-- A reader takes a first part of the text and leaves the rest. -/
abbrev Reader (α : Type) := List Char → Option (α × List Char)

def decimalValue? (c : Char) : Option Nat :=
  if Decimal.isDigit c then some (c.toNat - 48) else none

/-- The value and the number of the leading digits, and what follows them. -/
def leading (base : Nat) (value? : Char → Option Nat) : Nat → Nat → List Char → Nat × Nat × List Char
  | n, count, [] => (n, count, [])
  | n, count, c :: cs =>
    match value? c with
    | some d => leading base value? (base * n + d) (count + 1) cs
    | none => (n, count, c :: cs)

/-- One to three digits, at most 255, and no leading zero. -/
def part : Reader Nat := fun cs =>
  let (n, count, rest) := leading 10 decimalValue? 0 0 cs
  if count = 0 ∨ 3 < count ∨ 255 < n ∨ (cs.head? = some '0' ∧ 1 < count) then none
  else some (n, rest)

/-- One to four hexadecimal digits. -/
def group : Reader Nat := fun cs =>
  let (n, count, rest) := leading 16 Hex.value? 0 0 cs
  if count = 0 ∨ 4 < count then none else some (n, rest)

def mark (c : Char) : Reader Unit
  | d :: rest => if c = d then some ((), rest) else none
  | [] => none

def dotted : Reader (List Nat) := fun cs => do
  let (a, cs) ← part cs
  let (_, cs) ← mark '.' cs
  let (b, cs) ← part cs
  let (_, cs) ← mark '.' cs
  let (c, cs) ← part cs
  let (_, cs) ← mark '.' cs
  let (d, cs) ← part cs
  return ([a, b, c, d], cs)

/-- Every group but the first stands behind a colon. -/
def separated {α : Type} (first : Bool) (r : Reader α) : Reader α := fun cs =>
  if first then r cs else do
    let (_, cs) ← mark ':' cs
    r cs

/-- Reads at most `limit` groups. Where two are still allowed a dotted address may stand for
them and ends the run; the flag tells that it did. -/
def groups (limit : Nat) (first : Bool) (cs : List Char) : List Nat × Bool × List Char :=
  match limit with
  | 0 => ([], false, cs)
  | limit + 1 =>
    match if limit = 0 then none else separated first dotted cs with
    | some ([a, b, c, d], rest) => ([256 * a + b, 256 * c + d], true, rest)
    | _ =>
      match separated first group cs with
      | none => ([], false, cs)
      | some (g, rest) =>
        let (gs, ended, rest) := groups limit false rest
        (g :: gs, ended, rest)

def grouped : Reader (List Nat) := fun cs => do
  let (head, ended, cs) := groups 8 true cs
  if head.length = 8 then return (head, cs)
  if ended then none
  let (_, cs) ← mark ':' cs
  let (_, cs) ← mark ':' cs
  let (tail, _, cs) := groups (7 - head.length) true cs
  return (head ++ List.replicate (8 - head.length - tail.length) 0 ++ tail, cs)

/-- The address a whole text stands for. -/
def parse? (cs : List Char) : Option Address :=
  match dotted cs with
  | some (parts, []) => some (.v4 parts)
  | some _ => none
  | none =>
    match grouped cs with
    | some (gs, []) => some (.v6 gs)
    | _ => none

def isLoopback : Address → Bool
  | .v4 parts => parts.head? == some 127
  | .v6 gs => gs == [0, 0, 0, 0, 0, 0, 0, 1]

end Address

end MeshShell
