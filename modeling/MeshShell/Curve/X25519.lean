import MeshShell.Text.Utf8

/-! # Public keys on Curve25519

A public key is the u-coordinate of the private scalar times the base point,
found with the Montgomery ladder. The scalar is clamped for the
multiplication only, so the private bytes are kept as they were given.
-/
namespace MeshShell.X25519

/-- The prime of the field. -/
def prime : Nat := Nat.pow 2 255 - 19

def ofBytes (bytes : Bytes) : Nat := bytes.foldr (fun b n => b.toNat + 256 * n) 0

def toBytes : Nat → Nat → Bytes
  | 0, _ => []
  | n + 1, v => UInt8.ofNat v :: toBytes n (v / 256)

theorem length_toBytes (n v : Nat) : (toBytes n v).length = n := by
  induction n generalizing v with
  | zero => rfl
  | succ n ih => simp [toBytes, ih]

/-- A multiple of eight with its highest bit at place 254. -/
def clamp (k : Nat) : Nat := k % Nat.pow 2 254 / 8 * 8 + Nat.pow 2 254

def add (a b : Nat) : Nat := (a + b) % prime
def sub (a b : Nat) : Nat := (a + (prime - b)) % prime
def mul (a b : Nat) : Nat := a * b % prime

/-- The power of `a` whose exponent has the given bits, lowest first. -/
def power (a : Nat) : List Bool → Nat
  | [] => 1
  | b :: bits =>
    let r := power (mul a a) bits
    if b then mul a r else r

def bits (width n : Nat) : List Bool := (List.range width).map (Nat.testBit n)

def inverse (a : Nat) : Nat := power a (bits 255 (prime - 2))

/-- Two points in projective coordinates whose difference is the base point. -/
structure Ladder where
  x2 : Nat
  z2 : Nat
  x3 : Nat
  z3 : Nat

def Ladder.swap (l : Ladder) : Ladder := ⟨l.x3, l.z3, l.x2, l.z2⟩

/-- Doubles the first point and adds it to the second. -/
def Ladder.double (u : Nat) (l : Ladder) : Ladder :=
  let a := add l.x2 l.z2
  let aa := mul a a
  let b := sub l.x2 l.z2
  let bb := mul b b
  let e := sub aa bb
  let da := mul (sub l.x3 l.z3) a
  let cb := mul (add l.x3 l.z3) b
  let s := add da cb
  let d := sub da cb
  { x2 := mul aa bb
    z2 := mul e (add aa (mul 121665 e))
    x3 := mul s s
    z3 := mul u (mul d d) }

def Ladder.step (u : Nat) (l : Ladder) (bit : Bool) : Ladder :=
  if bit then (l.swap.double u).swap else l.double u

def multiply (k u : Nat) : Nat :=
  let l := (bits 255 k).reverse.foldl (Ladder.step u) ⟨1, 0, u, 1⟩
  mul l.x2 (inverse l.z2)

def basePoint : Nat := 9

def publicKey (secret : Bytes) : Bytes :=
  toBytes 32 (multiply (clamp (ofBytes secret)) basePoint)

theorem length_publicKey (secret : Bytes) : (publicKey secret).length = 32 :=
  length_toBytes 32 _

end MeshShell.X25519
