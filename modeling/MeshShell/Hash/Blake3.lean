import MeshShell.Text.Utf8

/-! # BLAKE3 in hash mode

The input is cut into chunks of 1024 bytes, a chunk into blocks of 64. Each
chunk is compressed block by block into a chaining value. The chaining values
are joined in pairs, level by level, and the last join is marked as the root.
-/
namespace MeshShell.Blake3

abbrev Word := UInt32
abbrev Chain := Vector Word 8
abbrev Block := Vector Word 16

def iv : Chain :=
  #v[0x6A09E667, 0xBB67AE85, 0x3C6EF372, 0xA54FF53A, 0x510E527F, 0x9B05688C, 0x1F83D9AB, 0x5BE0CD19]

def chunkStart : Word := 1
def chunkEnd : Word := 2
def parent : Word := 4
def root : Word := 8

def rotateRight (w n : Word) : Word := (w >>> n) ||| (w <<< (32 - n))

/-- The quarter round on four cells of the state with two message words. -/
def quarter (s : Block) (a b c d : Fin 16) (x y : Word) : Block :=
  let s := s.set a (s[a] + s[b] + x)
  let s := s.set d (rotateRight (s[d] ^^^ s[a]) 16)
  let s := s.set c (s[c] + s[d])
  let s := s.set b (rotateRight (s[b] ^^^ s[c]) 12)
  let s := s.set a (s[a] + s[b] + y)
  let s := s.set d (rotateRight (s[d] ^^^ s[a]) 8)
  let s := s.set c (s[c] + s[d])
  s.set b (rotateRight (s[b] ^^^ s[c]) 7)

/-- Columns first, then diagonals. -/
def round (s m : Block) : Block :=
  let s := quarter s 0 4 8 12 m[0] m[1]
  let s := quarter s 1 5 9 13 m[2] m[3]
  let s := quarter s 2 6 10 14 m[4] m[5]
  let s := quarter s 3 7 11 15 m[6] m[7]
  let s := quarter s 0 5 10 15 m[8] m[9]
  let s := quarter s 1 6 11 12 m[10] m[11]
  let s := quarter s 2 7 8 13 m[12] m[13]
  quarter s 3 4 9 14 m[14] m[15]

def permute (m : Block) : Block :=
  #v[m[2], m[6], m[3], m[10], m[7], m[0], m[4], m[13],
     m[1], m[11], m[12], m[5], m[9], m[14], m[15], m[8]]

def rounds : Nat → Block → Block → Block
  | 0, s, _ => s
  | n + 1, s, m => rounds n (round s m) (permute m)

/-- The chaining value after one block. -/
def compress (h : Chain) (m : Block) (counter : Nat) (length flags : Word) : Chain :=
  let low := UInt32.ofNat counter
  let high := UInt32.ofNat (counter / Nat.pow 2 32)
  let s : Block := #v[h[0], h[1], h[2], h[3], h[4], h[5], h[6], h[7],
    iv[0], iv[1], iv[2], iv[3], low, high, length, flags]
  let s := rounds 7 s m
  #v[s[0] ^^^ s[8], s[1] ^^^ s[9], s[2] ^^^ s[10], s[3] ^^^ s[11],
     s[4] ^^^ s[12], s[5] ^^^ s[13], s[6] ^^^ s[14], s[7] ^^^ s[15]]

def wordAt (bytes : Array UInt8) (i : Nat) : Word :=
  let byte := fun k => (bytes[4 * i + k]?.getD 0).toUInt32
  byte 0 ||| (byte 1 <<< 8) ||| (byte 2 <<< 16) ||| (byte 3 <<< 24)

/-- A short block is filled with zeros. -/
def block (bytes : Bytes) : Block :=
  let cells := bytes.toArray
  Vector.ofFn fun i => wordAt cells i.val

/-- The pieces of a list, each of `size` elements but the last. -/
def pieces {α : Type} (size : Nat) (xs : List α) : List (List α) :=
  if xs.length ≤ size ∨ size = 0 then [xs]
  else xs.take size :: pieces size (xs.drop size)
termination_by xs.length
decreasing_by simp only [List.length_drop]; omega

def chunkFrom (counter : Nat) (mark : Word) : Word → Chain → List Bytes → Chain
  | _, h, [] => h
  | start, h, [b] =>
    compress h (block b) counter (UInt32.ofNat b.length) (start ||| chunkEnd ||| mark)
  | start, h, b :: rest =>
    chunkFrom counter mark 0 (compress h (block b) counter 64 start) rest

/-- `mark` is `root` for an input of a single chunk and zero otherwise. -/
def chunk (counter : Nat) (mark : Word) (bytes : Bytes) : Chain :=
  chunkFrom counter mark chunkStart iv (pieces 64 bytes)

def join (mark : Word) (l r : Chain) : Chain :=
  compress iv (l ++ r) 0 64 (parent ||| mark)

/-- One level of the tree. A chaining value without a partner moves up as it is. -/
def level : List Chain → List Chain
  | l :: r :: rest => join 0 l r :: level rest
  | rest => rest

theorem length_level_le (hs : List Chain) : (level hs).length ≤ hs.length := by
  fun_induction level hs <;> simp_all; omega

def top : List Chain → Chain
  | [] => iv
  | [h] => h
  | [l, r] => join root l r
  | l :: r :: h :: rest => top (level (l :: r :: h :: rest))
termination_by hs => hs.length
decreasing_by
  have := length_level_le (h :: rest)
  simp only [level, List.length_cons] at this ⊢
  omega

def wordBytes (w : Word) : Bytes :=
  [w.toUInt8, (w >>> 8).toUInt8, (w >>> 16).toUInt8, (w >>> 24).toUInt8]

def tree (bytes : Bytes) : Chain :=
  match pieces 1024 bytes with
  | [only] => chunk 0 root only
  | many => top (many.zipIdx.map fun (part, i) => chunk i 0 part)

/-- The digest of 32 bytes. -/
def hash (bytes : Bytes) : Bytes := (tree bytes).toList.flatMap wordBytes

theorem length_flatMap_wordBytes (ws : List Word) :
    (ws.flatMap wordBytes).length = 4 * ws.length := by
  induction ws with
  | nil => rfl
  | cons w ws ih => simp [wordBytes] at ih ⊢; omega

theorem length_hash (bytes : Bytes) : (hash bytes).length = 32 := by
  rw [hash, length_flatMap_wordBytes, Vector.length_toList]

/-- The first 16 bytes of the digest. -/
def truncated (bytes : Bytes) : Bytes := (hash bytes).take 16

theorem length_truncated (bytes : Bytes) : (truncated bytes).length = 16 := by
  simp [truncated, length_hash]

end MeshShell.Blake3
