/-
  Pagemark.Digest.Blake3 — the BLAKE3 hash of a list of bytes, with its keyed and
  key-deriving modes.

  The input is divided into chunks of 1024 bytes and each chunk into blocks of 64. A chunk
  folds its blocks into a chaining value of eight words; a tree over the chunks, whose left
  part always holds the greatest power of two of chunks that leaves one over, folds pairs of
  chaining values. The last compression, of the only chunk or of the root pair, is done with
  the root flag and gives the digest. A `Node` is a compression not yet done, so that it can be
  finished as an inner node or as the root.
-/

import Pagemark.Digest.LittleEndian

namespace Pagemark.Digest

/-- Eight words: a chaining value, a key, or a digest. -/
abbrev Words := Vector UInt32 8

/-- Sixteen words: a message block or the working state. -/
abbrev Block := Vector UInt32 16

/-- The bytes of the words, each least significant byte first. -/
def Words.bytes (w : Words) : List UInt8 := w.toList.flatMap fun x => littleEndian 4 x.toNat

namespace Blake3

def initial : Words :=
  #v[0x6A09E667, 0xBB67AE85, 0x3C6EF372, 0xA54FF53A, 0x510E527F, 0x9B05688C, 0x1F83D9AB, 0x5BE0CD19]

def chunkStart : UInt32 := 1
def chunkEnd : UInt32 := 2
def parent : UInt32 := 4
def root : UInt32 := 8
def keyedHash : UInt32 := 16
def deriveKeyContext : UInt32 := 32
def deriveKeyMaterial : UInt32 := 64

def rotateRight (x : UInt32) (n : UInt32) : UInt32 := (x >>> n) ||| (x <<< (32 - n))

/-- Mixes two message words into one column or diagonal of the state. -/
def mix (s : Block) (a b c d : Fin 16) (x y : UInt32) : Block :=
  let va := s[a] + s[b] + x
  let vd := rotateRight (s[d] ^^^ va) 16
  let vc := s[c] + vd
  let vb := rotateRight (s[b] ^^^ vc) 12
  let va := va + vb + y
  let vd := rotateRight (vd ^^^ va) 8
  let vc := vc + vd
  let vb := rotateRight (vb ^^^ vc) 7
  (((s.set a va).set b vb).set c vc).set d vd

/-- Mixes a block into the four columns and then into the four diagonals. -/
def round (s m : Block) : Block :=
  let s := mix s 0 4 8 12 m[0] m[1]
  let s := mix s 1 5 9 13 m[2] m[3]
  let s := mix s 2 6 10 14 m[4] m[5]
  let s := mix s 3 7 11 15 m[6] m[7]
  let s := mix s 0 5 10 15 m[8] m[9]
  let s := mix s 1 6 11 12 m[10] m[11]
  let s := mix s 2 7 8 13 m[12] m[13]
  mix s 3 4 9 14 m[14] m[15]

/-- The order of the message words for the next round. -/
def permute (m : Block) : Block :=
  #v[m[2], m[6], m[3], m[10], m[7], m[0], m[4], m[13], m[1], m[11], m[12], m[5], m[9], m[14], m[15], m[8]]

def rounds : Nat → Block → Block → Block
  | 0, s, _ => s
  | n + 1, s, m => rounds n (round s m) (permute m)

/-- A compression not yet done. -/
structure Node where
  chaining : Words
  block : Block
  counter : UInt64
  length : UInt32
  flags : UInt32

/-- The chaining value of a node, compressed with `extra` flags. -/
def Node.compress (node : Node) (extra : UInt32) : Words :=
  let h := node.chaining
  let start : Block :=
    #v[h[0], h[1], h[2], h[3], h[4], h[5], h[6], h[7], initial[0], initial[1], initial[2], initial[3],
      node.counter.toUInt32, (node.counter >>> 32).toUInt32, node.length, node.flags ||| extra]
  let s := rounds 7 start node.block
  Vector.ofFn fun i => s[i] ^^^ s[i.val + 8]

/-- Key words and domain flag: what tells the modes apart. -/
structure Mode where
  key : Words
  flags : UInt32

/-- The message words of at most 64 bytes, filled up with zeros. -/
def blockOf (bytes : List UInt8) : Block :=
  let filled := bytes.toArray
  let byte (i : Nat) : UInt32 := (filled[i]?.getD 0).toUInt32
  Vector.ofFn fun i =>
    byte (4 * i) ||| (byte (4 * i + 1) <<< 8) ||| (byte (4 * i + 2) <<< 16) ||| (byte (4 * i + 3) <<< 24)

/-- Groups of `size + 1`, the last one possibly shorter; none for the empty list. -/
def groups (size : Nat) (bytes : List UInt8) : List (List UInt8) :=
  match bytes with
  | [] => []
  | b :: bs => (b :: bs.take size) :: groups size (bs.drop size)
termination_by bytes.length
decreasing_by simp only [List.length_drop, List.length_cons]; omega

/-- Folds the blocks of a chunk; the last one stays undone. -/
def chunkFrom (mode : Mode) (counter : UInt64) (start : UInt32) (chaining : Words) : List (List UInt8) → Node
  | [] => ⟨chaining, blockOf [], counter, 0, mode.flags ||| start ||| chunkEnd⟩
  | [last] => ⟨chaining, blockOf last, counter, .ofNat last.length, mode.flags ||| start ||| chunkEnd⟩
  | bytes :: more =>
    let node : Node := ⟨chaining, blockOf bytes, counter, 64, mode.flags ||| start⟩
    chunkFrom mode counter 0 (node.compress 0) more

def chunk (mode : Mode) (counter : UInt64) (bytes : List UInt8) : Node :=
  chunkFrom mode counter chunkStart mode.key (groups 63 bytes)

/-- The node above two chaining values. -/
def join (mode : Mode) (left right : Words) : Node :=
  ⟨mode.key,
    #v[left[0], left[1], left[2], left[3], left[4], left[5], left[6], left[7],
      right[0], right[1], right[2], right[3], right[4], right[5], right[6], right[7]],
    0, 64, mode.flags ||| parent⟩

/-- How many of `n + 2` chunks stand left of the root: the greatest power of two below `n + 2`. -/
def leftCount (n : Nat) : Nat := Nat.pow 2 (Nat.log2 (n + 1))

theorem leftCount_pos (n : Nat) : 0 < leftCount n := Nat.two_pow_pos _

theorem leftCount_le (n : Nat) : leftCount n ≤ n + 1 := Nat.log2_self_le (by omega)

/-- The tree over the chunks, the first of which has number `counter`. -/
def tree (mode : Mode) (counter : Nat) (chunks : List (List UInt8)) : Node :=
  match chunks with
  | [] => chunk mode (.ofNat counter) []
  | [only] => chunk mode (.ofNat counter) only
  | a :: b :: more =>
    let n := leftCount more.length
    let left := (tree mode counter ((a :: b :: more).take n)).compress 0
    let right := (tree mode (counter + n) ((a :: b :: more).drop n)).compress 0
    join mode left right
termination_by chunks.length
decreasing_by
  · have := leftCount_le more.length
    simp only [List.length_take, List.length_cons]; omega
  · have := leftCount_pos more.length
    simp only [List.length_drop, List.length_cons]; omega

/-- The digest of the bytes in a mode. -/
def run (mode : Mode) (bytes : List UInt8) : Words := (tree mode 0 (groups 1023 bytes)).compress root

/-- The plain hash. -/
def hash (bytes : List UInt8) : Words := run ⟨initial, 0⟩ bytes

/-- The hash under a key. -/
def keyed (key : Words) (bytes : List UInt8) : Words := run ⟨key, keyedHash⟩ bytes

/-- A key made for the use that `context` names, from secret material of any length. -/
def deriveKey (context material : List UInt8) : Words :=
  run ⟨run ⟨initial, deriveKeyContext⟩ context, deriveKeyMaterial⟩ material

end Blake3

end Pagemark.Digest
