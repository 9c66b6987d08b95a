/-
SpatialGrammar/Digest/Blake3.lean

The hash function BLAKE3 with a 32-byte result.

The input is cut into chunks of 1024 bytes and these into blocks of 64.  A chunk
chains its blocks through `compress`; chunks are the leaves of a binary tree whose
inner nodes compress the chaining values of their two children.  The left subtree is
always as full as it can be, which is what pairing neighbours level by level gives.
The last compression of the root carries a flag of its own, so a node is kept as the
arguments of its last compression until its place in the tree is known.
-/

namespace SpatialGrammar

/-- A 256-bit digest. -/
abbrev Digest := Vector UInt8 32

namespace Blake3

/-- Eight words that one compression hands to the next. -/
abbrev ChainingValue := Vector UInt32 8

/-- Sixteen words, of a message block or of the state of a compression. -/
abbrev Block := Vector UInt32 16

/-- The chaining value that a chunk starts from. -/
def start : ChainingValue :=
  #v[0x6a09e667, 0xbb67ae85, 0x3c6ef372, 0xa54ff53a, 0x510e527f, 0x9b05688c, 0x1f83d9ab,
    0x5be0cd19]

/-- Marks the first block of a chunk. -/
def chunkStart : UInt32 := 1

/-- Marks the last block of a chunk. -/
def chunkEnd : UInt32 := 2

/-- Marks an inner node. -/
def parent : UInt32 := 4

/-- Marks the last compression of the root. -/
def root : UInt32 := 8

/-- The word rotated toward its low end by `k` places. -/
def rotateRight (x k : UInt32) : UInt32 := (x >>> k) ||| (x <<< (32 - k))

/-- Mixes two message words into four words of the state. -/
def mix (v : Block) (a b c d : Fin 16) (x y : UInt32) : Block :=
  let va := v[a] + v[b] + x
  let vd := rotateRight (v[d] ^^^ va) 16
  let vc := v[c] + vd
  let vb := rotateRight (v[b] ^^^ vc) 12
  let va := va + vb + y
  let vd := rotateRight (vd ^^^ va) 8
  let vc := vc + vd
  let vb := rotateRight (vb ^^^ vc) 7
  (((v.set a va).set b vb).set c vc).set d vd

/-- One round: the columns of the state, then its diagonals. -/
def round (v m : Block) : Block :=
  let v := mix v 0 4 8 12 m[0] m[1]
  let v := mix v 1 5 9 13 m[2] m[3]
  let v := mix v 2 6 10 14 m[4] m[5]
  let v := mix v 3 7 11 15 m[6] m[7]
  let v := mix v 0 5 10 15 m[8] m[9]
  let v := mix v 1 6 11 12 m[10] m[11]
  let v := mix v 2 7 8 13 m[12] m[13]
  mix v 3 4 9 14 m[14] m[15]

/-- The order in which the next round takes the message words. -/
def permute (m : Block) : Block :=
  #v[m[2], m[6], m[3], m[10], m[7], m[0], m[4], m[13], m[1], m[11], m[12], m[5], m[9], m[14],
    m[15], m[8]]

/-- The given number of rounds, the message words permuted between them. -/
def rounds : Nat → Block → Block → Block
  | 0, v, _ => v
  | n + 1, v, m => rounds n (round v m) (permute m)

/-- The arguments of a compression. -/
structure Node where
  chaining : ChainingValue
  block : Block
  counter : UInt64
  blockLength : UInt32
  flags : UInt32

/-- The eight words that a compression gives. -/
def Node.compress (n : Node) : ChainingValue :=
  let v : Block := #v[n.chaining[0], n.chaining[1], n.chaining[2], n.chaining[3], n.chaining[4],
    n.chaining[5], n.chaining[6], n.chaining[7], start[0], start[1], start[2], start[3],
    n.counter.toUInt32, (n.counter >>> 32).toUInt32, n.blockLength, n.flags]
  let v := rounds 7 v n.block
  Vector.ofFn fun i : Fin 8 => v[i.val] ^^^ v[i.val + 8]

/-- The word whose bytes, the lowest first, start a list; missing bytes are zero. -/
def wordOfBytes (bytes : List UInt8) : UInt32 :=
  (bytes.take 4).foldr (fun b w => (w <<< 8) ||| b.toUInt32) 0

/-- The sixteen words of a block of at most 64 bytes. -/
def blockOfBytes (bytes : List UInt8) : Block :=
  Vector.ofFn fun i : Fin 16 => wordOfBytes (bytes.drop (4 * i.val))

/-- A list cut into pieces of `n` elements, the last one possibly shorter; at most `fuel`
pieces. -/
def pieces (n : Nat) : Nat → List UInt8 → List (List UInt8)
  | 0, _ => []
  | fuel + 1, bytes =>
    if bytes = [] then [] else bytes.take n :: pieces n fuel (bytes.drop n)

/-- A list cut into pieces of `n` elements; the empty list is one empty piece. -/
def cut (n : Nat) (bytes : List UInt8) : List (List UInt8) :=
  match pieces n (bytes.length / n + 1) bytes with
  | [] => [[]]
  | ps => ps

/-- The node of a chunk: its blocks are chained from `cv`, and the last one is left to compress. -/
def chainBlocks (counter : UInt64) (cv : ChainingValue) (flags : UInt32) :
    List (List UInt8) → Node
  | [] => ⟨cv, blockOfBytes [], counter, 0, flags ||| chunkEnd⟩
  | [b] => ⟨cv, blockOfBytes b, counter, UInt32.ofNat b.length, flags ||| chunkEnd⟩
  | b :: bs =>
    let node : Node := ⟨cv, blockOfBytes b, counter, UInt32.ofNat b.length, flags⟩
    chainBlocks counter node.compress 0 bs

/-- The node of the chunk with the given place in the input. -/
def chunkNode (counter : Nat) (bytes : List UInt8) : Node :=
  chainBlocks (UInt64.ofNat counter) start chunkStart (cut 64 bytes)

/-- The inner node over two nodes. -/
def parentNode (l r : Node) : Node := ⟨start, l.compress ++ r.compress, 0, 64, parent⟩

/-- The nodes of the next level; a last one without a neighbour is carried up. -/
def pairUp : List Node → List Node
  | l :: r :: rest => parentNode l r :: pairUp rest
  | rest => rest

/-- The root over a node and the nodes to the right of it, after at most `fuel` levels. -/
def rootNode : Nat → Node → List Node → Node
  | 0, n, _ => n
  | _ + 1, n, [] => n
  | fuel + 1, n, r :: rest => rootNode fuel (parentNode n r) (pairUp rest)

/-- The bytes of eight words, of each the lowest first. -/
def bytesOfWords (ws : ChainingValue) : Digest :=
  Vector.ofFn fun i : Fin 32 => (ws[i.val / 4] >>> (8 * UInt32.ofNat (i.val % 4))).toUInt8

/-- The digest of a list of bytes. -/
def hash (bytes : List UInt8) : Digest :=
  let nodes := (cut 1024 bytes).mapIdx chunkNode
  match nodes with
  | [] => bytesOfWords start
  | n :: rest =>
    let top := rootNode rest.length n rest
    bytesOfWords { top with flags := top.flags ||| root }.compress

end Blake3

end SpatialGrammar
