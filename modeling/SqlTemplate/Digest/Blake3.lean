/-!
# BLAKE3

The BLAKE3 digest of 256 bits. The input is cut into chunks of 1024 octets and these into blocks
of 64; chunks are the leaves of a binary tree whose left subtrees are full, and the digest is
taken from its root.
-/

set_option autoImplicit false

namespace SqlTemplate

namespace Blake3

/-! ## Words -/

/-- Four words, one row of the state. -/
structure Quad where
  a : UInt32
  b : UInt32
  c : UInt32
  d : UInt32
deriving Repr, DecidableEq

namespace Quad

/-- Combines two rows word by word. -/
def zip (f : UInt32 → UInt32 → UInt32) (x y : Quad) : Quad :=
  ⟨f x.a y.a, f x.b y.b, f x.c y.c, f x.d y.d⟩

/-- The row moved by one place to the left. -/
def turn (x : Quad) : Quad :=
  ⟨x.b, x.c, x.d, x.a⟩

/-- The words of a row. -/
def toList (x : Quad) : List UInt32 :=
  [x.a, x.b, x.c, x.d]

/-- The row of the words at the given places. -/
def pick (words : List UInt32) (i j k l : Nat) : Quad :=
  ⟨words.getD i 0, words.getD j 0, words.getD k 0, words.getD l 0⟩

end Quad

/-- A word rotated to the right. -/
def rotate (count : UInt32) (x : UInt32) : UInt32 :=
  (x >>> count) ||| (x <<< (32 - count))

/-- The exclusive or of two rows, rotated to the right word by word. -/
def turnXor (count : UInt32) (x y : Quad) : Quad :=
  x.zip (fun u v => rotate count (u ^^^ v)) y

/-- The word of octets, the lowest first. -/
def littleEndian (data : List UInt8) : UInt32 :=
  data.foldr (fun octet word => octet.toUInt32 ||| (word <<< 8)) 0

/-- The octets of a word, the lowest first. -/
def octets (word : UInt32) : List UInt8 :=
  [word.toUInt8, (word >>> 8).toUInt8, (word >>> 16).toUInt8, (word >>> 24).toUInt8]

/-! ## Cutting -/

/-- Cuts a list into pieces of a size, the last of which may be shorter. -/
def pieces {α : Type} (size : Nat) (items : List α) : List (List α) :=
  (List.range ((items.length + size - 1) / size)).map fun i => (items.drop (size * i)).take size

/-- The words of a block that is filled up with zeros. -/
def blockWords (block : List UInt8) : List UInt32 :=
  (pieces 4 (block ++ List.replicate (64 - block.length) 0)).map littleEndian

/-! ## Compression -/

/-- The state: four rows. -/
structure State where
  top : Quad
  upper : Quad
  lower : Quad
  bottom : Quad

/-- Mixes the columns of a state with two rows of message words. -/
def State.mix (s : State) (x y : Quad) : State :=
  let top := (s.top.zip (· + ·) s.upper).zip (· + ·) x
  let bottom := turnXor 16 s.bottom top
  let lower := s.lower.zip (· + ·) bottom
  let upper := turnXor 12 s.upper lower
  let top := (top.zip (· + ·) upper).zip (· + ·) y
  let bottom := turnXor 8 bottom top
  let lower := lower.zip (· + ·) bottom
  let upper := turnXor 7 upper lower
  ⟨top, upper, lower, bottom⟩

/-- Turns the diagonals of a state into columns. -/
def State.slant (s : State) : State :=
  ⟨s.top, s.upper.turn, s.lower.turn.turn, s.bottom.turn.turn.turn⟩

/-- Turns columns back into diagonals. -/
def State.straighten (s : State) : State :=
  ⟨s.top, s.upper.turn.turn.turn, s.lower.turn.turn, s.bottom.turn⟩

/-- A round: the columns and then the diagonals. -/
def State.round (s : State) (message : List UInt32) : State :=
  let s := s.mix (Quad.pick message 0 2 4 6) (Quad.pick message 1 3 5 7)
  (s.slant.mix (Quad.pick message 8 10 12 14) (Quad.pick message 9 11 13 15)).straighten

/-- Where the words of the next round come from. -/
def schedule : List Nat := [2, 6, 3, 10, 7, 0, 4, 13, 1, 11, 12, 5, 9, 14, 15, 8]

/-- Rounds, with the words of the message permuted after each. -/
def rounds : Nat → State → List UInt32 → State
  | 0, s, _ => s
  | count + 1, s, message =>
    rounds count (s.round message) (schedule.map fun i => message.getD i 0)

/-- A value that chains compressions: eight words. -/
structure Chain where
  left : Quad
  right : Quad
deriving Repr, DecidableEq

/-- The value that starts every chain. -/
def start : Chain :=
  ⟨⟨0x6A09E667, 0xBB67AE85, 0x3C6EF372, 0xA54FF53A⟩,
    ⟨0x510E527F, 0x9B05688C, 0x1F83D9AB, 0x5BE0CD19⟩⟩

/-- The words of a chaining value. -/
def Chain.toList (chain : Chain) : List UInt32 :=
  chain.left.toList ++ chain.right.toList

/-- What is given to a compression besides the chain: the words of a block, the number of the
chunk, the number of octets in the block, and flags. -/
structure Block where
  words : List UInt32
  counter : Nat
  size : Nat
  flags : Nat

/-- Compresses a block. -/
def compress (chain : Chain) (block : Block) : Chain :=
  let bottom : Quad :=
    ⟨UInt32.ofNat block.counter, UInt32.ofNat (block.counter >>> 32), UInt32.ofNat block.size,
      UInt32.ofNat block.flags⟩
  let s := rounds 7 ⟨chain.left, chain.right, start.left, bottom⟩ block.words
  ⟨s.top.zip (· ^^^ ·) s.lower, s.upper.zip (· ^^^ ·) s.bottom⟩

/-! ## The tree -/

/-- The flag of the first block of a chunk. -/
def chunkStart : Nat := 1

/-- The flag of the last block of a chunk. -/
def chunkEnd : Nat := 2

/-- The flag of an inner node of the tree. -/
def inner : Nat := 4

/-- The flag of the root of the tree. -/
def root : Nat := 8

/-- A node whose last compression is still to be made. -/
structure Node where
  chain : Chain
  block : Block

/-- The chaining value of a node that is not the root. -/
def Node.value (node : Node) : Chain :=
  compress node.chain node.block

/-- The value of a node that is the root. -/
def Node.rootValue (node : Node) : Chain :=
  compress node.chain { node.block with flags := node.block.flags + root }

/-- The node over the blocks of a chunk; `flags` are those of its first block. -/
def chunkNode (counter : Nat) (flags : Nat) (chain : Chain) : List (List UInt8) → Node
  | [] => ⟨chain, ⟨blockWords [], counter, 0, flags + chunkEnd⟩⟩
  | [last] => ⟨chain, ⟨blockWords last, counter, last.length, flags + chunkEnd⟩⟩
  | block :: rest =>
    chunkNode counter 0 (compress chain ⟨blockWords block, counter, block.length, flags⟩) rest

/-- The node of a chunk. -/
def leaf (counter : Nat) (chunk : List UInt8) : Node :=
  chunkNode counter chunkStart start (pieces 64 chunk)

/-- The node over two nodes. -/
def join (left right : Node) : Node :=
  ⟨start, ⟨left.value.toList ++ right.value.toList, 0, 64, inner⟩⟩

/-- Joins neighbours; a node that has none is kept. -/
def joinPairs : List Node → List Node
  | left :: right :: rest => join left right :: joinPairs rest
  | nodes => nodes

/-- Joining neighbours makes a list shorter. -/
theorem length_joinPairs_le (nodes : List Node) : (joinPairs nodes).length ≤ nodes.length := by
  fun_induction joinPairs nodes with
  | case1 left right rest ih => simp; omega
  | case2 nodes => exact Nat.le_refl _

/-- The node over all nodes. -/
def treeOf : List Node → Node
  | [] => leaf 0 []
  | [node] => node
  | left :: right :: rest => treeOf (join left right :: joinPairs rest)
termination_by nodes => nodes.length
decreasing_by
  have := length_joinPairs_le rest
  simp only [List.length_cons]
  omega

/-- The nodes of the chunks of an input. -/
def leaves (data : List UInt8) : List Node :=
  (pieces 1024 data).mapIdx leaf

/-- The digest of an input. -/
def digest (data : List UInt8) : List UInt8 :=
  (treeOf (leaves data)).rootValue.toList.flatMap octets

end Blake3

end SqlTemplate
