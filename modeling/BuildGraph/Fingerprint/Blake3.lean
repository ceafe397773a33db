/-!
# BLAKE3

The unkeyed hash with 32 bytes of output. The input is cut into chunks of 1024
bytes and each chunk into blocks of 64; the chaining values of the chunks are
joined pairwise, level by level, until one node is left, which is the root.
-/

namespace BuildGraph.Blake3

/-! ## Compression -/

def iv : List UInt32 :=
  [0x6A09E667, 0xBB67AE85, 0x3C6EF372, 0xA54FF53A, 0x510E527F, 0x9B05688C, 0x1F83D9AB, 0x5BE0CD19]

/-- The order in which a round takes the message words of the round before. -/
def permutation : List Nat :=
  [2, 6, 3, 10, 7, 0, 4, 13, 1, 11, 12, 5, 9, 14, 15, 8]

def permute (message : Array UInt32) : Array UInt32 :=
  (permutation.map fun i => message.getD i 0).toArray

def rotateRight (word count : UInt32) : UInt32 :=
  (word >>> count) ||| (word <<< (32 - count))

def quarterRound (state : Array UInt32) (a b c d : Nat) (x y : UInt32) : Array UInt32 :=
  let va := state.getD a 0 + state.getD b 0 + x
  let vd := rotateRight (state.getD d 0 ^^^ va) 16
  let vc := state.getD c 0 + vd
  let vb := rotateRight (state.getD b 0 ^^^ vc) 12
  let va := va + vb + y
  let vd := rotateRight (vd ^^^ va) 8
  let vc := vc + vd
  let vb := rotateRight (vb ^^^ vc) 7
  (((state.setIfInBounds a va).setIfInBounds b vb).setIfInBounds c vc).setIfInBounds d vd

def lanes : List (Nat × Nat × Nat × Nat) :=
  [(0, 4, 8, 12), (1, 5, 9, 13), (2, 6, 10, 14), (3, 7, 11, 15),
   (0, 5, 10, 15), (1, 6, 11, 12), (2, 7, 8, 13), (3, 4, 9, 14)]

def mixRound (state message : Array UInt32) : Array UInt32 :=
  (List.range 8).foldl
    (fun state i =>
      match lanes[i]? with
      | some (a, b, c, d) =>
        quarterRound state a b c d (message.getD (2 * i) 0) (message.getD (2 * i + 1) 0)
      | none => state)
    state

def mixRounds : Nat → Array UInt32 → Array UInt32 → Array UInt32
  | 0, state, _ => state
  | rounds + 1, state, message => mixRounds rounds (mixRound state message) (permute message)

structure Node where
  chaining : List UInt32
  block : List UInt32
  counter : UInt64
  blockLength : UInt32
  flags : UInt32

def Node.compress (n : Node) : List UInt32 :=
  let start := n.chaining ++ iv.take 4
    ++ [n.counter.toUInt32, (n.counter >>> 32).toUInt32, n.blockLength, n.flags]
  let state := mixRounds 7 start.toArray n.block.toArray
  (List.range 8).map fun i => state.getD i 0 ^^^ state.getD (i + 8) 0

/-! ## Flags -/

def chunkStart : UInt32 := 1

def chunkEnd : UInt32 := 2

def parentFlag : UInt32 := 4

def rootFlag : UInt32 := 8

/-! ## Chunks -/

/-- Cuts a list into groups of `size`; an empty list is one empty group. -/
def groups (size : Nat) : Nat → List UInt8 → List (List UInt8)
  | 0, bytes => [bytes]
  | fuel + 1, bytes =>
    if bytes.length ≤ size then [bytes] else bytes.take size :: groups size fuel (bytes.drop size)

/-- Little-endian words; missing bytes are zero. -/
def words (bytes : List UInt8) : List UInt32 :=
  (List.range 16).map fun i =>
    (List.range 4).foldr (fun j word => word * 256 + (bytes.getD (4 * i + j) 0).toUInt32) 0

def blocks : List UInt32 → UInt64 → UInt32 → List (List UInt8) → Node
  | chaining, counter, flags, [] => ⟨chaining, words [], counter, 0, flags ||| chunkEnd⟩
  | chaining, counter, flags, [last] =>
    ⟨chaining, words last, counter, last.length.toUInt32, flags ||| chunkEnd⟩
  | chaining, counter, flags, block :: rest =>
    let node : Node := ⟨chaining, words block, counter, block.length.toUInt32, flags⟩
    blocks node.compress counter 0 rest

def chunk (counter : Nat) (bytes : List UInt8) : Node :=
  blocks iv counter.toUInt64 chunkStart (groups 64 16 bytes)

/-! ## The tree -/

def parent (left right : Node) : Node :=
  ⟨iv, left.compress ++ right.compress, 0, 64, parentFlag⟩

/-- One level up; a node without a partner goes up as it is. -/
def pairUp : List Node → List Node
  | left :: right :: rest => parent left right :: pairUp rest
  | rest => rest

def root : Nat → List Node → Option Node
  | _, [] => none
  | _, [node] => some node
  | 0, _ => none
  | fuel + 1, level => root fuel (pairUp level)

def wordBytes (word : UInt32) : List UInt8 :=
  [word.toUInt8, (word >>> 8).toUInt8, (word >>> 16).toUInt8, (word >>> 24).toUInt8]

def hash (bytes : List UInt8) : List UInt8 :=
  let chunks := (groups 1024 bytes.length bytes).mapIdx chunk
  match root chunks.length chunks with
  | none => []
  | some node => { node with flags := node.flags ||| rootFlag }.compress.flatMap wordBytes

/-! ## Hexadecimal text -/

def hexDigit (n : Nat) : Char :=
  if n < 10 then Char.ofNat (48 + n) else Char.ofNat (87 + n)

def hex (bytes : List UInt8) : String :=
  String.ofList (bytes.flatMap fun b => [hexDigit (b.toNat / 16), hexDigit (b.toNat % 16)])

end BuildGraph.Blake3
