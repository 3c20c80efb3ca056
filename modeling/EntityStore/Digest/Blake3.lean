/-!
# BLAKE3

The 32-byte hash of a byte string. The input is cut into chunks of 1024 bytes and each chunk into
blocks of 64; a chunk chains its blocks, and chunks are joined by a binary tree whose left
subtrees are complete.
-/

namespace EntityStore.Blake3

abbrev Chain := Array UInt32

def initial : Chain :=
  #[0x6A09E667, 0xBB67AE85, 0x3C6EF372, 0xA54FF53A, 0x510E527F, 0x9B05688C, 0x1F83D9AB, 0x5BE0CD19]

def permutation : List Nat := [2, 6, 3, 10, 7, 0, 4, 13, 1, 11, 12, 5, 9, 14, 15, 8]

def chunkStart : UInt32 := 1
def chunkEnd : UInt32 := 2
def parent : UInt32 := 4
def root : UInt32 := 8

def chunkSize : Nat := 1024
def blockSize : Nat := 64

def rotateRight (x : UInt32) (n : UInt32) : UInt32 := (x >>> n) ||| (x <<< (32 - n))

def mix (v : Array UInt32) (a b c d : Nat) (x y : UInt32) : Array UInt32 :=
  let va := v.getD a 0 + v.getD b 0 + x
  let vd := rotateRight (v.getD d 0 ^^^ va) 16
  let vc := v.getD c 0 + vd
  let vb := rotateRight (v.getD b 0 ^^^ vc) 12
  let va := va + vb + y
  let vd := rotateRight (vd ^^^ va) 8
  let vc := vc + vd
  let vb := rotateRight (vb ^^^ vc) 7
  (((v.setIfInBounds a va).setIfInBounds b vb).setIfInBounds c vc).setIfInBounds d vd

def round (v m : Array UInt32) : Array UInt32 :=
  let w (i : Nat) := m.getD i 0
  let v := mix v 0 4 8 12 (w 0) (w 1)
  let v := mix v 1 5 9 13 (w 2) (w 3)
  let v := mix v 2 6 10 14 (w 4) (w 5)
  let v := mix v 3 7 11 15 (w 6) (w 7)
  let v := mix v 0 5 10 15 (w 8) (w 9)
  let v := mix v 1 6 11 12 (w 10) (w 11)
  let v := mix v 2 7 8 13 (w 12) (w 13)
  mix v 3 4 9 14 (w 14) (w 15)

def permute (m : Array UInt32) : Array UInt32 :=
  (permutation.map (fun i => m.getD i 0)).toArray

def rounds : Nat → Array UInt32 → Array UInt32 → Array UInt32
  | 0, v, _ => v
  | n + 1, v, m => rounds n (round v m) (permute m)

/-- Everything that goes into one application of the compression function. -/
structure Node where
  chain : Chain
  block : Array UInt32
  counter : UInt64
  length : UInt32
  flags : UInt32

def Node.compress (n : Node) (flags : UInt32) : Chain :=
  let v := n.chain ++ initial.extract 0 4 ++
    #[n.counter.toUInt32, (n.counter >>> 32).toUInt32, n.length, n.flags ||| flags]
  let v := rounds 7 v n.block
  ((List.range 8).map (fun i => v.getD i 0 ^^^ v.getD (i + 8) 0)).toArray

def Node.value (n : Node) : Chain := n.compress 0

def Node.digest (n : Node) : Chain := n.compress root

def word (bytes : List UInt8) : UInt32 :=
  bytes.foldr (fun b w => (w <<< 8) ||| b.toUInt32) 0

def words : Nat → List UInt8 → List UInt32
  | 0, _ => []
  | n + 1, bytes => word (bytes.take 4) :: words n (bytes.drop 4)

/-- Cuts into pieces of `size`, at most `count` of them; there is always one. -/
def pieces (size : Nat) : Nat → List UInt8 → List (List UInt8)
  | 0, bytes => [bytes]
  | count + 1, bytes =>
    if bytes.length ≤ size then [bytes]
    else bytes.take size :: pieces size count (bytes.drop size)

def blockNode (chain : Chain) (counter : Nat) (flags : UInt32) (block : List UInt8) : Node :=
  { chain := chain, block := (words 16 block).toArray, counter := UInt64.ofNat counter
    length := UInt32.ofNat block.length, flags := flags }

/-- The last block of a chunk, after the chain has gone through the others. -/
def chunkFrom (counter : Nat) (chain : Chain) (flags : UInt32) : List (List UInt8) → Node
  | [] => blockNode chain counter (flags ||| chunkEnd) []
  | [block] => blockNode chain counter (flags ||| chunkEnd) block
  | block :: rest => chunkFrom counter (blockNode chain counter flags block).value 0 rest

def chunkNode (counter : Nat) (bytes : List UInt8) : Node :=
  chunkFrom counter initial chunkStart (pieces blockSize (chunkSize / blockSize) bytes)

def parentNode (left right : Node) : Node :=
  { chain := initial, block := left.value ++ right.value, counter := 0
    length := UInt32.ofNat blockSize, flags := parent }

/-- The greatest power of two below a number above one. -/
def leftSize (count : Nat) : Nat := Nat.pow 2 (count - 1).log2

def tree : Nat → List Node → Node
  | 0, nodes => nodes.headD (chunkNode 0 [])
  | depth + 1, nodes =>
    match nodes with
    | [] => chunkNode 0 []
    | [n] => n
    | nodes =>
      let left := leftSize nodes.length
      parentNode (tree depth (nodes.take left)) (tree depth (nodes.drop left))

def rootNode (bytes : List UInt8) : Node :=
  let chunks := pieces chunkSize bytes.length bytes
  let nodes := chunks.zipIdx.map (fun c => chunkNode c.2 c.1)
  tree nodes.length nodes

def littleEndian (w : UInt32) : List UInt8 :=
  [w.toUInt8, (w >>> 8).toUInt8, (w >>> 16).toUInt8, (w >>> 24).toUInt8]

def hash (bytes : List UInt8) : List UInt8 :=
  (rootNode bytes).digest.toList.flatMap littleEndian

end EntityStore.Blake3
