/-!
The BLAKE3 hash of a byte string, in its unkeyed form with 32 bytes of output.

The input is cut into chunks, chunks into blocks. Chunks are the leaves of a binary tree, which
pairing up neighbours level by level builds; only the root is compressed with the root flag.
-/

namespace StyleAudit.Blake3

/-- Eight words that a compression passes on. -/
abbrev Chain := Vector UInt32 8

/-- Sixteen words: a block of the message, or the state of a compression. -/
abbrev Words := Vector UInt32 16

def initial : Chain :=
  #v[0x6A09E667, 0xBB67AE85, 0x3C6EF372, 0xA54FF53A, 0x510E527F, 0x9B05688C, 0x1F83D9AB,
    0x5BE0CD19]

def chunkStart : UInt32 := 1

def chunkEnd : UInt32 := 2

def parentFlag : UInt32 := 4

def rootFlag : UInt32 := 8

def rotateRight (x : UInt32) (n : UInt32) : UInt32 :=
  (x >>> n) ||| (x <<< (32 - n))

/-- Mixes two message words into four words of the state. -/
def mix (a b c d : Fin 16) (x y : UInt32) (s : Words) : Words :=
  let sa := s[a] + s[b] + x
  let sd := rotateRight (s[d] ^^^ sa) 16
  let sc := s[c] + sd
  let sb := rotateRight (s[b] ^^^ sc) 12
  let sa := sa + sb + y
  let sd := rotateRight (sd ^^^ sa) 8
  let sc := sc + sd
  let sb := rotateRight (sb ^^^ sc) 7
  (((s.set a sa).set b sb).set c sc).set d sd

/-- Mixes the columns and then the diagonals of the state. -/
def round (m : Words) (s : Words) : Words :=
  mix 3 4 9 14 m[14] m[15] <|
  mix 2 7 8 13 m[12] m[13] <|
  mix 1 6 11 12 m[10] m[11] <|
  mix 0 5 10 15 m[8] m[9] <|
  mix 3 7 11 15 m[6] m[7] <|
  mix 2 6 10 14 m[4] m[5] <|
  mix 1 5 9 13 m[2] m[3] <|
  mix 0 4 8 12 m[0] m[1] s

/-- The order in which a round leaves the message words to the next one. -/
def permute (m : Words) : Words :=
  #v[m[2], m[6], m[3], m[10], m[7], m[0], m[4], m[13], m[1], m[11], m[12], m[5], m[9], m[14],
    m[15], m[8]]

def rounds : Nat → Words → Words → Words
  | 0, _, s => s
  | n + 1, m, s => rounds n (permute m) (round m s)

/-- A compression that still lacks its last flags. -/
structure Node where
  chain : Chain
  block : Words
  counter : UInt64
  length : UInt32
  flags : UInt32

def compress (node : Node) (flags : UInt32) : Chain :=
  let h := node.chain
  let s : Words := #v[h[0], h[1], h[2], h[3], h[4], h[5], h[6], h[7],
    initial[0], initial[1], initial[2], initial[3],
    node.counter.toUInt32, (node.counter >>> 32).toUInt32, node.length, node.flags ||| flags]
  let s := rounds 7 node.block s
  Vector.ofFn fun (i : Fin 8) => s[i] ^^^ s[i.val + 8]

/-- Cuts a byte string into pieces of `n + 1` bytes and one last piece, which may be shorter. -/
def pieces (n : Nat) (bytes : List UInt8) : List (List UInt8) :=
  if bytes.length ≤ n + 1 then [bytes]
  else bytes.take (n + 1) :: pieces n (bytes.drop (n + 1))
termination_by bytes.length
decreasing_by
  simp only [List.length_drop]
  omega

/-- Words of four bytes, least byte first; missing bytes are zero. -/
def wordsOf (bytes : List UInt8) : Words :=
  let a := bytes.toArray
  let byte (i : Nat) : UInt32 := (a.getD i 0).toUInt32
  Vector.ofFn fun i =>
    let j := 4 * i.val
    byte j ||| (byte (j + 1) <<< 8) ||| (byte (j + 2) <<< 16) ||| (byte (j + 3) <<< 24)

/-- Chains the blocks of a chunk up to the last one. -/
def chunkFrom (chain : Chain) (counter : UInt64) (flags : UInt32) : List (List UInt8) → Node
  | [] => ⟨chain, wordsOf [], counter, 0, flags ||| chunkEnd⟩
  | [block] => ⟨chain, wordsOf block, counter, block.length.toUInt32, flags ||| chunkEnd⟩
  | block :: blocks =>
    let node : Node := ⟨chain, wordsOf block, counter, 64, flags⟩
    chunkFrom (compress node 0) counter 0 blocks

def chunk (counter : Nat) (bytes : List UInt8) : Node :=
  chunkFrom initial counter.toUInt64 chunkStart (pieces 63 bytes)

def parent (left right : Node) : Node :=
  let l := compress left 0
  let r := compress right 0
  ⟨initial, l ++ r, 0, 64, parentFlag⟩

/-- One level of the tree from the level below; a last odd node moves up as it is. -/
def pairUp : List Node → List Node
  | left :: right :: nodes => parent left right :: pairUp nodes
  | nodes => nodes

theorem length_pairUp (nodes : List Node) : (pairUp nodes).length ≤ nodes.length := by
  fun_induction pairUp nodes with
  | case1 left right nodes ih => simp only [List.length_cons]; omega
  | case2 nodes => exact Nat.le_refl _

/-- The root of the tree over a list of nodes. -/
def root (first : Node) : List Node → Node
  | [] => first
  | second :: nodes => root (parent first second) (pairUp nodes)
termination_by nodes => nodes.length
decreasing_by
  have := length_pairUp nodes
  simp only [List.length_cons]
  omega

def hexByte (b : UInt8) : List Char :=
  [Nat.digitChar (b.toNat / 16), Nat.digitChar (b.toNat % 16)]

/-- The hash in lowercase hexadecimal digits. -/
def hexDigest (bytes : List UInt8) : String :=
  let chunks := (pieces 1023 bytes).zipIdx.map fun (piece, i) => chunk i piece
  match chunks with
  | [] => ""
  | first :: nodes =>
    let out := compress (root first nodes) rootFlag
    String.ofList (out.toList.flatMap fun (w : UInt32) =>
      [w, w >>> 8, w >>> 16, w >>> 24].flatMap fun (b : UInt32) => hexByte b.toUInt8)

end StyleAudit.Blake3

namespace StyleAudit

/-- The fingerprint of a text: the hash of its UTF-8 bytes. -/
def fingerprint (text : String) : String :=
  Blake3.hexDigest text.toUTF8.toList

end StyleAudit
