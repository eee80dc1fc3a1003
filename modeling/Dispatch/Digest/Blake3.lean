import Dispatch.Text.Bytes
/-!
The hash function BLAKE3 with an output of 32 bytes, in its three modes: plain, keyed, and key
derivation.
-/
namespace Dispatch.Digest

abbrev Word := UInt32

/-- Sixteen words: a message block, or the state of the compression function. -/
abbrev Block := Vector Word 16

/-- Eight words: a chaining value or a key. -/
abbrev Chain := Vector Word 8

def initial : Chain :=
  #v[0x6A09E667, 0xBB67AE85, 0x3C6EF372, 0xA54FF53A, 0x510E527F, 0x9B05688C, 0x1F83D9AB, 0x5BE0CD19]

/-- The role of a compression, as bits that add up. -/
structure Flags where
  bits : Word
  deriving DecidableEq, Repr

namespace Flags

def none : Flags := ⟨0⟩
def chunkStart : Flags := ⟨1⟩
def chunkEnd : Flags := ⟨2⟩
def parent : Flags := ⟨4⟩
def root : Flags := ⟨8⟩
def keyed : Flags := ⟨16⟩
def deriveContext : Flags := ⟨32⟩
def deriveMaterial : Flags := ⟨64⟩

def also (flags other : Flags) : Flags := ⟨flags.bits ||| other.bits⟩

end Flags

def rotateRight (word : Word) (count : Word) : Word :=
  (word >>> count) ||| (word <<< (32 - count))

/-- Mixes two message words into a column or diagonal of the state. -/
def quarter (state : Block) (a b c d : Fin 16) (x y : Word) : Block :=
  let va := state[a] + state[b] + x
  let vd := rotateRight (state[d] ^^^ va) 16
  let vc := state[c] + vd
  let vb := rotateRight (state[b] ^^^ vc) 12
  let va := va + vb + y
  let vd := rotateRight (vd ^^^ va) 8
  let vc := vc + vd
  let vb := rotateRight (vb ^^^ vc) 7
  (((state.set a va).set b vb).set c vc).set d vd

def round (state message : Block) : Block :=
  let state := quarter state 0 4 8 12 message[0] message[1]
  let state := quarter state 1 5 9 13 message[2] message[3]
  let state := quarter state 2 6 10 14 message[4] message[5]
  let state := quarter state 3 7 11 15 message[6] message[7]
  let state := quarter state 0 5 10 15 message[8] message[9]
  let state := quarter state 1 6 11 12 message[10] message[11]
  let state := quarter state 2 7 8 13 message[12] message[13]
  quarter state 3 4 9 14 message[14] message[15]

/-- The order of the message words in the next round. -/
def permute (message : Block) : Block :=
  #v[message[2], message[6], message[3], message[10], message[7], message[0], message[4], message[13],
    message[1], message[11], message[12], message[5], message[9], message[14], message[15], message[8]]

def rounds : Nat → Block → Block → Block
  | 0, state, _ => state
  | count + 1, state, message => rounds count (round state message) (permute message)

/-- One use of the compression function: what is compressed, with its place and role. -/
structure Compression where
  chain : Chain
  block : Block
  counter : UInt64
  length : Nat
  flags : Flags

namespace Compression

/-- The first eight words of the output, all that 32 bytes need. -/
def output (node : Compression) : Chain :=
  let state : Block :=
    #v[node.chain[0], node.chain[1], node.chain[2], node.chain[3],
      node.chain[4], node.chain[5], node.chain[6], node.chain[7],
      initial[0], initial[1], initial[2], initial[3],
      node.counter.toUInt32, (node.counter >>> 32).toUInt32, UInt32.ofNat node.length, node.flags.bits]
  let mixed := rounds 7 state node.block
  #v[mixed[0] ^^^ mixed[8], mixed[1] ^^^ mixed[9], mixed[2] ^^^ mixed[10], mixed[3] ^^^ mixed[11],
    mixed[4] ^^^ mixed[12], mixed[5] ^^^ mixed[13], mixed[6] ^^^ mixed[14], mixed[7] ^^^ mixed[15]]

def asRoot (node : Compression) : Compression := { node with flags := node.flags.also .root }

end Compression

/-- The word at a place of a message, its low byte first; past the end there are zeros. -/
def wordAt (bytes : List UInt8) (place : Nat) : Word :=
  let byte (k : Nat) : Word := ((bytes.drop (4 * place + k)).head?.getD 0).toUInt32
  byte 0 ||| (byte 1 <<< 8) ||| (byte 2 <<< 16) ||| (byte 3 <<< 24)

def block (bytes : List UInt8) : Block := Vector.ofFn fun place => wordAt bytes place

/-- Cuts into pieces of the given size; the last may be shorter. The count bounds the pieces. -/
def pieces (size : Nat) : Nat → List UInt8 → List (List UInt8)
  | 0, _ => []
  | count + 1, bytes =>
    if bytes.length ≤ size then [bytes] else bytes.take size :: pieces size count (bytes.drop size)

/-- The last compression of a chunk of at most 1024 bytes, given as its blocks. -/
def chunkFrom (flags : Flags) (counter : UInt64) (start : Flags) :
    Chain → List (List UInt8) → Compression
  | chain, [] => { chain, block := block [], counter, length := 0, flags := (flags.also start).also .chunkEnd }
  | chain, [last] =>
    { chain, block := block last, counter, length := last.length,
      flags := (flags.also start).also .chunkEnd }
  | chain, bytes :: rest =>
    let node : Compression :=
      { chain, block := block bytes, counter, length := bytes.length, flags := flags.also start }
    chunkFrom flags counter .none node.output rest

def chunk (key : Chain) (flags : Flags) (counter : UInt64) (bytes : List UInt8) : Compression :=
  chunkFrom flags counter .chunkStart key (pieces 64 17 bytes)

def parent (key : Chain) (flags : Flags) (left right : Chain) : Compression :=
  { chain := key, block := left ++ right, counter := 0, length := 64, flags := flags.also .parent }

/-- The tree over chunks: the left part of a node is the largest power of two that leaves something to
the right. The depth bounds the recursion. -/
def tree (key : Chain) (flags : Flags) : Nat → UInt64 → List (List UInt8) → Compression
  | 0, counter, chunks => chunk key flags counter (chunks.head?.getD [])
  | depth + 1, counter, chunks =>
    if chunks.length ≤ 1 then chunk key flags counter (chunks.head?.getD [])
    else
      let left := Nat.pow 2 (Nat.log2 (chunks.length - 1))
      parent key flags (tree key flags depth counter (chunks.take left)).output
        (tree key flags depth (counter + UInt64.ofNat left) (chunks.drop left)).output

def hashWith (key : Chain) (flags : Flags) (bytes : List UInt8) : Chain :=
  let chunks := pieces 1024 (bytes.length + 1) bytes
  (tree key flags chunks.length 0 chunks).asRoot.output

/-- The bytes of a chaining value, the low byte of each word first. -/
def toBytes (chain : Chain) : List UInt8 :=
  chain.toList.flatMap fun (word : Word) =>
    [word.toUInt8, (word >>> 8).toUInt8, (word >>> 16).toUInt8, (word >>> 24).toUInt8]

def ofBytes (bytes : List UInt8) : Chain := Vector.ofFn fun place => wordAt bytes place

def hash (bytes : List UInt8) : Chain := hashWith initial .none bytes

def keyedHash (key : Chain) (bytes : List UInt8) : Chain := hashWith key .keyed bytes

def deriveKey (context : String) (material : List UInt8) : Chain :=
  hashWith (hashWith initial .deriveContext (Text.bytes context)) .deriveMaterial material

def hexDigit (value : UInt8) : Char := Nat.digitChar value.toNat

def hex (chain : Chain) : String :=
  String.ofList ((toBytes chain).flatMap fun (byte : UInt8) => [hexDigit (byte >>> 4), hexDigit (byte &&& 15)])

end Dispatch.Digest
