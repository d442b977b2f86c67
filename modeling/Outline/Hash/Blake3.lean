import Outline.Text.Digits

/-!
# BLAKE3

The hash of some bytes. The input is cut into chunks of 1024 bytes and each chunk into blocks of 64;
a chunk's blocks are compressed one after another, and the chunks' values are the leaves of a binary
tree that is filled from the left. Only the last compression carries the root flag.
-/
namespace Outline.Blake3

abbrev Words (n : Nat) := Vector UInt32 n

/-- The chaining value from which every chunk and every parent starts. -/
def iv : Words 8 :=
  #v[0x6A09E667, 0xBB67AE85, 0x3C6EF372, 0xA54FF53A, 0x510E527F, 0x9B05688C, 0x1F83D9AB, 0x5BE0CD19]

def chunkStart : UInt32 := 1
def chunkEnd : UInt32 := 2
def parentFlag : UInt32 := 4
def rootFlag : UInt32 := 8

def blockLength : Nat := 64
def chunkLength : Nat := 1024

/-! ## Compression -/

def rotateRight (x n : UInt32) : UInt32 := (x >>> n) ||| (x <<< (32 - n))

/-- The quarter round on four words of the state. -/
def mix (v : Words 16) (a b c d : Fin 16) (x y : UInt32) : Words 16 :=
  let v := v.set a (v[a] + v[b] + x)
  let v := v.set d (rotateRight (v[d] ^^^ v[a]) 16)
  let v := v.set c (v[c] + v[d])
  let v := v.set b (rotateRight (v[b] ^^^ v[c]) 12)
  let v := v.set a (v[a] + v[b] + y)
  let v := v.set d (rotateRight (v[d] ^^^ v[a]) 8)
  let v := v.set c (v[c] + v[d])
  v.set b (rotateRight (v[b] ^^^ v[c]) 7)

def round (v m : Words 16) : Words 16 :=
  -- columns
  let v := mix v 0 4 8 12 m[0] m[1]
  let v := mix v 1 5 9 13 m[2] m[3]
  let v := mix v 2 6 10 14 m[4] m[5]
  let v := mix v 3 7 11 15 m[6] m[7]
  -- diagonals
  let v := mix v 0 5 10 15 m[8] m[9]
  let v := mix v 1 6 11 12 m[10] m[11]
  let v := mix v 2 7 8 13 m[12] m[13]
  mix v 3 4 9 14 m[14] m[15]

/-- The order in which a round takes the words that the round before it had. -/
def schedule : Vector (Fin 16) 16 := #v[2, 6, 3, 10, 7, 0, 4, 13, 1, 11, 12, 5, 9, 14, 15, 8]

def permute (m : Words 16) : Words 16 := schedule.map (m[·])

def rounds : Nat → Words 16 → Words 16 → Words 16
  | 0, v, _ => v
  | n + 1, v, m => rounds n (round v m) (permute m)

/-- The arguments of a compression. -/
structure Input where
  chaining : Words 8
  block : Words 16
  counter : Nat
  length : Nat
  flags : UInt32

def Input.initialState (i : Input) : Words 16 :=
  let h := i.chaining
  #v[h[0], h[1], h[2], h[3], h[4], h[5], h[6], h[7], iv[0], iv[1], iv[2], iv[3],
    i.counter.toUInt32, (i.counter / 0x100000000).toUInt32, i.length.toUInt32, i.flags]

/-- The first half of the compressed state, which is what the next block, the parent or, at the
root, the digest takes. -/
def Input.compress (i : Input) : Words 8 :=
  let v := rounds 7 i.initialState i.block
  .ofFn fun k => v[k] ^^^ v[k.val + 8]

/-! ## Chunks -/

/-- A word from four bytes, the low one first. Bytes beyond the end count as zero. -/
def wordAt (bytes : ByteArray) (i : Nat) : UInt32 :=
  let byte k : UInt32 := ((bytes[i + k]?).getD 0).toUInt32
  byte 0 ||| (byte 1 <<< 8) ||| (byte 2 <<< 16) ||| (byte 3 <<< 24)

def blockAt (bytes : ByteArray) (i : Nat) : Words 16 := .ofFn fun k => wordAt bytes (i + 4 * k.val)

/-- The last compression of the chunk with a given number, over the bytes from `start` on, after
`done` of its blocks; `blocks` more are to come before the last. -/
def chunkInput (bytes : ByteArray) (counter start stop : Nat) :
    (blocks done : Nat) → Words 8 → Input
  | 0, done, h =>
    let i := start + done * blockLength
    { chaining := h, block := blockAt (bytes.extract i stop) 0, counter, length := stop - i
      flags := (if done = 0 then chunkStart else 0) ||| chunkEnd }
  | blocks + 1, done, h =>
    let input : Input :=
      { chaining := h, block := blockAt bytes (start + done * blockLength), counter
        length := blockLength, flags := if done = 0 then chunkStart else 0 }
    chunkInput bytes counter start stop blocks (done + 1) input.compress

/-- How many pieces of a length come before the last one; there is always a last one. -/
def piecesBeforeLast (total length : Nat) : Nat := (total - 1) / length

def chunk (bytes : ByteArray) (counter : Nat) : Input :=
  let start := counter * chunkLength
  let stop := min bytes.size (start + chunkLength)
  chunkInput bytes counter start stop (piecesBeforeLast (stop - start) blockLength) 0 iv

/-! ## The tree -/

def parent (left right : Words 8) : Input :=
  { chaining := iv, block := left ++ right, counter := 0, length := blockLength
    flags := parentFlag }

/-- One level of the tree above another. An odd value out goes up unchanged. -/
def pairUp : List (Words 8) → List (Words 8)
  | a :: b :: rest => (parent a b).compress :: pairUp rest
  | rest => rest

theorem length_pairUp_le : (vs : List (Words 8)) → (pairUp vs).length ≤ vs.length
  | [] | [_] => Nat.le_refl _
  | _ :: _ :: rest => by
    have := length_pairUp_le rest
    simp only [pairUp, List.length_cons]; omega

/-- The last compression above at least two values. -/
def top (a b : Words 8) (rest : List (Words 8)) : Input :=
  match rest with
  | [] => parent a b
  | c :: rest' =>
    match h : pairUp (c :: rest') with
    | [] => parent a b
    | d :: ds =>
      have : ds.length < (c :: rest').length := by
        have := length_pairUp_le (c :: rest')
        rw [h, List.length_cons] at this
        omega
      top (parent a b).compress d ds
termination_by rest.length
decreasing_by assumption

def rootInput (bytes : ByteArray) : Input :=
  match (List.range (piecesBeforeLast bytes.size chunkLength + 1)).map (chunk bytes) with
  | a :: b :: rest => top a.compress b.compress (rest.map (·.compress))
  | [a] => a
  | [] => chunk bytes 0

/-- The eight words of the digest. -/
def hash (bytes : ByteArray) : Words 8 :=
  let i := rootInput bytes
  { i with flags := i.flags ||| rootFlag }.compress

/-! ## Text -/

def hexByte (b : UInt8) : List Char := [Text.hexDigit (b.toNat / 16), Text.hexDigit b.toNat]

/-- A word's bytes, the low one first, in hexadecimal. -/
def hexWord (w : UInt32) : List Char :=
  [w, w >>> 8, w >>> 16, w >>> 24].flatMap fun x => hexByte x.toUInt8

def hex (digest : Words 8) : String := String.ofList (digest.toList.flatMap hexWord)

end Outline.Blake3
