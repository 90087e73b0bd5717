namespace Elastic.Digest.Xxh3

/-! The 128-bit variant of the hash XXH3 with seed zero and the default secret. The input length
selects one of six mixing schemes. -/

structure Wide where
  low : UInt64
  high : UInt64
deriving DecidableEq, Repr

def prime32A : UInt64 := 0x9E3779B1
def prime32B : UInt64 := 0x85EBCA77
def prime32C : UInt64 := 0xC2B2AE3D
def prime64A : UInt64 := 0x9E3779B185EBCA87
def prime64B : UInt64 := 0xC2B2AE3D27D4EB4F
def prime64C : UInt64 := 0x165667B19E3779F9
def prime64D : UInt64 := 0x85EBCA77C2B2AE63
def prime64E : UInt64 := 0x27D4EB2F165667C5
def mixerA : UInt64 := 0x165667919E3779F9
def mixerB : UInt64 := 0x9FB21C651E98DF25

def secret : ByteArray := ⟨#[
  0xb8, 0xfe, 0x6c, 0x39, 0x23, 0xa4, 0x4b, 0xbe, 0x7c, 0x01, 0x81, 0x2c, 0xf7, 0x21, 0xad, 0x1c,
  0xde, 0xd4, 0x6d, 0xe9, 0x83, 0x90, 0x97, 0xdb, 0x72, 0x40, 0xa4, 0xa4, 0xb7, 0xb3, 0x67, 0x1f,
  0xcb, 0x79, 0xe6, 0x4e, 0xcc, 0xc0, 0xe5, 0x78, 0x82, 0x5a, 0xd0, 0x7d, 0xcc, 0xff, 0x72, 0x21,
  0xb8, 0x08, 0x46, 0x74, 0xf7, 0x43, 0x24, 0x8e, 0xe0, 0x35, 0x90, 0xe6, 0x81, 0x3a, 0x26, 0x4c,
  0x3c, 0x28, 0x52, 0xbb, 0x91, 0xc3, 0x00, 0xcb, 0x88, 0xd0, 0x65, 0x8b, 0x1b, 0x53, 0x2e, 0xa3,
  0x71, 0x64, 0x48, 0x97, 0xa2, 0x0d, 0xf9, 0x4e, 0x38, 0x19, 0xef, 0x46, 0xa9, 0xde, 0xac, 0xd8,
  0xa8, 0xfa, 0x76, 0x3f, 0xe3, 0x9c, 0x34, 0x3f, 0xf9, 0xdc, 0xbb, 0xc7, 0xc7, 0x0b, 0x4f, 0x1d,
  0x8a, 0x51, 0xe0, 0x4b, 0xcd, 0xb4, 0x59, 0x31, 0xc8, 0x9f, 0x7e, 0xc9, 0xd9, 0x78, 0x73, 0x64,
  0xea, 0xc5, 0xac, 0x83, 0x34, 0xd3, 0xeb, 0xc3, 0xc5, 0x81, 0xa0, 0xff, 0xfa, 0x13, 0x63, 0xeb,
  0x17, 0x0d, 0xdd, 0x51, 0xb7, 0xf0, 0xda, 0x49, 0xd3, 0x16, 0x55, 0x26, 0x29, 0xd4, 0x68, 0x9e,
  0x2b, 0x16, 0xbe, 0x58, 0x7d, 0x47, 0xa1, 0xfc, 0x8f, 0xf8, 0xb8, 0xd1, 0x7a, 0xd0, 0x31, 0xce,
  0x45, 0xcb, 0x3a, 0x8f, 0x95, 0x16, 0x04, 0x28, 0xaf, 0xd7, 0xfb, 0xca, 0xbb, 0x4b, 0x40, 0x7e]⟩

def byteAt (bytes : ByteArray) (position : Nat) : UInt64 :=
  if bound : position < bytes.size then (bytes.get position bound).toUInt64 else 0

def word32At (bytes : ByteArray) (position : Nat) : UInt64 :=
  byteAt bytes position ||| (byteAt bytes (position + 1) <<< 8) |||
    (byteAt bytes (position + 2) <<< 16) ||| (byteAt bytes (position + 3) <<< 24)

def word64At (bytes : ByteArray) (position : Nat) : UInt64 :=
  word32At bytes position ||| (word32At bytes (position + 4) <<< 32)

def half : UInt64 := 0xFFFFFFFF

def multiply (a b : UInt64) : Wide :=
  let product := a.toNat * b.toNat
  ⟨UInt64.ofNat product, UInt64.ofNat (product >>> 64)⟩

/-- The two halves of the full product, added without carry. -/
def fold (a b : UInt64) : UInt64 :=
  let product := multiply a b
  product.low ^^^ product.high

def shiftMix (word : UInt64) (amount : UInt64) : UInt64 :=
  word ^^^ (word >>> amount)

def avalanche (word : UInt64) : UInt64 :=
  shiftMix (shiftMix word 37 * mixerA) 32

def avalanche64 (word : UInt64) : UInt64 :=
  shiftMix (shiftMix (shiftMix word 33 * prime64B) 29 * prime64C) 32

def swap32 (word : UInt64) : UInt64 :=
  ((word &&& (0xFF : UInt64)) <<< 24) ||| ((word &&& (0xFF00 : UInt64)) <<< 8) |||
    ((word >>> 8) &&& (0xFF00 : UInt64)) ||| ((word >>> 24) &&& (0xFF : UInt64))

def swap64 (word : UInt64) : UInt64 :=
  (swap32 (word &&& half) <<< 32) ||| swap32 (word >>> 32)

def rotate32 (word amount : UInt64) : UInt64 :=
  ((word <<< amount) ||| (word >>> (32 - amount))) &&& half

def hashEmpty : Wide :=
  ⟨avalanche64 (word64At secret 64 ^^^ word64At secret 72),
    avalanche64 (word64At secret 80 ^^^ word64At secret 88)⟩

def hashTiny (input : ByteArray) : Wide :=
  let size := input.size
  let low := (byteAt input 0 <<< 16) ||| (byteAt input (size / 2) <<< 24) |||
    byteAt input (size - 1) ||| (UInt64.ofNat size <<< 8)
  let high := rotate32 (swap32 low) 13
  ⟨avalanche64 (low ^^^ word32At secret 0 ^^^ word32At secret 4),
    avalanche64 (high ^^^ word32At secret 8 ^^^ word32At secret 12)⟩

def hashWord (input : ByteArray) : Wide :=
  let size := input.size
  let word := word32At input 0 + (word32At input (size - 4) <<< 32)
  let keyed := word ^^^ word64At secret 16 ^^^ word64At secret 24
  let product := multiply keyed (prime64A + (UInt64.ofNat size <<< 2))
  let high := product.high + (product.low <<< 1)
  let low := product.low ^^^ (high >>> 3)
  ⟨shiftMix (shiftMix low 35 * mixerB) 28, avalanche high⟩

def hashPair (input : ByteArray) : Wide :=
  let size := input.size
  let first := word64At input 0
  let last := word64At input (size - 8)
  let product := multiply
    (first ^^^ last ^^^ word64At secret 32 ^^^ word64At secret 40) prime64A
  let low := product.low + ((UInt64.ofNat size - 1) <<< 54)
  let keyed := last ^^^ word64At secret 48 ^^^ word64At secret 56
  let high := product.high + keyed + (keyed &&& half) * (prime32B - 1)
  let mixed := multiply (low ^^^ swap64 high) prime64B
  ⟨avalanche mixed.low, avalanche (mixed.high + high * prime64B)⟩

def mixPair (input : ByteArray) (position key : Nat) : UInt64 :=
  fold (word64At input position ^^^ word64At secret key)
    (word64At input (position + 8) ^^^ word64At secret (key + 8))

def mixBlocks (input : ByteArray) (state : Wide) (first second key : Nat) : Wide :=
  ⟨(state.low + mixPair input first key) ^^^
      (word64At input second + word64At input (second + 8)),
    (state.high + mixPair input second (key + 16)) ^^^
      (word64At input first + word64At input (first + 8))⟩

def finishBlocks (size : Nat) (state : Wide) : Wide :=
  let length := UInt64.ofNat size
  ⟨avalanche (state.low + state.high),
    0 - avalanche (state.low * prime64A + state.high * prime64D + length * prime64B)⟩

/-- Inputs of 17 to 128 bytes: pairs of blocks from the two ends, the innermost first. -/
def hashShort (input : ByteArray) : Wide :=
  let size := input.size
  let start : Wide := ⟨UInt64.ofNat size * prime64A, 0⟩
  let pairs := (size - 1) / 32 + 1
  finishBlocks size <| (List.range pairs).reverse.foldl
    (fun state pair =>
      mixBlocks input state (16 * pair) (size - 16 * (pair + 1)) (32 * pair)) start

/-- Inputs of 129 to 240 bytes: blocks in order, the state mixed once after the fourth. -/
def hashMiddle (input : ByteArray) : Wide :=
  let size := input.size
  let start : Wide := ⟨UInt64.ofNat size * prime64A, 0⟩
  let head := (List.range 4).foldl
    (fun state round =>
      mixBlocks input state (32 * round) (32 * round + 16) (32 * round)) start
  let turned : Wide := ⟨avalanche head.low, avalanche head.high⟩
  let body := (List.range (size / 32 - 4)).foldl
    (fun state round =>
      mixBlocks input state (32 * (round + 4)) (32 * (round + 4) + 16) (3 + 32 * round)) turned
  finishBlocks size (mixBlocks input body (size - 16) (size - 32) 103)

abbrev Lanes := Array UInt64

def startLanes : Lanes :=
  #[prime32C, prime64A, prime64B, prime64C, prime64D, prime32B, prime64E, prime32A]

def laneAt (lanes : Lanes) (index : Nat) : UInt64 :=
  lanes.getD index 0

def accumulate (input : ByteArray) (position key : Nat) (lanes : Lanes) : Lanes :=
  let words := (Array.range 8).map fun index => word64At input (position + 8 * index)
  (Array.range 8).map fun index =>
    let keyed := laneAt words index ^^^ word64At secret (key + 8 * index)
    laneAt lanes index + laneAt words (index ^^^ 1) + (keyed &&& half) * (keyed >>> 32)

def scramble (lanes : Lanes) : Lanes :=
  (Array.range 8).map fun index =>
    (shiftMix (laneAt lanes index) 47 ^^^ word64At secret (128 + 8 * index)) * prime32A

def accumulateStripes (input : ByteArray) (position count : Nat) (lanes : Lanes) : Lanes :=
  (List.range count).foldl
    (fun lanes stripe => accumulate input (position + 64 * stripe) (8 * stripe) lanes) lanes

def mergeLanes (lanes : Lanes) (key : Nat) (start : UInt64) : UInt64 :=
  avalanche <| (List.range 4).foldl
    (fun sum pair =>
      sum + fold (laneAt lanes (2 * pair) ^^^ word64At secret (key + 16 * pair))
        (laneAt lanes (2 * pair + 1) ^^^ word64At secret (key + 16 * pair + 8))) start

/-- Inputs of more than 240 bytes: blocks of sixteen stripes with a scramble after each, the
remaining stripes, and the last 64 bytes once more. -/
def hashLong (input : ByteArray) : Wide :=
  let size := input.size
  let blocks := (size - 1) / 1024
  let whole := (List.range blocks).foldl
    (fun lanes block => scramble (accumulateStripes input (1024 * block) 16 lanes)) startLanes
  let rest := accumulateStripes input (1024 * blocks) ((size - 1 - 1024 * blocks) / 64) whole
  let lanes := accumulate input (size - 64) 121 rest
  let length := UInt64.ofNat size
  ⟨mergeLanes lanes 11 (length * prime64A),
    mergeLanes lanes 117 (0xFFFFFFFFFFFFFFFF ^^^ (length * prime64B))⟩

def hash (input : ByteArray) : Wide :=
  let size := input.size
  if size = 0 then hashEmpty
  else if size ≤ 3 then hashTiny input
  else if size ≤ 8 then hashWord input
  else if size ≤ 16 then hashPair input
  else if size ≤ 128 then hashShort input
  else if size ≤ 240 then hashMiddle input
  else hashLong input

end Elastic.Digest.Xxh3
