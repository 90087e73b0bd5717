import Elastic.Text.Numeral
import Elastic.Digest.Xxh3

namespace Elastic

open Text

/-! Content hashes: sixteen bytes that identify a text or a list of parts. -/

/-- A hash as its bytes in order, the low word first and each word least significant byte first. -/
structure ContentHash where
  low : UInt64
  high : UInt64
deriving DecidableEq, Repr

namespace ContentHash

def littleEndian : Nat → Nat → List UInt8
  | 0, _ => []
  | count + 1, number => UInt8.ofNat number :: littleEndian count (number / 256)

def ofBytes (bytes : ByteArray) : ContentHash :=
  let wide := Digest.Xxh3.hash bytes
  ⟨wide.low, wide.high⟩

def ofText (text : String) : ContentHash :=
  ofBytes text.toUTF8

/-- The buffer hashed for a list of parts: each part after its length in eight bytes. -/
def joinParts (parts : List (List UInt8)) : List UInt8 :=
  parts.flatMap fun part => littleEndian 8 part.length ++ part

def ofParts (parts : List (List UInt8)) : ContentHash :=
  ofBytes ⟨(joinParts parts).toArray⟩

def bytes (hash : ContentHash) : List UInt8 :=
  littleEndian 8 hash.low.toNat ++ littleEndian 8 hash.high.toNat

def hexOf (bytes : List UInt8) : String :=
  String.ofList <| bytes.flatMap fun byte =>
    [hexDigit (byte.toNat / 16), hexDigit (byte.toNat % 16)]

def hex (hash : ContentHash) : String :=
  hexOf hash.bytes

def brief (hash : ContentHash) : String :=
  "ContentHash(" ++ hexOf (hash.bytes.take 2) ++ "..)"

theorem length_littleEndian (count number : Nat) :
    (littleEndian count number).length = count := by
  induction count generalizing number with
  | zero => rfl
  | succ count induction => simp [littleEndian, induction]

end ContentHash

end Elastic
