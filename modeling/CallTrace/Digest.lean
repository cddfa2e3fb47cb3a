import CallTrace.Text.Bytes
import CallTrace.Value

/-!
# Hashes of values

A digest takes in 64-bit words one at a time, adding each and multiplying by an odd constant, and
ends with a rotation. A word is therefore never lost, and values that are fed as a fixed number of
words can be told apart by their hashes. Texts are first condensed to a single word.
-/

namespace CallTrace

/-- A hash in the making. -/
structure Digest where
  state : UInt64 := 0

namespace Digest

/-- The constant that spreads the words; it is odd, so multiplying by it loses nothing. -/
def multiplier : UInt64 := 0xf1357aea2e62a9c5

/-- Takes in a word. -/
def absorb (d : Digest) (word : UInt64) : Digest :=
  ⟨(d.state + word) * multiplier⟩

/-- The hash of the words taken in so far. -/
def finish (d : Digest) : UInt64 :=
  (d.state <<< 26) ||| (d.state >>> 38)

/-! ## Condensing bytes to a word -/

/-- The low half of a product of two words, combined with its high half. -/
def mix (x y : UInt64) : UInt64 :=
  let product := x.toNat * y.toNat
  UInt64.ofNat product ^^^ UInt64.ofNat (product / UInt64.size)

/-- The word whose bytes are given, the least significant one first. -/
def ofLittleEndian (bytes : List UInt8) : UInt64 :=
  bytes.foldr (fun byte word => word * 256 + byte.toUInt64) 0

/-- Takes `n` blocks of sixteen bytes off the front of `bytes` and mixes them into the pair. -/
def mixBlocks : Nat → UInt64 × UInt64 → List UInt8 → UInt64 × UInt64
  | 0, pair, _ => pair
  | n + 1, (s0, s1), bytes =>
    let x := ofLittleEndian (bytes.take 8)
    let y := ofLittleEndian ((bytes.drop 8).take 8)
    mixBlocks n (s1, mix (s0 ^^^ x) (0xa4093822299f31d0 ^^^ y)) (bytes.drop 16)

/-- The two words that are combined with the starting pair last: they cover a short text from both
ends, and the last sixteen bytes of a long one. -/
def edges (bytes : List UInt8) : UInt64 × UInt64 :=
  let n := bytes.length
  if 16 < n then
    (ofLittleEndian ((bytes.drop (n - 16)).take 8), ofLittleEndian (bytes.drop (n - 8)))
  else if 8 ≤ n then
    (ofLittleEndian (bytes.take 8), ofLittleEndian (bytes.drop (n - 8)))
  else if 4 ≤ n then
    (ofLittleEndian (bytes.take 4), ofLittleEndian (bytes.drop (n - 4)))
  else
    match bytes with
    | [] => (0, 0)
    | first :: _ =>
      (first.toUInt64, ofLittleEndian ((bytes.drop (n / 2)).take 1 ++ bytes.drop (n - 1)))

/-- A word for a sequence of bytes. Of a text longer than sixteen bytes the blocks before its last
byte are mixed in first. -/
def ofBytes (bytes : List UInt8) : UInt64 :=
  let n := bytes.length
  let (s0, s1) := mixBlocks ((n - 1) / 16) (0x243f6a8885a308d3, 0x13198a2e03707344) bytes
  let (e0, e1) := edges bytes
  mix (s0 ^^^ e0) (s1 ^^^ e1) ^^^ UInt64.ofNat n

end Digest

namespace Value

/-- The number of a value's kind. -/
def kindIndex : Value → UInt64
  | .nil => 0
  | .bool _ => 1
  | .int _ => 2
  | .str _ => 3
  | .symbol _ => 4
  | .function _ => 5

/-- The words that tell a value from the others of its kind. -/
def payload : Value → List UInt64
  | .nil => []
  | .bool b => [if b then 1 else 0]
  | .int n => [n.toUInt64]
  | .str s => [Digest.ofBytes (Text.utf8 s), 0xff]
  | .symbol name => [name.raw.toUInt64]
  | .function id => [id.raw.toUInt64]

/-- The hash of a value, as a signed number. -/
def hash (v : Value) : Int64 :=
  (((v.kindIndex :: v.payload).foldl Digest.absorb {}).finish).toInt64

end Value

end CallTrace
