import LabelPress.Text.Hex

/-!
# The MD5 digest

A text of bytes is filled up to whole blocks of 64 bytes, and each block stirs a state of four
words in 64 steps.
-/

namespace LabelPress.Text.Md5

/-- The four words that blocks stir. -/
structure Words where
  a : UInt32
  b : UInt32
  c : UInt32
  d : UInt32
deriving DecidableEq, Repr

/-- The words before the first block. -/
def Words.start : Words := ⟨0x67452301, 0xEFCDAB89, 0x98BADCFE, 0x10325476⟩

/-- The constant of each step: the whole part of `2 ^ 32 * |sin (step + 1)|`. -/
def constants : List UInt32 :=
  [0xD76AA478, 0xE8C7B756, 0x242070DB, 0xC1BDCEEE, 0xF57C0FAF, 0x4787C62A, 0xA8304613, 0xFD469501,
   0x698098D8, 0x8B44F7AF, 0xFFFF5BB1, 0x895CD7BE, 0x6B901122, 0xFD987193, 0xA679438E, 0x49B40821,
   0xF61E2562, 0xC040B340, 0x265E5A51, 0xE9B6C7AA, 0xD62F105D, 0x02441453, 0xD8A1E681, 0xE7D3FBC8,
   0x21E1CDE6, 0xC33707D6, 0xF4D50D87, 0x455A14ED, 0xA9E3E905, 0xFCEFA3F8, 0x676F02D9, 0x8D2A4C8A,
   0xFFFA3942, 0x8771F681, 0x6D9D6122, 0xFDE5380C, 0xA4BEEA44, 0x4BDECFA9, 0xF6BB4B60, 0xBEBFBC70,
   0x289B7EC6, 0xEAA127FA, 0xD4EF3085, 0x04881D05, 0xD9D4D039, 0xE6DB99E5, 0x1FA27CF8, 0xC4AC5665,
   0xF4292244, 0x432AFF97, 0xAB9423A7, 0xFC93A039, 0x655B59C3, 0x8F0CCC92, 0xFFEFF47D, 0x85845DD1,
   0x6FA87E4F, 0xFE2CE6E0, 0xA3014314, 0x4E0811A1, 0xF7537E82, 0xBD3AF235, 0x2AD7D2BB, 0xEB86D391]

/-- How far each step rotates. -/
def rotations : List UInt32 :=
  [7, 12, 17, 22, 7, 12, 17, 22, 7, 12, 17, 22, 7, 12, 17, 22,
   5, 9, 14, 20, 5, 9, 14, 20, 5, 9, 14, 20, 5, 9, 14, 20,
   4, 11, 16, 23, 4, 11, 16, 23, 4, 11, 16, 23, 4, 11, 16, 23,
   6, 10, 15, 21, 6, 10, 15, 21, 6, 10, 15, 21, 6, 10, 15, 21]

/-- The bytes filled up with a mark, zeros and their own length in bits. -/
def padded (bytes : List UInt8) : List UInt8 :=
  let zeros := (55 + 64 - bytes.length % 64) % 64
  let length := (List.range 8).map fun i => UInt8.ofNat (bytes.length * 8 / Nat.pow 256 i)
  bytes ++ 0x80 :: List.replicate zeros 0 ++ length

/-- The words of a block, the lowest byte of each first. -/
def blockWords : List UInt8 → List UInt32
  | p :: q :: r :: s :: rest =>
    (p.toUInt32 ||| q.toUInt32 <<< 8 ||| r.toUInt32 <<< 16 ||| s.toUInt32 <<< 24)
      :: blockWords rest
  | _ => []

/-- The word rotated to the left. -/
def rotate (x : UInt32) (amount : UInt32) : UInt32 := (x <<< amount) ||| (x >>> (32 - amount))

/-- One step with its constant and rotation. -/
def step (block : Array UInt32) (w : Words) (i : Nat) (constant rotation : UInt32) : Words :=
  let (f, g) :=
    if i < 16 then ((w.b &&& w.c) ||| (~~~w.b &&& w.d), i)
    else if i < 32 then ((w.d &&& w.b) ||| (~~~w.d &&& w.c), (5 * i + 1) % 16)
    else if i < 48 then (w.b ^^^ w.c ^^^ w.d, (3 * i + 5) % 16)
    else (w.c ^^^ (w.b ||| ~~~w.d), 7 * i % 16)
  let turned := rotate (w.a + f + constant + block.getD g 0) rotation
  ⟨w.d, w.b + turned, w.b, w.c⟩

/-- The words after a block. -/
def stir (w : Words) (block : List UInt8) : Words :=
  let words := (blockWords block).toArray
  let last := (constants.zip rotations).zipIdx.foldl
    (fun v s => step words v s.2 s.1.1 s.1.2) w
  ⟨w.a + last.a, w.b + last.b, w.c + last.c, w.d + last.d⟩

/-- The blocks of 64 bytes, as many as asked for. -/
def blocks : (count : Nat) → List UInt8 → List (List UInt8)
  | 0, _ => []
  | count + 1, bytes => bytes.take 64 :: blocks count (bytes.drop 64)

/-- The bytes of a word, the lowest first. -/
def wordBytes (x : UInt32) : List UInt8 :=
  [x.toUInt8, (x >>> 8).toUInt8, (x >>> 16).toUInt8, (x >>> 24).toUInt8]

/-- The sixteen bytes of the digest. -/
def digest (bytes : List UInt8) : List UInt8 :=
  let all := padded bytes
  let w := (blocks (all.length / 64) all).foldl stir .start
  wordBytes w.a ++ wordBytes w.b ++ wordBytes w.c ++ wordBytes w.d

end LabelPress.Text.Md5
