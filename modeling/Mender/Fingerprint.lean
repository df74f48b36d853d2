import Mender.Json.Writer

namespace Mender.Fingerprint

def initialWords : Array UInt32 :=
  #[0x6A09E667, 0xBB67AE85, 0x3C6EF372, 0xA54FF53A, 0x510E527F, 0x9B05688C, 0x1F83D9AB, 0x5BE0CD19]

/-- The order in which each round takes the words of a block. -/
def schedule : List (Array Nat) :=
  [#[0, 1, 2, 3, 4, 5, 6, 7, 8, 9, 10, 11, 12, 13, 14, 15],
    #[14, 10, 4, 8, 9, 15, 13, 6, 1, 12, 0, 2, 11, 7, 5, 3],
    #[11, 8, 12, 0, 5, 2, 15, 13, 10, 14, 3, 6, 7, 1, 9, 4],
    #[7, 9, 3, 1, 13, 12, 11, 14, 2, 6, 5, 10, 4, 0, 15, 8],
    #[9, 0, 5, 7, 2, 4, 10, 15, 14, 1, 11, 12, 6, 8, 3, 13],
    #[2, 12, 6, 10, 0, 11, 8, 3, 4, 13, 7, 5, 15, 14, 1, 9],
    #[12, 5, 1, 15, 14, 13, 4, 10, 0, 7, 6, 3, 9, 2, 8, 11],
    #[13, 11, 7, 14, 12, 1, 3, 9, 5, 0, 15, 4, 8, 6, 2, 10],
    #[6, 15, 14, 9, 11, 3, 0, 8, 12, 2, 13, 7, 1, 4, 10, 5],
    #[10, 2, 8, 4, 7, 6, 1, 5, 15, 11, 9, 14, 3, 12, 13, 0]]

/-- The places that each mixing step of a round works on: four columns, then four diagonals. -/
def lanes : List (Nat × Nat × Nat × Nat) :=
  [(0, 4, 8, 12), (1, 5, 9, 13), (2, 6, 10, 14), (3, 7, 11, 15),
    (0, 5, 10, 15), (1, 6, 11, 12), (2, 7, 8, 13), (3, 4, 9, 14)]

def word (words : Array UInt32) (i : Nat) : UInt32 := words.getD i 0

def rotate (w : UInt32) (bits : UInt32) : UInt32 := (w >>> bits) ||| (w <<< (32 - bits))

def mix (v : Array UInt32) (lane : Nat × Nat × Nat × Nat) (x y : UInt32) : Array UInt32 :=
  let (ia, ib, ic, id) := lane
  let a := word v ia + word v ib + x
  let d := rotate (word v id ^^^ a) 16
  let c := word v ic + d
  let b := rotate (word v ib ^^^ c) 12
  let a := a + b + y
  let d := rotate (d ^^^ a) 8
  let c := c + d
  let b := rotate (b ^^^ c) 7
  (((v.setIfInBounds ia a).setIfInBounds ib b).setIfInBounds ic c).setIfInBounds id d

/-- One round: every lane with the next two words of the block. -/
def round (block v : Array UInt32) (order : Array Nat) : Array UInt32 :=
  (lanes.zipIdx).foldl (fun v (lane, i) =>
    mix v lane (word block (order.getD (2 * i) 0)) (word block (order.getD (2 * i + 1) 0))) v

/-- The chaining value after a block. `count` is the number of octets up to its end. -/
def compress (h block : Array UInt32) (count : Nat) (final : Bool) : Array UInt32 :=
  let low := UInt32.ofNat count
  let high := UInt32.ofNat (count / 0x100000000)
  let tail := #[word initialWords 4 ^^^ low, word initialWords 5 ^^^ high,
    word initialWords 6 ^^^ (if final then 0xFFFFFFFF else 0), word initialWords 7]
  let v := schedule.foldl (round block) (h ++ initialWords.take 4 ++ tail)
  h.mapIdx fun i w => w ^^^ word v i ^^^ word v (i + 8)

def littleEndian (octets : List UInt8) : UInt32 :=
  octets.foldr (fun o w => w * 256 + o.toUInt32) 0

/-- The words of the first block of some octets, filled up with zeros. -/
def blockOf (octets : List UInt8) : Array UInt32 :=
  (Array.range 16).map fun i => littleEndian ((octets.drop (4 * i)).take 4)

/-- The chaining value after all octets; `done` counts those before. -/
def absorb (h : Array UInt32) (done : Nat) (octets : List UInt8) : Array UInt32 :=
  if octets.length ≤ 64 then compress h (blockOf octets) (done + octets.length) true
  else absorb (compress h (blockOf (octets.take 64)) (done + 64) false) (done + 64) (octets.drop 64)
termination_by octets.length
decreasing_by simp only [List.length_drop]; omega

def digest (octets : List UInt8) : Array UInt32 :=
  absorb (initialWords.setIfInBounds 0 (word initialWords 0 ^^^ 0x01010020)) 0 octets

/-- The fingerprint of texts in digits of base sixteen. -/
def ofTexts (texts : List Text) : Text :=
  (digest (texts.flatMap Text.octets)).toList.flatMap fun (w : UInt32) =>
    [w, w >>> 8, w >>> 16, w >>> 24].flatMap fun (o : UInt32) => hexText (o.toNat % 256) 2

end Mender.Fingerprint
