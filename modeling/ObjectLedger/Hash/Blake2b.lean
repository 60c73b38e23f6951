import ObjectLedger.Number.Endian

/-!
# Blake2b

The unkeyed hash with a digest of thirty-two bytes: blocks of 128 bytes, each mixed into eight words
by twelve rounds. It names transactions and derives addresses.
-/

namespace ObjectLedger.Blake2b

def initial : Array UInt64 :=
  #[0x6a09e667f3bcc908, 0xbb67ae8584caa73b, 0x3c6ef372fe94f82b, 0xa54ff53a5f1d36f1,
    0x510e527fade682d1, 0x9b05688c2b3e6c1f, 0x1f83d9abfb41bd6b, 0x5be0cd19137e2179]

/-- The order in which a round takes the words of a block. -/
def schedule : Array (Array Nat) :=
  #[#[0, 1, 2, 3, 4, 5, 6, 7, 8, 9, 10, 11, 12, 13, 14, 15],
    #[14, 10, 4, 8, 9, 15, 13, 6, 1, 12, 0, 2, 11, 7, 5, 3],
    #[11, 8, 12, 0, 5, 2, 15, 13, 10, 14, 3, 6, 7, 1, 9, 4],
    #[7, 9, 3, 1, 13, 12, 11, 14, 2, 6, 5, 10, 4, 0, 15, 8],
    #[9, 0, 5, 7, 2, 4, 10, 15, 14, 1, 11, 12, 6, 8, 3, 13],
    #[2, 12, 6, 10, 0, 11, 8, 3, 4, 13, 7, 5, 15, 14, 1, 9],
    #[12, 5, 1, 15, 14, 13, 4, 10, 0, 7, 6, 3, 9, 2, 8, 11],
    #[13, 11, 7, 14, 12, 1, 3, 9, 5, 0, 15, 4, 8, 6, 2, 10],
    #[6, 15, 14, 9, 11, 3, 0, 8, 12, 2, 13, 7, 1, 4, 10, 5],
    #[10, 2, 8, 4, 7, 6, 1, 5, 15, 11, 9, 14, 3, 12, 13, 0]]

/-- The places of the state that the eight mixing steps of a round touch. -/
def places : List (Nat × Nat × Nat × Nat) :=
  [(0, 4, 8, 12), (1, 5, 9, 13), (2, 6, 10, 14), (3, 7, 11, 15),
   (0, 5, 10, 15), (1, 6, 11, 12), (2, 7, 8, 13), (3, 4, 9, 14)]

def rotateRight (x : UInt64) (n : UInt64) : UInt64 := (x >>> n) ||| (x <<< (64 - n))

def mix (v : Array UInt64) (place : Nat × Nat × Nat × Nat) (x y : UInt64) : Array UInt64 :=
  let (i, j, k, l) := place
  let a := v.getD i 0 + v.getD j 0 + x
  let d := rotateRight (v.getD l 0 ^^^ a) 32
  let c := v.getD k 0 + d
  let b := rotateRight (v.getD j 0 ^^^ c) 24
  let a := a + b + y
  let d := rotateRight (d ^^^ a) 16
  let c := c + d
  let b := rotateRight (b ^^^ c) 63
  (((v.setIfInBounds i a).setIfInBounds j b).setIfInBounds k c).setIfInBounds l d

def round (block : Array UInt64) (v : Array UInt64) (order : Array Nat) : Array UInt64 :=
  places.zipIdx.foldl (fun v (place, step) =>
    mix v place (block.getD (order.getD (2 * step) 0) 0)
      (block.getD (order.getD (2 * step + 1) 0) 0)) v

/-- The sixteen words of a block, short ones filled with zeros. -/
def words (bytes : List UInt8) : Array UInt64 :=
  (List.range 16).foldl (fun acc i =>
    acc.push (UInt64.ofNat (ofLittleEndian ((bytes.drop (8 * i)).take 8)))) #[]

/-- The state after a block; `count` bytes have been taken in with it. -/
def compress (h : Array UInt64) (bytes : List UInt8) (count : Nat) (last : Bool) : Array UInt64 :=
  let v := h ++ initial
  let v := v.setIfInBounds 12 (v.getD 12 0 ^^^ UInt64.ofNat count)
  let v := v.setIfInBounds 13 (v.getD 13 0 ^^^ UInt64.ofNat (count / UInt64.size))
  let v := if last then v.setIfInBounds 14 (v.getD 14 0 ^^^ 0xffffffffffffffff) else v
  let block := words bytes
  let v := (List.range 12).foldl (fun v r => round block v (schedule.getD (r % 10) #[])) v
  (Array.range 8).map fun i => h.getD i 0 ^^^ v.getD i 0 ^^^ v.getD (i + 8) 0

/-- Takes in what is left of a message; the fuel bounds the number of blocks. -/
def absorb : Nat → Array UInt64 → Nat → List UInt8 → Array UInt64
  | 0, h, _, _ => h
  | fuel + 1, h, count, bytes =>
    let block := bytes.take 128
    let rest := bytes.drop 128
    if rest.isEmpty then compress h block (count + block.length) true
    else absorb fuel (compress h block (count + 128) false) (count + 128) rest

/-- The thirty-two bytes of the hash of a message. -/
def hash256 (message : List UInt8) : List UInt8 :=
  let h := initial.setIfInBounds 0 (initial.getD 0 0 ^^^ 0x01010020)
  let h := absorb (message.length / 128 + 1) h 0 message
  (h.toList.flatMap fun word => littleEndian 8 word.toNat).take 32

end ObjectLedger.Blake2b
