/-! The 64-bit XXH3 hash with seed 0 and the default secret. -/
namespace DocBase.Xxh3

def secret : ByteArray := ByteArray.mk #[
  0xb8, 0xfe, 0x6c, 0x39, 0x23, 0xa4, 0x4b, 0xbe, 0x7c, 0x01, 0x81, 0x2c, 0xf7, 0x21, 0xad, 0x1c,
  0xde, 0xd4, 0x6d, 0xe9, 0x83, 0x90, 0x97, 0xdb, 0x72, 0x40, 0xa4, 0xa4, 0xb7, 0xb3, 0x67, 0x1f,
  0xcb, 0x79, 0xe6, 0x4e, 0xcc, 0xc0, 0xe5, 0x78, 0x82, 0x5a, 0xd0, 0x7d, 0xcc, 0xff, 0x72, 0x21,
  0xb8, 0x08, 0x46, 0x74, 0xf7, 0x43, 0x24, 0x8e, 0xe0, 0x35, 0x90, 0xe6, 0x81, 0x3a, 0x26, 0x4c,
  0x3c, 0x28, 0x52, 0xbb, 0x91, 0xc3, 0x00, 0xcb, 0x88, 0xd0, 0x65, 0x8b, 0x1b, 0x53, 0x2e, 0xa3,
  0x71, 0x64, 0x48, 0x97, 0xa2, 0x0d, 0xf9, 0x4e, 0x38, 0x19, 0xef, 0x46, 0xa9, 0xde, 0xac, 0xd8,
  0xa8, 0xfa, 0x76, 0x3f, 0xe3, 0x9c, 0x34, 0x3f, 0xf9, 0xdc, 0xbb, 0xc7, 0xc7, 0x0b, 0x4f, 0x1d,
  0x8a, 0x51, 0xe0, 0x4b, 0xcd, 0xb4, 0x59, 0x31, 0xc8, 0x9f, 0x7e, 0xc9, 0xd9, 0x78, 0x73, 0x64,
  0xea, 0xc5, 0xac, 0x83, 0x34, 0xd3, 0xeb, 0xc3, 0xc5, 0x81, 0xa0, 0xff, 0xfa, 0x13, 0x63, 0xeb,
  0x17, 0x0d, 0xdd, 0x51, 0xb7, 0xf0, 0xda, 0x49, 0xd3, 0x16, 0x55, 0x26, 0x29, 0xd4, 0x68, 0x9e,
  0x2b, 0x16, 0xbe, 0x58, 0x7d, 0x47, 0xa1, 0xfc, 0x8f, 0xf8, 0xb8, 0xd1, 0x7a, 0xd0, 0x31, 0xce,
  0x45, 0xcb, 0x3a, 0x8f, 0x95, 0x16, 0x04, 0x28, 0xaf, 0xd7, 0xfb, 0xca, 0xbb, 0x4b, 0x40, 0x7e]

def prime32_1 : UInt64 := 0x9E3779B1
def prime32_2 : UInt64 := 0x85EBCA77
def prime32_3 : UInt64 := 0xC2B2AE3D
def prime64_1 : UInt64 := 0x9E3779B185EBCA87
def prime64_2 : UInt64 := 0xC2B2AE3D27D4EB4F
def prime64_3 : UInt64 := 0x165667B19E3779F9
def prime64_4 : UInt64 := 0x85EBCA77C2B2AE63
def prime64_5 : UInt64 := 0x27D4EB2F165667C5

/-- The word of `count` bytes at `i`, least byte first; bytes past the end are 0. -/
def word (bytes : ByteArray) (i count : Nat) : UInt64 :=
  (List.range count).foldr (fun k w => (w <<< 8) ||| (bytes[i + k]?.getD 0).toUInt64) 0

def read32 (bytes : ByteArray) (i : Nat) : UInt64 := word bytes i 4
def read64 (bytes : ByteArray) (i : Nat) : UInt64 := word bytes i 8
def key (i : Nat) : UInt64 := read64 secret i

/-- Both halves of the 128-bit product, joined by exclusive or. -/
def foldedProduct (a b : UInt64) : UInt64 :=
  let p := a.toNat * b.toNat
  UInt64.ofNat p ^^^ UInt64.ofNat (p / UInt64.size)

def rotateLeft (x : UInt64) (n : UInt64) : UInt64 := (x <<< n) ||| (x >>> (64 - n))

def swapBytes (x : UInt64) : UInt64 :=
  (List.range 8).foldl (fun w k => (w <<< 8) ||| ((x >>> UInt64.ofNat (8 * k)) &&& 0xff)) 0

def avalanche (h : UInt64) : UInt64 :=
  let h := (h ^^^ (h >>> 37)) * 0x165667919E3779F9
  h ^^^ (h >>> 32)

def strongAvalanche (h : UInt64) : UInt64 :=
  let h := (h ^^^ (h >>> 33)) * prime64_2
  let h := (h ^^^ (h >>> 29)) * prime64_3
  h ^^^ (h >>> 32)

def upTo3 (bytes : ByteArray) : UInt64 :=
  let n := bytes.size
  let byte (i : Nat) : UInt64 := word bytes i 1
  let ends := (byte 0 <<< 16) ||| byte (n - 1)
  let combined := ends ||| (byte (n / 2) <<< 24) ||| (UInt64.ofNat n <<< 8)
  strongAvalanche (combined ^^^ (read32 secret 0 ^^^ read32 secret 4))

def upTo8 (bytes : ByteArray) : UInt64 :=
  let n := bytes.size
  let x := (read32 bytes (n - 4) + (read32 bytes 0 <<< 32)) ^^^ (key 8 ^^^ key 16)
  let h := (x ^^^ rotateLeft x 49 ^^^ rotateLeft x 24) * 0x9FB21C651E98DF25
  let h := (h ^^^ ((h >>> 35) + UInt64.ofNat n)) * 0x9FB21C651E98DF25
  h ^^^ (h >>> 28)

def upTo16 (bytes : ByteArray) : UInt64 :=
  let n := bytes.size
  let lo := read64 bytes 0 ^^^ (key 24 ^^^ key 32)
  let hi := read64 bytes (n - 8) ^^^ (key 40 ^^^ key 48)
  avalanche (UInt64.ofNat n + swapBytes lo + hi + foldedProduct lo hi)

/-- Sixteen bytes at `i` mixed with the secret at `s`. -/
def mix16 (bytes : ByteArray) (i s : Nat) : UInt64 :=
  foldedProduct (read64 bytes i ^^^ key s) (read64 bytes (i + 8) ^^^ key (s + 8))

def upTo128 (bytes : ByteArray) : UInt64 :=
  let n := bytes.size
  let pairs := (n - 1) / 32 + 1
  avalanche <| (List.range pairs).foldl (fun acc k =>
    acc + mix16 bytes (16 * k) (32 * k) + mix16 bytes (n - 16 * (k + 1)) (32 * k + 16))
    (UInt64.ofNat n * prime64_1)

def upTo240 (bytes : ByteArray) : UInt64 :=
  let n := bytes.size
  let first := avalanche <| (List.range 8).foldl
    (fun acc k => acc + mix16 bytes (16 * k) (16 * k)) (UInt64.ofNat n * prime64_1)
  let acc := (List.range (n / 16 - 8)).foldl
    (fun acc k => acc + mix16 bytes (128 + 16 * k) (16 * k + 3)) first
  avalanche (acc + mix16 bytes (n - 16) (136 - 17))

/-- Eight lanes take in a stripe of 64 bytes at `i` under the secret at `s`. -/
def accumulate (bytes : ByteArray) (acc : Array UInt64) (i s : Nat) : Array UInt64 :=
  (List.range 8).foldl (fun (acc : Array UInt64) (lane : Nat) =>
    let v : UInt64 := read64 bytes (i + 8 * lane)
    let k : UInt64 := v ^^^ key (s + 8 * lane)
    let acc := acc.modify (lane ^^^ 1) fun a => a + v
    acc.modify lane fun a => a + (k &&& (0xffffffff : UInt64)) * (k >>> 32)) acc

def scramble (acc : Array UInt64) : Array UInt64 :=
  acc.mapIdx fun (lane : Nat) (a : UInt64) =>
    (a ^^^ (a >>> 47) ^^^ key (128 + 8 * lane)) * prime32_1

def long (bytes : ByteArray) : UInt64 :=
  let n := bytes.size
  let start := #[prime32_3, prime64_1, prime64_2, prime64_3,
    prime64_4, prime32_2, prime64_5, prime32_1]
  let stripes (acc : Array UInt64) (place count : Nat) : Array UInt64 :=
    (List.range count).foldl (fun acc k => accumulate bytes acc (place + 64 * k) (8 * k)) acc
  let blocks := (n - 1) / 1024
  let acc := (List.range blocks).foldl (fun acc b => scramble (stripes acc (1024 * b) 16)) start
  let acc := stripes acc (1024 * blocks) ((n - 1 - 1024 * blocks) / 64)
  let acc := accumulate bytes acc (n - 64) (128 - 7)
  let lane (k : Nat) : UInt64 := acc.getD k 0
  avalanche <| (List.range 4).foldl (fun h k =>
    h + foldedProduct (lane (2 * k) ^^^ key (11 + 16 * k)) (lane (2 * k + 1) ^^^ key (19 + 16 * k)))
    (UInt64.ofNat n * prime64_1)

def hash (bytes : ByteArray) : UInt64 :=
  let n := bytes.size
  if n = 0 then strongAvalanche (key 56 ^^^ key 64)
  else if n ≤ 3 then upTo3 bytes
  else if n ≤ 8 then upTo8 bytes
  else if n ≤ 16 then upTo16 bytes
  else if n ≤ 128 then upTo128 bytes
  else if n ≤ 240 then upTo240 bytes
  else long bytes

/-- The one of `buckets` slots that a key falls into. -/
def bucket (bytes : ByteArray) (buckets : Nat) : Nat := (hash bytes).toNat % buckets

end DocBase.Xxh3
