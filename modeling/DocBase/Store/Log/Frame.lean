import DocBase.Store.Basic

/-! The frames that a log is made of. A frame is the length of its body, a checksum of
the body, and the body: an operation, the length of an identifier, the identifier and
the data. Numbers are written with their least byte first. -/
namespace DocBase.Log

inductive Op
  | put
  | delete
  deriving DecidableEq, Repr

def Op.code : Op → UInt8
  | put => 1
  | delete => 2

def Op.ofCode? (c : UInt8) : Option Op :=
  if c = 1 then some .put else if c = 2 then some .delete else none

structure Frame where
  op : Op
  id : String
  data : Bytes

def headerSize : Nat := 8
def bodyHeaderSize : Nat := 3

/-- The low bytes of a number, as many as asked for. -/
def leBytes : Nat → Nat → Bytes
  | 0, _ => .empty
  | count + 1, n => (ByteArray.empty.push (UInt8.ofNat n)) ++ leBytes count (n / 256)

/-- The number in `count` bytes from `pos` on. -/
def leNat (bytes : Bytes) (pos : Nat) : Nat → Nat
  | 0 => 0
  | count + 1 => (bytes[pos]?.getD 0).toNat + 256 * leNat bytes (pos + 1) count

def maxIdLength : Nat := 65535

namespace Frame

def body (f : Frame) : Bytes :=
  ByteArray.empty.push f.op.code ++ leBytes 2 f.id.utf8ByteSize ++ f.id.toUTF8 ++ f.data

/-- The bytes of the whole frame. -/
def size (f : Frame) : Nat := headerSize + bodyHeaderSize + f.id.utf8ByteSize + f.data.size

def bytes (sum : Bytes → UInt32) (f : Frame) : Bytes :=
  leBytes 4 f.body.size ++ leBytes 4 (sum f.body).toNat ++ f.body

/-- The bytes of a frame whose lengths fit their places. -/
def encode (sum : Bytes → UInt32) (f : Frame) : Except StoreError Bytes :=
  if maxIdLength < f.id.utf8ByteSize then .error (.capacity (.identifier f.id.utf8ByteSize))
  else if UInt32.size ≤ f.size then .error (.capacity (.record f.data.size))
  else .ok (f.bytes sum)

/-- The frame that starts at `pos`, if a whole and valid one does. -/
def readAt? (sum : Bytes → UInt32) (log : Bytes) (pos : Nat) : Option Frame :=
  if log.size < pos + headerSize then none else
  let bodyStart := pos + headerSize
  let bodySize := leNat log pos 4
  if bodySize < bodyHeaderSize ∨ log.size < bodyStart + bodySize then none
  else if (sum (log.extract bodyStart (bodyStart + bodySize))).toNat ≠ leNat log (pos + 4) 4 then
    none
  else
    let idSize := leNat log (bodyStart + 1) 2
    let idStart := bodyStart + bodyHeaderSize
    if bodySize < bodyHeaderSize + idSize then none
    else match String.fromUTF8? (log.extract idStart (idStart + idSize)),
        Op.ofCode? (log[bodyStart]?.getD 0) with
      | some id, some op =>
        some { op, id, data := log.extract (idStart + idSize) (bodyStart + bodySize) }
      | _, _ => none

end Frame
end DocBase.Log
