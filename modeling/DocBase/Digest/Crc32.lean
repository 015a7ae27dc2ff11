/-! The CRC-32 checksum with the reflected polynomial `edb88320`. -/
namespace DocBase.Crc32

def shiftOnce (c : UInt32) : UInt32 := if c &&& 1 = 1 then (c >>> 1) ^^^ 0xedb88320 else c >>> 1

def tableEntry (n : Nat) : UInt32 := (List.range 8).foldl (fun c _ => shiftOnce c) (UInt32.ofNat n)

def table : Array UInt32 := (Array.range 256).map tableEntry

def step (c : UInt32) (b : UInt8) : UInt32 :=
  table.getD ((c ^^^ b.toUInt32) &&& 0xff).toNat 0 ^^^ (c >>> 8)

def ofBytes (bytes : ByteArray) : UInt32 := bytes.foldl step 0xffffffff ^^^ 0xffffffff

def verify (bytes : ByteArray) (expected : UInt32) : Bool := ofBytes bytes == expected

end DocBase.Crc32
