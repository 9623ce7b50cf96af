import RT7.Base.Bytes

/-!
# CRC-32, as `zlib.crc32` computes it

The reflected polynomial `0xEDB88320`, one bit at a time.  The models take the checksum as a
parameter; this is the function it stands for.
-/

namespace RT7.Crc32

def polynomial : UInt32 := 0xEDB88320

def bitStep (c : UInt32) : UInt32 := if c &&& 1 = 1 then (c >>> 1) ^^^ polynomial else c >>> 1

def bitSteps : Nat → UInt32 → UInt32
  | 0, c => c
  | n + 1, c => bitSteps n (bitStep c)

def byteStep (c : UInt32) (b : UInt8) : UInt32 := bitSteps 8 (c ^^^ b.toUInt32)

/-- `zlib.crc32(b)` -/
def crc32 (b : Bytes) : UInt32 := ~~~(b.foldl byteStep 0xFFFFFFFF)

/-- the check value of the algorithm: the checksum of the digits `1` to `9` -/
example : crc32 [0x31, 0x32, 0x33, 0x34, 0x35, 0x36, 0x37, 0x38, 0x39] = 0xCBF43926 := by
  decide +kernel

end RT7.Crc32
