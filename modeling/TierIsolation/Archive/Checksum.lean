/-!
# Checksums of contents

The cyclic redundancy check of 32 bits that zip files record for the contents of their members: the
remainder of the bits, lowest bit first, by the polynomial `0xEDB88320`.
-/

namespace TierIsolation.Archive.Checksum

/-- The polynomial, its highest coefficient in the lowest bit. -/
def polynomial : UInt32 := 0xEDB88320

def step (r : UInt32) : UInt32 := if r &&& 1 = 1 then (r >>> 1) ^^^ polynomial else r >>> 1

def update (r : UInt32) (b : UInt8) : UInt32 :=
  step (step (step (step (step (step (step (step (r ^^^ b.toUInt32))))))))

def ofBytes (bytes : ByteArray) : UInt32 := (bytes.foldl update 0xFFFFFFFF) ^^^ 0xFFFFFFFF

end TierIsolation.Archive.Checksum
