/-!
# Cyclic redundancy checks

The check of a sequence of bytes is the remainder of a division of polynomials over
two elements.  Bytes are taken in order and the bits of a byte from the lowest, so
the divisor is written with its lowest power in the highest bit.
-/

namespace PackageResolution.Crc32

/-- The divisor without its highest power. -/
def divisor : UInt32 := 0xEDB88320

/-- The remainder after one bit more. -/
def shift (remainder : UInt32) : UInt32 :=
  if remainder &&& 1 = 1 then (remainder >>> 1) ^^^ divisor else remainder >>> 1

/-- The remainder after one byte more. -/
def step (remainder : UInt32) (byte : UInt8) : UInt32 :=
  shift (shift (shift (shift (shift (shift (shift (shift (remainder ^^^ byte.toUInt32))))))))

/-- The check of a sequence of bytes. -/
def ofBytes (bytes : List UInt8) : UInt32 :=
  (bytes.foldl step 0xFFFFFFFF) ^^^ 0xFFFFFFFF

end PackageResolution.Crc32
