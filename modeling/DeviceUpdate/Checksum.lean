import DeviceUpdate.Text.Utf8

/-!
# The IEEE CRC-32

The register takes one byte after the other, least significant bit first; it starts with all bits
set and is inverted at the end.
-/

namespace DeviceUpdate

namespace Crc32

/-- The bit-reversed generator polynomial. -/
def polynomial : UInt32 := 0xEDB88320

/-- Shifts one bit out of the register. -/
def shift (register : UInt32) : UInt32 :=
  if register &&& 1 = 1 then (register >>> 1) ^^^ polynomial else register >>> 1

/-- Takes one byte into the register. -/
def step (register : UInt32) (b : UInt8) : UInt32 :=
  shift (shift (shift (shift (shift (shift (shift (shift (register ^^^ b.toUInt32))))))))

def start : UInt32 := 0xFFFFFFFF

/-- Takes a piece of the content into the register. -/
def update (register : UInt32) (piece : Bytes) : UInt32 := piece.foldl step register

def finish (register : UInt32) : UInt32 := register ^^^ 0xFFFFFFFF

theorem update_append (register : UInt32) (a b : Bytes) :
    update register (a ++ b) = update (update register a) b :=
  List.foldl_append

end Crc32

def crc32 (content : Bytes) : UInt32 := Crc32.finish (Crc32.update Crc32.start content)

end DeviceUpdate
