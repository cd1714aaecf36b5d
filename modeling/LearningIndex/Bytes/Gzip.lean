import LearningIndex.Bytes.Utf8

/-!
# Gzip

The container of the format with blocks that are stored as they are.  A container carries a checksum
and the length of what it holds, and is refused if either of them is wrong.
-/

namespace LearningIndex
namespace Gzip

/-- One step of the checksum: the remainder after one more bit. -/
def shift (remainder : UInt32) : UInt32 :=
  if remainder &&& 1 = 1 then (remainder >>> 1) ^^^ 0xedb88320 else remainder >>> 1

/-- The remainder after one more byte. -/
def absorb (remainder : UInt32) (byte : UInt8) : UInt32 :=
  let mixed := remainder ^^^ byte.toUInt32
  shift (shift (shift (shift (shift (shift (shift (shift mixed)))))))

/-- The checksum of bytes. -/
def checksum (bytes : ByteString) : UInt32 :=
  bytes.foldl absorb 0xffffffff ^^^ 0xffffffff

/-- The lowest bytes of a number, the lowest first. -/
def littleEndian : Nat → Nat → ByteString
  | 0, _ => []
  | count + 1, value => UInt8.ofNat value :: littleEndian count (value / 256)

/-- The number of which the lowest byte comes first. -/
def ofLittleEndian : ByteString → Nat
  | [] => 0
  | byte :: rest => byte.toNat + 256 * ofLittleEndian rest

def maxBlock : Nat := 65535

/-- The length of a block and its complement. -/
def blockLength (length : Nat) : ByteString :=
  littleEndian 2 length ++ littleEndian 2 (maxBlock - length)

/-- The stored blocks that hold bytes; the last one is marked. -/
def blocks (bytes : ByteString) : ByteString :=
  if bytes.length ≤ maxBlock then 1 :: (blockLength bytes.length ++ bytes)
  else 0 :: (blockLength maxBlock ++ bytes.take maxBlock ++ blocks (bytes.drop maxBlock))
termination_by bytes.length
decreasing_by
  have : 0 < maxBlock := by decide
  simp only [List.length_drop]
  omega

/-- The head of a container: the marks of the format, no name and no time. -/
def head : ByteString := [0x1f, 0x8b, 8, 0, 0, 0, 0, 0, 0, 0xff]

/-- The tail of a container: the checksum and the length of what it holds. -/
def tail (bytes : ByteString) : ByteString :=
  littleEndian 4 (checksum bytes).toNat ++ littleEndian 4 bytes.length

def compress (bytes : ByteString) : ByteString :=
  head ++ blocks bytes ++ tail bytes

/-- Reads stored blocks, of which there are at most `steps`; gives what they hold and the rest. -/
def readBlocks : Nat → ByteString → Option (ByteString × ByteString)
  | 0, _ => none
  | steps + 1, mark :: first :: second :: third :: fourth :: rest =>
    let length := ofLittleEndian [first, second]
    let block := rest.take length
    if ofLittleEndian [third, fourth] ≠ maxBlock - length ∨ block.length ≠ length then none
    else if mark = 1 then some (block, rest.drop length)
    else if mark = 0 then
      (readBlocks steps (rest.drop length)).map fun (bytes, rest) => (block ++ bytes, rest)
    else none
  | _, _ => none

/-- What a container holds. -/
def decompress? (container : ByteString) : Option ByteString :=
  if container.take head.length = head then
    match readBlocks container.length (container.drop head.length) with
    | some (bytes, rest) => if rest = tail bytes then some bytes else none
    | none => none
  else none

end Gzip
end LearningIndex
