import Mathlib.Logic.Function.Basic

set_option autoImplicit false

/-!
The per-erase-block free and release counts of the SMART layer built with
CONFIG_MTD_SMART_PACK_COUNTS (smart.c): `smart_set_count`, `smart_get_count` and `smart_add_count`
over the bytes that `smart_setsectorsize` sets aside after the sector cache, `releasecount` first
and `freecount` after it. With more than 16 sectors a block each count is a byte; with fewer, two
counts share a byte, the odd block in the low nibble; with 16, the bit for the value 16 of every
block is kept in a bitmap placed at `neraseblocks >> 1` bytes from the array's start. Bytes are
indexed from `releasecount`.

The nibbles of an array take `(neraseblocks + 1) >> 1` bytes, one more than `neraseblocks >> 1`
when the count of blocks is odd; the bitmap and the `freecount` array are placed as if it were
even, so that the last block's nibble shares its byte with them.
-/

namespace TizenRT.Smart

def smartFreecountOffset (sectorsPerBlk neraseblocks : Nat) : Nat :=
  if sectorsPerBlk > 16 then neraseblocks
  else if sectorsPerBlk = 16 then (neraseblocks >>> 1) + (neraseblocks >>> 3)
  else neraseblocks >>> 1

def smartCountsAllocsize (sectorsPerBlk neraseblocks : Nat) : Nat :=
  if sectorsPerBlk > 16 then neraseblocks <<< 1
  else if sectorsPerBlk = 16 then neraseblocks + (neraseblocks >>> 2)
  else neraseblocks

def countBit (block : Nat) : UInt8 := 1 <<< (block &&& 0x07).toUInt8

def smartSetCount (sectorsPerBlk neraseblocks : Nat) (mem : Nat → UInt8) (pCount block : Nat) (count : UInt8) :
    Nat → UInt8 :=
  if sectorsPerBlk > 16 then Function.update mem (pCount + block) count
  else
    let i := pCount + (block >>> 1)
    let mem : Nat → UInt8 :=
      if block &&& 0x01 ≠ 0 then Function.update mem i ((mem i &&& (0xF0 : UInt8)) ||| (count &&& 0x0F))
      else Function.update mem i ((mem i &&& (0x0F : UInt8)) ||| ((count &&& 0x0F) <<< 4))
    if sectorsPerBlk = 16 then
      let j := pCount + (neraseblocks >>> 1) + (block >>> 3)
      if count = 16 then Function.update mem j (mem j ||| countBit block)
      else Function.update mem j (mem j &&& ~~~countBit block)
    else mem

def smartGetCount (sectorsPerBlk neraseblocks : Nat) (mem : Nat → UInt8) (pCount block : Nat) : UInt8 :=
  if sectorsPerBlk > 16 then mem (pCount + block)
  else
    let i := pCount + (block >>> 1)
    let count : UInt8 := if block &&& 0x01 ≠ 0 then mem i &&& 0x0F else mem i >>> 4
    if sectorsPerBlk = 16 ∧ mem (pCount + (neraseblocks >>> 1) + (block >>> 3)) &&& countBit block ≠ 0 then
      count ||| 0x10
    else count

/-- `smart_add_count`: the `int16_t` sum passed on as a `uint8_t`. -/
def smartAddCount (sectorsPerBlk neraseblocks : Nat) (mem : Nat → UInt8) (pCount block : Nat) (adder : Int) :
    Nat → UInt8 :=
  let value : Int := (smartGetCount sectorsPerBlk neraseblocks mem pCount block).toNat + adder
  smartSetCount sectorsPerBlk neraseblocks mem pCount block (value % 256).toNat.toUInt8

/-- With 16 sectors a block and 5 erase blocks, the bitmap is put at byte 2, the byte of block 4's
nibble, and the bit for block 4 is bit 4, the low bit of that nibble: storing 1 for block 4 sets the
bit and then clears it as the bit for 16, so that 0 is read back, whatever the bytes held. With 8
sectors a block and 3 erase blocks, `freecount` starts at byte 1, the byte of the nibble of block 2
of `releasecount`, and block 0 of `freecount` is that same nibble: a free count stored for block 0
is read back as the release count of block 2. -/
theorem smart_packed_counts_overlap (mem : Nat → UInt8) :
    smartGetCount 16 5 (smartSetCount 16 5 mem 0 4 1) 0 4 = 0 ∧
      smartFreecountOffset 8 3 = 1 ∧
      smartGetCount 8 3 (smartSetCount 8 3 mem 1 0 7) 0 2 = 7 := by
  refine ⟨?_,rfl,?_⟩
  · have key : ∀ y : BitVec 8, smartGetCount 16 5 (smartSetCount 16 5 (Function.update mem 2 ⟨y⟩) 0 4 1) 0 4 = 0 := by
      intro y
      simp [smartGetCount,smartSetCount,countBit]
      revert y
      decide
    simpa using key (mem 2).toBitVec
  · have key : ∀ y : BitVec 8, smartGetCount 8 3 (smartSetCount 8 3 (Function.update mem 1 ⟨y⟩) 1 0 7) 0 2 = 7 := by
      intro y
      simp [smartGetCount,smartSetCount,countBit]
      revert y
      decide
    simpa using key (mem 1).toBitVec

end TizenRT.Smart
