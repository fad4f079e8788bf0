import Mathlib

set_option autoImplicit false

/-!
The granule allocator (mm/mm_gran/): `gran_common_alloc`, `gran_mark_allocated` and
`gran_common_free` over the granule allocation table (GAT), one bit a granule, 32 granules a
word. The table is a function from word indices to words, so that the read of the entry after the
last one, which the search makes, is a read like any other. The `DEBUGASSERT`s are left out, as in a
build without debug.
-/

namespace TizenRT.Gran

@[ext] structure GranState where
  log2gran : Nat
  ngranules : Nat
  heapstart : Nat
  gat : Nat → UInt32

/-- `gran_common_initialize` with `kmm_zalloc` succeeding: the heap start aligned up to
`2^log2align`, the whole granules up to the heap's end, stored in the `uint16_t` field, and a GAT
of clear bits. `x & ~mask` for a mask of low bits is written as clearing those bits. -/
def granCommonInitialize (heapstart heapsize log2gran log2align : Nat) : GranState :=
  let mask := (1 <<< log2align) - 1
  let alignedstart := (heapstart + mask) >>> log2align <<< log2align
  let heapend := heapstart + heapsize
  let alignedsize := (heapend - alignedstart) >>> log2gran <<< log2gran
  let ngranules := alignedsize >>> log2gran
  { log2gran := log2gran, ngranules := ngranules % 2 ^ 16, heapstart := alignedstart, gat := fun _ => 0 }

/-- The walk that `gran_mark_allocated` and `gran_common_free` share: `op` applied with the mask of
`ngranules` granules from granule `granno`, to its GAT entry, or to it and the next one when the run
crosses over. -/
def granApplyMask (op : UInt32 → UInt32 → UInt32) (gat : Nat → UInt32) (granno ngranules : Nat) :
    Nat → UInt32 :=
  let gatidx := granno >>> 5
  let gatbit := granno &&& 31
  let avail := 32 - gatbit
  if ngranules > avail then
    let gat := Function.update gat gatidx (op (gat gatidx) (0xffffffff <<< gatbit.toUInt32))
    let gatmask : UInt32 := 0xffffffff >>> (32 - (ngranules - avail)).toUInt32
    Function.update gat (gatidx + 1) (op (gat (gatidx + 1)) gatmask)
  else
    let gatmask : UInt32 := (0xffffffff >>> (32 - ngranules).toUInt32) <<< gatbit.toUInt32
    Function.update gat gatidx (op (gat gatidx) gatmask)

/-- `gran_mark_allocated`: set the bits of `ngranules` granules from the one at `alloc`. -/
def granMarkAllocated (priv : GranState) (alloc ngranules : Nat) : GranState :=
  let granno := (alloc - priv.heapstart) >>> priv.log2gran
  { priv with gat := granApplyMask (· ||| ·) priv.gat granno ngranules }

/-- `gran_common_free`: clear the bits of the granules of `size` bytes from `memory`. -/
def granCommonFree (priv : GranState) (memory size : Nat) : GranState :=
  let granno := (memory - priv.heapstart) >>> priv.log2gran
  let granmask := (1 <<< priv.log2gran) - 1
  let ngranules := (size + granmask) >>> priv.log2gran
  { priv with gat := granApplyMask (fun w gatmask => w &&& ~~~gatmask) priv.gat granno ngranules }

/-- The tests of one pass of the inner loop of `gran_common_alloc`, for a window `curr` with a free
bit: how far to move, by halves towards its first free bit, or `none` when the run starts here. -/
def granShift (curr mask : UInt32) : Option Nat :=
  if curr &&& 0x0000ffff = 0x0000ffff then some 16
  else if curr &&& 0x000000ff = 0x000000ff then some 8
  else if curr &&& 0x0000000f = 0x0000000f then some 4
  else if curr &&& 0x00000003 = 0x00000003 then some 2
  else if curr &&& mask = 0 then none
  else some 1

/-- How the inner loop ends: at a free run, whose address it returns, or with the candidate address
it has reached. -/
inductive GranScan where
  | found (alloc : Nat)
  | moved (alloc : Nat)
  deriving DecidableEq, Repr

/-- The inner `for` of `gran_common_alloc` over the GAT entry of `granidx`: `curr` is a 32-granule
window from granule `granidx + bitidx` and `next` the rest of the following entry, shifted along as
a 64-bit value. Each pass moves `bitidx` on by at least one, so 32 passes are enough: `fuel` runs out
only past the bound of the loop. -/
def granScan (priv : GranState) (ngranules granidx : Nat) (mask : UInt32) :
    Nat → Nat → Nat → UInt32 → UInt32 → GranScan
  | 0, _, alloc, _, _ => .moved alloc
  | fuel + 1, bitidx, alloc, curr, next =>
    if bitidx < 32 ∧ granidx + bitidx + ngranules ≤ priv.ngranules then
      if curr = 0xffffffff then .moved alloc
      else
        match granShift curr mask with
        | none => .found alloc
        | some shift =>
          granScan priv ngranules granidx mask fuel (bitidx + shift) (alloc + (shift <<< priv.log2gran))
            ((curr >>> shift.toUInt32) ||| (next <<< (32 - shift).toUInt32)) (next >>> shift.toUInt32)
    else .moved alloc

/-- The outer `for` of `gran_common_alloc`, one GAT entry a turn; `alloc` is carried from turn to
turn as the inner loop left it. `fuel` bounds the turns, `granidx` growing by 32 each. -/
def granSearch (priv : GranState) (ngranules : Nat) (mask : UInt32) : Nat → Nat → Nat → Option Nat
  | 0, _, _ => none
  | fuel + 1, granidx, alloc =>
    if granidx < priv.ngranules then
      let gatidx := granidx >>> 5
      let curr := priv.gat gatidx
      if curr = 0xffffffff then granSearch priv ngranules mask fuel (granidx + 32) (alloc + (32 <<< priv.log2gran))
      else
        let next := if granidx < priv.ngranules then priv.gat (gatidx + 1) else 0xffffffff
        match granScan priv ngranules granidx mask 32 0 alloc curr next with
        | .found alloc => some alloc
        | .moved alloc => granSearch priv ngranules mask fuel (granidx + 32) alloc
    else none

/-- `gran_common_alloc`: the address of the first run found, with its granules marked, or NULL. -/
def granCommonAlloc (priv : GranState) (size : Nat) : Option Nat × GranState :=
  if size > 0 then
    let tmpmask := (1 <<< priv.log2gran) - 1
    let ngranules := (size + tmpmask) >>> priv.log2gran
    let mask : UInt32 := 0xffffffff >>> (32 - ngranules).toUInt32
    match granSearch priv ngranules mask priv.ngranules 0 priv.heapstart with
    | some alloc => (some alloc,granMarkAllocated priv alloc ngranules)
    | none => (none,priv)
  else (none,priv)

end TizenRT.Gran
