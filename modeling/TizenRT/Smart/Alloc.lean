import TizenRT.Smart.Scan

set_option autoImplicit false

/-!
Where the SMART layer takes a physical sector for a write (`smart_findfreephyssector`, smart.c),
built without wear leveling, CRC and bad-sector handling, and how the free and release counts of an
erase block are set when `smart_relocate_block` has erased it. The geometry is that of
`smart_setsectorsize`: a volume of exactly 65536 sectors is cut to 65534, and the last two sectors
of its last block are to stay pre-released, as `smart_scan` counts them.

`smart_relocate_block` leaves its loop over the block's sectors with `x` at the loop's bound, one past
the block's last usable sector, and then tests `x == dev->neraseblocks` where `smart_scan` tests the
block against `neraseblocks - 1`: the reserved sectors of the last block are counted free again
after it is erased, and the allocator then hands out sector 65534.
-/

namespace TizenRT.Smart

def EINVAL : Int := 22

/-- The geometry `smart_setsectorsize` computes from the MTD's erase blocks and the sector size;
an erase size too large for a `uint16_t` reads as 0 and stands for 256 KiB. -/
def smartSetsectorsize (neraseblocks erasesize sectorsize : Nat) : Except Int SmartGeometry :=
  let erasesize := if erasesize = 0 then 262144 else erasesize
  let (sectorsPerBlk,availSectPerBlk) :=
    if erasesize / sectorsize > 256 then (256,255)
    else if erasesize / sectorsize = 256 then (256,255)
    else (erasesize / sectorsize,erasesize / sectorsize)
  let totalsectors := neraseblocks * sectorsPerBlk
  if totalsectors > 65536 then .error (-EINVAL)
  else
    .ok { totalsectors := if totalsectors = 65536 then totalsectors - 2 else totalsectors,
          sectorsPerBlk := sectorsPerBlk, availSectPerBlk := availSectPerBlk, neraseblocks := neraseblocks }

section Alloc

variable (g : SmartGeometry)

/-- The end of `smart_relocate_block` for `block`, once its live sectors are moved and it is erased:
`x` is where the loop over its sectors stopped. The counts of the block are set anew, with two
sectors pre-released when `x` is `neraseblocks` on a 65534-sector volume. -/
def smartRelocateBlockFinish (st : SmartScan) (block x : Nat) : SmartScan :=
  let headers := fun s => if s / g.sectorsPerBlk = block then erasedHeader else st.headers s
  let prerelease : UInt8 := if x = g.neraseblocks ∧ g.totalsectors = 65534 then 2 else 0
  let oldrelease : UInt16 := (st.releasecount block).toUInt16
  { st with
    headers := headers
    freesectors := st.freesectors + (oldrelease - prerelease.toUInt16)
    releasesectors := st.releasesectors - (oldrelease - prerelease.toUInt16)
    freecount := Function.update st.freecount block (g.availSectPerBlk.toUInt8 - prerelease)
    releasecount := Function.update st.releasecount block prerelease }

/-- The `for` of `smart_findfreephyssector` over the erase blocks, `x` counting the passes from
`block` on: the block with the most free sectors, the one met last taken only if none was. -/
def smartFindfreeBlock (freecount : Nat → UInt8) : Nat → Nat → Nat → Nat → UInt16 → Nat
  | 0, _, _, allocblock, _ => allocblock
  | r + 1, x, block, allocblock, allocfreecount =>
    let count := (freecount block).toUInt16
    let (allocblock,allocfreecount) :=
      if count > allocfreecount ∧ (x < g.neraseblocks - 1 ∨ allocfreecount = 0) then (block,count)
      else (allocblock,allocfreecount)
    let block := if block + 1 ≥ g.neraseblocks then 0 else block + 1
    smartFindfreeBlock freecount r (x + 1) block allocblock allocfreecount

/-- The test of `smart_findfreephyssector` that a sector's header was never written. -/
def smartSectorFree (h : SmartHeader) : Bool :=
  h.logicalsector = 0xFFFF && h.seq = 0xFF && h.crc8 = 0xFF && !SECTOR_IS_COMMITTED h

/-- `smart_findfreephyssector`: the first free sector of the block chosen, or 0xFFFF, and the new
`lastallocblock`. -/
def smartFindfreephyssector (headers : Nat → SmartHeader) (freecount : Nat → UInt8) (lastallocblock : Nat) :
    Nat × Nat :=
  let lastallocblock := if lastallocblock + 1 ≥ g.neraseblocks then 0 else lastallocblock + 1
  let allocblock := smartFindfreeBlock g freecount g.neraseblocks 0 lastallocblock 0xFFFF 0
  if allocblock = 0xFFFF then (0xFFFF,lastallocblock)
  else
    match (List.range' (allocblock * g.sectorsPerBlk) g.availSectPerBlk).find? (fun x => smartSectorFree (headers x)) with
    | some x => (x,allocblock)
    | none => (0xFFFF,lastallocblock)

theorem smartFindfreeBlock_lt (freecount : Nat → UInt8) (r x : Nat) {block allocblock : Nat} (allocfreecount : UInt16)
    (hblock : block < g.neraseblocks) (halloc : allocblock < g.neraseblocks ∨ allocblock = 0xFFFF) :
    smartFindfreeBlock g freecount r x block allocblock allocfreecount < g.neraseblocks ∨
      smartFindfreeBlock g freecount r x block allocblock allocfreecount = 0xFFFF := by
  induction r generalizing x block allocblock allocfreecount with
  | zero => exact halloc
  | succ r ih =>
    have hnext : (if block + 1 ≥ g.neraseblocks then 0 else block + 1) < g.neraseblocks := by
      split <;> omega
    by_cases hc : (freecount block).toUInt16 > allocfreecount ∧ (x < g.neraseblocks - 1 ∨ allocfreecount = 0)
    · rw [smartFindfreeBlock,if_pos hc]
      exact ih _ _ hnext (.inl hblock)
    · rw [smartFindfreeBlock,if_neg hc]
      exact ih _ _ hnext halloc

/-- `smart_findfreephyssector` returns 0xFFFF or a sector whose header was never written, inside an
erase block of the volume, and keeps `lastallocblock` a block of the volume. -/
theorem smartFindfreephyssector_spec (headers : Nat → SmartHeader) (freecount : Nat → UInt8)
    (lastallocblock : Nat) (hblocks : 0 < g.neraseblocks) (havail : g.availSectPerBlk ≤ g.sectorsPerBlk) :
    ((smartFindfreephyssector g headers freecount lastallocblock).1 = 0xFFFF ∨
      ((smartFindfreephyssector g headers freecount lastallocblock).1 < g.neraseblocks * g.sectorsPerBlk ∧
        smartSectorFree (headers (smartFindfreephyssector g headers freecount lastallocblock).1) = true)) ∧
      (smartFindfreephyssector g headers freecount lastallocblock).2 < g.neraseblocks := by
  have hlast : (if lastallocblock + 1 ≥ g.neraseblocks then 0 else lastallocblock + 1) < g.neraseblocks := by
    split <;> omega
  have hblock := smartFindfreeBlock_lt g freecount g.neraseblocks 0 0 hlast (.inr rfl)
  unfold smartFindfreephyssector
  dsimp only
  generalize (if lastallocblock + 1 ≥ g.neraseblocks then 0 else lastallocblock + 1) = L at hlast hblock ⊢
  generalize smartFindfreeBlock g freecount g.neraseblocks 0 L 0xFFFF 0 = b at hblock ⊢
  by_cases hb : b = 0xFFFF
  · rw [if_pos hb]
    exact ⟨.inl rfl,hlast⟩
  rw [if_neg hb]
  have hb' : b < g.neraseblocks := hblock.resolve_right hb
  split
  · rename_i x hx
    have hmem := List.mem_range'_1.mp (List.mem_of_find?_eq_some hx)
    have hend : (b + 1) * g.sectorsPerBlk ≤ g.neraseblocks * g.sectorsPerBlk := Nat.mul_le_mul_right _ hb'
    rw [Nat.succ_mul] at hend
    exact ⟨.inr ⟨by omega,by simpa using List.find?_some hx⟩,hb'⟩
  · exact ⟨.inl rfl,hlast⟩

theorem smartFindfreephyssector_spec_cut_volume :
    (0 < (⟨65534,256,255,256⟩ : SmartGeometry).neraseblocks ∧
      (⟨65534,256,255,256⟩ : SmartGeometry).availSectPerBlk ≤ (⟨65534,256,255,256⟩ : SmartGeometry).sectorsPerBlk) ∧
    (((smartFindfreephyssector ⟨65534,256,255,256⟩ (fun _ => erasedHeader) (fun _ => 255) 0).1 = 0xFFFF ∨
      ((smartFindfreephyssector ⟨65534,256,255,256⟩ (fun _ => erasedHeader) (fun _ => 255) 0).1 < 256 * 256 ∧
        smartSectorFree erasedHeader = true)) ∧
      (smartFindfreephyssector ⟨65534,256,255,256⟩ (fun _ => erasedHeader) (fun _ => 255) 0).2 < 256) :=
  ⟨⟨by decide,by decide⟩,smartFindfreephyssector_spec ⟨65534,256,255,256⟩ _ _ 0 (by decide) (by decide)⟩

theorem smartRelocateBlockFinish_last_no_prerelease (st : SmartScan) (hblocks : 2 ≤ g.neraseblocks)
    (hspb : 2 ≤ g.sectorsPerBlk) (havail : 1 ≤ g.availSectPerBlk) :
    let x := (g.neraseblocks - 1) * g.sectorsPerBlk + g.availSectPerBlk
    (smartRelocateBlockFinish g st (g.neraseblocks - 1) x).releasecount (g.neraseblocks - 1) = 0 ∧
      (smartRelocateBlockFinish g st (g.neraseblocks - 1) x).freecount (g.neraseblocks - 1) =
        g.availSectPerBlk.toUInt8 := by
  intro x
  have hx : x ≠ g.neraseblocks := by
    have := Nat.mul_le_mul_right (g.neraseblocks - 1) hspb
    rw [Nat.mul_comm g.sectorsPerBlk] at this
    omega
  simp [smartRelocateBlockFinish,hx]

end Alloc

def writtenHeader : SmartHeader := ⟨0, 0, 0xff, 0x7f⟩

/-- A 256-block volume of 256-sector blocks (256 KiB erase blocks, 1 KiB sectors) is cut to 65534
sectors, and `smart_scan` pre-releases two sectors of the last block. When that block is relocated,
its counts are set to 255 free and none released. Once its sectors below 65534 are written and one
sector is left in its count, with the other blocks full, `smart_findfreephyssector` takes sector
65534, past the last sector of the volume. -/
theorem smart_relocate_last_block_hands_out_reserved (st : SmartScan) :
    smartSetsectorsize 256 0 1024 = .ok ⟨65534,256,255,256⟩ ∧
      (smartScanInit ⟨65534,256,255,256⟩ st.headers).releasecount 255 = 2 ∧
      (smartRelocateBlockFinish ⟨65534,256,255,256⟩ st 255 (255 * 256 + 255)).releasecount 255 = 0 ∧
      (smartRelocateBlockFinish ⟨65534,256,255,256⟩ st 255 (255 * 256 + 255)).freecount 255 = 255 ∧
      (smartFindfreephyssector ⟨65534,256,255,256⟩ (fun s => if s < 65534 then writtenHeader else erasedHeader)
        (fun b => if b = 255 then 1 else 0) 0).1 = 65534 := by
  refine ⟨rfl,by simp [smartScanInit],?_,?_,by decide +kernel⟩
  · exact (smartRelocateBlockFinish_last_no_prerelease ⟨65534,256,255,256⟩ st (by decide) (by decide) (by decide)).1
  · exact (smartRelocateBlockFinish_last_no_prerelease ⟨65534,256,255,256⟩ st (by decide) (by decide) (by decide)).2

end TizenRT.Smart
