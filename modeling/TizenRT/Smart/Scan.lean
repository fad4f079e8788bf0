import Mathlib.Logic.Function.Basic
import Mathlib.Data.List.Range

set_option autoImplicit false

/-!
The mount-time scan of the SMART flash translation layer (`smart_scan`, smart.c), built without
CONFIG_MTD_SMART_MINIMIZE_RAM, CONFIG_SMARTFS_BAD_SECTOR and wear leveling, with the erased state
0xff and the format-1 sector header. The scan reads the header of every physical sector in turn,
counts free and released sectors per erase block, maps each live logical sector to a physical
one, and when two physical sectors claim one logical sector keeps the one with the larger
sequence number and releases the other on the flash.
-/

namespace TizenRT.Smart

def CONFIG_SMARTFS_ERASEDSTATE : UInt8 := 0xff
def SMART_STATUS_COMMITTED : UInt8 := 0x80
def SMART_STATUS_RELEASED : UInt8 := 0x40
def SMART_STATUS_CRC : UInt8 := 0x20
def SMART_STATUS_VERBITS : UInt8 := 0x03
def SMART_STATUS_VERSION : UInt8 := 0x01

structure SmartHeader where
  logicalsector : UInt16
  seq : UInt8
  crc8 : UInt8
  status : UInt8
  deriving DecidableEq, Repr

def erasedHeader : SmartHeader := ⟨0xffff, 0xff, 0xff, 0xff⟩

/-- `SECTOR_IS_COMMITTED` and `SECTOR_IS_RELEASED`: the bits are cleared to set them. -/
def SECTOR_IS_COMMITTED (h : SmartHeader) : Bool := h.status &&& SMART_STATUS_COMMITTED = 0
def SECTOR_IS_RELEASED (h : SmartHeader) : Bool := h.status &&& SMART_STATUS_RELEASED = 0

/-- The sequence number the scan compares: 8 bits where the status's CRC bit is set (a cleared
bit marks a CRC sector), else 16 bits with `crc8` as its high byte. -/
def headerSeq (h : SmartHeader) : UInt16 :=
  if h.status &&& SMART_STATUS_CRC ≠ 0 then h.seq.toUInt16
  else ((h.crc8.toUInt16 <<< 8) &&& 0xFF00) ||| h.seq.toUInt16

structure SmartGeometry where
  totalsectors : Nat
  sectorsPerBlk : Nat
  availSectPerBlk : Nat
  neraseblocks : Nat

/-- The flash headers and the fields of `struct smart_struct_s` the scan fills in. -/
structure SmartScan where
  headers : Nat → SmartHeader
  sMap : Nat → UInt16
  freesectors : UInt16
  releasesectors : UInt16
  freecount : Nat → UInt8
  releasecount : Nat → UInt8

section Scan

variable (g : SmartGeometry)

def smartScanInit (headers : Nat → SmartHeader) : SmartScan :=
  let prerelease (b : Nat) : UInt8 := if b = g.neraseblocks - 1 ∧ g.totalsectors = 65534 then 2 else 0
  ⟨headers, fun _ => 0xFFFF, (g.availSectPerBlk * g.neraseblocks).toUInt16, 0,
    fun b => g.availSectPerBlk.toUInt8 - prerelease b, prerelease⟩

/-- The header of `sector` with `bits` of its status cleared, as `smart_bytewrite` programs it. -/
def SmartScan.clearStatus (st : SmartScan) (sector : Nat) (bits : UInt8) : SmartScan :=
  let h := st.headers sector
  { st with headers := Function.update st.headers sector { h with status := h.status &&& ~~~bits } }

/-- The scan's test that the sector read now (`seq2`) is newer than the one mapped (`seq1`): a
larger sequence number, or a small one after one close to 0xFFFF. -/
def seqWins (seq1 seq2 : UInt16) : Bool := (seq1 > 0xFFF0 && seq2 < 10) || seq2 > seq1

/-- Two physical sectors claim `logicalsector`: the one mapped so far and `sector`. The loser of
`seqWins` is released. -/
def smartScanDuplicate (st : SmartScan) (logicalsector sector : Nat) : SmartScan :=
  let seq2 := headerSeq (st.headers sector)
  let seq1 := headerSeq (st.headers (st.sMap logicalsector).toNat)
  if seqWins seq1 seq2 then
    ({ st with sMap := Function.update st.sMap logicalsector sector.toUInt16 }).clearStatus
      (st.sMap logicalsector).toNat SMART_STATUS_RELEASED
  else st.clearStatus sector SMART_STATUS_RELEASED

def smartScanSector (st : SmartScan) (sector : Nat) : SmartScan :=
  let header := st.headers sector
  let logicalsector := header.logicalsector.toNat
  if ¬SECTOR_IS_COMMITTED header ∧ logicalsector ≥ g.totalsectors then st
  else
    let (st, released) :=
      if ¬SECTOR_IS_COMMITTED header then
        (st.clearStatus sector (SMART_STATUS_COMMITTED ||| SMART_STATUS_RELEASED), true)
      else (st, SECTOR_IS_RELEASED header)
    let blk := sector / g.sectorsPerBlk
    let st := { st with
      freecount := Function.update st.freecount blk (st.freecount blk - 1)
      freesectors := st.freesectors - 1 }
    if released then
      { st with
        releasesectors := st.releasesectors + 1
        releasecount := Function.update st.releasecount blk (st.releasecount blk + 1) }
    else if header.status &&& SMART_STATUS_VERBITS ≠ SMART_STATUS_VERSION then st
    else if logicalsector ≥ g.totalsectors then st
    else
      let st := if st.sMap logicalsector ≠ 0xFFFF then smartScanDuplicate st logicalsector sector
        else st
      { st with sMap := Function.update st.sMap logicalsector sector.toUInt16 }

def smartScan (headers : Nat → SmartHeader) : SmartScan :=
  (List.range g.totalsectors).foldl (smartScanSector g) (smartScanInit g headers)

end Scan

/-- A committed, unreleased sector of the current format version. -/
structure SmartHeader.Live (h : SmartHeader) : Prop where
  committed : SECTOR_IS_COMMITTED h = true
  unreleased : SECTOR_IS_RELEASED h = false
  version : h.status &&& SMART_STATUS_VERBITS = SMART_STATUS_VERSION

@[simp] theorem headers_clearStatus (st : SmartScan) (sector : Nat) (bits : UInt8) :
    (st.clearStatus sector bits).headers = Function.update st.headers sector
      { st.headers sector with status := (st.headers sector).status &&& ~~~bits } := rfl

@[simp] theorem sMap_clearStatus (st : SmartScan) (sector : Nat) (bits : UInt8) :
    (st.clearStatus sector bits).sMap = st.sMap := rfl

@[simp] theorem releasesectors_clearStatus (st : SmartScan) (sector : Nat) (bits : UInt8) :
    (st.clearStatus sector bits).releasesectors = st.releasesectors := rfl

theorem released_clearStatus (st : SmartScan) (sector : Nat) :
    SECTOR_IS_RELEASED ((st.clearStatus sector SMART_STATUS_RELEASED).headers sector) = true := by
  simp [SECTOR_IS_RELEASED,UInt8.and_assoc]

section Step

variable (g : SmartGeometry) (st : SmartScan) (sector : Nat)

theorem smartScanSector_erased (htot : g.totalsectors ≤ 0xffff)
    (h : st.headers sector = erasedHeader) : smartScanSector g st sector = st := by
  have hc : SECTOR_IS_COMMITTED erasedHeader = false := by decide
  have hl : g.totalsectors ≤ erasedHeader.logicalsector.toNat := htot
  simp [smartScanSector,h,hc,hl]

theorem foldl_smartScanSector_erased (htot : g.totalsectors ≤ 0xffff) (l : List Nat)
    (hl : ∀ s ∈ l, st.headers s = erasedHeader) : l.foldl (smartScanSector g) st = st := by
  induction l with
  | nil => rfl
  | cons s l ih =>
    rw [List.foldl_cons,smartScanSector_erased g st s htot (hl s (List.mem_cons_self ..))]
    exact ih (fun s' hs' => hl s' (List.mem_cons_of_mem _ hs'))

theorem smartScanSector_live (hlive : (st.headers sector).Live)
    (hL : (st.headers sector).logicalsector.toNat < g.totalsectors) :
    let L := (st.headers sector).logicalsector.toNat
    (smartScanSector g st sector).sMap = Function.update st.sMap L sector.toUInt16 ∧
      (smartScanSector g st sector).releasesectors = st.releasesectors ∧
      (smartScanSector g st sector).headers =
        if st.sMap L ≠ 0xFFFF then (smartScanDuplicate st L sector).headers else st.headers := by
  have hl : ¬g.totalsectors ≤ (st.headers sector).logicalsector.toNat := Nat.not_le.mpr hL
  simp only [smartScanSector,hlive.committed,hlive.unreleased,hlive.version,hl,not_true_eq_false,
    and_false,if_false,ne_eq,Bool.false_eq_true]
  split
  · simp only [smartScanDuplicate]
    split <;> simp_all
  · simp_all

theorem smartScanDuplicate_keeps_mapped (L : Nat)
    (hlose : seqWins (headerSeq (st.headers (st.sMap L).toNat)) (headerSeq (st.headers sector)) = false) :
    smartScanDuplicate st L sector = st.clearStatus sector SMART_STATUS_RELEASED := by
  simp [smartScanDuplicate,hlose]

end Step

theorem range'_eq_append_cons (s n k : Nat) (h₁ : s ≤ k) (h₂ : k < s + n) :
    List.range' s n = List.range' s (k - s) ++ k :: List.range' (k + 1) (s + n - k - 1) := by
  have hn : n = k - s + (s + n - k - 1 + 1) := by omega
  have hk : s + (k - s) = k := by omega
  conv_lhs => rw [hn,← List.range'_append_1,hk,List.range'_succ]

/-- The scan over a flash where two physical sectors `p < q` hold live copies of one logical
sector and the rest is erased. When the earlier copy wins the sequence test, the scan releases
`q` on the flash but still maps the logical sector to `q`, leaves `p` live, and counts no
released sector. -/
theorem smartScan_maps_released_copy (g : SmartGeometry) (headers : Nat → SmartHeader)
    (p q : Nat) (hpq : p < q) (hq : q < g.totalsectors) (htot : g.totalsectors ≤ 0xffff)
    (herased : ∀ s, s ≠ p → s ≠ q → headers s = erasedHeader)
    (hlivep : (headers p).Live) (hliveq : (headers q).Live)
    (hsame : (headers q).logicalsector = (headers p).logicalsector)
    (hL : (headers p).logicalsector.toNat < g.totalsectors)
    (hlose : seqWins (headerSeq (headers p)) (headerSeq (headers q)) = false) :
    (smartScan g headers).sMap (headers p).logicalsector.toNat = q.toUInt16 ∧
      SECTOR_IS_RELEASED ((smartScan g headers).headers q) = true ∧
      SECTOR_IS_RELEASED ((smartScan g headers).headers p) = false ∧
      (smartScan g headers).releasesectors = 0 := by
  set L := (headers p).logicalsector.toNat
  have hpL : p.toUInt16.toNat = p := by
    rw [Nat.toUInt16_eq,UInt16.toNat_ofNat']
    omega
  have hsplit : List.range g.totalsectors = List.range' 0 p ++ p ::
      (List.range' (p + 1) (q - (p + 1)) ++ q :: List.range' (q + 1) (g.totalsectors - q - 1)) := by
    rw [List.range_eq_range',range'_eq_append_cons 0 _ p (Nat.zero_le _) (by omega),
      range'_eq_append_cons (p + 1) _ q (by omega) (by omega)]
    have hn : p + 1 + (0 + g.totalsectors - p - 1) - q - 1 = g.totalsectors - q - 1 := by omega
    rw [hn,Nat.sub_zero]
  set st0 := smartScanInit g headers
  have h0hd : st0.headers = headers := rfl
  have h0map : st0.sMap L = 0xFFFF := rfl
  obtain ⟨hmap1,hrel1,hhd1⟩ := smartScanSector_live g st0 p hlivep hL
  rw [h0hd,h0map,if_neg (not_not_intro rfl)] at hhd1
  set st1 := smartScanSector g st0 p
  have hmid : (List.range' (p + 1) (q - (p + 1))).foldl (smartScanSector g) st1 = st1 := by
    refine foldl_smartScanSector_erased g st1 htot _ (fun s hs => ?_)
    rw [List.mem_range'_1] at hs
    rw [hhd1]
    exact herased s (by omega) (by omega)
  have hliveq1 : (st1.headers q).Live := by rwa [hhd1]
  have hLq : (st1.headers q).logicalsector.toNat = L := by rw [hhd1,hsame]
  have hmapped : st1.sMap L = p.toUInt16 := by rw [hmap1,h0hd,Function.update_self]
  have hne : st1.sMap L ≠ 0xFFFF := by
    rw [hmapped]
    intro h
    have := congrArg UInt16.toNat h
    rw [hpL] at this
    simp at this
    omega
  obtain ⟨hmap2,hrel2,hhd2⟩ := smartScanSector_live g st1 q hliveq1 (by rw [hLq]; exact hL)
  rw [hLq,if_pos hne,smartScanDuplicate_keeps_mapped st1 q L (by rw [hmapped,hpL,hhd1]; exact hlose)]
    at hhd2
  rw [hLq] at hmap2
  set st2 := smartScanSector g st1 q
  have hlast : (List.range' (q + 1) (g.totalsectors - q - 1)).foldl (smartScanSector g) st2 = st2 := by
    refine foldl_smartScanSector_erased g st2 htot _ (fun s hs => ?_)
    rw [List.mem_range'_1] at hs
    rw [hhd2,headers_clearStatus,Function.update_of_ne (by omega),hhd1]
    exact herased s (by omega) (by omega)
  have hscan : smartScan g headers = st2 := by
    rw [smartScan,hsplit,List.foldl_append,foldl_smartScanSector_erased g st0 htot _
      (fun s hs => herased s (by simp at hs; omega) (by simp at hs; omega))]
    rw [List.foldl_cons,List.foldl_append,hmid,List.foldl_cons,hlast]
  rw [hscan]
  refine ⟨?_,?_,?_,?_⟩
  · rw [hmap2,Function.update_self]
  · rw [hhd2]
    exact released_clearStatus st1 q
  · rw [hhd2,headers_clearStatus,Function.update_of_ne (by omega),hhd1]
    exact hlivep.unreleased
  · rw [hrel2,hrel1]
    rfl

def interruptedRelocation (s : Nat) : SmartHeader :=
  if s = 1 then ⟨5, 3, 0xff, 0x61⟩ else if s = 2 then ⟨5, 2, 0xff, 0x61⟩ else erasedHeader

theorem smartScan_maps_released_copy_relocation :
    (smartScan ⟨8, 4, 4, 2⟩ interruptedRelocation).sMap 5 = 2 ∧
      SECTOR_IS_RELEASED ((smartScan ⟨8, 4, 4, 2⟩ interruptedRelocation).headers 2) = true ∧
      SECTOR_IS_RELEASED ((smartScan ⟨8, 4, 4, 2⟩ interruptedRelocation).headers 1) = false ∧
      (smartScan ⟨8, 4, 4, 2⟩ interruptedRelocation).releasesectors = 0 :=
  smartScan_maps_released_copy ⟨8, 4, 4, 2⟩ interruptedRelocation 1 2 (by decide) (by decide)
    (by decide) (fun s h₁ h₂ => by simp [interruptedRelocation,h₁,h₂]) ⟨rfl,rfl,rfl⟩ ⟨rfl,rfl,rfl⟩
    rfl (by decide) rfl


end TizenRT.Smart
