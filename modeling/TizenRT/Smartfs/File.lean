import Mathlib.Logic.Function.Basic
import TizenRT.Lib.Overwrite

set_option autoImplicit false

/-!
Reads, writes, syncs and seeks of one open SmartFS file (smartfs_smart.c), built without
CONFIG_SMARTFS_USE_SECTOR_BUFFER, CONFIG_SMARTFS_DYNAMIC_HEADER, CONFIG_SMARTFS_JOURNALING and
CRC headers. The SMART device is a map from logical sectors to the bytes last written to them;
every BIOC_READSECT, BIOC_WRITESECT and BIOC_ALLOCSECT succeeds, and a sector it allocates reads
as erased. A file's data runs along a chain of sectors, each with a chain header whose `used`
field counts its data bytes once a sync has written it.
-/

namespace TizenRT.Smartfs

open Overwrite

def CONFIG_SMARTFS_ERASEDSTATE : UInt8 := 0xff
def SMARTFS_ERASEDSTATE_16BIT : UInt16 := 0xffff

/-- `sizeof(struct smartfs_chain_header_s)`: `type`, `nextsector[2]`, `used[2]`. -/
def SIZEOF_CHAIN_HEADER : UInt16 := 5
def OFFSETOF_NEXTSECTOR : Nat := 1
def OFFSETOF_USED : Nat := 3

def uint8ToUint16 (b : List UInt8) (i : Nat) : UInt16 :=
  (((b.getD (i + 1) 0).toUInt16 <<< 8) &&& 0xFF00) ||| (b.getD i 0).toUInt16

def le16 (v : UInt16) : List UInt8 := [(v &&& 0x00FF).toUInt8, (v >>> 8).toUInt8]

def SMARTFS_NEXTSECTOR (h : List UInt8) : UInt16 := uint8ToUint16 h OFFSETOF_NEXTSECTOR
def SMARTFS_USED (h : List UInt8) : UInt16 := uint8ToUint16 h OFFSETOF_USED

/-- The logical sectors of the SMART device, and the next one BIOC_ALLOCSECT hands out. -/
structure SmartDev where
  sectors : UInt16 → List UInt8
  nextFree : UInt16

namespace SmartDev

def readsect (d : SmartDev) (logsector : UInt16) (count : Nat) : List UInt8 :=
  (d.sectors logsector).take count

def writesect (d : SmartDev) (logsector : UInt16) (offset : Nat) (src : List UInt8) : SmartDev :=
  { d with sectors := Function.update d.sectors logsector (overwrite (d.sectors logsector) offset src) }

def allocsect (d : SmartDev) (availbytes : Nat) : UInt16 × SmartDev :=
  (d.nextFree, ⟨Function.update d.sectors d.nextFree
    (List.replicate availbytes CONFIG_SMARTFS_ERASEDSTATE), d.nextFree + 1⟩)

end SmartDev

/-- The fields of `struct smartfs_mountpt_s` the file calls use. -/
structure SmartfsMountpt where
  dev : SmartDev
  availbytes : UInt16
  rwbuffer : List UInt8

/-- The fields of `struct smartfs_ofile_s` and of its entry that the file calls use. -/
structure SmartfsOfile where
  datlen : Nat
  firstsector : UInt16
  filepos : Nat
  currsector : UInt16
  curroffset : UInt16
  byteswritten : UInt16

/-- `smartfs_open` of a file it has just created, whose first sector is `sector`. -/
def SmartfsOfile.created (sector : UInt16) : SmartfsOfile :=
  ⟨0, sector, 0, sector, SIZEOF_CHAIN_HEADER, 0⟩

def SmartfsMountpt.readRw (fs : SmartfsMountpt) (logsector : UInt16) (count : Nat) :
    SmartfsMountpt :=
  { fs with rwbuffer := overwrite fs.rwbuffer 0 (fs.dev.readsect logsector count) }

/-- `smartfs_sync_internal`: the bytes written to the current sector since the last sync are
added to its `used` field on the device. -/
def smartfsSyncInternal (fs : SmartfsMountpt) (sf : SmartfsOfile) : SmartfsMountpt × SmartfsOfile :=
  if sf.byteswritten > 0 then
    let fs := fs.readRw sf.currsector SIZEOF_CHAIN_HEADER.toNat
    let used := if SMARTFS_USED fs.rwbuffer = SMARTFS_ERASEDSTATE_16BIT then sf.byteswritten
      else SMARTFS_USED fs.rwbuffer + sf.byteswritten
    ({ fs with
        rwbuffer := overwrite fs.rwbuffer OFFSETOF_USED (le16 used)
        dev := fs.dev.writesect sf.currsector OFFSETOF_USED (le16 used) },
      { sf with byteswritten := 0 })
  else (fs, sf)

/-- The `while (bytesread != buflen)` of `smartfs_read`, for at most `fuel` passes: the count
of bytes read and the bytes copied, which stop at the end of `fs_rwbuffer` where `memcpy` reads
on past it. A pass reads the current sector, takes `used` less the offset in it, as a
`uint16_t`, and moves to the next sector when it took nothing or reached the sector's end. -/
def smartfsReadLoop (buflen : Nat) :
    Nat → Nat → List UInt8 → SmartfsMountpt → SmartfsOfile →
      Nat × List UInt8 × SmartfsMountpt × SmartfsOfile
  | 0, bytesread, out, fs, sf => (bytesread, out, fs, sf)
  | fuel + 1, bytesread, out, fs, sf =>
    if bytesread = buflen ∨ sf.currsector = SMARTFS_ERASEDSTATE_16BIT then (bytesread, out, fs, sf)
    else
      let fs := fs.readRw sf.currsector fs.availbytes.toNat
      let bytesinsector : UInt16 :=
        if SMARTFS_USED fs.rwbuffer = SMARTFS_ERASEDSTATE_16BIT then 0 else SMARTFS_USED fs.rwbuffer
      let bytestoread := bytesinsector - (sf.curroffset - SIZEOF_CHAIN_HEADER)
      let bytestoread :=
        if bytestoread.toNat + bytesread > buflen then (buflen - bytesread).toUInt16 else bytestoread
      let (bytesread, out, sf) :=
        if bytestoread > 0 then
          (bytesread + bytestoread.toNat,
            out ++ (fs.rwbuffer.drop sf.curroffset.toNat).take bytestoread.toNat,
            { sf with
              filepos := sf.filepos + bytestoread.toNat
              curroffset := sf.curroffset + bytestoread })
        else (bytesread, out, sf)
      if bytestoread = 0 ∨ sf.curroffset = fs.availbytes then
        let sf := { sf with
          currsector := SMARTFS_NEXTSECTOR fs.rwbuffer
          curroffset := SIZEOF_CHAIN_HEADER }
        if sf.currsector = SMARTFS_ERASEDSTATE_16BIT then (bytesread, out, fs, sf)
        else smartfsReadLoop buflen fuel bytesread out fs sf
      else smartfsReadLoop buflen fuel bytesread out fs sf

/-- `smartfs_read` of `buflen` bytes over at most `fuel` sectors (a chain that loops is never
left): the count it returns and the bytes it copies. -/
def smartfsRead (fuel buflen : Nat) (fs : SmartfsMountpt) (sf : SmartfsOfile) :
    Nat × List UInt8 × SmartfsMountpt × SmartfsOfile :=
  smartfsReadLoop buflen fuel 0 [] fs sf

/-- The first loop of `smartfs_write`: the bytes before the end of the file are written over,
up to it, a sector at a time. -/
def smartfsOverwriteLoop : Nat → List UInt8 → SmartfsMountpt → SmartfsOfile →
    List UInt8 × SmartfsMountpt × SmartfsOfile
  | 0, src, fs, sf => (src, fs, sf)
  | fuel + 1, src, fs, sf =>
    if sf.filepos < sf.datlen ∧ src ≠ [] then
      let count := fs.availbytes - sf.curroffset
      let count := if count.toNat > src.length then src.length.toUInt16 else count
      let count := if count.toNat > sf.datlen - sf.filepos then (sf.datlen - sf.filepos).toUInt16
        else count
      let (fs, sf) :=
        if count > 0 then
          ({ fs with dev := fs.dev.writesect sf.currsector sf.curroffset.toNat (src.take count.toNat) },
            { sf with filepos := sf.filepos + count.toNat, curroffset := sf.curroffset + count })
        else (fs, sf)
      let src := src.drop count.toNat
      if sf.curroffset = fs.availbytes then
        let fs := fs.readRw sf.currsector SIZEOF_CHAIN_HEADER.toNat
        smartfsOverwriteLoop fuel src fs { sf with
          curroffset := SIZEOF_CHAIN_HEADER
          currsector := SMARTFS_NEXTSECTOR fs.rwbuffer }
      else smartfsOverwriteLoop fuel src fs sf
    else (src, fs, sf)

/-- The second loop of `smartfs_write`: the rest is appended, filling the current sector; a
full sector is synced and, while bytes remain, a new sector is allocated and chained to it. -/
def smartfsAppendLoop : Nat → List UInt8 → SmartfsMountpt → SmartfsOfile →
    List UInt8 × SmartfsMountpt × SmartfsOfile
  | 0, src, fs, sf => (src, fs, sf)
  | fuel + 1, src, fs, sf =>
    if src = [] then (src, fs, sf)
    else
      let count := fs.availbytes - sf.curroffset
      let count := if count.toNat > src.length then src.length.toUInt16 else count
      let fs := if count > 0 then
          { fs with dev := fs.dev.writesect sf.currsector sf.curroffset.toNat (src.take count.toNat) }
        else fs
      let sf := { sf with
        datlen := sf.datlen + count.toNat
        byteswritten := sf.byteswritten + count
        filepos := sf.filepos + count.toNat
        curroffset := sf.curroffset + count }
      let src := src.drop count.toNat
      if sf.curroffset = fs.availbytes then
        let (fs, sf) := smartfsSyncInternal fs sf
        if src ≠ [] then
          let (sector, dev) := fs.dev.allocsect fs.availbytes.toNat
          let fs := { fs with rwbuffer := overwrite fs.rwbuffer OFFSETOF_NEXTSECTOR (le16 sector) }
          let fs := { fs with
            dev := dev.writesect sf.currsector OFFSETOF_NEXTSECTOR (le16 sector) }
          smartfsAppendLoop fuel src fs { sf with
            currsector := SMARTFS_NEXTSECTOR fs.rwbuffer
            curroffset := SIZEOF_CHAIN_HEADER }
        else smartfsAppendLoop fuel src fs sf
      else smartfsAppendLoop fuel src fs sf

/-- `smartfs_write` on a file opened for writing: the count of bytes written. A pass of either
loop that takes no byte moves to the next sector, from which the next pass takes one. -/
def smartfsWrite (src : List UInt8) (fs : SmartfsMountpt) (sf : SmartfsOfile) :
    Nat × SmartfsMountpt × SmartfsOfile :=
  let (rest, fs, sf) := smartfsOverwriteLoop (2 * src.length + 1) src fs sf
  let (rest', fs, sf) := smartfsAppendLoop (2 * rest.length + 1) rest fs sf
  (src.length - rest'.length, fs, sf)

inductive Whence where
  | seekSet
  | seekCur
  | seekEnd
  deriving DecidableEq, Repr

def truncU16 (x : Int) : UInt16 := (x % 65536).toNat.toUInt16

/-- The `while` of `smartfs_seek_internal` that walks the chain, for at most `fuel` sectors,
adding up their `used` fields. -/
def smartfsSeekLoop (newpos : Nat) : Nat → SmartfsMountpt → SmartfsOfile →
    SmartfsMountpt × SmartfsOfile
  | 0, fs, sf => (fs, sf)
  | fuel + 1, fs, sf =>
    if sf.currsector ≠ SMARTFS_ERASEDSTATE_16BIT ∧
        sf.filepos + fs.availbytes.toNat - SIZEOF_CHAIN_HEADER.toNat < newpos then
      let fs := fs.readRw sf.currsector SIZEOF_CHAIN_HEADER.toNat
      smartfsSeekLoop newpos fuel fs { sf with
        filepos := sf.filepos + (SMARTFS_USED fs.rwbuffer).toNat
        currsector := SMARTFS_NEXTSECTOR fs.rwbuffer }
    else (fs, sf)

def seekBase (sf : SmartfsOfile) : Whence → Int
  | .seekSet => 0
  | .seekCur => sf.filepos
  | .seekEnd => sf.datlen

/-- `smartfs_seek_internal`, walking at most `fuel` sectors: the new position, clamped into the
file. -/
def smartfsSeekInternal (fuel : Nat) (offset : Int) (whence : Whence) (fs : SmartfsMountpt)
    (sf : SmartfsOfile) : Int × SmartfsMountpt × SmartfsOfile :=
  if whence = .seekCur ∧ offset = 0 then (sf.filepos, fs, sf)
  else
    let (fs, sf) := if sf.byteswritten > 0 then smartfsSyncInternal fs sf else (fs, sf)
    let newpos : Nat := (min (max (seekBase sf whence + offset) 0) sf.datlen).toNat
    let sectorstartpos : Int := (sf.filepos : Int) - (sf.curroffset.toNat - SIZEOF_CHAIN_HEADER.toNat)
    if sectorstartpos ≤ newpos ∧
        (newpos : Int) < sectorstartpos + fs.availbytes.toNat - SIZEOF_CHAIN_HEADER.toNat then
      (newpos, fs, { sf with
        curroffset := truncU16 (SIZEOF_CHAIN_HEADER.toNat + newpos - sectorstartpos)
        filepos := newpos })
    else
      let sf := if newpos > sf.filepos then { sf with filepos := sectorstartpos.toNat }
        else { sf with currsector := sf.firstsector, filepos := 0 }
      let (fs, sf) := smartfsSeekLoop newpos fuel fs sf
      (newpos, fs, { sf with
        curroffset := truncU16 (SIZEOF_CHAIN_HEADER.toNat + newpos - sf.filepos)
        filepos := newpos })

end TizenRT.Smartfs

namespace TizenRT.Smartfs

open Overwrite

theorem getElem?_readRw {fs : SmartfsMountpt} {s : UInt16} {count j : Nat} (hj : j < count)
    (hl : j < (fs.dev.sectors s).length) :
    (fs.readRw s count).rwbuffer[j]? = (fs.dev.sectors s)[j]? := by
  have hlen : j < ((fs.dev.sectors s).take count).length := by simp; omega
  have : (overwrite fs.rwbuffer 0 ((fs.dev.sectors s).take count))[j]? = _ :=
    Nat.zero_add j ▸ getElem?_overwrite_add (Nat.zero_le fs.rwbuffer.length) hlen
  rw [SmartfsMountpt.readRw,SmartDev.readsect,this,List.getElem?_take_of_lt hj]

theorem SMARTFS_USED_congr {b b' : List UInt8} (h3 : b[OFFSETOF_USED]? = b'[OFFSETOF_USED]?)
    (h4 : b[OFFSETOF_USED + 1]? = b'[OFFSETOF_USED + 1]?) : SMARTFS_USED b = SMARTFS_USED b' := by
  simp only [SMARTFS_USED,uint8ToUint16,List.getD_eq_getElem?_getD,h3,h4]

theorem toNat_toUInt16_of_lt {n : Nat} (h : n < 65536) : n.toUInt16.toNat = n := by
  simp
  omega

theorem smartfsReadLoop_unsynced (fuel buflen bytesread : Nat) (out : List UInt8)
    (fs : SmartfsMountpt) (sf : SmartfsOfile) (hsec : sf.currsector ≠ SMARTFS_ERASEDSTATE_16BIT)
    (hlt : bytesread < buflen)
    (hused : SMARTFS_USED (fs.readRw sf.currsector fs.availbytes.toNat).rwbuffer =
      SMARTFS_ERASEDSTATE_16BIT)
    (hoff : SIZEOF_CHAIN_HEADER < sf.curroffset)
    (hwrap : buflen - bytesread + (sf.curroffset.toNat - SIZEOF_CHAIN_HEADER.toNat) < 65536) :
    (smartfsReadLoop buflen (fuel + 2) bytesread out fs sf).1 = buflen := by
  rw [smartfsReadLoop,if_neg (by simp [hsec]; omega)]
  simp only [hused,if_true]
  have h5 : SIZEOF_CHAIN_HEADER.toNat = 5 := rfl
  have hwrapped : ((0 : UInt16) - (sf.curroffset - SIZEOF_CHAIN_HEADER)).toNat + bytesread > buflen := by
    have := UInt16.lt_iff_toNat_lt.mp hoff
    simp only [UInt16.toNat_sub,h5] at this hwrap ⊢
    have := sf.curroffset.toNat_lt
    simp only [UInt16.toNat_zero]
    omega
  have hcount : (buflen - bytesread).toUInt16.toNat = buflen - bytesread := toNat_toUInt16_of_lt (by omega)
  have hpos : (buflen - bytesread).toUInt16 > 0 := UInt16.lt_iff_toNat_lt.mpr (by simp only [hcount]; simp; omega)
  simp only [if_pos hwrapped,if_pos hpos,hcount,Nat.add_sub_cancel' (Nat.le_of_lt hlt)]
  have hstop : ∀ out' fs' sf', (smartfsReadLoop buflen (fuel + 1) buflen out' fs' sf').1 = buflen := by
    intro out' fs' sf'
    rw [smartfsReadLoop,if_pos (Or.inl rfl)]
  split
  · split
    · rfl
    · exact hstop _ _ _
  · exact hstop _ _ _

theorem smartfsOverwriteLoop_at_end (fuel : Nat) (src : List UInt8) (fs : SmartfsMountpt)
    (sf : SmartfsOfile) (h : sf.datlen ≤ sf.filepos) :
    smartfsOverwriteLoop fuel src fs sf = (src, fs, sf) := by
  cases fuel with
  | zero => rfl
  | succ fuel => rw [smartfsOverwriteLoop,if_neg (by omega)]

theorem smartfsAppendLoop_fit (fuel : Nat) (src : List UInt8) (fs : SmartfsMountpt)
    (sf : SmartfsOfile) (hsrc : src ≠ [])
    (hfit : sf.curroffset.toNat + src.length < fs.availbytes.toNat) :
    smartfsAppendLoop (fuel + 1) src fs sf =
      ([], { fs with dev := fs.dev.writesect sf.currsector sf.curroffset.toNat src },
        { sf with
          datlen := sf.datlen + src.length
          byteswritten := sf.byteswritten + src.length.toUInt16
          filepos := sf.filepos + src.length
          curroffset := sf.curroffset + src.length.toUInt16 }) := by
  have hn : src.length.toUInt16.toNat = src.length :=
    toNat_toUInt16_of_lt (by have := fs.availbytes.toNat_lt; omega)
  have hcount : (fs.availbytes - sf.curroffset).toNat > src.length := by
    rw [UInt16.toNat_sub_of_le _ _ (UInt16.le_iff_toNat_le.mpr (by omega))]
    omega
  have hpos : src.length.toUInt16 > 0 := by
    have := List.length_pos_of_ne_nil hsrc
    exact UInt16.lt_iff_toNat_lt.mpr (by rw [hn]; simp; omega)
  have hend : sf.curroffset + src.length.toUInt16 ≠ fs.availbytes := by
    intro h
    have := congrArg UInt16.toNat h
    rw [UInt16.toNat_add,hn] at this
    have := fs.availbytes.toNat_lt
    omega
  rw [smartfsAppendLoop,if_neg hsrc]
  simp only [if_pos hcount,if_pos hpos,hn,List.take_length,List.drop_length,if_neg hend]
  cases fuel <;> rfl

theorem smartfsWrite_created (src : List UInt8) (fs : SmartfsMountpt) (sector : UInt16)
    (hsrc : src ≠ []) (hfit : SIZEOF_CHAIN_HEADER.toNat + src.length < fs.availbytes.toNat) :
    smartfsWrite src fs (.created sector) =
      (src.length, { fs with dev := fs.dev.writesect sector SIZEOF_CHAIN_HEADER.toNat src },
        ⟨src.length, sector, src.length, sector, SIZEOF_CHAIN_HEADER + src.length.toUInt16,
          src.length.toUInt16⟩) := by
  rw [smartfsWrite,smartfsOverwriteLoop_at_end _ _ _ _ (Nat.le_refl 0)]
  simp only
  rw [smartfsAppendLoop_fit _ _ _ _ hsrc hfit]
  simp [SmartfsOfile.created]

/-- Right after an append to a new file, at its end, `smartfs_read` reports `buflen` bytes: the
first sector's `used` field is still erased, and `0` less the offset wraps in `uint16_t`. -/
theorem smartfsRead_after_append (fuel buflen : Nat) (src : List UInt8) (fs : SmartfsMountpt)
    (sector : UInt16) (hsector : sector ≠ SMARTFS_ERASEDSTATE_16BIT)
    (hlen : (fs.dev.sectors sector).length = fs.availbytes.toNat)
    (hused : SMARTFS_USED (fs.dev.sectors sector) = SMARTFS_ERASEDSTATE_16BIT)
    (hsrc : src ≠ []) (hfit : SIZEOF_CHAIN_HEADER.toNat + src.length < fs.availbytes.toNat)
    (hbuflen : 0 < buflen) (hwrap : buflen + src.length < 65536) :
    ∃ fs' sf', smartfsWrite src fs (.created sector) = (src.length, fs', sf') ∧
      sf'.filepos = sf'.datlen ∧ (smartfsRead (fuel + 2) buflen fs' sf').1 = buflen := by
  rw [smartfsWrite_created src fs sector hsrc hfit]
  refine ⟨_,_,rfl,rfl,?_⟩
  have h5 : SIZEOF_CHAIN_HEADER.toNat = 5 := rfl
  have hpos := List.length_pos_of_ne_nil hsrc
  have havail := fs.availbytes.toNat_lt
  have hn : src.length.toUInt16.toNat = src.length := toNat_toUInt16_of_lt (by omega)
  have hoff : (SIZEOF_CHAIN_HEADER + src.length.toUInt16).toNat = 5 + src.length := by
    rw [UInt16.toNat_add,hn,h5]
    omega
  set fs' : SmartfsMountpt := { fs with dev := fs.dev.writesect sector SIZEOF_CHAIN_HEADER.toNat src }
  have hsec' : fs'.dev.sectors sector = overwrite (fs.dev.sectors sector) 5 src := by
    simp [fs',SmartDev.writesect,h5]
  have hlen' : 5 ≤ (fs.dev.sectors sector).length := by omega
  have hlen'' : OFFSETOF_USED + 1 < (fs'.dev.sectors sector).length := by
    rw [hsec',length_overwrite (by omega)]
    simp only [OFFSETOF_USED]
    omega
  have hused' : SMARTFS_USED (fs'.readRw sector fs'.availbytes.toNat).rwbuffer =
      SMARTFS_ERASEDSTATE_16BIT := by
    rw [← hused]
    apply SMARTFS_USED_congr
    · rw [getElem?_readRw (by simp [OFFSETOF_USED,fs']; omega) (by omega),hsec',
        getElem?_overwrite_of_lt hlen' (by simp [OFFSETOF_USED])]
    · rw [getElem?_readRw (by simp [OFFSETOF_USED,fs']; omega) hlen'',hsec',
        getElem?_overwrite_of_lt hlen' (by simp [OFFSETOF_USED])]
  exact smartfsReadLoop_unsynced fuel buflen 0 [] fs' _ hsector hbuflen hused'
    (UInt16.lt_iff_toNat_lt.mpr (by simp only [hoff,h5]; omega)) (by simp only [hoff,h5]; omega)

theorem smartfsRead_after_append_one_byte :
    (1 : UInt16) ≠ SMARTFS_ERASEDSTATE_16BIT ∧
      SMARTFS_USED (2 :: List.replicate 15 0xff) = SMARTFS_ERASEDSTATE_16BIT ∧
      ∃ fs' sf', smartfsWrite [0x41] ⟨⟨fun _ => 2 :: List.replicate 15 0xff, 2⟩, 16,
          List.replicate 16 0⟩ (.created 1) = (1, fs', sf') ∧
        sf'.filepos = sf'.datlen ∧ (smartfsRead 2 4 fs' sf').1 = 4 :=
  ⟨by decide,by decide,smartfsRead_after_append 0 4 [0x41] _ 1 (by decide) (by decide) (by decide)
    (by simp) (by decide) (by decide) (by decide)⟩

end TizenRT.Smartfs
