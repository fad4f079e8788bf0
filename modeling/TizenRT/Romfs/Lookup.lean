import TizenRT.Environ.Model
import TizenRT.Wdog.Model
import TizenRT.Lib.ExceptBind
import Mathlib.Tactic.IntervalCases
import Mathlib.Data.List.TakeWhile

set_option autoImplicit false

/-!
Path lookup on a mounted ROMFS image (fs_romfsutil.c). The image is read a hardware sector at
a time into `rm_buffer`, and `romfs_devcacheread` returns the index of an offset in the sector
it holds. Every call that reads a header first brings its sector in, so a lookup's result is a
function of the image; the one place where the sector held matters is inside
`romfs_parsedirentry`, after `romfs_followhardlinks` has moved the buffer to the link's target.
-/

namespace TizenRT.Romfs

open TizenRT.Environ (ENOENT)
open TizenRT.Wdog (ERROR)

def ENOTDIR : Int := 20
def ELOOP : Int := 40
def NAME_MAX : Nat := 32
def ROMF_MAX_LINKS : Nat := 64

def ROMFS_FHDR_NEXT : Nat := 0
def ROMFS_FHDR_INFO : Nat := 4
def ROMFS_FHDR_SIZE : Nat := 8
def ROMFS_FHDR_NAME : Nat := 16

def RFNEXT_MODEMASK : UInt32 := 7
def RFNEXT_ALLMODEMASK : UInt32 := 15
def RFNEXT_OFFSETMASK : UInt32 := ~~~15
def RFNEXT_HARDLINK : UInt32 := 0
def RFNEXT_DIRECTORY : UInt32 := 1
def RFNEXT_FILE : UInt32 := 2

def IS_MODE (rfn mode : UInt32) : Prop := rfn &&& RFNEXT_MODEMASK = mode
def IS_HARDLINK (rfn : UInt32) : Prop := IS_MODE rfn RFNEXT_HARDLINK
def IS_DIRECTORY (rfn : UInt32) : Prop := IS_MODE rfn RFNEXT_DIRECTORY
def IS_FILE (rfn : UInt32) : Prop := IS_MODE rfn RFNEXT_FILE

instance (rfn mode : UInt32) : Decidable (IS_MODE rfn mode) := inferInstanceAs (Decidable (_ = _))
instance (rfn : UInt32) : Decidable (IS_HARDLINK rfn) := inferInstanceAs (Decidable (IS_MODE _ _))
instance (rfn : UInt32) : Decidable (IS_DIRECTORY rfn) := inferInstanceAs (Decidable (IS_MODE _ _))
instance (rfn : UInt32) : Decidable (IS_FILE rfn) := inferInstanceAs (Decidable (IS_MODE _ _))

def imageRead32 (image : List UInt8) (o : Nat) : UInt32 :=
  (image.getD o 0).toUInt32 <<< 24 ||| (image.getD (o + 1) 0).toUInt32 <<< 16 |||
    (image.getD (o + 2) 0).toUInt32 <<< 8 ||| (image.getD (o + 3) 0).toUInt32

structure RomfsMountpt where
  image : List UInt8
  hwsectorsize : Nat
  rootoffset : Nat

/-- `romfs_devcacheread`: the sector that `rm_buffer` then holds, and the index of `offset`
in it. -/
def romfsDevcacheread (rm : RomfsMountpt) (offset : Nat) : Nat × Nat :=
  (offset / rm.hwsectorsize, offset % rm.hwsectorsize)

def romfsDevbyte (rm : RomfsMountpt) (sector ndx : Nat) : UInt8 :=
  rm.image.getD (sector * rm.hwsectorsize + ndx) 0

def romfsDevread32 (rm : RomfsMountpt) (sector ndx : Nat) : UInt32 :=
  imageRead32 rm.image (sector * rm.hwsectorsize + ndx)

/-- `romfs_followhardlinks`, with `links` passes of its `for` left: the first header from
`offset` that is not a hard link. -/
def romfsFollowhardlinks (rm : RomfsMountpt) : Nat → Nat → Except Int Nat
  | 0, _ => .error (-ELOOP)
  | links + 1, offset =>
    let (sector, ndx) := romfsDevcacheread rm offset
    if ¬IS_HARDLINK (romfsDevread32 rm sector (ndx + ROMFS_FHDR_NEXT)) then .ok offset
    else romfsFollowhardlinks rm links (romfsDevread32 rm sector (ndx + ROMFS_FHDR_INFO)).toNat

structure RomfsEntry where
  offset : Nat
  next : UInt32
  info : UInt32
  size : UInt32

/-- `romfs_parsedirentry`: the `next` offset of the header at `offset` with the mode of the
header its links lead to. After `romfs_followhardlinks` the buffer holds the sector of that
header, and the fields are read at the index `offset` had in its own sector. -/
def romfsParsedirentry (rm : RomfsMountpt) (offset : Nat) : Except Int RomfsEntry :=
  let (sector, ndx) := romfsDevcacheread rm offset
  let save := romfsDevread32 rm sector (ndx + ROMFS_FHDR_NEXT)
  romfsFollowhardlinks rm ROMF_MAX_LINKS offset >>= fun poffset =>
  let sector := (romfsDevcacheread rm poffset).1
  let next := romfsDevread32 rm sector (ndx + ROMFS_FHDR_NEXT)
  pure ⟨poffset, (save &&& RFNEXT_OFFSETMASK) ||| (next &&& RFNEXT_ALLMODEMASK),
    romfsDevread32 rm sector (ndx + ROMFS_FHDR_INFO), romfsDevread32 rm sector (ndx + ROMFS_FHDR_SIZE)⟩

/-- The `for` of `romfs_parsefilename`, for at most `fuel` 16-byte chunks of the name at
`offset`; a chunk whose last byte is NUL ends it, and so does NAME_MAX. -/
def romfsParsefilenameLoop (rm : RomfsMountpt) (offset : Nat) : Nat → List UInt8 → List UInt8
  | 0, name => name
  | fuel + 1, name =>
    if name.length < NAME_MAX then
      let (sector, ndx) := romfsDevcacheread rm (offset + name.length)
      let chunk := (List.range 16).map fun k => romfsDevbyte rm sector (ndx + k)
      let (chunklen, done) :=
        if chunk.getD 15 0 = 0 then ((chunk.takeWhile (· ≠ 0)).length, true) else (16, false)
      let (chunklen, done) :=
        if name.length + chunklen > NAME_MAX then (NAME_MAX - name.length, true) else (chunklen, done)
      let name := name ++ chunk.take chunklen
      if done then name else romfsParsefilenameLoop rm offset fuel name
    else name

/-- `romfs_parsefilename`: every chunk but the last adds 16 bytes. -/
def romfsParsefilename (rm : RomfsMountpt) (offset : Nat) : List UInt8 :=
  romfsParsefilenameLoop rm (offset + ROMFS_FHDR_NAME) (NAME_MAX / 16 + 1) []

structure RomfsDirinfo where
  firstoffset : Nat
  curroffset : Nat
  next : UInt32
  size : UInt32

/-- `romfs_checkentry`: whether the header at `offset` is a directory or file called
`entryname`, and then what it describes. -/
def romfsCheckentry (rm : RomfsMountpt) (offset : Nat) (entryname : List UInt8)
    (dirinfo : RomfsDirinfo) : Except Int RomfsDirinfo :=
  romfsParsedirentry rm offset >>= fun e =>
  if IS_DIRECTORY e.next ∨ IS_FILE e.next then
    if romfsParsefilename rm offset = entryname then
      if IS_DIRECTORY e.next then
        .ok { dirinfo with firstoffset := e.info.toNat, curroffset := e.info.toNat, size := 0, next := e.next }
      else .ok { dirinfo with curroffset := offset, size := e.size, next := e.next }
    else .error (-ENOENT)
  else .error (-ENOENT)

/-- The `do while` of `romfs_searchdir` from the header at `offset`, for at most `fuel`
headers: the first match along the chain of `next` offsets; `none` when the chain has not ended
within `fuel` headers. -/
def romfsSearchdirLoop (rm : RomfsMountpt) (entryname : List UInt8) (dirinfo : RomfsDirinfo) :
    Nat → Nat → Option (Except Int RomfsDirinfo)
  | 0, _ => none
  | fuel + 1, offset =>
    let (sector, ndx) := romfsDevcacheread rm offset
    let next := romfsDevread32 rm sector (ndx + ROMFS_FHDR_NEXT) &&& RFNEXT_OFFSETMASK
    match romfsCheckentry rm offset entryname dirinfo with
    | .ok d => some (.ok d)
    | .error _ => if next ≠ 0 then romfsSearchdirLoop rm entryname dirinfo fuel next.toNat
      else some (.error (-ENOENT))

/-- `romfs_searchdir`; a chain of a well-formed image visits each 16-byte header once, and
`none` stands for a search that does not return. -/
def romfsSearchdir (rm : RomfsMountpt) (entryname : List UInt8) (dirinfo : RomfsDirinfo) :
    Option (Except Int RomfsDirinfo) :=
  romfsSearchdirLoop rm entryname dirinfo (rm.image.length + 1) dirinfo.firstoffset

def slash : UInt8 := 0x2f

/-- The `for (;;)` of `romfs_finddirentry`, for at most `fuel` path components. -/
def romfsFinddirentryLoop (rm : RomfsMountpt) : Nat → List UInt8 → RomfsDirinfo →
    Option (Except Int RomfsDirinfo)
  | 0, _, _ => none
  | fuel + 1, path, dirinfo =>
    let entryname := path.dropWhile (· = slash)
    let terminator := entryname.dropWhile (· ≠ slash)
    let component := (entryname.takeWhile (· ≠ slash)).take NAME_MAX
    match romfsSearchdir rm component dirinfo with
    | none => none
    | some (.error err) => some (.error err)
    | some (.ok dirinfo) =>
      if terminator = [] then some (.ok dirinfo)
      else if ¬IS_DIRECTORY dirinfo.next then some (.error (-ENOTDIR))
      else romfsFinddirentryLoop rm fuel terminator dirinfo

/-- `romfs_finddirentry`: each pass takes at least the `/` before its component. -/
def romfsFinddirentry (rm : RomfsMountpt) (path : List UInt8) : Option (Except Int RomfsDirinfo) :=
  let dirinfo : RomfsDirinfo := ⟨rm.rootoffset, rm.rootoffset, RFNEXT_DIRECTORY, 0⟩
  if path = [] then some (.ok dirinfo) else romfsFinddirentryLoop rm (path.length + 1) path dirinfo

theorem offset_or_mode (x : UInt32) :
    (x &&& RFNEXT_OFFSETMASK) ||| (x &&& RFNEXT_ALLMODEMASK) = x := by
  apply UInt32.toBitVec_inj.mp
  simp only [RFNEXT_OFFSETMASK,RFNEXT_ALLMODEMASK,UInt32.toBitVec_and,UInt32.toBitVec_or,
    UInt32.toBitVec_not]
  ext i hi
  simp only [BitVec.getElem_or,BitVec.getElem_and,BitVec.getElem_not]
  cases x.toBitVec[i] <;> simp

section Reads

variable (rm : RomfsMountpt)

theorem romfsDevread32_of_sector {o p : Nat} (k : Nat) (h : p / rm.hwsectorsize = o / rm.hwsectorsize) :
    romfsDevread32 rm (p / rm.hwsectorsize) (o % rm.hwsectorsize + k) = imageRead32 rm.image (o + k) := by
  rw [romfsDevread32,h,← Nat.add_assoc,Nat.div_add_mod']

def linkTarget (o : Nat) : Nat := (imageRead32 rm.image (o + ROMFS_FHDR_INFO)).toNat

theorem romfsFollowhardlinks_nonlink (links : Nat) {o : Nat}
    (h : ¬IS_HARDLINK (imageRead32 rm.image o)) : romfsFollowhardlinks rm (links + 1) o = .ok o := by
  have hnext := romfsDevread32_of_sector rm (o := o) (p := o) ROMFS_FHDR_NEXT rfl
  simp only [ROMFS_FHDR_NEXT,Nat.add_zero] at hnext
  rw [romfsFollowhardlinks]
  simp only [romfsDevcacheread,ROMFS_FHDR_NEXT,Nat.add_zero,hnext,if_pos h]

theorem romfsFollowhardlinks_link (links : Nat) {o : Nat} (hlink : IS_HARDLINK (imageRead32 rm.image o))
    (htarget : ¬IS_HARDLINK (imageRead32 rm.image (linkTarget rm o))) :
    romfsFollowhardlinks rm (links + 2) o = .ok (linkTarget rm o) := by
  have hnext := romfsDevread32_of_sector rm (o := o) (p := o) ROMFS_FHDR_NEXT rfl
  have hinfo := romfsDevread32_of_sector rm (o := o) (p := o) ROMFS_FHDR_INFO rfl
  simp only [ROMFS_FHDR_NEXT,Nat.add_zero] at hnext
  show romfsFollowhardlinks rm (links + 1 + 1) o = _
  rw [romfsFollowhardlinks]
  simp only [romfsDevcacheread,ROMFS_FHDR_NEXT,Nat.add_zero,hnext,not_not.mpr hlink,if_false,hinfo]
  exact romfsFollowhardlinks_nonlink rm links htarget

theorem romfsParsedirentry_samesector {o : Nat} (hlink : IS_HARDLINK (imageRead32 rm.image o))
    (htarget : ¬IS_HARDLINK (imageRead32 rm.image (linkTarget rm o)))
    (hsame : linkTarget rm o / rm.hwsectorsize = o / rm.hwsectorsize) :
    romfsParsedirentry rm o = .ok ⟨linkTarget rm o, imageRead32 rm.image o,
      imageRead32 rm.image (o + ROMFS_FHDR_INFO), imageRead32 rm.image (o + ROMFS_FHDR_SIZE)⟩ := by
  have hnext := romfsDevread32_of_sector rm ROMFS_FHDR_NEXT hsame
  have hinfo := romfsDevread32_of_sector rm ROMFS_FHDR_INFO hsame
  have hsize := romfsDevread32_of_sector rm ROMFS_FHDR_SIZE hsame
  have hsave := romfsDevread32_of_sector rm (o := o) (p := o) ROMFS_FHDR_NEXT rfl
  simp only [ROMFS_FHDR_NEXT,Nat.add_zero] at hnext hsave
  rw [romfsParsedirentry]
  simp only [romfsDevcacheread,ROMFS_FHDR_NEXT,Nat.add_zero]
  rw [show ROMF_MAX_LINKS = 62 + 2 from rfl,romfsFollowhardlinks_link rm 62 hlink htarget,
    Except.ok_bind]
  simp only [hsave,hnext,hinfo,hsize,offset_or_mode,Except.pure_eq_ok]

theorem romfsCheckentry_samesector {o : Nat} (entryname : List UInt8) (dirinfo : RomfsDirinfo)
    (hlink : IS_HARDLINK (imageRead32 rm.image o))
    (htarget : ¬IS_HARDLINK (imageRead32 rm.image (linkTarget rm o)))
    (hsame : linkTarget rm o / rm.hwsectorsize = o / rm.hwsectorsize) :
    romfsCheckentry rm o entryname dirinfo = .error (-ENOENT) := by
  have hnd : ¬(IS_DIRECTORY (imageRead32 rm.image o) ∨ IS_FILE (imageRead32 rm.image o)) := by
    simp only [IS_HARDLINK,IS_DIRECTORY,IS_FILE,IS_MODE] at hlink ⊢
    rw [hlink]
    decide
  rw [romfsCheckentry,romfsParsedirentry_samesector rm hlink htarget hsame,Except.ok_bind,if_neg hnd]

theorem romfsCheckentry_of_name_ne {o : Nat} {entryname : List UInt8} (dirinfo : RomfsDirinfo)
    (hname : romfsParsefilename rm o ≠ entryname) :
    ∃ err, romfsCheckentry rm o entryname dirinfo = .error err := by
  rw [romfsCheckentry]
  cases romfsParsedirentry rm o with
  | error err => exact ⟨err,rfl⟩
  | ok e =>
    rw [Except.ok_bind]
    split <;> exact ⟨_,rfl⟩

end Reads

/-- The headers of a directory's chain from `o`: the `next` offset of each, its mode bits masked
off, leads to the following one, and is 0 at the last. -/
inductive DirChain (image : List UInt8) : Nat → List Nat → Prop
  | last {o : Nat} : imageRead32 image o &&& RFNEXT_OFFSETMASK = 0 → DirChain image o [o]
  | cons {o : Nat} {os : List Nat} : imageRead32 image o &&& RFNEXT_OFFSETMASK ≠ 0 →
      DirChain image (imageRead32 image o &&& RFNEXT_OFFSETMASK).toNat os → DirChain image o (o :: os)

theorem romfsSearchdirLoop_of_chain (rm : RomfsMountpt) (entryname : List UInt8)
    (dirinfo : RomfsDirinfo) {o : Nat} {os : List Nat} (hc : DirChain rm.image o os)
    (hfail : ∀ o' ∈ os, ∃ err, romfsCheckentry rm o' entryname dirinfo = .error err)
    (fuel : Nat) (hfuel : os.length ≤ fuel) :
    romfsSearchdirLoop rm entryname dirinfo fuel o = some (.error (-ENOENT)) := by
  induction hc generalizing fuel with
  | @last o hlast =>
    obtain ⟨f,rfl⟩ : ∃ f, fuel = f + 1 := ⟨fuel - 1,by simp at hfuel; omega⟩
    obtain ⟨err,herr⟩ := hfail o (by simp)
    have hnext := romfsDevread32_of_sector rm (o := o) (p := o) ROMFS_FHDR_NEXT rfl
    simp only [ROMFS_FHDR_NEXT,Nat.add_zero] at hnext
    rw [romfsSearchdirLoop]
    simp only [romfsDevcacheread,ROMFS_FHDR_NEXT,Nat.add_zero,hnext,herr,hlast,ne_eq,
      not_true_eq_false,if_false]
  | @cons o os hne _ ih =>
    obtain ⟨f,rfl⟩ : ∃ f, fuel = f + 1 := ⟨fuel - 1,by simp at hfuel; omega⟩
    obtain ⟨err,herr⟩ := hfail o (by simp)
    have hnext := romfsDevread32_of_sector rm (o := o) (p := o) ROMFS_FHDR_NEXT rfl
    simp only [ROMFS_FHDR_NEXT,Nat.add_zero] at hnext
    rw [romfsSearchdirLoop]
    simp only [romfsDevcacheread,ROMFS_FHDR_NEXT,Nat.add_zero,hnext,herr,if_pos hne]
    exact ih (fun o' h => hfail o' (List.mem_cons_of_mem o h)) f (by simp at hfuel; omega)

/-- A name that only hard links sharing their target's sector carry in the root directory is not
found, though each such link leads to a file or a directory. -/
theorem romfsFinddirentry_samesector_link (rm : RomfsMountpt) (name : List UInt8) (os : List Nat)
    (hname : name ≠ []) (hslash : slash ∉ name) (hlen : name.length ≤ NAME_MAX)
    (hchain : DirChain rm.image rm.rootoffset os) (hos : os.length ≤ rm.image.length + 1)
    (hlinks : ∀ o ∈ os, romfsParsefilename rm o = name →
      IS_HARDLINK (imageRead32 rm.image o) ∧
      ¬IS_HARDLINK (imageRead32 rm.image (linkTarget rm o)) ∧
      linkTarget rm o / rm.hwsectorsize = o / rm.hwsectorsize) :
    romfsFinddirentry rm name = some (.error (-ENOENT)) := by
  have hfail : ∀ o ∈ os, ∃ err, romfsCheckentry rm o name ⟨rm.rootoffset, rm.rootoffset, RFNEXT_DIRECTORY, 0⟩ = .error err := by
    intro o ho
    by_cases hn : romfsParsefilename rm o = name
    · obtain ⟨hl,ht,hs⟩ := hlinks o ho hn
      exact ⟨_,romfsCheckentry_samesector rm name _ hl ht hs⟩
    · exact romfsCheckentry_of_name_ne rm _ hn
  have hsearch := romfsSearchdirLoop_of_chain rm name ⟨rm.rootoffset, rm.rootoffset, RFNEXT_DIRECTORY, 0⟩
    hchain hfail (rm.image.length + 1) hos
  have hne : ∀ c ∈ name, c ≠ slash := fun c hc h => hslash (h ▸ hc)
  have hdrop : name.dropWhile (· = slash) = name := by
    obtain ⟨c,cs,rfl⟩ := List.exists_cons_of_ne_nil hname
    simp [hne c (by simp)]
  have hterm : name.dropWhile (· ≠ slash) = [] := List.dropWhile_eq_nil_iff.mpr (by simpa using hne)
  have htake : (name.takeWhile (· ≠ slash)).take NAME_MAX = name := by
    rw [List.takeWhile_eq_self_iff.mpr (by simpa using hne),List.take_of_length_le hlen]
  rw [romfsFinddirentry,if_neg hname,romfsFinddirentryLoop]
  simp only [hdrop,hterm,htake,romfsSearchdir]
  rw [hsearch]

/-- A root directory as genromfs lays it out: the file `a` at 0, then at 32 the hard link `b`
to it, in one 512-byte sector. -/
def hardlinkImage : List UInt8 :=
  [0, 0, 0, 0x22] ++ List.replicate 12 0 ++ [0x61] ++ List.replicate 15 0 ++
    List.replicate 16 0 ++ [0x62] ++ List.replicate 15 0

theorem romfsFinddirentry_samesector_link_image :
    DirChain hardlinkImage 0 [0, 32] ∧ romfsParsefilename ⟨hardlinkImage, 512, 0⟩ 32 = [0x62] ∧
      linkTarget ⟨hardlinkImage, 512, 0⟩ 32 = 0 ∧ IS_FILE (imageRead32 hardlinkImage 0) ∧
      romfsFinddirentry ⟨hardlinkImage, 512, 0⟩ [0x62] = some (.error (-ENOENT)) := by
  have hnext : (imageRead32 hardlinkImage 0 &&& RFNEXT_OFFSETMASK).toNat = 32 := by decide
  have hchain : DirChain hardlinkImage 0 [0, 32] :=
    .cons (by decide) (hnext ▸ .last (by decide))
  exact ⟨hchain,by decide,by decide,by decide,romfsFinddirentry_samesector_link ⟨hardlinkImage, 512, 0⟩
    [0x62] [0, 32] (by simp) (by decide) (by decide) hchain (by decide) (by decide)⟩

end TizenRT.Romfs
