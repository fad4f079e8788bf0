import TizenRT.Romfs.Lookup

set_option autoImplicit false

/-!
Mounting a ROMFS image (`romfs_fsconfigure`, fs_romfsutil.c) and what a lookup then does on an image
whose directory chain is cyclic. `romfs_fsconfigure` checks the magic of sector 0 and puts the root
directory after the volume name, whose length it takes with `strlen`. `romfs_searchdir` follows the
`next` fields of a directory's headers until one is 0, with no bound on the headers it visits: the
fuel of `romfsSearchdirLoop` stands for that bound, running out of it gives no result (`none`), and
on a header whose `next` leads back to itself every pass goes on from where it started.
-/

namespace TizenRT.Romfs

def EINVAL : Int := 22

def ROMFS_VHDR_SIZE : Nat := 8
def ROMFS_VHDR_VOLNAME : Nat := 16

def ROMFS_VHDR_MAGIC : List UInt8 := [0x2d,0x72,0x6f,0x6d,0x31,0x66,0x73,0x2d]

def ROMFS_ALIGNUP (addr : Nat) : Nat := (addr + 15) >>> 4 <<< 4

/-- `romfs_fsconfigure` with sector 0 in `rm_buffer`: the magic compared with `memcmp`, then the
root directory put after the volume name, `strlen` reading until a NUL. -/
def romfsFsconfigure (image : List UInt8) (hwsectorsize : Nat) : Except Int RomfsMountpt :=
  if (List.range 8).map (fun k => image.getD k 0) ≠ ROMFS_VHDR_MAGIC then .error (-EINVAL)
  else
    let name := (image.drop ROMFS_VHDR_VOLNAME).takeWhile (· ≠ 0)
    .ok { image := image, hwsectorsize := hwsectorsize,
          rootoffset := ROMFS_ALIGNUP (ROMFS_VHDR_VOLNAME + name.length + 1) }

theorem romfsSearchdirLoop_self_next (rm : RomfsMountpt) (entryname : List UInt8) (dirinfo : RomfsDirinfo)
    {o : Nat} (hnext : (imageRead32 rm.image o &&& RFNEXT_OFFSETMASK).toNat = o) (ho : o ≠ 0)
    (hfail : ∃ err, romfsCheckentry rm o entryname dirinfo = .error err) (fuel : Nat) :
    romfsSearchdirLoop rm entryname dirinfo (fuel + 1) o = romfsSearchdirLoop rm entryname dirinfo fuel o := by
  obtain ⟨err,herr⟩ := hfail
  have hread := romfsDevread32_of_sector rm (o := o) (p := o) ROMFS_FHDR_NEXT rfl
  simp only [ROMFS_FHDR_NEXT,Nat.add_zero] at hread
  have hne : imageRead32 rm.image o &&& RFNEXT_OFFSETMASK ≠ 0 := by
    intro h0
    rw [h0] at hnext
    exact ho hnext.symm
  rw [romfsSearchdirLoop]
  simp only [romfsDevcacheread,ROMFS_FHDR_NEXT,Nat.add_zero,hread,herr,if_pos hne,hnext]

/-- An image with an empty volume name, so that the root directory is at 32, and there the file `a`
whose `next` field is 32 again. -/
def cyclicImage : List UInt8 :=
  ROMFS_VHDR_MAGIC ++ [0,0,0,0x40] ++ List.replicate 20 0 ++ [0,0,0,0x22] ++ List.replicate 12 0 ++
    [0x61] ++ List.replicate 15 0

/-- On `cyclicImage` mounted with 64-byte sectors, the search for `b` in the root directory goes
round the root's one header for as many passes as it is given. -/
theorem romfs_cyclic_next_never_ends :
    romfsFsconfigure cyclicImage 64 = .ok ⟨cyclicImage,64,32⟩ ∧
      ∀ fuel, romfsSearchdirLoop ⟨cyclicImage,64,32⟩ [0x62] ⟨32,32,RFNEXT_DIRECTORY,0⟩ (fuel + 1) 32 =
        romfsSearchdirLoop ⟨cyclicImage,64,32⟩ [0x62] ⟨32,32,RFNEXT_DIRECTORY,0⟩ fuel 32 := by
  refine ⟨rfl,fun fuel => romfsSearchdirLoop_self_next _ _ _ (by decide) (by decide) ?_ fuel⟩
  exact romfsCheckentry_of_name_ne _ _ (by decide)

end TizenRT.Romfs
