import Mathlib
import TizenRT.Smart.Alloc

set_option autoImplicit false

/-!
Garbage collection of the SMART layer (`smart_garbagecollect`, `smart_relocate_block` and
`smart_relocate_sector`, smart.c), built as `Smart.Alloc` is: without wear leveling, CRC, bad-sector
handling and packed counts, with the erased state 0xff, and with reads and writes of the flash that
succeed. A failed relocation returns its error code; what it leaves on the flash is not followed.

While collection is needed, the loop relocates the block with the most released sectors, and a
relocation takes the block's released sectors off `releasesectors`, less the sectors it pre-releases.
It pre-releases two where the loop over the block's sectors stops at `neraseblocks` on a 65534-sector
volume, which is a block in the middle of the volume whenever the blocks have 128 sectors or fewer:
such a block with two released sectors and no live data is relocated into itself, and the loop
never ends.
-/

namespace TizenRT.Smart

def ENOSPC : Int := 28

section Collect

variable (g : SmartGeometry)

/-- The test of `smart_relocate_block` that a sector holds no live data: never committed, or
released. -/
def sectorNotLive (h : SmartHeader) : Bool :=
  h.status &&& SMART_STATUS_COMMITTED == CONFIG_SMARTFS_ERASEDSTATE &&& SMART_STATUS_COMMITTED ||
    h.status &&& SMART_STATUS_RELEASED != CONFIG_SMARTFS_ERASEDSTATE &&& SMART_STATUS_RELEASED

/-- The header `smart_relocate_sector` writes: the sequence number one more, 8 bits where the status's
CRC bit is set and 16 bits with `crc8` as its high byte where not, past the erased value to 1. -/
def nextSeqHeader (h : SmartHeader) : SmartHeader :=
  if h.status &&& SMART_STATUS_CRC ≠ 0 then
    let seq := h.seq + 1
    { h with seq := if seq = 0xFF then 1 else seq }
  else
    let tmp := (((h.crc8.toUInt16 <<< 8) &&& 0xFF00) ||| h.seq.toUInt16) + 1
    let seq := (tmp &&& 0x00FF).toUInt8
    let crc8 := ((tmp >>> 8) &&& 0x00FF).toUInt8
    if seq = 0xFF ∧ crc8 = 0xFF then { h with seq := 1, crc8 := 0 } else { h with seq := seq, crc8 := crc8 }

/-- `smart_relocate_sector`: the new header written to `newsector` with the commit bit set, then
committed there, and `oldsector` released and committed. -/
def smartRelocateSector (st : SmartScan) (oldsector newsector : Nat) : SmartScan :=
  let h := nextSeqHeader (st.headers oldsector)
  let h := { h with status := h.status ||| SMART_STATUS_COMMITTED }
  let st := { st with headers := Function.update st.headers newsector h }
  (st.clearStatus newsector SMART_STATUS_COMMITTED).clearStatus oldsector
    (SMART_STATUS_RELEASED ||| SMART_STATUS_COMMITTED)

/-- The `for` of `smart_relocate_block` over the block's sectors: each live sector goes to the free
sector `smart_findfreephyssector` finds, its logical sector is mapped there and the free count of the
new sector's block lowered; `-ENOSPC` where no free sector is left. -/
def smartRelocateLoop : List Nat → SmartScan → Nat → Except Int (SmartScan × Nat)
  | [], st, lastallocblock => .ok (st, lastallocblock)
  | x :: xs, st, lastallocblock =>
    let header := st.headers x
    if sectorNotLive header then smartRelocateLoop xs st lastallocblock
    else
      let (newsector, lastallocblock) := smartFindfreephyssector g st.headers st.freecount lastallocblock
      if newsector = 0xFFFF then .error (-ENOSPC)
      else
        let st := smartRelocateSector st x newsector
        let blk := newsector / g.sectorsPerBlk
        let st := { st with
          sMap := Function.update st.sMap header.logicalsector.toNat newsector.toUInt16
          freecount := Function.update st.freecount blk (st.freecount blk - 1) }
        smartRelocateLoop xs st lastallocblock

/-- `smart_relocate_block`: the block's free count zeroed so that nothing moves into it, its live
sectors moved, then the block erased and its counts set anew with `x` where the `for` stopped. -/
def smartRelocateBlock (st : SmartScan) (lastallocblock block : Nat) : Except Int (SmartScan × Nat) := do
  let st := { st with freecount := Function.update st.freecount block 0 }
  let (st, lastallocblock) ←
    smartRelocateLoop g (List.range' (block * g.sectorsPerBlk) g.availSectPerBlk) st lastallocblock
  pure (smartRelocateBlockFinish g st block (block * g.sectorsPerBlk + g.availSectPerBlk), lastallocblock)

def collectStep (releasecount : Nat → UInt8) (acc : Nat × UInt16) (x : Nat) : Nat × UInt16 :=
  if (releasecount x).toUInt16 > acc.2 then (x, (releasecount x).toUInt16) else acc

/-- The block `smart_garbagecollect` collects: the first with the most released sectors, 0xFFFF
where none has any. -/
def smartCollectBlock (releasecount : Nat → UInt8) : Nat :=
  ((List.range g.neraseblocks).foldl (collectStep releasecount) (0xFFFF, 0)).1

/-- The tests at the top of the `while`: more released than free sectors while the free ones are
under a 32nd of the volume, or free sectors down to a block and four. -/
def smartNeedCollect (st : SmartScan) : Bool :=
  (st.releasesectors > st.freesectors && st.freesectors.toNat < g.totalsectors >>> 5) ||
    st.freesectors.toNat ≤ (g.sectorsPerBlk <<< 0) + 4

/-- `smart_garbagecollect`: a pass of the `while` for each unit of fuel, `none` where the fuel runs
out; `OK` with the state and `lastallocblock`, or the error. -/
def smartGarbagecollect : Nat → SmartScan → Nat → Option (Except Int (SmartScan × Nat))
  | 0, _, _ => none
  | fuel + 1, st, lastallocblock =>
    if smartNeedCollect g st then
      let collectblock := smartCollectBlock g st.releasecount
      if collectblock = 0xFFFF then some (.error (-ENOSPC))
      else
        match smartRelocateBlock g st lastallocblock collectblock with
        | .error e => some (.error e)
        | .ok (st, lastallocblock) => smartGarbagecollect fuel st lastallocblock
    else some (.ok (st, lastallocblock))

theorem smartGarbagecollect_succ (fuel : Nat) (st : SmartScan) (lastallocblock : Nat) :
    smartGarbagecollect g (fuel + 1) st lastallocblock =
      if smartNeedCollect g st then
        let collectblock := smartCollectBlock g st.releasecount
        if collectblock = 0xFFFF then some (.error (-ENOSPC))
        else
          match smartRelocateBlock g st lastallocblock collectblock with
          | .error e => some (.error e)
          | .ok (st, lastallocblock) => smartGarbagecollect g fuel st lastallocblock
      else some (.ok (st, lastallocblock)) := rfl

end Collect

section Counts

variable (g : SmartGeometry)

/-- What relocating `block` pre-releases: two sectors where the `for` over the block's sectors
stops at `neraseblocks` on a 65534-sector volume. -/
def smartPrerelease (block : Nat) : UInt8 :=
  if block * g.sectorsPerBlk + g.availSectPerBlk = g.neraseblocks ∧ g.totalsectors = 65534 then 2 else 0

theorem smartRelocateLoop_counts (xs : List Nat) :
    ∀ (st : SmartScan) (l : Nat) {st' : SmartScan} {l' : Nat}, smartRelocateLoop g xs st l = .ok (st', l') →
      st'.releasecount = st.releasecount ∧ st'.releasesectors = st.releasesectors ∧
        st'.freesectors = st.freesectors := by
  induction xs with
  | nil =>
    intro st l st' l' h
    cases h
    exact ⟨rfl, rfl, rfl⟩
  | cons x xs ih =>
    intro st l st' l' h
    rw [smartRelocateLoop] at h
    split at h
    · exact ih st l h
    · split at h
      split at h
      · cases h
      · obtain ⟨hrc, hrs, hfs⟩ := ih _ _ h
        exact ⟨hrc, hrs, hfs⟩

theorem smartRelocateLoop_of_notLive (xs : List Nat) :
    ∀ (st : SmartScan) (l : Nat), (∀ x ∈ xs, sectorNotLive (st.headers x) = true) →
      smartRelocateLoop g xs st l = .ok (st, l) := by
  induction xs with
  | nil => intro st l _; rfl
  | cons x xs ih =>
    intro st l h
    rw [smartRelocateLoop, if_pos (h x List.mem_cons_self)]
    exact ih st l fun y hy => h y (List.mem_cons_of_mem x hy)

theorem smartRelocateBlock_counts (st : SmartScan) (l block : Nat) {st' : SmartScan} {l' : Nat}
    (h : smartRelocateBlock g st l block = .ok (st', l')) :
    st'.releasecount = Function.update st.releasecount block (smartPrerelease g block) ∧
      st'.releasesectors = st.releasesectors -
        ((st.releasecount block).toUInt16 - (smartPrerelease g block).toUInt16) := by
  delta smartRelocateBlock at h
  dsimp only at h
  cases hloop : smartRelocateLoop g (List.range' (block * g.sectorsPerBlk) g.availSectPerBlk)
      { st with freecount := Function.update st.freecount block 0 } l with
  | error e =>
    simp only [hloop, bind, Except.bind] at h
    cases h
  | ok p =>
    simp only [hloop, bind, Except.bind, pure, Except.pure, Except.ok.injEq] at h
    cases h
    obtain ⟨hrc, hrs, -⟩ := smartRelocateLoop_counts g _ _ _ hloop
    exact ⟨by rw [smartRelocateBlockFinish, hrc]; rfl, by rw [smartRelocateBlockFinish, hrc, hrs]; rfl⟩

end Counts

section Search

variable (g : SmartGeometry) (releasecount : Nat → UInt8)

theorem collectStep_of_gt {acc : Nat × UInt16} {x : Nat} (h : acc.2.toNat < (releasecount x).toNat) :
    collectStep releasecount acc x = (x, (releasecount x).toUInt16) :=
  if_pos (by simpa [UInt16.lt_iff_toNat_lt] using h)

theorem collectStep_of_le {acc : Nat × UInt16} {x : Nat} (h : (releasecount x).toNat ≤ acc.2.toNat) :
    collectStep releasecount acc x = acc :=
  if_neg (by simpa [UInt16.lt_iff_toNat_lt] using h)

theorem foldl_collectStep_succ (n : Nat) :
    (List.range (n + 1)).foldl (collectStep releasecount) (0xFFFF, 0) =
      collectStep releasecount ((List.range n).foldl (collectStep releasecount) (0xFFFF, 0)) n := by
  rw [List.range_succ, List.foldl_append, List.foldl_cons, List.foldl_nil]

theorem foldl_collectStep_taken (n : Nat) :
    (List.range n).foldl (collectStep releasecount) (0xFFFF, 0) = (0xFFFF, 0) ∨
      ((List.range n).foldl (collectStep releasecount) (0xFFFF, 0)).1 < n ∧
      0 < ((List.range n).foldl (collectStep releasecount) (0xFFFF, 0)).2.toNat ∧
      (releasecount ((List.range n).foldl (collectStep releasecount) (0xFFFF, 0)).1).toUInt16 =
        ((List.range n).foldl (collectStep releasecount) (0xFFFF, 0)).2 := by
  induction n with
  | zero => exact .inl rfl
  | succ n ih =>
    rw [foldl_collectStep_succ]
    generalize (List.range n).foldl (collectStep releasecount) (0xFFFF, 0) = acc at ih ⊢
    by_cases h : acc.2.toNat < (releasecount n).toNat
    · rw [collectStep_of_gt releasecount h]
      refine .inr ⟨Nat.lt_succ_self n, ?_, rfl⟩
      rw [UInt8.toNat_toUInt16]
      omega
    · rw [collectStep_of_le releasecount (not_lt.mp h)]
      rcases ih with heq | ⟨hlt, hpos, hrc⟩
      · exact .inl heq
      · exact .inr ⟨by omega, hpos, hrc⟩

theorem smartCollectBlock_pos (h : smartCollectBlock g releasecount ≠ 0xFFFF) :
    smartCollectBlock g releasecount < g.neraseblocks ∧
      0 < (releasecount (smartCollectBlock g releasecount)).toNat := by
  delta smartCollectBlock at h ⊢
  rcases foldl_collectStep_taken releasecount g.neraseblocks with heq | ⟨hlt, hpos, hrc⟩
  · rw [heq] at h
    exact absurd rfl h
  · refine ⟨hlt, ?_⟩
    rwa [← UInt8.toNat_toUInt16, hrc]

theorem smartCollectBlock_eq {b : Nat} (hb : b < g.neraseblocks) (hpos : 0 < (releasecount b).toNat)
    (hfirst : ∀ x < b, (releasecount x).toNat < (releasecount b).toNat)
    (hmax : ∀ x < g.neraseblocks, (releasecount x).toNat ≤ (releasecount b).toNat) :
    smartCollectBlock g releasecount = b := by
  suffices hfold : ∀ n ≤ g.neraseblocks,
      (n ≤ b → ((List.range n).foldl (collectStep releasecount) (0xFFFF, 0)).2.toNat < (releasecount b).toNat) ∧
      (b < n → (List.range n).foldl (collectStep releasecount) (0xFFFF, 0) = (b, (releasecount b).toUInt16)) by
    delta smartCollectBlock
    rw [(hfold g.neraseblocks le_rfl).2 hb]
  intro n hn
  induction n with
  | zero => exact ⟨fun _ => hpos, fun h => absurd h (Nat.not_lt_zero b)⟩
  | succ n ih =>
    obtain ⟨ihlt, iheq⟩ := ih (by omega)
    rw [foldl_collectStep_succ]
    refine ⟨fun hnb => ?_, fun hbn => ?_⟩
    · have hprev := ihlt (by omega)
      by_cases hgt : ((List.range n).foldl (collectStep releasecount) (0xFFFF, 0)).2.toNat < (releasecount n).toNat
      · rw [collectStep_of_gt releasecount hgt, UInt8.toNat_toUInt16]
        exact hfirst n (by omega)
      · rw [collectStep_of_le releasecount (not_lt.mp hgt)]
        exact hprev
    · rcases Nat.lt_or_ge b n with hlt | hge
      · rw [iheq hlt, collectStep_of_le releasecount (by rw [UInt8.toNat_toUInt16]; exact hmax n (by omega))]
      · have hnb : n = b := by omega
        subst hnb
        rw [collectStep_of_gt releasecount (ihlt le_rfl)]

theorem smartCollectBlock_of_none (hnone : ∀ b < g.neraseblocks, releasecount b = 0) :
    smartCollectBlock g releasecount = 0xFFFF := by
  by_contra hne
  obtain ⟨hlt, hpos⟩ := smartCollectBlock_pos g releasecount hne
  rw [hnone _ hlt] at hpos
  exact absurd hpos (by decide)

end Search

section Termination

variable (g : SmartGeometry)

/-- The released sectors of the volume's blocks, the measure of the `while`. -/
def releasedTotal (releasecount : Nat → UInt8) : Nat :=
  ∑ b ∈ Finset.range g.neraseblocks, (releasecount b).toNat

theorem releasedTotal_update_lt {releasecount : Nat → UInt8} {b : Nat} (hb : b < g.neraseblocks)
    (hpos : 0 < (releasecount b).toNat) :
    releasedTotal g (Function.update releasecount b 0) < releasedTotal g releasecount := by
  have hmem : b ∈ Finset.range g.neraseblocks := Finset.mem_range.mpr hb
  unfold releasedTotal
  rw [← Finset.add_sum_erase _ _ hmem, ← Finset.add_sum_erase _ (fun x => (releasecount x).toNat) hmem]
  have hrest : ∑ x ∈ (Finset.range g.neraseblocks).erase b, (Function.update releasecount b 0 x).toNat =
      ∑ x ∈ (Finset.range g.neraseblocks).erase b, (releasecount x).toNat := by
    refine Finset.sum_congr rfl fun x hx => ?_
    rw [Function.update_of_ne (Finset.ne_of_mem_erase hx)]
  rw [hrest, Function.update_self, UInt8.toNat_zero]
  omega

/-- Collection that is needed while no block has a released sector returns -ENOSPC at once. -/
theorem smartGarbagecollect_enospc (fuel : Nat) (st : SmartScan) (l : Nat)
    (hneed : smartNeedCollect g st = true) (hnone : ∀ b < g.neraseblocks, st.releasecount b = 0) :
    smartGarbagecollect g (fuel + 1) st l = some (.error (-ENOSPC)) := by
  rw [smartGarbagecollect_succ]
  dsimp only
  rw [if_pos hneed, if_pos (smartCollectBlock_of_none g st.releasecount hnone)]

theorem smartGarbagecollect_enospc_full :
    smartNeedCollect ⟨64, 16, 15, 4⟩ ⟨fun _ => writtenHeader, fun _ => 0xFFFF, 0, 0, fun _ => 0, fun _ => 0⟩ = true ∧
      (∀ b < 4, (⟨fun _ => writtenHeader, fun _ => 0xFFFF, 0, 0, fun _ => 0, fun _ => 0⟩ : SmartScan).releasecount b = 0) ∧
      smartGarbagecollect ⟨64, 16, 15, 4⟩ 1 ⟨fun _ => writtenHeader, fun _ => 0xFFFF, 0, 0, fun _ => 0, fun _ => 0⟩ 0 =
        some (.error (-ENOSPC)) := by
  have hneed : smartNeedCollect ⟨64, 16, 15, 4⟩
      ⟨fun _ => writtenHeader, fun _ => 0xFFFF, 0, 0, fun _ => 0, fun _ => 0⟩ = true := by
    decide
  have hnone : ∀ b < 4,
      (⟨fun _ => writtenHeader, fun _ => 0xFFFF, 0, 0, fun _ => 0, fun _ => 0⟩ : SmartScan).releasecount b = 0 :=
    fun _ _ => rfl
  exact ⟨hneed, hnone, smartGarbagecollect_enospc ⟨64, 16, 15, 4⟩ 0 _ 0 hneed hnone⟩

/-- Where no block pre-releases, `smart_garbagecollect` returns within one pass more than the
released sectors of its blocks: each relocation takes a block's released sectors, at least one, off
that count, and with none left there is no block to collect. -/
theorem smartGarbagecollect_returns (hpre : ∀ b < g.neraseblocks, smartPrerelease g b = 0) (fuel : Nat) :
    ∀ (st : SmartScan) (l : Nat), releasedTotal g st.releasecount < fuel →
      (smartGarbagecollect g fuel st l).isSome := by
  induction fuel with
  | zero => intro _ _ h; omega
  | succ fuel ih =>
    intro st l hfuel
    rw [smartGarbagecollect_succ]
    dsimp only
    split_ifs with hneed hblock
    · rfl
    · obtain ⟨hlt, hpos⟩ := smartCollectBlock_pos g st.releasecount hblock
      split
      · rfl
      · rename_i st' l' hrun
        obtain ⟨hrc, -⟩ := smartRelocateBlock_counts g st l _ hrun
        rw [hpre _ hlt] at hrc
        refine ih st' l' ?_
        have := releasedTotal_update_lt g hlt hpos
        rw [hrc]
        omega
    · rfl

end Termination

theorem smartGarbagecollect_returns_small :
    (∀ b < 4, smartPrerelease ⟨64, 16, 15, 4⟩ b = 0) ∧
      ∀ (st : SmartScan) (l : Nat), releasedTotal ⟨64, 16, 15, 4⟩ st.releasecount < 65 →
        (smartGarbagecollect ⟨64, 16, 15, 4⟩ 65 st l).isSome := by
  have hpre : ∀ b < 4, smartPrerelease ⟨64, 16, 15, 4⟩ b = 0 := fun b _ =>
    if_neg fun h => absurd h.2 (by decide)
  exact ⟨hpre, smartGarbagecollect_returns ⟨64, 16, 15, 4⟩ hpre 65⟩


section Invariants

variable (g : SmartGeometry)

theorem smartGarbagecollect_inv {P : SmartScan → Prop}
    (hstep : ∀ st st' l l' b, b < g.neraseblocks → P st → smartRelocateBlock g st l b = .ok (st', l') → P st')
    (fuel : Nat) :
    ∀ st l {st' l'}, P st → smartGarbagecollect g fuel st l = some (.ok (st', l')) →
      P st' ∧ smartNeedCollect g st' = false := by
  induction fuel with
  | zero => intro _ _ _ _ _ h; cases h
  | succ fuel ih =>
    intro st l st' l' hP h
    rw [smartGarbagecollect_succ] at h
    dsimp only at h
    split_ifs at h with hneed hblock
    · cases h
    · have hlt := (smartCollectBlock_pos g st.releasecount hblock).1
      split at h
      · cases h
      · rename_i st₁ l₁ hrun
        exact ih st₁ l₁ (hstep _ _ _ _ _ hlt hP hrun) h
    · cases h
      exact ⟨hP, Bool.eq_false_iff.mpr hneed⟩

/-- The counter invariant on released sectors: the `uint16_t` `releasesectors` is the sum of the
blocks' counts, as a `uint16_t`. -/
def ReleaseCounted (st : SmartScan) : Prop :=
  st.releasesectors = ∑ b ∈ Finset.range g.neraseblocks, (st.releasecount b).toUInt16

theorem smartRelocateBlock_releaseCounted {st st' : SmartScan} {l l' b : Nat} (hb : b < g.neraseblocks)
    (hinv : ReleaseCounted g st) (h : smartRelocateBlock g st l b = .ok (st', l')) : ReleaseCounted g st' := by
  obtain ⟨hrc, hrs⟩ := smartRelocateBlock_counts g st l b h
  have hmem : b ∈ Finset.range g.neraseblocks := Finset.mem_range.mpr hb
  have hrest : ∑ x ∈ (Finset.range g.neraseblocks).erase b,
      (Function.update st.releasecount b (smartPrerelease g b) x).toUInt16 =
        ∑ x ∈ (Finset.range g.neraseblocks).erase b, (st.releasecount x).toUInt16 :=
    Finset.sum_congr rfl fun x hx => by rw [Function.update_of_ne (Finset.ne_of_mem_erase hx)]
  unfold ReleaseCounted at hinv ⊢
  rw [hrc, hrs, hinv, ← Finset.add_sum_erase _ _ hmem, ← Finset.add_sum_erase _ _ hmem, hrest,
    Function.update_self]
  abel

/-- Every run of `smart_garbagecollect` that returns `OK`, from a state whose released sectors are
counted, leaves them counted and collection no longer needed. -/
theorem smartGarbagecollect_releaseCounted (fuel : Nat) {st st' : SmartScan} {l l' : Nat}
    (hinv : ReleaseCounted g st) (h : smartGarbagecollect g fuel st l = some (.ok (st', l'))) :
    ReleaseCounted g st' ∧ smartNeedCollect g st' = false :=
  smartGarbagecollect_inv g (fun _ _ _ _ _ hb hP hrun => smartRelocateBlock_releaseCounted g hb hP hrun)
    fuel st l hinv h

end Invariants

def releasedHeader : SmartHeader := ⟨0, 0, 0xff, 0x3f⟩

def collectStart : SmartScan where
  headers s := if s / 16 = 0 then releasedHeader
    else if s / 16 = 1 ∧ s % 16 < 10 ∨ s / 16 = 2 then writtenHeader else erasedHeader
  sMap _ := 0xFFFF
  freesectors := 20
  releasesectors := 15
  freecount b := if b = 1 then 5 else if b = 3 then 15 else 0
  releasecount b := if b = 0 then 15 else 0

theorem smartGarbagecollect_releaseCounted_collects :
    let st' := smartRelocateBlockFinish ⟨64, 16, 15, 4⟩
      { collectStart with freecount := Function.update collectStart.freecount 0 0 } 0 15
    ReleaseCounted ⟨64, 16, 15, 4⟩ collectStart ∧ smartNeedCollect ⟨64, 16, 15, 4⟩ collectStart = true ∧
      smartGarbagecollect ⟨64, 16, 15, 4⟩ 2 collectStart 0 = some (.ok (st', 0)) ∧
      st'.releasecount 0 = 0 ∧ st'.freesectors = 35 ∧
      ReleaseCounted ⟨64, 16, 15, 4⟩ st' ∧ smartNeedCollect ⟨64, 16, 15, 4⟩ st' = false := by
  intro st'
  have hinv : ReleaseCounted ⟨64, 16, 15, 4⟩ collectStart := by
    simp [ReleaseCounted, collectStart, Finset.sum_range_succ]
  have hrun : smartGarbagecollect ⟨64, 16, 15, 4⟩ 2 collectStart 0 = some (.ok (st', 0)) := rfl
  exact ⟨hinv, by decide, hrun, rfl, by decide,
    smartGarbagecollect_releaseCounted ⟨64, 16, 15, 4⟩ 2 hinv hrun⟩

section Spin

variable (g : SmartGeometry)

theorem smartRelocateBlock_fixed {st : SmartScan} {b : Nat} (hspb : 0 < g.sectorsPerBlk)
    (havail : g.availSectPerBlk ≤ g.sectorsPerBlk) (hpre : smartPrerelease g b = 2)
    (herased : ∀ s, s / g.sectorsPerBlk = b → st.headers s = erasedHeader)
    (hrel : st.releasecount b = 2) (hfree : st.freecount b = g.availSectPerBlk.toUInt8 - 2) (l : Nat) :
    smartRelocateBlock g st l b = .ok (st, l) := by
  have hnotLive : sectorNotLive erasedHeader = true := by decide
  have hloop : smartRelocateLoop g (List.range' (b * g.sectorsPerBlk) g.availSectPerBlk)
      { st with freecount := Function.update st.freecount b 0 } l =
        .ok ({ st with freecount := Function.update st.freecount b 0 }, l) := by
    refine smartRelocateLoop_of_notLive g _ _ _ fun x hx => ?_
    obtain ⟨hx₁, hx₂⟩ := List.mem_range'_1.mp hx
    have hdiv : x / g.sectorsPerBlk = b := by
      rw [Nat.div_eq_iff hspb]
      omega
    rw [herased x hdiv]
    exact hnotLive
  delta smartRelocateBlock
  dsimp only
  rw [hloop]
  simp only [bind, Except.bind, pure, Except.pure, Except.ok.injEq, Prod.mk.injEq, and_true]
  have hpre' : (if b * g.sectorsPerBlk + g.availSectPerBlk = g.neraseblocks ∧ g.totalsectors = 65534 then
      (2 : UInt8) else 0) = 2 := hpre
  have hheaders : (fun s => if s / g.sectorsPerBlk = b then erasedHeader else st.headers s) = st.headers :=
    funext fun s => by
      split_ifs with hs
      · exact (herased s hs).symm
      · rfl
  have hfc : Function.update (Function.update st.freecount b 0) b (g.availSectPerBlk.toUInt8 - 2) =
      st.freecount := by
    rw [Function.update_idem, ← hfree, Function.update_eq_self]
  have hrc : Function.update st.releasecount b 2 = st.releasecount := by
    rw [← hrel, Function.update_eq_self]
  simp only [smartRelocateBlockFinish, hpre', hheaders, hfc, hrc, hrel, sub_self, add_zero, sub_zero]

theorem smartGarbagecollect_spins {st : SmartScan} {b : Nat} (hspb : 0 < g.sectorsPerBlk)
    (havail : g.availSectPerBlk ≤ g.sectorsPerBlk) (hneed : smartNeedCollect g st = true)
    (hcollect : smartCollectBlock g st.releasecount = b) (hb : b ≠ 0xFFFF) (hpre : smartPrerelease g b = 2)
    (herased : ∀ s, s / g.sectorsPerBlk = b → st.headers s = erasedHeader)
    (hrel : st.releasecount b = 2) (hfree : st.freecount b = g.availSectPerBlk.toUInt8 - 2) (fuel : Nat) :
    ∀ l, smartGarbagecollect g fuel st l = none := by
  induction fuel with
  | zero => intro l; rfl
  | succ fuel ih =>
    intro l
    rw [smartGarbagecollect_succ, if_pos hneed]
    dsimp only
    rw [hcollect, if_neg hb, smartRelocateBlock_fixed g hspb havail hpre herased hrel hfree l]
    exact ih l

end Spin

def spinStart : SmartScan where
  headers s := if s / 64 = 15 then (if s % 64 < 2 then releasedHeader else erasedHeader) else writtenHeader
  sMap _ := 0xFFFF
  freesectors := 62
  releasesectors := 4
  freecount b := if b = 15 then 62 else 0
  releasecount b := (if b = 15 then 2 else 0) + (if b = 1023 then 2 else 0)

def spinState : SmartScan := { spinStart with headers := fun s => if s / 64 = 15 then erasedHeader else writtenHeader }

/-- 64 MiB of flash in 64 KiB erase blocks with 1 KiB sectors is a 65534-sector volume, and the `for`
over block 15 stops at sector 1024, the number of blocks. In `spinStart` the free and release totals
are the sums of the blocks' counts, collection is needed (62 free sectors, no more than a block and
four), and block 15 is the first with the most released sectors. Relocating it erases it and leaves
every count as it was, `releasesectors` included, and from there each pass of the `while` relocates
it again into the same state: `smart_garbagecollect` never returns. -/
theorem smart_garbagecollect_never_returns :
    smartSetsectorsize 1024 65536 1024 = .ok ⟨65534, 64, 64, 1024⟩ ∧
      ∑ b ∈ Finset.range 1024, (spinStart.freecount b).toUInt16 = spinStart.freesectors ∧
      ∑ b ∈ Finset.range 1024, (spinStart.releasecount b).toUInt16 = spinStart.releasesectors ∧
      smartRelocateBlock ⟨65534, 64, 64, 1024⟩ spinStart 0 15 = .ok (spinState, 0) ∧
      spinState.releasesectors = spinStart.releasesectors ∧
      ∀ fuel, smartGarbagecollect ⟨65534, 64, 64, 1024⟩ fuel spinStart 0 = none := by
  have hcollect : smartCollectBlock ⟨65534, 64, 64, 1024⟩ spinStart.releasecount = 15 := by
    refine smartCollectBlock_eq _ _ (by decide) (by decide) (fun x hx => ?_) fun x _ => ?_
    · simp only [spinStart]
      split_ifs <;> first | omega | decide
    · simp only [spinStart]
      split_ifs <;> first | omega | decide
  have hneed : smartNeedCollect ⟨65534, 64, 64, 1024⟩ spinStart = true := by decide
  have hreloc : smartRelocateBlock ⟨65534, 64, 64, 1024⟩ spinStart 0 15 = .ok (spinState, 0) := by
    have hloop : smartRelocateLoop ⟨65534, 64, 64, 1024⟩ (List.range' (15 * 64) 64)
        { spinStart with freecount := Function.update spinStart.freecount 15 0 } 0 =
          .ok ({ spinStart with freecount := Function.update spinStart.freecount 15 0 }, 0) := by
      refine smartRelocateLoop_of_notLive _ _ _ _ fun x hx => ?_
      obtain ⟨hx₁, hx₂⟩ := List.mem_range'_1.mp hx
      simp only [spinStart, if_pos (show x / 64 = 15 by omega)]
      split_ifs <;> decide
    delta smartRelocateBlock
    dsimp only
    rw [hloop]
    simp only [bind, Except.bind, pure, Except.pure, Except.ok.injEq, Prod.mk.injEq, and_true]
    have hheaders : (fun s => if s / 64 = 15 then erasedHeader else spinStart.headers s) = spinState.headers :=
      funext fun s => by
        simp only [spinStart, spinState]
        split_ifs <;> rfl
    have hfc : Function.update (Function.update spinStart.freecount 15 0) 15 62 = spinStart.freecount := by
      rw [Function.update_idem, Function.update_eq_self_iff]
      rfl
    have hrc : Function.update spinStart.releasecount 15 2 = spinStart.releasecount := by
      rw [Function.update_eq_self_iff]
      rfl
    simp only [smartRelocateBlockFinish, show (15 * 64 + 64 = 1024 ∧ 65534 = 65534) from ⟨rfl, rfl⟩,
      and_self, if_true]
    rw [show (64 : Nat).toUInt8 - 2 = 62 by decide, hfc, hrc]
    exact congrArg (fun h => { spinState with headers := h }) hheaders
  have hfs : ∀ b ∈ Finset.range 1024, (spinStart.freecount b).toUInt16 = if b = 15 then 62 else 0 :=
    fun b _ => by
      simp only [spinStart]
      split_ifs <;> rfl
  have hrs : ∀ b ∈ Finset.range 1024, (spinStart.releasecount b).toUInt16 =
      (if b = 15 then 2 else 0) + (if b = 1023 then 2 else 0) := fun b _ => by
    simp only [spinStart]
    split_ifs <;> rfl
  refine ⟨rfl, by rw [Finset.sum_congr rfl hfs]; simp [spinStart],
    by rw [Finset.sum_congr rfl hrs, Finset.sum_add_distrib]; simp [spinStart], hreloc, rfl, fun fuel => ?_⟩
  cases fuel with
  | zero => rfl
  | succ fuel =>
    rw [smartGarbagecollect_succ, if_pos hneed]
    dsimp only
    rw [hcollect, if_neg (by decide), hreloc]
    have hcollect' : smartCollectBlock ⟨65534, 64, 64, 1024⟩ spinState.releasecount = 15 := hcollect
    exact smartGarbagecollect_spins _ (by decide) le_rfl (by decide) hcollect' (by decide) (by decide)
      (fun s hs => if_pos hs) rfl rfl fuel 0

end TizenRT.Smart
