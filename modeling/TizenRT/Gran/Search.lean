import TizenRT.Gran.Table
import Mathlib.Tactic.SplitIfs

set_option autoImplicit false

/-!
The search of `gran_common_alloc`. Its two loops are taken apart through a 64-granule window:
`curr` and `next` hold the bits of a GAT entry and the next from `bitidx` on, and each pass of the
inner loop moves the window and the candidate address together; a pass skips only positions where
no free run starts, so the inner loop finds the first free run of its entry. What it does not keep
is the address across entries: the outer loop goes on from the address the inner loop left, which is
that of the entry's end only if the inner loop stopped exactly there. On a table of one entry the
search is first fit; on `granHeldTable` it returns granules that are held.
-/

namespace TizenRT.Gran

open Word32

/-- Bit `k` of the 64-granule window from granule `granidx`: the GAT entry of `granidx` and the next
one, and clear bits past them, as the shifts of the search bring in. -/
def granWindow (gat : Nat → UInt32) (granidx k : Nat) : Bool := decide (k < 64) && granBit gat (granidx + k)

structure WindowAt (gat : Nat → UInt32) (granidx bitidx : Nat) (curr next : UInt32) : Prop where
  curr : ∀ j < 32, curr.toBitVec.getLsbD j = granWindow gat granidx (bitidx + j)
  next : ∀ j < 32, next.toBitVec.getLsbD j = granWindow gat granidx (32 + bitidx + j)

theorem WindowAt.shift {gat : Nat → UInt32} {granidx bitidx : Nat} {curr next : UInt32}
    (h : WindowAt gat granidx bitidx curr next) {shift : Nat} (h1 : 1 ≤ shift) (h32 : shift < 32) :
    WindowAt gat granidx (bitidx + shift) ((curr >>> shift.toUInt32) ||| (next <<< (32 - shift).toUInt32))
      (next >>> shift.toUInt32) := by
  constructor
  · intro j hj
    rw [UInt32.toBitVec_or,BitVec.getLsbD_or,getLsbD_ushiftRight h32,
      getLsbD_shiftLeft (by omega)]
    by_cases hjs : j + shift < 32
    · rw [h.curr _ (by omega),decide_eq_false (by omega),Bool.false_and,Bool.or_false]
      congr 1
      omega
    · rw [getLsbD_of_ge _ (by omega),Bool.false_or,decide_eq_true (by omega),Bool.true_and,h.next _ (by omega)]
      congr 1
      omega
  · intro j hj
    rw [getLsbD_ushiftRight h32]
    by_cases hjs : shift + j < 32
    · rw [h.next _ hjs]
      congr 1
      omega
    · rw [getLsbD_of_ge _ (by omega)]
      simp [granWindow]
      omega

section Shift

variable {curr mask : UInt32} {n : Nat} (hmask : ∀ j < 32, mask.toBitVec.getLsbD j = decide (j < n))
include hmask

theorem granShift_eq_none (h : granShift curr mask = none) : ∀ k < n, k < 32 → curr.toBitVec.getLsbD k = false := by
  unfold granShift at h
  split_ifs at h with h16 h8 h4 h2 hm
  intro k hk hk32
  exact and_eq_zero_iff.mp hm k hk32 (by rw [hmask k hk32]; exact decide_eq_true hk)

theorem granShift_eq_some (hn : 1 ≤ n) {shift : Nat} (h : granShift curr mask = some shift) :
    1 ≤ shift ∧ shift ≤ 16 ∧ ∀ i < shift, ∃ k < n, i + k < 32 ∧ curr.toBitVec.getLsbD (i + k) = true := by
  have hblock : ∀ {m : UInt32} {s : Nat}, curr &&& m = m → m.toNat = 2 ^ s - 1 → s ≤ 16 →
      ∀ i < s, ∃ k < n, i + k < 32 ∧ curr.toBitVec.getLsbD (i + k) = true := by
    intro m s hc hm hs i hi
    exact ⟨0,hn,by omega,and_eq_self_iff.mp hc i (by omega) (by rw [getLsbD_lowMask hm i]; exact decide_eq_true hi)⟩
  unfold granShift at h
  split_ifs at h with h16 h8 h4 h2 hm <;> cases h
  · exact ⟨by omega,Nat.le_refl _,hblock (s := 16) h16 rfl (by omega)⟩
  · exact ⟨by omega,by omega,hblock (s := 8) h8 rfl (by omega)⟩
  · exact ⟨by omega,by omega,hblock (s := 4) h4 rfl (by omega)⟩
  · exact ⟨by omega,by omega,hblock (s := 2) h2 rfl (by omega)⟩
  · rw [and_eq_zero_iff] at hm
    simp only [not_forall,Bool.not_eq_false] at hm
    obtain ⟨j,hj,hmj,hcj⟩ := hm
    refine ⟨Nat.le_refl _,by omega,fun i hi => ⟨j,?_,by omega,by rw [show i = 0 by omega,Nat.zero_add]; exact hcj⟩⟩
    rw [hmask j hj] at hmj
    exact of_decide_eq_true hmj

end Shift

section Scan

variable {gat : Nat → UInt32} {granidx bitidx : Nat} {curr next : UInt32} (hw : WindowAt gat granidx bitidx curr next)
  (hb : bitidx < 32)
include hw hb

theorem WindowAt.granBit_eq {j : Nat} (hj : j < 32) : granBit gat (granidx + bitidx + j) = curr.toBitVec.getLsbD j := by
  rw [hw.curr j hj,granWindow,decide_eq_true (by omega),Bool.true_and,Nat.add_assoc]

theorem WindowAt.not_free_of_allOnes (h : curr = 0xffffffff) {n : Nat} (hn : 1 ≤ n) :
    ∀ q, bitidx ≤ q → q < 32 → ¬FreeRun gat (granidx + q) n := by
  intro q hq hq32 hfree
  have hbit := hw.granBit_eq hb (j := q - bitidx) (by omega)
  rw [h,getLsbD_allOnes,show granidx + bitidx + (q - bitidx) = granidx + q + 0 by omega,hfree 0 hn] at hbit
  simp at hbit
  omega

variable {mask : UInt32} {n : Nat} (hmask : ∀ j < 32, mask.toBitVec.getLsbD j = decide (j < n))
include hmask

theorem WindowAt.free_of_granShift (h : granShift curr mask = none) (hn32 : n ≤ 32) :
    FreeRun gat (granidx + bitidx) n := by
  intro k hk
  rw [hw.granBit_eq hb (by omega)]
  exact granShift_eq_none hmask h k hk (by omega)

theorem WindowAt.not_free_of_granShift (hn : 1 ≤ n) {shift : Nat} (h : granShift curr mask = some shift) :
    ∀ q, bitidx ≤ q → q < bitidx + shift → ¬FreeRun gat (granidx + q) n := by
  intro q hq hqs hfree
  obtain ⟨k,hk,hk32,hbit⟩ := (granShift_eq_some hmask hn h).2.2 (q - bitidx) (by omega)
  rw [← hw.granBit_eq hb hk32,show granidx + bitidx + (q - bitidx + k) = granidx + q + k by omega,hfree k hk] at hbit
  cases hbit

end Scan

theorem shiftLeft_add_sub {alloc b s p L : Nat} (hs : b + s ≤ p) :
    alloc + (s <<< L) + ((p - (b + s)) <<< L) = alloc + ((p - b) <<< L) := by
  rw [Nat.add_assoc,Nat.shiftLeft_eq,Nat.shiftLeft_eq,Nat.shiftLeft_eq,← Nat.add_mul]
  congr 2
  omega

section ScanLoop

variable {priv : GranState} {n granidx : Nat} {mask : UInt32}
  (hmask : ∀ j < 32, mask.toBitVec.getLsbD j = decide (j < n)) (hn : 1 ≤ n) (hn32 : n ≤ 32)
include hmask hn hn32

theorem granScan_found : ∀ {fuel bitidx alloc : Nat} {curr next : UInt32} {a : Nat},
    WindowAt priv.gat granidx bitidx curr next →
    granScan priv n granidx mask fuel bitidx alloc curr next = .found a →
    ∃ p, bitidx ≤ p ∧ p < 32 ∧ granidx + p + n ≤ priv.ngranules ∧ FreeRun priv.gat (granidx + p) n ∧
      (∀ q, bitidx ≤ q → q < p → ¬FreeRun priv.gat (granidx + q) n) ∧ a = alloc + ((p - bitidx) <<< priv.log2gran) := by
  intro fuel
  induction fuel with
  | zero =>
    intro bitidx alloc curr next a _ h
    cases h
  | succ fuel ih =>
    intro bitidx alloc curr next a hw h
    unfold granScan at h
    by_cases hc : bitidx < 32 ∧ granidx + bitidx + n ≤ priv.ngranules
    · rw [if_pos hc,if_neg (fun hall => by rw [if_pos hall] at h; cases h)] at h
      split at h
      · rename_i hs
        cases h
        exact ⟨bitidx,Nat.le_refl _,hc.1,hc.2,hw.free_of_granShift hc.1 hmask hs hn32,
          fun q h1 h2 => absurd h2 (by omega),by simp⟩
      · rename_i shift hs
        have hsh := granShift_eq_some hmask hn hs
        obtain ⟨p,h1,h2,h3,h4,h5,rfl⟩ := ih (hw.shift hsh.1 (by omega)) h
        refine ⟨p,by omega,h2,h3,h4,fun q hq1 hq2 => ?_,shiftLeft_add_sub h1⟩
        by_cases hqs : q < bitidx + shift
        · exact hw.not_free_of_granShift hc.1 hmask hn hs q hq1 hqs
        · exact h5 q (by omega) hq2
    · rw [if_neg hc] at h
      cases h

omit hn32 in
theorem granScan_moved : ∀ {fuel bitidx alloc : Nat} {curr next : UInt32} {a : Nat}, 32 ≤ bitidx + fuel →
    WindowAt priv.gat granidx bitidx curr next →
    granScan priv n granidx mask fuel bitidx alloc curr next = .moved a →
    ∃ b, bitidx ≤ b ∧ a = alloc + ((b - bitidx) <<< priv.log2gran) ∧
      ∀ q, bitidx ≤ q → q < 32 → granidx + q + n ≤ priv.ngranules → ¬FreeRun priv.gat (granidx + q) n := by
  intro fuel
  induction fuel with
  | zero =>
    intro bitidx alloc curr next a hfuel _ h
    cases h
    exact ⟨bitidx,Nat.le_refl _,by simp,fun q hq hq32 => absurd hq32 (by omega)⟩
  | succ fuel ih =>
    intro bitidx alloc curr next a hfuel hw h
    unfold granScan at h
    by_cases hc : bitidx < 32 ∧ granidx + bitidx + n ≤ priv.ngranules
    · rw [if_pos hc] at h
      by_cases hall : curr = 0xffffffff
      · rw [if_pos hall] at h
        cases h
        exact ⟨bitidx,Nat.le_refl _,by simp,fun q hq hq32 _ => hw.not_free_of_allOnes hc.1 hall hn q hq hq32⟩
      rw [if_neg hall] at h
      split at h
      · cases h
      · rename_i shift hs
        have hsh := granShift_eq_some hmask hn hs
        obtain ⟨b,h1,rfl,h3⟩ := ih (by omega) (hw.shift hsh.1 (by omega)) h
        refine ⟨b,by omega,shiftLeft_add_sub h1,fun q hq1 hq2 hq3 => ?_⟩
        by_cases hqs : q < bitidx + shift
        · exact hw.not_free_of_granShift hc.1 hmask hn hs q hq1 hqs
        · exact h3 q (by omega) hq2 hq3
    · rw [if_neg hc] at h
      cases h
      exact ⟨bitidx,Nat.le_refl _,by simp,fun q hq hq32 hfit => absurd ⟨by omega,by omega⟩ hc⟩

end ScanLoop

theorem getLsbD_searchMask {n : Nat} (hn : 1 ≤ n) (hn32 : n ≤ 32) :
    ∀ j < 32, ((0xffffffff : UInt32) >>> (32 - n).toUInt32).toBitVec.getLsbD j = decide (j < n) := by
  intro j _
  rw [getLsbD_allOnes_ushiftRight (by omega)]
  exact decide_eq_decide.mpr (by omega)

theorem windowAt_entry (gat : Nat → UInt32) (w : Nat) : WindowAt gat (32 * w) 0 (gat w) (gat (w + 1)) := by
  constructor
  · intro j hj
    rw [granWindow,decide_eq_true (by omega),Bool.true_and,granBit,show (32 * w + (0 + j)) / 32 = w by omega,
      show (32 * w + (0 + j)) % 32 = j by omega]
  · intro j hj
    rw [granWindow,decide_eq_true (by omega),Bool.true_and,granBit,show (32 * w + (32 + 0 + j)) / 32 = w + 1 by omega,
      show (32 * w + (32 + 0 + j)) % 32 = j by omega]

theorem granSearch_of_le {priv : GranState} {n : Nat} {mask : UInt32} (fuel : Nat) {granidx : Nat}
    (h : priv.ngranules ≤ granidx) (alloc : Nat) : granSearch priv n mask fuel granidx alloc = none := by
  cases fuel with
  | zero => rfl
  | succ fuel => simp [granSearch,Nat.not_lt.mpr h]

section Single

variable {priv : GranState} {n : Nat} {mask : UInt32}
  (hmask : ∀ j < 32, mask.toBitVec.getLsbD j = decide (j < n)) (hn : 1 ≤ n) (hn32 : n ≤ 32)
  (hone : priv.ngranules ≤ 32)
include hmask hn hn32 hone

theorem granSearch_single (fuel : Nat) (hfuel : 0 < priv.ngranules → 0 < fuel) (alloc : Nat) :
    (∀ a, granSearch priv n mask fuel 0 alloc = some a → ∃ p, p + n ≤ priv.ngranules ∧ FreeRun priv.gat p n ∧
      (∀ q < p, ¬FreeRun priv.gat q n) ∧ a = alloc + (p <<< priv.log2gran)) ∧
    (granSearch priv n mask fuel 0 alloc = none → ∀ p, p + n ≤ priv.ngranules → ¬FreeRun priv.gat p n) := by
  have hw := windowAt_entry priv.gat 0
  rw [Nat.mul_zero] at hw
  by_cases hz : priv.ngranules = 0
  · rw [granSearch_of_le fuel (by omega)]
    exact ⟨(fun a h => nomatch h),fun _ p hp => absurd hp (by omega)⟩
  have h0 : 0 < priv.ngranules := Nat.pos_of_ne_zero hz
  obtain ⟨fuel,rfl⟩ := Nat.exists_eq_add_one_of_ne_zero (Nat.pos_iff_ne_zero.mp (hfuel h0))
  simp only [granSearch,if_pos h0,Nat.zero_shiftRight]
  by_cases hall : priv.gat 0 = 0xffffffff
  · rw [if_pos hall,granSearch_of_le fuel (by omega)]
    exact ⟨(fun a h => nomatch h),fun _ p hp => by
      simpa using hw.not_free_of_allOnes (by omega) hall hn p (Nat.zero_le _) (by omega)⟩
  rw [if_neg hall]
  cases hs : granScan priv n 0 mask 32 0 alloc (priv.gat 0) (priv.gat (0 + 1)) with
  | found a =>
    obtain ⟨p,-,-,h3,h4,h5,rfl⟩ := granScan_found hmask hn hn32 hw hs
    refine ⟨fun a' h => ?_,(fun h => nomatch h)⟩
    cases h
    exact ⟨p,by simpa using h3,by simpa using h4,fun q hq => by simpa using h5 q (Nat.zero_le _) hq,by simp⟩
  | moved a =>
    obtain ⟨-,-,-,h3⟩ := granScan_moved hmask hn (by omega) hw hs
    dsimp only
    rw [granSearch_of_le fuel (by omega)]
    exact ⟨(fun a h => nomatch h),fun _ p hp => by simpa using h3 p (Nat.zero_le _) (by omega) (by simpa using hp)⟩

end Single

section Alloc

variable {priv : GranState} {size : Nat} (hsize : 0 < size)
include hsize

theorem granCommonAlloc_of_some {a : Nat}
    (h : granSearch priv (priv.ngran size) (0xffffffff >>> (32 - priv.ngran size).toUInt32) priv.ngranules 0
      priv.heapstart = some a) :
    granCommonAlloc priv size = (some a,granMarkAllocated priv a (priv.ngran size)) := by
  unfold GranState.ngran at h
  simp only [granCommonAlloc,if_pos hsize,h]
  rfl

theorem granCommonAlloc_of_none
    (h : granSearch priv (priv.ngran size) (0xffffffff >>> (32 - priv.ngran size).toUInt32) priv.ngranules 0
      priv.heapstart = none) :
    granCommonAlloc priv size = (none,priv) := by
  unfold GranState.ngran at h
  simp only [granCommonAlloc,if_pos hsize,h]

end Alloc

/-- On a table of one GAT entry `gran_alloc` is first fit: NULL exactly when no run of free
granules fits, else the address of the first one, whose granules, and no others, it marks. -/
theorem granCommonAlloc_single (priv : GranState) (hone : priv.ngranules ≤ 32) {size : Nat} (hsize : 0 < size)
    (hn32 : priv.ngran size ≤ 32) :
    ((granCommonAlloc priv size).1 = none ↔
      ∀ p, p + priv.ngran size ≤ priv.ngranules → ¬FreeRun priv.gat p (priv.ngran size)) ∧
    ∀ a, (granCommonAlloc priv size).1 = some a → ∃ p, a = priv.heapstart + (p <<< priv.log2gran) ∧
      p + priv.ngran size ≤ priv.ngranules ∧ FreeRun priv.gat p (priv.ngran size) ∧
      (∀ q < p, ¬FreeRun priv.gat q (priv.ngran size)) ∧
      ∀ g, granBit (granCommonAlloc priv size).2.gat g = (granBit priv.gat g || decide (p ≤ g ∧ g < p + priv.ngran size)) := by
  have hn := one_le_ngran priv hsize
  obtain ⟨hsome,hnone⟩ := granSearch_single (getLsbD_searchMask hn hn32) hn hn32 hone priv.ngranules id
    priv.heapstart
  cases hs : granSearch priv (priv.ngran size) (0xffffffff >>> (32 - priv.ngran size).toUInt32) priv.ngranules 0
    priv.heapstart with
  | none =>
    rw [granCommonAlloc_of_none hsize hs]
    exact ⟨iff_of_true rfl (hnone hs),fun a h => nomatch h⟩
  | some a =>
    obtain ⟨p,hfit,hfree,hfirst,rfl⟩ := hsome _ hs
    rw [granCommonAlloc_of_some hsize hs]
    refine ⟨iff_of_false (fun h => nomatch h) fun hno => hno p hfit hfree,fun a' ha' => ?_⟩
    cases ha'
    refine ⟨p,rfl,hfit,hfree,hfirst,fun g => ?_⟩
    rw [granBit_markAllocated _ _ hn hn32,granno_addr]

theorem granCommonAlloc_single_twenty :
    let priv : GranState := ⟨4, 20, 4096, fun _ => 0x13⟩
    (priv.ngranules ≤ 32 ∧ 0 < 48 ∧ priv.ngran 48 ≤ 32) ∧
    ((granCommonAlloc priv 48).1 = none ↔
      ∀ p, p + priv.ngran 48 ≤ priv.ngranules → ¬FreeRun priv.gat p (priv.ngran 48)) ∧
    ∀ a, (granCommonAlloc priv 48).1 = some a → ∃ p, a = priv.heapstart + (p <<< priv.log2gran) ∧
      p + priv.ngran 48 ≤ priv.ngranules ∧ FreeRun priv.gat p (priv.ngran 48) ∧
      (∀ q < p, ¬FreeRun priv.gat q (priv.ngran 48)) ∧
      ∀ g, granBit (granCommonAlloc priv 48).2.gat g =
        (granBit priv.gat g || decide (p ≤ g ∧ g < p + priv.ngran 48)) := by
  intro priv
  have hone : priv.ngranules ≤ 32 := by decide
  have hn32 : priv.ngran 48 ≤ 32 := by decide
  exact ⟨⟨hone, by decide, hn32⟩, granCommonAlloc_single priv hone (by decide) hn32⟩

/-- On a table of one GAT entry `gran_free` of what `gran_alloc` has just returned gives the table
back. -/
theorem granCommonFree_granCommonAlloc_single (priv : GranState) (hone : priv.ngranules ≤ 32) {size : Nat}
    (hsize : 0 < size) (hn32 : priv.ngran size ≤ 32) {a : Nat} (ha : (granCommonAlloc priv size).1 = some a) :
    granCommonFree (granCommonAlloc priv size).2 a size = priv := by
  have hn := one_le_ngran priv hsize
  obtain ⟨hsome,-⟩ := granSearch_single (getLsbD_searchMask hn hn32) hn hn32 hone priv.ngranules id
    priv.heapstart
  cases hs : granSearch priv (priv.ngran size) (0xffffffff >>> (32 - priv.ngran size).toUInt32) priv.ngranules 0
    priv.heapstart with
  | none =>
    rw [granCommonAlloc_of_none hsize hs] at ha
    cases ha
  | some a' =>
    obtain ⟨p,-,hfree,-,rfl⟩ := hsome _ hs
    rw [granCommonAlloc_of_some hsize hs] at ha ⊢
    cases ha
    exact granCommonFree_markAllocated priv _ size hn hn32 fun g h1 h2 => by
      rw [granno_addr] at h1 h2
      simpa [Nat.add_sub_cancel' h1] using hfree (g - p) (by omega)

theorem granCommonFree_granCommonAlloc_single_twenty :
    let priv : GranState := ⟨4, 20, 4096, fun _ => 0x13⟩
    priv.ngranules ≤ 32 ∧ 0 < 48 ∧ priv.ngran 48 ≤ 32 ∧ (granCommonAlloc priv 48).1 = some 4176 ∧
      granCommonFree (granCommonAlloc priv 48).2 4176 48 = priv := by
  intro priv
  have hone : priv.ngranules ≤ 32 := by decide
  have hn32 : priv.ngran 48 ≤ 32 := by decide
  have ha : (granCommonAlloc priv 48).1 = some 4176 := by decide
  exact ⟨hone, by decide, hn32, ha, granCommonFree_granCommonAlloc_single priv hone (by decide) hn32 ha⟩

/-- The table after, on a fresh heap of 96 granules of 16 bytes at 4096, `gran_alloc` of 32
granules, `gran_alloc` of one, and `gran_free` of the first granule of the 32. -/
def granHeldTable : GranState :=
  granCommonFree (granCommonAlloc (granCommonAlloc (granCommonInitialize 4096 1536 4 2) 512).2 16).2 4096 16

/-- On `granHeldTable` the search for two granules passes one granule of the first entry, stops there
as the window is then full, and enters the second entry with the address one granule on instead of
32: it finds granules 33 and 34 and returns the address of granules 2 and 3, held by the first
allocation, while the first free run is at 33; no bit is newly set. -/
theorem granCommonAlloc_returns_held_granules :
    (granCommonAlloc (granCommonInitialize 4096 1536 4 2) 512).1 = some 4096 ∧
    (granCommonAlloc granHeldTable 32).1 = some 4128 ∧
    granBit granHeldTable.gat 2 = true ∧ granBit granHeldTable.gat 3 = true ∧
    FreeRun granHeldTable.gat 33 2 ∧ (∀ q < 33, ¬FreeRun granHeldTable.gat q 2) ∧
    (granCommonAlloc granHeldTable 32).2.gat = granHeldTable.gat := by
  have hs : granSearch granHeldTable (granHeldTable.ngran 32)
      (0xffffffff >>> (32 - granHeldTable.ngran 32).toUInt32) granHeldTable.ngranules 0 granHeldTable.heapstart =
      some 4128 := by decide
  have h2 : granBit granHeldTable.gat 2 = true := by decide
  have h3 : granBit granHeldTable.gat 3 = true := by decide
  refine ⟨by decide,by rw [granCommonAlloc_of_some (by decide) hs],h2,h3,by decide,by decide,?_⟩
  rw [granCommonAlloc_of_some (by decide) hs]
  apply gat_ext
  intro g
  rw [granBit_markAllocated _ _ (by decide) (by decide),show granHeldTable.granno 4128 = 2 by decide,
    show granHeldTable.ngran 32 = 2 by decide]
  by_cases hg : 2 ≤ g ∧ g < 2 + 2
  · obtain rfl | rfl : g = 2 ∨ g = 3 := by omega
    · simp [h2]
    · simp [h3]
  · simp [hg]

/-- `gran_free` of what the search returned on `granHeldTable` does not give the table back: it
frees granules 2 and 3, which the first allocation still holds. -/
theorem granCommonFree_frees_held_granules :
    (granCommonAlloc granHeldTable 32).1 = some 4128 ∧
    granBit (granCommonFree (granCommonAlloc granHeldTable 32).2 4128 32).gat 2 = false ∧
    (granCommonFree (granCommonAlloc granHeldTable 32).2 4128 32).gat 0 ≠ granHeldTable.gat 0 := by
  decide

end TizenRT.Gran
