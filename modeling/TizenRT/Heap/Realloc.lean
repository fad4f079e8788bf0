import TizenRT.Heap.Malloc

set_option autoImplicit false

/-!
`mm_realloc` and `mm_memalign`, which resize chunks with `mm_shrinkchunk`. Both round their requests
in `size_t` as `mm_malloc` does, and near `2 ^ 32` the chunk they hand back is too small for the
request.
-/

namespace TizenRT.Heap

open BoundaryTag

/-- A request within 7 bytes of `2 ^ 32` rounds to a chunk size of `MM_MIN_CHUNK`: on a 16-byte chunk
`mm_realloc` sees no change of size and returns the old pointer, whose payload has 8 bytes. -/
theorem mmRealloc_wrap_min_chunk (fuel : Nat) (heap : MmHeap) (oldmem size : Nat)
    (hold : heap.size (oldmem - SIZEOF_MM_ALLOCNODE) = MM_MIN_CHUNK) (h₁ : 2 ^ 32 - 7 ≤ size)
    (h₂ : size < 2 ^ 32) :
    mmRealloc fuel heap (some oldmem) size = some (heap,some oldmem) ∧
      heap.size (oldmem - SIZEOF_MM_ALLOCNODE) - SIZEOF_MM_ALLOCNODE < size := by
  have hmin : mmAlignUp ((size + SIZEOF_MM_ALLOCNODE) % 2 ^ 32) = MM_MIN_CHUNK := mallocChunkSize_wrap_min h₁ h₂
  refine ⟨?_,?_⟩
  · simp only [mmRealloc,hmin,hold,if_neg (show ¬ size < 1 by omega),le_refl,if_true,lt_irrefl,if_false]
  · rw [hold]
    simp only [MM_MIN_CHUNK,MM_MIN_SHIFT,SIZEOF_MM_ALLOCNODE,Nat.shiftLeft_eq]
    omega

theorem mmRealloc_wrap_min_chunk_blank :
    ∃ heap₁ heap₂ p, mmInitialize (2 ^ 32) blankHeap 0x1000 0x1000 = some heap₁ ∧
      mmMalloc (2 ^ 32) heap₁ 8 = some (heap₂,some p) ∧
      mmRealloc (2 ^ 32) heap₂ (some p) (2 ^ 32 - 1) = some (heap₂,some p) ∧
      heap₂.size (p - SIZEOF_MM_ALLOCNODE) - SIZEOF_MM_ALLOCNODE < 2 ^ 32 - 1 := by
  obtain ⟨heap₁,hinit,hs₁,-,hnr,-⟩ := mmInitialize_shape (2 ^ 32) blankHeap 0x1000 0x1000
    (by decide) (by decide) (by decide) (by decide) (by decide) (by decide) (by decide)
  obtain ⟨heap₂,p,hm,-,hp⟩ := mmMalloc_chunk hs₁ (hs₁.length_le.trans (le_refl _)) (show 0 < 8 by decide)
    (by decide) (by decide)
    (fun hno => absurd (hno 0 (by rw [hnr]; decide) _ (by rw [Function.update_self]; exact List.mem_cons_self)
      (by rfl)) (by decide))
  obtain ⟨hr,hlt⟩ := mmRealloc_wrap_min_chunk (2 ^ 32) heap₂ p (2 ^ 32 - 1) (by rw [hp]; decide) (by decide)
    (by decide)
  exact ⟨heap₁,heap₂,p,hinit,hm,hr,hlt⟩

theorem align_mask_self {p k : Nat} (hk : k ≤ 32) (hp : p < 2 ^ 32) (hdvd : p % 2 ^ k = 0) :
    (p + (2 ^ k - 1)) % 2 ^ 32 &&& (2 ^ 32 - 1 - (2 ^ k - 1)) = p := by
  obtain ⟨q,rfl⟩ : ∃ q, p = 2 ^ k * q := ⟨p / 2 ^ k,(Nat.mul_div_cancel' (Nat.dvd_of_mod_eq_zero hdvd)).symm⟩
  have hpow : 2 ^ 32 = 2 ^ k * 2 ^ (32 - k) := by
    rw [← Nat.pow_add]
    congr 1
    omega
  have hk0 := Nat.two_pow_pos k
  have hq : q < 2 ^ (32 - k) := by
    rw [hpow] at hp
    exact Nat.lt_of_mul_lt_mul_left hp
  have hlt : 2 ^ k * q + (2 ^ k - 1) < 2 ^ 32 := by
    rw [hpow]
    calc 2 ^ k * q + (2 ^ k - 1) < 2 ^ k * (q + 1) := by rw [Nat.mul_succ]; omega
      _ ≤ 2 ^ k * 2 ^ (32 - k) := Nat.mul_le_mul_left _ hq
  have hmask : 2 ^ 32 - 1 - (2 ^ k - 1) = 2 ^ k * (2 ^ (32 - k) - 1) := by
    rw [hpow,Nat.mul_sub_one]
    omega
  rw [Nat.mod_eq_of_lt hlt,hmask]
  apply Nat.eq_of_testBit_eq
  intro j
  rw [Nat.testBit_and,Nat.testBit_two_pow_mul_add q (Nat.sub_lt hk0 Nat.one_pos),Nat.testBit_two_pow_mul,
    Nat.testBit_two_pow_mul,Nat.testBit_two_pow_sub_one]
  by_cases hj : j < k
  · simp [hj,show ¬ k ≤ j by omega]
  · have hhigh : 32 - k ≤ j - k → q.testBit (j - k) = false := fun h => by
      by_contra hb
      have := Nat.ge_two_pow_of_testBit (Bool.not_eq_false _ ▸ hb)
      have := Nat.pow_le_pow_right (show 0 < 2 by decide) h
      omega
    by_cases hj' : j - k < 32 - k
    · simp [hj,hj',show k ≤ j by omega]
    · simp [hj,hj',show k ≤ j by omega,hhigh (by omega)]

/-- An aligned request of `2 ^ 32 - 16 - 2 * alignment` bytes, for which `size + 2 * alignment` does not
overflow, makes `mm_memalign` ask `mm_malloc` for `2 ^ 32 - 16` bytes, a chunk size that wraps to 0.
With class 0 not empty, `mm_malloc` hands back its first chunk cut to size 0; when that chunk's
payload is aligned, `mm_memalign` keeps it and `mm_shrinkchunk` leaves it so: the aligned pointer it
returns has a chunk of 0 bytes. -/
theorem mmMemalign_zero_chunk {heap : MmHeap} {R : Nat → List Block} {B : Nat → List Nat} (hs : heap.Shape R B)
    (fuel alignment size k : Nat) (hfuel : 2 ^ 32 ≤ fuel) (hk : alignment = 2 ^ k) (hal : MM_MIN_CHUNK < alignment)
    (hover : size + 2 * alignment < 2 ^ 32) (hsum : mmAlignUp size + 2 * alignment = 2 ^ 32 - MM_MIN_CHUNK)
    {c : Nat} {rest : List Nat} (h0 : B 0 = c :: rest) (hc : (c + SIZEOF_MM_ALLOCNODE) % alignment = 0) :
    ∃ heap', mmMemalign fuel heap alignment size = some (heap',some (c + SIZEOF_MM_ALLOCNODE)) ∧
      heap'.size c = 0 := by
  have h16 : MM_MIN_CHUNK = 16 := rfl
  have h8 : SIZEOF_MM_ALLOCNODE = 8 := rfl
  have hf16 : SIZEOF_MM_FREENODE = 16 := rfl
  have halloc : (mmAlignUp size + 2 * alignment) % 2 ^ 32 = 2 ^ 32 - 16 := by
    rw [hsum,h16,Nat.mod_eq_of_lt]
    exact Nat.sub_lt (Nat.two_pow_pos 32) (by decide)
  obtain ⟨heap₁,hm,hsz,hpre⟩ := mmMalloc_size_zero hs (hs.length_le.trans hfuel) (show 0 < 2 ^ 32 - 16 by decide)
    (mallocChunkSize_wrap_zero (by decide) (by decide)) h0
  have hcl : c + SIZEOF_MM_ALLOCNODE < 2 ^ 32 := by
    obtain ⟨r,hr,b,hb,-,rfl⟩ := (hs.listed_iff _).mp ⟨0,by decide,by rw [h0]; exact List.mem_cons_self⟩
    have hb' : b ∈ heap.regionBlocks r (R r) := by simp [MmHeap.regionBlocks,hb]
    have := (hs.region r hr).mem_bounds hb'
    have := (hs.region r hr).fits
    have := (hs.region r hr).tiles.pos hb'
    have := hs.min_chunk_le hr hb
    omega
  have hk32 : k ≤ 30 := by
    by_contra hk'
    have := Nat.pow_le_pow_right (show 0 < 2 by decide) (show 31 ≤ k by omega)
    omega
  have haligned : (c + SIZEOF_MM_ALLOCNODE + (alignment - 1)) % 2 ^ 32 &&& (2 ^ 32 - 1 - (alignment - 1)) =
      c + SIZEOF_MM_ALLOCNODE := by
    subst hk
    exact align_mask_self (by omega) hcl hc
  have hshrink : mmShrinkchunk fuel heap₁ c ((mmAlignUp size + SIZEOF_MM_ALLOCNODE) % 2 ^ 32) = some heap₁ := by
    have hne : heap₁.preceding (c + heap₁.size c) &&& MM_ALLOC_BIT ≠ 0 := by
      rw [hsz,Nat.add_zero,hpre]
      decide
    have hlt : ¬ heap₁.size c ≥ ((mmAlignUp size + SIZEOF_MM_ALLOCNODE) % 2 ^ 32 + SIZEOF_MM_FREENODE) % 2 ^ 32 := by
      rw [hsz,h8,hf16]
      omega
    simp only [mmShrinkchunk,if_neg hne,if_neg hlt]
  unfold mmMemalign
  rw [if_neg (by omega)]
  dsimp only
  rw [halloc,hm]
  simp only [Nat.add_sub_cancel,haligned,ne_eq,not_true_eq_false,if_false,Option.bind_eq_bind,Option.bind_some]
  rw [if_pos (by omega),hshrink]
  exact ⟨heap₁,rfl,hsz⟩

theorem mmMemalign_zero_chunk_blank :
    ∃ heap₁ heap₂, mmInitialize (2 ^ 32) blankHeap 0x1010 0x20 = some heap₁ ∧
      mmMemalign (2 ^ 32) heap₁ 32 (2 ^ 32 - 80) = some (heap₂,some 0x1020) ∧ heap₂.size 0x1018 = 0 := by
  obtain ⟨heap₁,hinit,hs₁,-⟩ := mmInitialize_shape (2 ^ 32) blankHeap 0x1010 0x20
    (by decide) (by decide) (by decide) (by decide) (by decide) (by decide) (by decide)
  obtain ⟨heap₂,hm,hsz⟩ := mmMemalign_zero_chunk hs₁ (2 ^ 32) 32 (2 ^ 32 - 80) 5 (le_refl _) (by decide)
    (by decide) (by decide) (by decide) (show _ = 0x1018 :: [] by decide) (by decide)
  exact ⟨heap₁,heap₂,hinit,hm,hsz⟩

end TizenRT.Heap
