import TizenRT.Heap.Model
import TizenRT.Lib.BoundaryTag

set_option autoImplicit false

/-!
The physical layout of a heap region: the head guard, the chunks and the tail guard follow one
another; each header holds its size and, in `preceding`, the size of the chunk before it with
`MM_ALLOC_BIT` set unless the chunk is free. `mm_mallinfo` walks a region so laid out to its tail
and counts every byte of it.
-/

namespace TizenRT.Heap

open BoundaryTag

/-- The `preceding` field of a chunk that follows one of `ps` bytes. -/
def mkPrec (ps : Nat) (free : Bool) : Nat := if free then ps else ps ||| MM_ALLOC_BIT

section Bits

variable {ps : Nat}

theorem alloc_bit_eq : MM_ALLOC_BIT = 2 ^ 31 := rfl

theorem and_alloc_of_lt (h : ps < MM_ALLOC_BIT) : ps &&& MM_ALLOC_BIT = 0 := by
  rw [alloc_bit_eq] at *
  apply Nat.eq_of_testBit_eq
  intro i
  simp only [Nat.testBit_and,Nat.testBit_two_pow,Nat.zero_testBit]
  by_cases hi : 31 = i
  · subst hi
    simp [Nat.testBit_lt_two_pow h]
  · simp [hi]

theorem or_alloc_and_alloc : (ps ||| MM_ALLOC_BIT) &&& MM_ALLOC_BIT = MM_ALLOC_BIT := by
  rw [alloc_bit_eq]
  apply Nat.eq_of_testBit_eq
  intro i
  simp only [Nat.testBit_and,Nat.testBit_or,Nat.testBit_two_pow]
  by_cases hi : 31 = i <;> simp [hi]

theorem or_alloc_and_mask (h : ps < MM_ALLOC_BIT) : (ps ||| MM_ALLOC_BIT) &&& (MM_ALLOC_BIT - 1) = ps := by
  rw [alloc_bit_eq] at *
  rw [Nat.and_two_pow_sub_one_eq_mod,Nat.or_two_pow_eq_add_of_lt h]
  omega

theorem and_mask_of_lt (h : ps < MM_ALLOC_BIT) : ps &&& (MM_ALLOC_BIT - 1) = ps := by
  rw [alloc_bit_eq] at *
  rw [Nat.and_two_pow_sub_one_eq_mod]
  exact Nat.mod_eq_of_lt h

theorem mkPrec_and_alloc (h : ps < MM_ALLOC_BIT) (f : Bool) :
    mkPrec ps f &&& MM_ALLOC_BIT = if f then 0 else MM_ALLOC_BIT := by
  cases f
  · exact or_alloc_and_alloc
  · exact and_alloc_of_lt h

theorem mkPrec_and_alloc_eq_zero (h : ps < MM_ALLOC_BIT) (f : Bool) :
    mkPrec ps f &&& MM_ALLOC_BIT = 0 ↔ f = true := by
  rw [mkPrec_and_alloc h]
  cases f <;> simp [MM_ALLOC_BIT]

theorem mkPrec_and_mask (h : ps < MM_ALLOC_BIT) (f : Bool) : mkPrec ps f &&& (MM_ALLOC_BIT - 1) = ps := by
  cases f
  · exact or_alloc_and_mask h
  · exact and_mask_of_lt h

theorem mkPrec_or_alloc (f : Bool) : mkPrec ps f ||| MM_ALLOC_BIT = mkPrec ps false := by
  cases f <;> simp [mkPrec]

theorem or_mkPrec_and_alloc (h : ps < MM_ALLOC_BIT) (x : Nat) (f : Bool) :
    x ||| (mkPrec ps f &&& MM_ALLOC_BIT) = mkPrec x f := by
  rw [mkPrec_and_alloc h]
  cases f <;> simp [mkPrec]

end Bits

def guard (a : Nat) : Block := ⟨a,SIZEOF_MM_ALLOCNODE,false⟩

/-- The chunks of region `r` in memory order: the head guard, `cs`, the tail guard. -/
def MmHeap.regionBlocks (heap : MmHeap) (r : Nat) (cs : List Block) : List Block :=
  guard (heap.mm_heapstart r) :: (cs ++ [guard (heap.mm_heapend r)])

def Coalesced (b c : Block) : Prop := b.free = false ∨ c.free = false

/-- Region `r` is laid out as the chunks `cs` between its guards: (a) they tile it, with sizes that
are multiples of `MM_MIN_CHUNK`, (b) each `preceding` holds the size of the chunk before, (c) the
guards are allocated and no two neighbours are free; the region stays below 2 GiB, so that sizes
never reach `MM_ALLOC_BIT`, and inside the 32-bit address space. -/
structure MmHeap.Region (heap : MmHeap) (r : Nat) (cs : List Block) : Prop where
  tiles : Tiles heap.size heap.preceding mkPrec (heap.mm_heapstart r) 0 (heap.regionBlocks r cs)
    (heap.mm_heapend r + SIZEOF_MM_ALLOCNODE) SIZEOF_MM_ALLOCNODE
  aligned : ∀ b ∈ cs, b.size % MM_MIN_CHUNK = 0
  coalesced : cs.IsChain Coalesced
  small : heap.mm_heapend r + SIZEOF_MM_ALLOCNODE - heap.mm_heapstart r < MM_ALLOC_BIT
  fits : heap.mm_heapend r + SIZEOF_MM_ALLOCNODE ≤ 2 ^ 32

def MmHeap.regionSize (heap : MmHeap) (r : Nat) : Nat :=
  heap.mm_heapend r + SIZEOF_MM_ALLOCNODE - heap.mm_heapstart r

def MmHeap.totalSize (heap : MmHeap) : Nat := ((List.range heap.mm_nregions).map heap.regionSize).sum

namespace MmHeap.Region

variable {heap : MmHeap} {r : Nat} {cs : List Block}

theorem start_le (hr : heap.Region r cs) : heap.mm_heapstart r ≤ heap.mm_heapend r := by
  have := hr.tiles.le
  simp only [SIZEOF_MM_ALLOCNODE] at this
  have := (hr.tiles.bounds (guard (heap.mm_heapend r)) (by simp [regionBlocks])).1
  simpa only [guard] using this

theorem size_lt (hr : heap.Region r cs) {b : Block} (hb : b ∈ heap.regionBlocks r cs) :
    b.size < MM_ALLOC_BIT := by
  have := hr.tiles.bounds b hb
  have := hr.small
  omega

theorem mem_bounds (hr : heap.Region r cs) {b : Block} (hb : b ∈ heap.regionBlocks r cs) :
    heap.mm_heapstart r ≤ b.addr ∧ b.addr + b.size ≤ heap.mm_heapend r + SIZEOF_MM_ALLOCNODE :=
  hr.tiles.bounds b hb

end MmHeap.Region

section Writes

variable {heap : MmHeap} {a ps e pe : Nat}

theorem tiles_markFree {L₀ L : List Block} {b : Block}
    (h : Tiles heap.size heap.preceding mkPrec a ps (L₀ ++ b :: L) e pe)
    (hps : (L₀.getLast?.map Block.size).getD ps < MM_ALLOC_BIT) :
    Tiles heap.size (Function.update heap.preceding b.addr (heap.preceding b.addr &&& (MM_ALLOC_BIT - 1)))
      mkPrec a ps (L₀ ++ { b with free := true } :: L) e pe := by
  refine h.in_context (fun _ _ => rfl) (fun x hx => Function.update_of_ne (Nat.ne_of_lt hx) _ _)
    fun hmid => hmid.retag ?_ fun x hx => Function.update_of_ne hx _ _
  rw [Function.update_self,(Tiles.cons_iff.mp hmid).2.2.1,mkPrec_and_mask hps]
  rfl

theorem tiles_markAlloc {L₀ L : List Block} {b : Block}
    (h : Tiles heap.size heap.preceding mkPrec a ps (L₀ ++ b :: L) e pe) :
    Tiles heap.size (Function.update heap.preceding b.addr (heap.preceding b.addr ||| MM_ALLOC_BIT))
      mkPrec a ps (L₀ ++ { b with free := false } :: L) e pe := by
  refine h.in_context (fun _ _ => rfl) (fun x hx => Function.update_of_ne (Nat.ne_of_lt hx) _ _)
    fun hmid => hmid.retag ?_ fun x hx => Function.update_of_ne hx _ _
  rw [Function.update_self,(Tiles.cons_iff.mp hmid).2.2.1,mkPrec_or_alloc]

theorem tiles_merge {L₀ L : List Block} {u v w : Block}
    (h : Tiles heap.size heap.preceding mkPrec a ps (L₀ ++ u :: v :: w :: L) e pe) (hv : v.size < MM_ALLOC_BIT) :
    Tiles (Function.update heap.size u.addr (u.size + v.size))
      (Function.update heap.preceding w.addr ((u.size + v.size) ||| (heap.preceding w.addr &&& MM_ALLOC_BIT)))
      mkPrec a ps (L₀ ++ { u with size := u.size + v.size } :: w :: L) e pe := by
  have h' : Tiles heap.size heap.preceding mkPrec a ps ((L₀ ++ [u]) ++ v :: w :: L) e pe := by simpa using h
  have hvu := h.next.1
  have hwv := h'.next.1
  have hpos := h.pos (b := v) (by simp)
  refine h.in_context (fun x hx => Function.update_of_ne (Nat.ne_of_lt hx) _ _)
    (fun x hx => Function.update_of_ne (by omega) _ _) fun hmid => ?_
  obtain ⟨-,-,-,-,h₁⟩ := Tiles.cons_iff.mp hmid
  obtain ⟨-,-,-,-,h₂⟩ := Tiles.cons_iff.mp h₁
  obtain ⟨hw,-,htw,-,-⟩ := Tiles.cons_iff.mp h₂
  refine hmid.merge (Function.update_self _ _ _) (fun x hx _ => Function.update_of_ne hx _ _) ?_
    (fun x _ hx => Function.update_of_ne hx _ _)
  rw [Function.update_self,hw,htw,or_mkPrec_and_alloc hv]

end Writes

/-- `heap'` differs from `heap` at most in the links of the free list. -/
structure MmHeap.Relinked (heap heap' : MmHeap) : Prop where
  size : heap'.size = heap.size
  preceding : heap'.preceding = heap.preceding
  mm_heapsize : heap'.mm_heapsize = heap.mm_heapsize
  mm_heapstart : heap'.mm_heapstart = heap.mm_heapstart
  mm_heapend : heap'.mm_heapend = heap.mm_heapend
  mm_nregions : heap'.mm_nregions = heap.mm_nregions
  mm_nodelist : heap'.mm_nodelist = heap.mm_nodelist

namespace MmHeap.Relinked

variable {heap heap' heap'' : MmHeap}

theorem refl (heap : MmHeap) : heap.Relinked heap := ⟨rfl,rfl,rfl,rfl,rfl,rfl,rfl⟩

theorem trans (h : heap.Relinked heap') (h' : heap'.Relinked heap'') : heap.Relinked heap'' :=
  ⟨h'.size.trans h.size,h'.preceding.trans h.preceding,h'.mm_heapsize.trans h.mm_heapsize,
    h'.mm_heapstart.trans h.mm_heapstart,h'.mm_heapend.trans h.mm_heapend,
    h'.mm_nregions.trans h.mm_nregions,h'.mm_nodelist.trans h.mm_nodelist⟩

theorem nodelist (h : heap.Relinked heap') : heap'.nodelist = heap.nodelist := by
  funext i
  simp [MmHeap.nodelist,h.mm_nodelist]

theorem region {r : Nat} {cs : List Block} (h : heap.Relinked heap') (hr : heap.Region r cs) :
    heap'.Region r cs := by
  obtain ⟨ht,ha,hc,hs,hf⟩ := hr
  refine ⟨?_,ha,hc,?_,?_⟩
  · rw [h.size,h.preceding,MmHeap.regionBlocks,h.mm_heapstart,h.mm_heapend]
    exact ht
  · rwa [h.mm_heapstart,h.mm_heapend]
  · rwa [h.mm_heapend]

end MmHeap.Relinked

theorem MmHeap.relinked_setFlink (heap : MmHeap) (p : Nat) (v : Option Nat) :
    heap.Relinked (heap.setFlink p v) := by
  refine ⟨by simp,by simp,rfl,rfl,rfl,rfl,rfl⟩

theorem MmHeap.relinked_setBlink (heap : MmHeap) (p : Nat) (v : Option Nat) :
    heap.Relinked (heap.setBlink p v) := by
  refine ⟨by simp,by simp,rfl,rfl,rfl,rfl,rfl⟩

theorem MmHeap.relinked_unlink (heap : MmHeap) (x : Nat) : heap.Relinked (heap.unlink x) :=
  ⟨by simp,by simp,by simp,by simp,by simp,by simp,by simp⟩

theorem mallinfoRegion_tiles {heap : MmHeap} {a ps e pe : Nat} {bs : List Block}
    (h : Tiles heap.size heap.preceding mkPrec a ps bs e pe) (info : Mallinfo) :
    ∃ info', mallinfoRegion heap e a info = some (e,info') ∧
      info'.uordblks + info'.fordblks = info.uordblks + info.fordblks + (bs.map Block.size).sum := by
  induction h generalizing info with
  | nil a ps => exact ⟨info,by rw [mallinfoRegion]; simp,by simp⟩
  | @cons a ps e pe b bs _ hs _ hpos h ih =>
    have hlt : a < e := by
      have := h.le
      omega
    rw [mallinfoRegion,if_pos hlt]
    simp only [hs,Nat.pos_iff_ne_zero.mp hpos,if_false,List.map_cons,List.sum_cons]
    split
    · obtain ⟨info',h',hsum⟩ := ih { info with uordblks := info.uordblks + b.size }
      exact ⟨info',h',by simp only at hsum; omega⟩
    · obtain ⟨info',h',hsum⟩ := ih
        { info with ordblks := info.ordblks + 1, fordblks := info.fordblks + b.size, mxordblk := max info.mxordblk b.size }
      exact ⟨info',h',by simp only at hsum; omega⟩

theorem MmHeap.Region.mallinfo {heap : MmHeap} {r : Nat} {cs : List Block} (hr : heap.Region r cs)
    (info : Mallinfo) :
    ∃ info', mallinfoRegion heap (heap.mm_heapend r) (heap.mm_heapstart r) info =
        some (heap.mm_heapend r,info') ∧
      info'.uordblks + info'.fordblks + SIZEOF_MM_ALLOCNODE =
        info.uordblks + info.fordblks + heap.regionSize r := by
  have ht := hr.tiles
  rw [regionBlocks,← List.cons_append] at ht
  obtain ⟨m,pm,h₁,h₂⟩ := ht.split
  obtain ⟨hm,-⟩ := Tiles.single_iff.mp h₂
  simp only [guard] at hm
  subst hm
  obtain ⟨info',h,hsum⟩ := mallinfoRegion_tiles h₁ info
  refine ⟨info',h,?_⟩
  have := h₁.end_eq
  have := hr.start_le
  simp only [regionSize]
  omega

theorem mallinfoFrom_regions (heap : MmHeap) (n r₀ : Nat) (info : Mallinfo)
    (h : ∀ k < n, ∃ cs, heap.Region (r₀ + k) cs) :
    ∃ info', mallinfoFrom heap n r₀ info = some (true,info') ∧
      info'.uordblks + info'.fordblks =
        info.uordblks + info.fordblks + ((List.range' r₀ n).map heap.regionSize).sum := by
  induction n generalizing r₀ info with
  | zero => exact ⟨info,rfl,by simp⟩
  | succ n ih =>
    obtain ⟨cs,hr⟩ := h 0 (Nat.zero_lt_succ n)
    rw [Nat.add_zero] at hr
    obtain ⟨info₁,h₁,hsum₁⟩ := hr.mallinfo info
    obtain ⟨info₂,h₂,hsum₂⟩ := ih (r₀ + 1) { info₁ with uordblks := info₁.uordblks + SIZEOF_MM_ALLOCNODE }
      fun k hk => by simpa [Nat.add_right_comm,Nat.add_assoc] using h (k + 1) (by omega)
    refine ⟨info₂,by simp [mallinfoFrom,h₁,h₂],?_⟩
    simp only [List.range'_succ,List.map_cons,List.sum_cons] at hsum₂ ⊢
    omega

theorem mmMallinfo_regions {heap : MmHeap} (h : ∀ r < heap.mm_nregions, ∃ cs, heap.Region r cs) :
    ∃ info, mmMallinfo heap = some (true,info) ∧ info.uordblks + info.fordblks = heap.totalSize := by
  obtain ⟨info,h,hsum⟩ := mallinfoFrom_regions heap heap.mm_nregions 0 ⟨0,0,0,0⟩
    fun k hk => by simpa using h k hk
  exact ⟨info,h,by simpa [MmHeap.totalSize,List.range_eq_range'] using hsum⟩

end TizenRT.Heap
