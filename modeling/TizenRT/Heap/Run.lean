import TizenRT.Heap.Resize

set_option autoImplicit false

/-!
Runs of the heap (mm/mm_initialize.c, mm_malloc.c, mm_free.c, mm_realloc.c, mm_mallinfo.c). From
`mm_initialize` a program calls `mm_addregion`, `mm_malloc`, `mm_free` and `mm_realloc`, these two
on a pointer that was handed out and not given back since. `Reachable heap live` says that a run
ends in `heap` with the pointers `live` handed out and not yet given back. Over every run the heap
keeps its shape, `live` is exactly the payloads of the allocated chunks, and `mm_heapsize` counts
the bytes of the regions: `mm_mallinfo`'s assertion holds, `mm_free` and `mm_realloc` of a live
pointer go through, and neither `mm_malloc` nor `mm_realloc` returns a pointer that is still live.
-/

namespace TizenRT.Heap

open BoundaryTag

def payloads (l : List Block) : List Nat := (allocatedBlocks l).map fun b => b.addr + SIZEOF_MM_ALLOCNODE

@[simp] theorem payloads_append (l₁ l₂ : List Block) : payloads (l₁ ++ l₂) = payloads l₁ ++ payloads l₂ := by
  simp [payloads]

theorem payloads_cons_free {b : Block} (hb : b.free = true) (l : List Block) : payloads (b :: l) = payloads l := by
  simp [payloads,allocatedBlocks_cons_free hb]

theorem payloads_cons_allocated {b : Block} (hb : b.free = false) (l : List Block) :
    payloads (b :: l) = (b.addr + SIZEOF_MM_ALLOCNODE) :: payloads l := by
  simp [payloads,allocatedBlocks,hb]

theorem mem_payloads {l : List Block} {m : Nat} :
    m ∈ payloads l ↔ ∃ b ∈ l, b.free = false ∧ b.addr + SIZEOF_MM_ALLOCNODE = m := by
  simp [payloads,and_assoc]

theorem payloads_allocBlocks (b : Block) (s : Nat) : payloads (allocBlocks b s) = [b.addr + SIZEOF_MM_ALLOCNODE] := by
  unfold allocBlocks
  split <;> simp [payloads,allocatedBlocks]

theorem exists_payloads_update {R : Nat → List Block} {n r m : Nat} (hr : r < n) (X : List Block) :
    (∃ r' < n, m ∈ payloads (Function.update R r X r')) ↔
      (∃ r' < n, r' ≠ r ∧ m ∈ payloads (R r')) ∨ m ∈ payloads X := by
  constructor
  · rintro ⟨r',hr',hm⟩
    by_cases he : r' = r
    · subst he
      exact .inr (by simpa using hm)
    · exact .inl ⟨r',hr',he,by rwa [Function.update_of_ne he] at hm⟩
  · rintro (⟨r',hr',he,hm⟩ | hm)
    · exact ⟨r',hr',by rwa [Function.update_of_ne he]⟩
    · exact ⟨r,hr,by simpa using hm⟩

theorem exists_payloads_split {R : Nat → List Block} {n r m : Nat} (hr : r < n) :
    (∃ r' < n, m ∈ payloads (R r')) ↔ (∃ r' < n, r' ≠ r ∧ m ∈ payloads (R r')) ∨ m ∈ payloads (R r) := by
  conv_lhs => rw [← Function.update_eq_self r R]
  exact exists_payloads_update hr (R r)

theorem MmHeap.Shape.addr_ne_of_update {heap : MmHeap} {R : Nat → List Block} {B : Nat → List Nat}
    (hs : heap.Shape R B) {r : Nat} (hr : r < heap.mm_nregions) {l₁ l₂ : List Block} {b : Block}
    (hR : R r = l₁ ++ b :: l₂) {r' : Nat} (hr' : r' < heap.mm_nregions) {c : Block}
    (hc : c ∈ Function.update R r (l₁ ++ l₂) r') : c.addr ≠ b.addr := by
  by_cases he : r' = r
  · subst he
    have ht := (hs.region r' hr).tiles
    rw [hR,MmHeap.regionBlocks_mid] at ht
    rw [Function.update_self] at hc
    exact ht.addr_ne c (by simp at hc ⊢; tauto)
  · rw [Function.update_of_ne he] at hc
    exact hs.addr_ne hr hr' he (hR ▸ List.mem_append_right _ List.mem_cons_self) hc

theorem MmHeap.Shape.payload_ne {heap : MmHeap} {R : Nat → List Block} {B : Nat → List Nat}
    (hs : heap.Shape R B) {r : Nat} (hr : r < heap.mm_nregions) {l₁ l₂ : List Block} {b : Block}
    (hR : R r = l₁ ++ b :: l₂) {r' m : Nat} (hr' : r' < heap.mm_nregions)
    (hm : m ∈ payloads (Function.update R r (l₁ ++ l₂) r')) : m ≠ b.addr + SIZEOF_MM_ALLOCNODE := by
  obtain ⟨c,hc,-,rfl⟩ := mem_payloads.mp hm
  have := hs.addr_ne_of_update hr hR hr' hc
  omega

theorem mem_update_of_allocated {R : Nat → List Block} {r r' : Nat} {l₁ l₂ L : List Block} {b c : Block}
    (hR : R r = l₁ ++ b :: l₂) (hL : ∀ a ∈ l₁ ++ l₂, a.free = false → a ∈ L) (hc : c ∈ R r')
    (hcf : c.free = false) (hcb : c ≠ b) : c ∈ Function.update R r L r' := by
  by_cases he : r' = r
  · subst he
    rw [Function.update_self]
    rw [hR] at hc
    refine hL c ?_ hcf
    simp only [List.mem_append,List.mem_cons] at hc ⊢
    tauto
  · rwa [Function.update_of_ne he]

theorem mem_of_allocatedBlocks {l₁ l₂ l₁' l₂' : List Block} (x : Block)
    (hl₁ : allocatedBlocks l₁' = allocatedBlocks l₁) (hl₂ : allocatedBlocks l₂' = allocatedBlocks l₂) :
    ∀ a ∈ l₁ ++ l₂, a.free = false → a ∈ l₁' ++ x :: l₂' := fun a ha haf => by
  have : a ∈ allocatedBlocks (l₁ ++ l₂) := mem_allocatedBlocks.mpr ⟨ha,haf⟩
  rw [allocatedBlocks_append,← hl₁,← hl₂] at this
  simp only [List.mem_append,mem_allocatedBlocks,List.mem_cons] at this ⊢
  tauto

theorem MmHeap.Shape.mmMalloc_mem {heap heap' : MmHeap} {R : Nat → List Block} {B : Nat → List Nat}
    (hs : heap.Shape R B) {fuel size p : Nat} (hfuel : (heap.freeList B).length ≤ fuel)
    (hov : size + SIZEOF_MM_ALLOCNODE + MM_GRAN_MASK < 2 ^ 32) (hm : mmMalloc fuel heap size = some (heap',some p)) :
    ∃ r l₁ c l₂ B', R r = l₁ ++ c :: l₂ ∧ c.free = true ∧ r < heap.mm_nregions ∧ c.addr + SIZEOF_MM_ALLOCNODE = p ∧
      heap'.Shape (Function.update R r (l₁ ++ allocBlocks c (mallocChunkSize size) ++ l₂)) B' ∧
      heap.SameBounds heap' ∧ ⟨c.addr,mallocChunkSize size,false⟩ ∈ allocBlocks c (mallocChunkSize size) := by
  have hsize : 0 < size := by
    refine Nat.pos_of_ne_zero fun h0 => ?_
    simp [mmMalloc,h0] at hm
  obtain ⟨hs0,hsa,-⟩ := mallocChunkSize_spec hov
  rcases mmMalloc_spec hs hfuel hsize hs0 hsa with ⟨-,hm₀⟩ | ⟨r,l₁,c,l₂,heap₁,B',hR,hfit,hm₁,hs',hb⟩
  · simp [hm₀] at hm
  obtain ⟨rfl,hp⟩ := Prod.mk.inj (Option.some.inj (hm₁.symm.trans hm))
  exact ⟨r,l₁,c,l₂,B',hR,hfit.free,hfit.lt,Option.some.inj hp,hs',hb,
    mem_allocBlocks hfit.fits hsa ((hs.region r hfit.lt).aligned c hfit.mem)⟩

def MmHeap.LiveIs (heap : MmHeap) (R : Nat → List Block) (live : List Nat) : Prop :=
  ∀ m, m ∈ live ↔ ∃ r < heap.mm_nregions, m ∈ payloads (R r)

/-- The heap has its shape, with the live pointers the payloads of its allocated chunks, each
once, and `mm_heapsize` counts the bytes of its regions. -/
structure MmHeap.RunInv (heap : MmHeap) (live : List Nat) : Prop where
  shape : ∃ R B, heap.Shape R B ∧ heap.LiveIs R live
  nodup : live.Nodup
  heapsize : heap.mm_heapsize = heap.totalSize

/-- The pointers live after `mm_realloc(mem, size)` returned `mem'`: a pointer it returns replaces
`mem`; on NULL, `mem` is given back when the size was 0 and stays live otherwise. -/
def reallocLive (live : List Nat) (mem size : Nat) : Option Nat → List Nat
  | some mem' => mem' :: live.erase mem
  | none => if size < 1 then live.erase mem else live

/-- The heaps a program reaches from `mm_initialize` by `mm_addregion`, `mm_malloc`, `mm_free` and
`mm_realloc`, with the pointers handed out and not given back since; each call with the arguments
its contract asks for: regions apart from each other and from the node array, sizes that do not
wrap, and `mm_free` and `mm_realloc` of a live pointer (`mm_realloc` of NULL is `mm_malloc`). -/
inductive MmHeap.Reachable : MmHeap → List Nat → Prop
  | init {fuel heapstart heapsize : Nat} {heap heap' : MmHeap} (hfuel : 2 ^ 32 ≤ fuel)
      (hfit : heap.nodelist MM_NNODES ≤ 2 ^ 32) (hstart : heapstart + MM_GRAN_MASK < 2 ^ 32)
      (hend : heapstart + heapsize ≤ 2 ^ 32)
      (hroom : mmAlignUp heapstart + 2 * MM_MIN_CHUNK ≤ mmAlignDown (heapstart + heapsize))
      (hsmall : mmAlignDown (heapstart + heapsize) - mmAlignUp heapstart < MM_ALLOC_BIT)
      (hnodes : heapstart + heapsize ≤ heap.mm_nodelist ∨ heap.nodelist MM_NNODES ≤ heapstart)
      (h : mmInitialize fuel heap heapstart heapsize = some heap') : MmHeap.Reachable heap' []
  | addregion {fuel heapstart heapsize : Nat} {heap heap' : MmHeap} {live : List Nat}
      (hr : MmHeap.Reachable heap live) (hfuel : 2 ^ 32 ≤ fuel) (hstart : heapstart + MM_GRAN_MASK < 2 ^ 32)
      (hend : heapstart + heapsize ≤ 2 ^ 32)
      (hroom : mmAlignUp heapstart + 2 * MM_MIN_CHUNK ≤ mmAlignDown (heapstart + heapsize))
      (hsmall : mmAlignDown (heapstart + heapsize) - mmAlignUp heapstart < MM_ALLOC_BIT)
      (hapart : ∀ r < heap.mm_nregions,
        heap.regionEnd r ≤ heapstart ∨ heapstart + heapsize ≤ heap.mm_heapstart r)
      (hnodes : heapstart + heapsize ≤ heap.mm_nodelist ∨ heap.nodelist MM_NNODES ≤ heapstart)
      (h : mmAddregion fuel heap heapstart heapsize = some heap') : MmHeap.Reachable heap' live
  | malloc {fuel size : Nat} {heap heap' : MmHeap} {live : List Nat} {mem : Option Nat}
      (hr : MmHeap.Reachable heap live) (hfuel : 2 ^ 32 ≤ fuel)
      (hov : size + SIZEOF_MM_ALLOCNODE + MM_GRAN_MASK < 2 ^ 32)
      (h : mmMalloc fuel heap size = some (heap',mem)) : MmHeap.Reachable heap' (mem.toList ++ live)
  | free {fuel mem : Nat} {heap heap' : MmHeap} {live : List Nat}
      (hr : MmHeap.Reachable heap live) (hfuel : 2 ^ 32 ≤ fuel) (hmem : mem ∈ live)
      (h : mmFree fuel heap (some mem) = some heap') : MmHeap.Reachable heap' (live.erase mem)
  | realloc {fuel mem size : Nat} {heap heap' : MmHeap} {live : List Nat} {mem' : Option Nat}
      (hr : MmHeap.Reachable heap live) (hfuel : 2 ^ 32 ≤ fuel) (hmem : mem ∈ live)
      (hov : size + SIZEOF_MM_ALLOCNODE + MM_GRAN_MASK < 2 ^ 32)
      (h : mmRealloc fuel heap (some mem) size = some (heap',mem')) :
      MmHeap.Reachable heap' (reallocLive live mem size mem')

namespace MmHeap.RunInv

variable {heap heap' : MmHeap} {live : List Nat}

theorem of_sameBounds {live' : List Nat} (hacc : heap.mm_heapsize = heap.totalSize) (hb : heap.SameBounds heap')
    {R' : Nat → List Block} {B' : Nat → List Nat} (hs' : heap'.Shape R' B') (hlive : heap'.LiveIs R' live')
    (hnd : live'.Nodup) : heap'.RunInv live' :=
  ⟨⟨R',B',hs',hlive⟩,hnd,by rw [hb.mm_heapsize,hb.totalSize,hacc]⟩

theorem init {fuel heapstart heapsize : Nat} (hfuel : 2 ^ 32 ≤ fuel)
    (hfit : heap.nodelist MM_NNODES ≤ 2 ^ 32) (hstart : heapstart + MM_GRAN_MASK < 2 ^ 32)
    (hend : heapstart + heapsize ≤ 2 ^ 32)
    (hroom : mmAlignUp heapstart + 2 * MM_MIN_CHUNK ≤ mmAlignDown (heapstart + heapsize))
    (hsmall : mmAlignDown (heapstart + heapsize) - mmAlignUp heapstart < MM_ALLOC_BIT)
    (hnodes : heapstart + heapsize ≤ heap.mm_nodelist ∨ heap.nodelist MM_NNODES ≤ heapstart)
    (h : mmInitialize fuel heap heapstart heapsize = some heap') : heap'.RunInv [] := by
  obtain ⟨heap₁,hinit,hs,hacc,hnr,-⟩ :=
    mmInitialize_shape fuel heap heapstart heapsize (le_trans (by decide) hfuel) hfit hstart hend hroom hsmall hnodes
  obtain rfl : heap₁ = heap' := Option.some.inj (hinit.symm.trans h)
  refine ⟨⟨_,_,hs,fun m => ?_⟩,List.nodup_nil,hacc⟩
  rw [hnr,exists_payloads_update Nat.one_pos,payloads_cons_free rfl]
  simp [payloads,allocatedBlocks]

theorem addregion {fuel heapstart heapsize : Nat} (h : heap.RunInv live) (hfuel : 2 ^ 32 ≤ fuel)
    (hstart : heapstart + MM_GRAN_MASK < 2 ^ 32) (hend : heapstart + heapsize ≤ 2 ^ 32)
    (hroom : mmAlignUp heapstart + 2 * MM_MIN_CHUNK ≤ mmAlignDown (heapstart + heapsize))
    (hsmall : mmAlignDown (heapstart + heapsize) - mmAlignUp heapstart < MM_ALLOC_BIT)
    (hapart : ∀ r < heap.mm_nregions,
      heap.regionEnd r ≤ heapstart ∨ heapstart + heapsize ≤ heap.mm_heapstart r)
    (hnodes : heapstart + heapsize ≤ heap.mm_nodelist ∨ heap.nodelist MM_NNODES ≤ heapstart)
    (hadd : mmAddregion fuel heap heapstart heapsize = some heap') : heap'.RunInv live := by
  obtain ⟨⟨R,B,hs,hlive⟩,hnd,hacc⟩ := h
  obtain ⟨heap₁,P,Q,hadd₁,-,hs',hsz,htot,hnr,-⟩ := mmAddregion_shape hs fuel heapstart heapsize
    (hs.length_le.trans hfuel) hstart hend hroom hsmall hapart hnodes
  obtain rfl : heap₁ = heap' := Option.some.inj (hadd₁.symm.trans hadd)
  refine ⟨⟨_,_,hs',fun m => ?_⟩,hnd,by rw [hsz,htot,hacc]⟩
  rw [hlive,hnr,exists_payloads_update (Nat.lt_succ_self _),payloads_cons_free rfl]
  simp only [payloads,allocatedBlocks,List.filter_nil,List.map_nil,List.not_mem_nil,or_false]
  constructor
  · rintro ⟨r,hr,hm⟩
    exact ⟨r,by omega,by omega,hm⟩
  · rintro ⟨r,hr,hne,hm⟩
    exact ⟨r,by omega,hm⟩

theorem malloc {fuel size : Nat} {mem : Option Nat} (h : heap.RunInv live) (hfuel : 2 ^ 32 ≤ fuel)
    (hov : size + SIZEOF_MM_ALLOCNODE + MM_GRAN_MASK < 2 ^ 32) (hm : mmMalloc fuel heap size = some (heap',mem)) :
    heap'.RunInv (mem.toList ++ live) := by
  by_cases hsize : size = 0
  · simp only [hsize,mmMalloc,if_pos Nat.zero_lt_one,Option.some.injEq,Prod.mk.injEq] at hm
    obtain ⟨rfl,rfl⟩ := hm
    exact h
  obtain ⟨⟨R,B,hs,hlive⟩,hnd,hacc⟩ := h
  obtain ⟨hs0,hsa,-⟩ := mallocChunkSize_spec hov
  rcases mmMalloc_spec hs (hs.length_le.trans hfuel) (Nat.pos_of_ne_zero hsize) hs0 hsa with
    ⟨-,hm₀⟩ | ⟨r,l₁,b,l₂,heap₁,B',hR,hfit,hm₁,hs',hb⟩
  · obtain ⟨rfl,rfl⟩ := Prod.mk.inj (Option.some.inj (hm₀.symm.trans hm))
    exact ⟨⟨R,B,hs,hlive⟩,hnd,hacc⟩
  obtain ⟨rfl,rfl⟩ := Prod.mk.inj (Option.some.inj (hm₁.symm.trans hm))
  have hpR : payloads (R r) = payloads l₁ ++ payloads l₂ := by
    rw [hR,payloads_append,payloads_cons_free hfit.free]
  have hfresh : b.addr + SIZEOF_MM_ALLOCNODE ∉ live := fun hin => by
    obtain ⟨r',hr',hm'⟩ := (hlive _).mp hin
    obtain ⟨c,hc,hcf,hca⟩ := mem_payloads.mp hm'
    have hcb : c ∈ Function.update R r (l₁ ++ l₂) r' := by
      by_cases he : r' = r
      · subst he
        rw [Function.update_self]
        rw [hR] at hc
        rcases List.mem_append.mp hc with hc | hc
        · exact List.mem_append_left _ hc
        · rcases List.mem_cons.mp hc with rfl | hc
          · simp [hfit.free] at hcf
          · exact List.mem_append_right _ hc
      · rwa [Function.update_of_ne he]
    exact hs.addr_ne_of_update hfit.lt hR hr' hcb (by omega)
  refine of_sameBounds hacc hb hs' (fun m => ?_) (List.nodup_cons.mpr ⟨hfresh,hnd⟩)
  rw [hb.mm_nregions,exists_payloads_update hfit.lt,Option.toList_some,List.singleton_append,List.mem_cons,
    hlive,exists_payloads_split hfit.lt,hpR]
  simp only [payloads_append,payloads_allocBlocks,List.mem_append,List.mem_cons,List.not_mem_nil,or_false]
  generalize (∃ r' < heap.mm_nregions, r' ≠ r ∧ m ∈ payloads (R r')) = A
  tauto

theorem free {fuel mem : Nat} (h : heap.RunInv live) (hfuel : 2 ^ 32 ≤ fuel) (hmem : mem ∈ live)
    (hf : mmFree fuel heap (some mem) = some heap') : heap'.RunInv (live.erase mem) := by
  obtain ⟨⟨R,B,hs,hlive⟩,hnd,hacc⟩ := h
  obtain ⟨r,hr,hmr⟩ := (hlive mem).mp hmem
  obtain ⟨b,hbR,hbf,rfl⟩ := mem_payloads.mp hmr
  obtain ⟨l₁,l₂,hR⟩ := List.append_of_mem hbR
  obtain ⟨heap₁,B',l₁',x,l₂',hf₁,hs',hb,hx,hl₁,hl₂⟩ := mmFree_blocks hs hr hR hbf (hs.length_le.trans hfuel)
  obtain rfl : heap₁ = heap' := Option.some.inj (hf₁.symm.trans hf)
  have hpR' : payloads (l₁' ++ x :: l₂') = payloads (l₁ ++ l₂) := by
    simp only [payloads_append,payloads_cons_free hx]
    simp only [payloads,hl₁,hl₂]
  have hpR : payloads (R r) = payloads l₁ ++ (b.addr + SIZEOF_MM_ALLOCNODE) :: payloads l₂ := by
    rw [hR,payloads_append,payloads_cons_allocated hbf]
  have hne : ∀ m, (∃ r' < heap.mm_nregions, r' ≠ r ∧ m ∈ payloads (R r')) ∨ m ∈ payloads (l₁ ++ l₂) →
      m ≠ b.addr + SIZEOF_MM_ALLOCNODE := by
    rintro m (⟨r',hr',he,hm⟩ | hm)
    · exact hs.payload_ne hr hR hr' (by rwa [Function.update_of_ne he])
    · exact hs.payload_ne hr hR hr (by rwa [Function.update_self])
  refine of_sameBounds hacc hb hs' (fun m => ?_) (hnd.erase _)
  rw [hb.mm_nregions,exists_payloads_update hr,hpR',hnd.mem_erase_iff,hlive,exists_payloads_split hr,hpR]
  have := hne m
  simp only [payloads_append,List.mem_append,List.mem_cons] at this ⊢
  generalize (∃ r' < heap.mm_nregions, r' ≠ r ∧ m ∈ payloads (R r')) = A at this ⊢
  tauto

theorem malloc_returns {fuel size : Nat} (h : heap.RunInv live) (hfuel : 2 ^ 32 ≤ fuel)
    (hov : size + SIZEOF_MM_ALLOCNODE + MM_GRAN_MASK < 2 ^ 32) :
    ∃ heap' mem, mmMalloc fuel heap size = some (heap',mem) := by
  obtain ⟨⟨R,B,hs,-⟩,-,-⟩ := h
  by_cases hsize : size = 0
  · exact ⟨heap,none,by simp [mmMalloc,hsize]⟩
  obtain ⟨hs0,hsa,-⟩ := mallocChunkSize_spec hov
  rcases mmMalloc_spec hs (hs.length_le.trans hfuel) (Nat.pos_of_ne_zero hsize) hs0 hsa with
    ⟨-,hm⟩ | ⟨_,_,_,_,heap',_,-,-,hm,-,-⟩
  · exact ⟨heap,none,hm⟩
  · exact ⟨heap',_,hm⟩

theorem free_returns {fuel mem : Nat} (h : heap.RunInv live) (hfuel : 2 ^ 32 ≤ fuel) (hmem : mem ∈ live) :
    ∃ heap', mmFree fuel heap (some mem) = some heap' := by
  obtain ⟨⟨R,B,hs,hlive⟩,-,-⟩ := h
  obtain ⟨r,hr,hmr⟩ := (hlive mem).mp hmem
  obtain ⟨b,hbR,hbf,rfl⟩ := mem_payloads.mp hmr
  obtain ⟨l₁,l₂,hR⟩ := List.append_of_mem hbR
  obtain ⟨heap',-,-,hf,-⟩ := mmFree_shape hs hr hR hbf (hs.length_le.trans hfuel)
  exact ⟨heap',hf⟩

theorem malloc_room {fuel size p : Nat} (h : heap.RunInv live) (hfuel : 2 ^ 32 ≤ fuel)
    (hov : size + SIZEOF_MM_ALLOCNODE + MM_GRAN_MASK < 2 ^ 32) (hm : mmMalloc fuel heap size = some (heap',some p)) :
    mallocChunkSize size ≤ heap'.size (p - SIZEOF_MM_ALLOCNODE) := by
  obtain ⟨⟨R,B,hs,-⟩,-,-⟩ := h
  obtain ⟨r,l₁,c,l₂,B',-,-,hr,rfl,hs',hb,hc⟩ := hs.mmMalloc_mem (hs.length_le.trans hfuel) hov hm
  have hc' : (⟨c.addr,mallocChunkSize size,false⟩ : Block) ∈
      Function.update R r (l₁ ++ allocBlocks c (mallocChunkSize size) ++ l₂) r := by
    rw [Function.update_self]
    simp [hc]
  rw [Nat.add_sub_cancel]
  exact (hs'.size_eq (by rwa [hb.mm_nregions]) hc').ge

theorem realloc {fuel mem size : Nat} {mem' : Option Nat} (h : heap.RunInv live) (hfuel : 2 ^ 32 ≤ fuel)
    (hmem : mem ∈ live) (hov : size + SIZEOF_MM_ALLOCNODE + MM_GRAN_MASK < 2 ^ 32)
    (hre : mmRealloc fuel heap (some mem) size = some (heap',mem')) :
    heap'.RunInv (reallocLive live mem size mem') := by
  by_cases hsize : size = 0
  · subst hsize
    simp only [mmRealloc,if_pos Nat.zero_lt_one,Option.map_eq_some_iff] at hre
    obtain ⟨heap₁,hf,he⟩ := hre
    obtain ⟨rfl,rfl⟩ := Prod.mk.inj he
    exact h.free hfuel hmem hf
  obtain ⟨⟨R,B,hs,hlive⟩,hnd,hacc⟩ := h
  obtain ⟨r,hr,hmr⟩ := (hlive mem).mp hmem
  obtain ⟨b,hbR,hbf,rfl⟩ := mem_payloads.mp hmr
  obtain ⟨l₁,l₂,hR⟩ := List.append_of_mem hbR
  rcases hs.realloc hr hR hbf (Nat.pos_of_ne_zero hsize) hov hfuel with
    ⟨heap₁,B',l₁',b',l₂',hre₁,hs',hb,hb'f,-,hl₁,hl₂⟩ | hre₁
  · obtain ⟨rfl,rfl⟩ := Prod.mk.inj (Option.some.inj (hre₁.symm.trans hre))
    have hr₁ : r < heap₁.mm_nregions := by rwa [hb.mm_nregions]
    have hpl : payloads (l₁' ++ l₂') = payloads (l₁ ++ l₂) := by
      simp only [payloads,allocatedBlocks_append,hl₁,hl₂]
    have hpR' : payloads (l₁' ++ b' :: l₂') = payloads l₁ ++ (b'.addr + SIZEOF_MM_ALLOCNODE) :: payloads l₂ := by
      rw [payloads_append,payloads_cons_allocated hb'f]
      simp only [payloads,hl₁,hl₂]
    have hpR : payloads (R r) = payloads l₁ ++ (b.addr + SIZEOF_MM_ALLOCNODE) :: payloads l₂ := by
      rw [hR,payloads_append,payloads_cons_allocated hbf]
    have hne : ∀ m, (∃ r' < heap.mm_nregions, r' ≠ r ∧ m ∈ payloads (R r')) ∨ m ∈ payloads (l₁ ++ l₂) →
        m ≠ b.addr + SIZEOF_MM_ALLOCNODE ∧ m ≠ b'.addr + SIZEOF_MM_ALLOCNODE := by
      rintro m (⟨r',hr',he,hm⟩ | hm)
      · exact ⟨hs.payload_ne hr hR hr' (by rwa [Function.update_of_ne he]),
          hs'.payload_ne hr₁ (Function.update_self ..) (by rwa [hb.mm_nregions])
            (by rwa [Function.update_idem,Function.update_of_ne he])⟩
      · exact ⟨hs.payload_ne hr hR hr (by rwa [Function.update_self]),
          hs'.payload_ne hr₁ (Function.update_self ..) hr₁ (by rwa [Function.update_idem,Function.update_self,hpl])⟩
    have hfresh : b'.addr + SIZEOF_MM_ALLOCNODE ∉ live.erase (b.addr + SIZEOF_MM_ALLOCNODE) := fun hin => by
      rw [hnd.mem_erase_iff,hlive,exists_payloads_split hr,hpR] at hin
      obtain ⟨hne₁,hin⟩ := hin
      refine (hne _ ?_).2 rfl
      simp only [payloads_append,List.mem_append,List.mem_cons] at hin ⊢
      rcases hin with h | h | h | h
      exacts [.inl h,.inr (.inl h),absurd h hne₁,.inr (.inr h)]
    refine of_sameBounds hacc hb hs' (fun m => ?_) (List.nodup_cons.mpr ⟨hfresh,hnd.erase _⟩)
    rw [reallocLive,List.mem_cons,hb.mm_nregions,exists_payloads_update hr,hpR',hnd.mem_erase_iff,hlive,
      exists_payloads_split hr,hpR]
    have := hne m
    simp only [payloads_append,List.mem_append,List.mem_cons] at this ⊢
    generalize (∃ r' < heap.mm_nregions, r' ≠ r ∧ m ∈ payloads (R r')) = A at this ⊢
    tauto
  have h : heap.RunInv live := ⟨⟨R,B,hs,hlive⟩,hnd,hacc⟩
  rw [hre₁] at hre
  rcases hm : mmMalloc fuel heap size with _ | ⟨heap₁,_ | m⟩
  · simp [hm] at hre
  · simp only [hm,Option.some.injEq,Prod.mk.injEq] at hre
    obtain ⟨rfl,rfl⟩ := hre
    simpa [reallocLive,hsize] using h.malloc hfuel hov hm
  · simp only [hm,Option.map_eq_some_iff] at hre
    obtain ⟨heap₂,hf,he⟩ := hre
    obtain ⟨rfl,rfl⟩ := Prod.mk.inj he
    have h₁ := h.malloc hfuel hov hm
    have hmne : m ≠ b.addr + SIZEOF_MM_ALLOCNODE := fun he => (List.nodup_cons.mp h₁.nodup).1 (he ▸ hmem)
    have h₂ := h₁.free hfuel (List.mem_cons_of_mem _ hmem) hf
    rwa [Option.toList_some,List.singleton_append,List.erase_cons_tail (by simpa using hmne)] at h₂

theorem realloc_returns {fuel mem size : Nat} (h : heap.RunInv live) (hfuel : 2 ^ 32 ≤ fuel) (hmem : mem ∈ live)
    (hov : size + SIZEOF_MM_ALLOCNODE + MM_GRAN_MASK < 2 ^ 32) :
    ∃ heap' mem', mmRealloc fuel heap (some mem) size = some (heap',mem') := by
  by_cases hsize : size = 0
  · obtain ⟨heap',hf⟩ := h.free_returns hfuel hmem
    exact ⟨heap',none,by simp [mmRealloc,hsize,hf]⟩
  obtain ⟨⟨R,B,hs,hlive⟩,-,-⟩ := id h
  obtain ⟨r,hr,hmr⟩ := (hlive mem).mp hmem
  obtain ⟨b,hbR,hbf,rfl⟩ := mem_payloads.mp hmr
  obtain ⟨l₁,l₂,hR⟩ := List.append_of_mem hbR
  rcases hs.realloc hr hR hbf (Nat.pos_of_ne_zero hsize) hov hfuel with ⟨heap',-,-,_,-,hre,-⟩ | hre
  · exact ⟨heap',_,hre⟩
  rw [hre]
  obtain ⟨heap₁,m,hm⟩ := h.malloc_returns hfuel hov
  rcases m with _ | m
  · exact ⟨heap₁,none,by rw [hm]⟩
  · obtain ⟨heap₂,hf⟩ := (h.malloc hfuel hov hm).free_returns hfuel (List.mem_cons_of_mem _ hmem)
    exact ⟨heap₂,some m,by simp [hm,hf]⟩

theorem realloc_room {fuel mem size p : Nat} (h : heap.RunInv live) (hfuel : 2 ^ 32 ≤ fuel) (hmem : mem ∈ live)
    (hov : size + SIZEOF_MM_ALLOCNODE + MM_GRAN_MASK < 2 ^ 32)
    (hre : mmRealloc fuel heap (some mem) size = some (heap',some p)) :
    mallocChunkSize size ≤ heap'.size (p - SIZEOF_MM_ALLOCNODE) := by
  have hsize : size ≠ 0 := by
    rintro rfl
    simp [mmRealloc] at hre
  obtain ⟨⟨R,B,hs,hlive⟩,-,-⟩ := id h
  obtain ⟨r,hr,hmr⟩ := (hlive mem).mp hmem
  obtain ⟨b,hbR,hbf,rfl⟩ := mem_payloads.mp hmr
  obtain ⟨l₁,l₂,hR⟩ := List.append_of_mem hbR
  rcases hs.realloc hr hR hbf (Nat.pos_of_ne_zero hsize) hov hfuel with
    ⟨heap₁,B',l₁',b',l₂',hre₁,hs',hb,-,hroom,-,-⟩ | hre₁
  · obtain ⟨rfl,hp⟩ := Prod.mk.inj (Option.some.inj (hre₁.symm.trans hre))
    obtain rfl := Option.some.inj hp
    rwa [Nat.add_sub_cancel,hs'.size_eq (by rwa [hb.mm_nregions]) (by simp)]
  rw [hre₁] at hre
  rcases hm : mmMalloc fuel heap size with _ | ⟨heap₁,_ | m⟩
  · simp [hm] at hre
  · simp [hm] at hre
  simp only [hm,Option.map_eq_some_iff,Prod.mk.injEq,Option.some.injEq] at hre
  obtain ⟨heap₂,hf,rfl,rfl⟩ := hre
  obtain ⟨r₁,l₃,c,l₄,B₁,hR₁,hcf,hr₁,rfl,hs₁,hb₁,hc⟩ := hs.mmMalloc_mem (hs.length_le.trans hfuel) hov hm
  have hcb : c.addr ≠ b.addr := fun he =>
    (List.nodup_cons.mp (h.malloc hfuel hov hm).nodup).1 (by rwa [he])
  have hbin₁ : b ∈ Function.update R r₁ (l₃ ++ allocBlocks c (mallocChunkSize size) ++ l₄) r :=
    mem_update_of_allocated hR₁ (fun a ha _ => by simp only [List.mem_append] at ha ⊢; tauto) hbR hbf
      (by rintro rfl; exact hcb rfl)
  obtain ⟨L₁,L₂,hL⟩ := List.append_of_mem hbin₁
  obtain ⟨heap₃,B₂,L₁',x,L₂',hf₃,hs₂,hb₂,-,hL₁,hL₂⟩ :=
    mmFree_blocks hs₁ (by rwa [hb₁.mm_nregions]) hL hbf (hs₁.length_le.trans hfuel)
  obtain rfl := Option.some.inj (hf₃.symm.trans hf)
  have hc₂ := mem_update_of_allocated hL (mem_of_allocatedBlocks x hL₁ hL₂)
    (show ⟨c.addr,mallocChunkSize size,false⟩ ∈ _ by rw [Function.update_self]; simp [hc]) rfl
    (fun he => hcb (by rw [← he]))
  rw [Nat.add_sub_cancel,hs₂.size_eq (by rwa [hb₂.mm_nregions,hb₁.mm_nregions]) hc₂]

end MmHeap.RunInv

theorem MmHeap.Reachable.runInv {heap : MmHeap} {live : List Nat} (h : heap.Reachable live) :
    heap.RunInv live := by
  induction h with
  | init hfuel hfit hstart hend hroom hsmall hnodes h =>
    exact .init hfuel hfit hstart hend hroom hsmall hnodes h
  | addregion _ hfuel hstart hend hroom hsmall hapart hnodes h ih =>
    exact ih.addregion hfuel hstart hend hroom hsmall hapart hnodes h
  | malloc _ hfuel hov h ih => exact ih.malloc hfuel hov h
  | free _ hfuel hmem h ih => exact ih.free hfuel hmem h
  | realloc _ hfuel hmem hov h ih => exact ih.realloc hfuel hmem hov h

theorem MmHeap.Reachable.blank_malloc : ∃ (heap : MmHeap) (mem : Nat), heap.Reachable [mem] := by
  obtain ⟨heap₁,hinit,hs₁,-,hnr,-⟩ := mmInitialize_shape (2 ^ 32) blankHeap 0x1000 0x1000
    (by decide) (by decide) (by decide) (by decide) (by decide) (by decide) (by decide)
  have hr₁ : heap₁.Reachable [] := .init le_rfl (by decide) (by decide) (by decide) (by decide) (by decide)
    (by decide) hinit
  obtain ⟨hs0,hsa,-⟩ := mallocChunkSize_spec (show 7 + SIZEOF_MM_ALLOCNODE + MM_GRAN_MASK < 2 ^ 32 by decide)
  rcases mmMalloc_spec hs₁ (hs₁.length_le.trans le_rfl) (by decide) hs0 hsa with
    ⟨hno,-⟩ | ⟨r,l₁,b,l₂,heap₂,B',-,-,hm,-,-⟩
  · exact absurd (hno 0 (by rw [hnr]; decide) _ (by rw [Function.update_self]; exact List.mem_cons_self) rfl)
      (by decide)
  · exact ⟨heap₂,_,.malloc hr₁ le_rfl (by decide) hm⟩

/-- On every heap a run reaches, the heap has its shape, and the pointers handed out and not
freed since are the payloads of its allocated chunks, each once. -/
theorem MmHeap.Reachable.live_allocated {heap : MmHeap} {live : List Nat} (h : heap.Reachable live) :
    live.Nodup ∧ ∃ R B, heap.Shape R B ∧ ∀ m, m ∈ live ↔
      ∃ r < heap.mm_nregions, ∃ b ∈ R r, b.free = false ∧ b.addr + SIZEOF_MM_ALLOCNODE = m := by
  obtain ⟨⟨R,B,hs,hlive⟩,hnd,-⟩ := h.runInv
  exact ⟨hnd,R,B,hs,fun m => by simp only [hlive m,mem_payloads]⟩

theorem MmHeap.Reachable.live_allocated_blank :
    ∃ (heap : MmHeap) (mem : Nat), heap.Reachable [mem] ∧ [mem].Nodup ∧ ∃ R B, heap.Shape R B ∧
      ∀ m, m ∈ [mem] ↔ ∃ r < heap.mm_nregions, ∃ b ∈ R r, b.free = false ∧ b.addr + SIZEOF_MM_ALLOCNODE = m := by
  obtain ⟨heap,mem,hr⟩ := MmHeap.Reachable.blank_malloc
  exact ⟨heap,mem,hr,hr.live_allocated⟩

/-- On every heap a run reaches, `mm_mallinfo` walks each region to its end, and its
`DEBUGASSERT(uordblks + fordblks == heap->mm_heapsize)` holds. -/
theorem MmHeap.Reachable.mallinfo_heapsize {heap : MmHeap} {live : List Nat} (h : heap.Reachable live) :
    ∃ info, mmMallinfo heap = some (true,info) ∧ info.uordblks + info.fordblks = heap.mm_heapsize := by
  obtain ⟨⟨R,B,hs,-⟩,-,hacc⟩ := h.runInv
  obtain ⟨info,hinfo,hsum⟩ := mmMallinfo_regions fun r hr => ⟨R r,hs.region r hr⟩
  exact ⟨info,hinfo,by rw [hsum,hacc]⟩

theorem MmHeap.Reachable.mallinfo_heapsize_blank :
    ∃ (heap : MmHeap) (mem : Nat), heap.Reachable [mem] ∧ ∃ info, mmMallinfo heap = some (true,info) ∧
      info.uordblks + info.fordblks = heap.mm_heapsize := by
  obtain ⟨heap,mem,hr⟩ := MmHeap.Reachable.blank_malloc
  exact ⟨heap,mem,hr,hr.mallinfo_heapsize⟩

/-- No call of a run gets stuck: on every heap a run reaches, `mm_malloc` of a size that does not
wrap returns, and never a live pointer, and `mm_free` of a live pointer returns. -/
theorem MmHeap.Reachable.progress {heap : MmHeap} {live : List Nat} (h : heap.Reachable live) {fuel : Nat}
    (hfuel : 2 ^ 32 ≤ fuel) :
    (∀ size, size + SIZEOF_MM_ALLOCNODE + MM_GRAN_MASK < 2 ^ 32 →
      ∃ heap' mem, mmMalloc fuel heap size = some (heap',mem) ∧ ∀ p ∈ mem, p ∉ live) ∧
    ∀ mem ∈ live, ∃ heap', mmFree fuel heap (some mem) = some heap' := by
  refine ⟨fun size hov => ?_,fun mem hmem => h.runInv.free_returns hfuel hmem⟩
  obtain ⟨heap',mem,hm⟩ := h.runInv.malloc_returns hfuel hov
  refine ⟨heap',mem,hm,fun p hp => ?_⟩
  have hnd := (h.malloc hfuel hov hm).runInv.nodup
  rw [Option.mem_def] at hp
  subst hp
  exact (List.nodup_cons.mp hnd).1

theorem MmHeap.Reachable.progress_blank :
    ∃ (heap : MmHeap) (mem : Nat), heap.Reachable [mem] ∧ ∃ heap', mmFree (2 ^ 32) heap (some mem) = some heap' := by
  obtain ⟨heap,mem,hr⟩ := MmHeap.Reachable.blank_malloc
  exact ⟨heap,mem,hr,(hr.progress le_rfl).2 mem List.mem_cons_self⟩

/-- No `mm_realloc` of a run gets stuck: on every heap a run reaches, `mm_realloc` of a live pointer
to a size that does not wrap returns, and a pointer it returns is no other live one. -/
theorem MmHeap.Reachable.realloc_progress {heap : MmHeap} {live : List Nat} (h : heap.Reachable live)
    {fuel mem size : Nat} (hfuel : 2 ^ 32 ≤ fuel) (hmem : mem ∈ live)
    (hov : size + SIZEOF_MM_ALLOCNODE + MM_GRAN_MASK < 2 ^ 32) :
    ∃ heap' mem', mmRealloc fuel heap (some mem) size = some (heap',mem') ∧ ∀ p ∈ mem', p ∉ live.erase mem := by
  obtain ⟨heap',mem',hre⟩ := h.runInv.realloc_returns hfuel hmem hov
  refine ⟨heap',mem',hre,fun p hp => ?_⟩
  have hnd := (h.realloc hfuel hmem hov hre).runInv.nodup
  rw [Option.mem_def] at hp
  subst hp
  exact (List.nodup_cons.mp hnd).1

theorem MmHeap.Reachable.realloc_progress_blank :
    ∃ (heap : MmHeap) (mem : Nat), heap.Reachable [mem] ∧ ∃ heap' mem',
      mmRealloc (2 ^ 32) heap (some mem) 100 = some (heap',mem') ∧ ∀ p ∈ mem', p ∉ [mem].erase mem := by
  obtain ⟨heap,mem,hr⟩ := MmHeap.Reachable.blank_malloc
  exact ⟨heap,mem,hr,hr.realloc_progress le_rfl List.mem_cons_self (by decide)⟩

/-- On every heap a run reaches, a pointer that `mm_malloc`, or `mm_realloc` of a live pointer,
returns for a size that does not wrap heads a chunk of at least `SIZEOF_MM_ALLOCNODE + size`
bytes: its payload holds the request. -/
theorem MmHeap.Reachable.request_fits {heap : MmHeap} {live : List Nat} (h : heap.Reachable live)
    {fuel size : Nat} (hfuel : 2 ^ 32 ≤ fuel) (hov : size + SIZEOF_MM_ALLOCNODE + MM_GRAN_MASK < 2 ^ 32)
    {heap' : MmHeap} {p : Nat} :
    (mmMalloc fuel heap size = some (heap',some p) →
      size + SIZEOF_MM_ALLOCNODE ≤ heap'.size (p - SIZEOF_MM_ALLOCNODE)) ∧
    ∀ mem ∈ live, mmRealloc fuel heap (some mem) size = some (heap',some p) →
      size + SIZEOF_MM_ALLOCNODE ≤ heap'.size (p - SIZEOF_MM_ALLOCNODE) := by
  have hroom := (mallocChunkSize_spec hov).2.2
  exact ⟨fun hm => hroom.trans (h.runInv.malloc_room hfuel hov hm),
    fun mem hmem hre => hroom.trans (h.runInv.realloc_room hfuel hmem hov hre)⟩

theorem MmHeap.Reachable.request_fits_blank :
    ∃ heap₁ heap₂ p, mmInitialize (2 ^ 32) blankHeap 0x1000 0x1000 = some heap₁ ∧ heap₁.Reachable [] ∧
      mmMalloc (2 ^ 32) heap₁ 100 = some (heap₂,some p) ∧
      100 + SIZEOF_MM_ALLOCNODE ≤ heap₂.size (p - SIZEOF_MM_ALLOCNODE) := by
  obtain ⟨heap₁,hinit,hs₁,-,hnr,-⟩ := mmInitialize_shape (2 ^ 32) blankHeap 0x1000 0x1000
    (by decide) (by decide) (by decide) (by decide) (by decide) (by decide) (by decide)
  have hr₁ : heap₁.Reachable [] := .init le_rfl (by decide) (by decide) (by decide) (by decide) (by decide)
    (by decide) hinit
  obtain ⟨heap₂,p,hm,-,-⟩ := mmMalloc_chunk hs₁ (hs₁.length_le.trans (le_refl _)) (show 0 < 100 by decide)
    (by decide) (by decide)
    (fun hno => absurd (hno 0 (by rw [hnr]; decide) _ (by rw [Function.update_self]; exact List.mem_cons_self)
      (by rfl)) (by decide))
  exact ⟨heap₁,heap₂,p,hinit,hr₁,hm,(hr₁.request_fits le_rfl (by decide)).1 hm⟩

end TizenRT.Heap
