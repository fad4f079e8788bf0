import TizenRT.Heap.Shape
import Mathlib.Data.List.Chain

set_option autoImplicit false

/-!
`mm_free` keeps the heap's shape. Between its steps the chunk being freed is free but off the
list, and may still have a free neighbour: `Freeing` is the shape of that state. Marking the chunk
free enters it, each merge keeps it, and `mm_addfreechunk` leaves it with the shape back.
-/

namespace TizenRT.Heap

open BoundaryTag

/-- `heap'` has the regions, the node array and the byte count of `heap`. -/
structure MmHeap.SameBounds (heap heap' : MmHeap) : Prop where
  mm_heapsize : heap'.mm_heapsize = heap.mm_heapsize
  mm_heapstart : heap'.mm_heapstart = heap.mm_heapstart
  mm_heapend : heap'.mm_heapend = heap.mm_heapend
  mm_nregions : heap'.mm_nregions = heap.mm_nregions
  mm_nodelist : heap'.mm_nodelist = heap.mm_nodelist

namespace MmHeap.SameBounds

variable {heap heap' heap'' : MmHeap}

theorem refl (heap : MmHeap) : heap.SameBounds heap := ⟨rfl,rfl,rfl,rfl,rfl⟩

theorem trans (h : heap.SameBounds heap') (h' : heap'.SameBounds heap'') : heap.SameBounds heap'' :=
  ⟨h'.mm_heapsize.trans h.mm_heapsize,h'.mm_heapstart.trans h.mm_heapstart,
    h'.mm_heapend.trans h.mm_heapend,h'.mm_nregions.trans h.mm_nregions,h'.mm_nodelist.trans h.mm_nodelist⟩

theorem regionSize (h : heap.SameBounds heap') : heap'.regionSize = heap.regionSize := by
  funext r
  simp [MmHeap.regionSize,h.mm_heapstart,h.mm_heapend]

theorem totalSize (h : heap.SameBounds heap') : heap'.totalSize = heap.totalSize := by
  simp [MmHeap.totalSize,h.regionSize,h.mm_nregions]

theorem regionEnd (h : heap.SameBounds heap') : heap'.regionEnd = heap.regionEnd := by
  funext r
  simp [MmHeap.regionEnd,h.mm_heapend]

theorem nodelist (h : heap.SameBounds heap') : heap'.nodelist = heap.nodelist := by
  funext i
  simp [MmHeap.nodelist,h.mm_nodelist]

theorem freeList (h : heap.SameBounds heap') : heap'.freeList = heap.freeList := by
  funext B
  simp [MmHeap.freeList,MmHeap.classes,h.nodelist]

theorem freeChunk (h : heap.SameBounds heap') : heap'.FreeChunk = heap.FreeChunk := by
  funext R c
  simp [MmHeap.FreeChunk,h.mm_nregions]

theorem regionBlocks (h : heap.SameBounds heap') : heap'.regionBlocks = heap.regionBlocks := by
  funext r cs
  simp [MmHeap.regionBlocks,h.mm_heapstart,h.mm_heapend]

end MmHeap.SameBounds

theorem MmHeap.Relinked.sameBounds {heap heap' : MmHeap} (h : heap.Relinked heap') : heap.SameBounds heap' :=
  ⟨h.mm_heapsize,h.mm_heapstart,h.mm_heapend,h.mm_nregions,h.mm_nodelist⟩

@[simp] theorem MmHeap.sameBounds_setSize (heap : MmHeap) (p v : Nat) : heap.SameBounds (heap.setSize p v) :=
  ⟨rfl,rfl,rfl,rfl,rfl⟩

@[simp] theorem MmHeap.sameBounds_setPreceding (heap : MmHeap) (p v : Nat) :
    heap.SameBounds (heap.setPreceding p v) :=
  ⟨rfl,rfl,rfl,rfl,rfl⟩

/-- The heap while `mm_free` runs: region `r` is laid out as `l₁`, the free chunk `x`, `l₂`, with
no two free neighbours inside `l₁` or inside `l₂`; the list holds the free chunks other than `x`;
the other regions keep their layout. -/
structure MmHeap.Freeing (heap : MmHeap) (R : Nat → List Block) (B : Nat → List Nat) (r : Nat)
    (l₁ : List Block) (x : Block) (l₂ : List Block) : Prop where
  lt : r < heap.mm_nregions
  region : ∀ r' < heap.mm_nregions, r' ≠ r → heap.Region r' (R r')
  apart : ∀ r < heap.mm_nregions, ∀ r' < heap.mm_nregions, r ≠ r' →
    heap.regionEnd r ≤ heap.mm_heapstart r' ∨ heap.regionEnd r' ≤ heap.mm_heapstart r
  nodes : ∀ r < heap.mm_nregions,
    heap.regionEnd r ≤ heap.mm_nodelist ∨ heap.nodelist MM_NNODES ≤ heap.mm_heapstart r
  nodes_fit : heap.nodelist MM_NNODES ≤ 2 ^ 32
  tiles : Tiles heap.size heap.preceding mkPrec (heap.mm_heapstart r) 0 (heap.regionBlocks r (l₁ ++ x :: l₂))
    (heap.mm_heapend r + SIZEOF_MM_ALLOCNODE) SIZEOF_MM_ALLOCNODE
  aligned : ∀ b ∈ l₁ ++ x :: l₂, b.size % MM_MIN_CHUNK = 0
  chain₁ : l₁.IsChain Coalesced
  chain₂ : l₂.IsChain Coalesced
  small : heap.mm_heapend r + SIZEOF_MM_ALLOCNODE - heap.mm_heapstart r < MM_ALLOC_BIT
  fits : heap.mm_heapend r + SIZEOF_MM_ALLOCNODE ≤ 2 ^ 32
  free : x.free = true
  freeList : heap.FreeList B
  listed_iff : ∀ c, Listed B c ↔ heap.FreeChunk (Function.update R r (l₁ ++ l₂)) c


/-- `heap'` has the bounds of `heap` and differs from it in headers of region `r` only. -/
structure MmHeap.WritesIn (heap heap' : MmHeap) (r : Nat) : Prop where
  bounds : heap.SameBounds heap'
  size : ∀ a, heap'.size a ≠ heap.size a → heap.mm_heapstart r ≤ a ∧ a < heap.regionEnd r
  preceding : ∀ a, heap'.preceding a ≠ heap.preceding a → heap.mm_heapstart r ≤ a ∧ a < heap.regionEnd r

namespace MmHeap.WritesIn

variable {heap heap' heap'' : MmHeap} {r : Nat}

theorem refl (heap : MmHeap) (r : Nat) : heap.WritesIn heap r :=
  ⟨.refl heap,fun _ h => absurd rfl h,fun _ h => absurd rfl h⟩

theorem trans (h : heap.WritesIn heap' r) (h' : heap'.WritesIn heap'' r) : heap.WritesIn heap'' r := by
  have hst := h.bounds.mm_heapstart
  have hen := h.bounds.regionEnd
  refine ⟨h.bounds.trans h'.bounds,fun a ha => ?_,fun a ha => ?_⟩
  · by_cases h₁ : heap'.size a = heap.size a
    · rw [← hst,← hen]
      exact h'.size a (h₁ ▸ ha)
    · exact h.size a h₁
  · by_cases h₁ : heap'.preceding a = heap.preceding a
    · rw [← hst,← hen]
      exact h'.preceding a (h₁ ▸ ha)
    · exact h.preceding a h₁

theorem of_relinked (h : heap.Relinked heap') (r : Nat) : heap.WritesIn heap' r :=
  ⟨h.sameBounds,fun a ha => absurd (congrFun h.size a) ha,fun a ha => absurd (congrFun h.preceding a) ha⟩

theorem setSize (heap : MmHeap) {a : Nat} (ha : heap.mm_heapstart r ≤ a ∧ a < heap.regionEnd r) (v : Nat) :
    heap.WritesIn (heap.setSize a v) r := by
  refine ⟨heap.sameBounds_setSize a v,fun b hb => ?_,fun b hb => absurd (by simp) hb⟩
  by_cases hba : b = a
  · exact hba ▸ ha
  · simp [Function.update_of_ne hba] at hb

theorem setPreceding (heap : MmHeap) {a : Nat} (ha : heap.mm_heapstart r ≤ a ∧ a < heap.regionEnd r)
    (v : Nat) : heap.WritesIn (heap.setPreceding a v) r := by
  refine ⟨heap.sameBounds_setPreceding a v,fun b hb => absurd (by simp) hb,fun b hb => ?_⟩
  by_cases hba : b = a
  · exact hba ▸ ha
  · simp [Function.update_of_ne hba] at hb

end MmHeap.WritesIn

theorem MmHeap.Region.of_writesIn {heap heap' : MmHeap} {r r' : Nat} {cs : List Block} (hreg : heap.Region r' cs)
    (hw : heap.WritesIn heap' r)
    (hapart : heap.regionEnd r' ≤ heap.mm_heapstart r ∨ heap.regionEnd r ≤ heap.mm_heapstart r') :
    heap'.Region r' cs := by
  have hout : ∀ a, heap.mm_heapstart r' ≤ a → a < heap.regionEnd r' →
      ¬ (heap.mm_heapstart r ≤ a ∧ a < heap.regionEnd r) := fun a h₁ h₂ h₃ => by
    rcases hapart with h | h <;> omega
  refine hreg.frame (by rw [hw.bounds.mm_heapstart]) (by rw [hw.bounds.mm_heapend])
    (fun a h₁ h₂ => ?_) (fun a h₁ h₂ => ?_)
  · by_contra hne
    exact hout a h₁ h₂ (hw.size a hne)
  · by_contra hne
    exact hout a h₁ h₂ (hw.preceding a hne)

theorem MmHeap.freeChunk_update_iff {heap : MmHeap} {R : Nat → List Block} {r : Nat}
    (hr : r < heap.mm_nregions) (X : List Block) (c : Nat) :
    heap.FreeChunk (Function.update R r X) c ↔
      heap.FreeChunk (Function.update R r []) c ∨ ∃ b ∈ X, b.free = true ∧ b.addr = c := by
  constructor
  · rintro ⟨r',hr',b,hb,hfree,rfl⟩
    by_cases hrr : r' = r
    · subst hrr
      rw [Function.update_self] at hb
      exact .inr ⟨b,hb,hfree,rfl⟩
    · rw [Function.update_of_ne hrr] at hb
      exact .inl ⟨r',hr',b,by rwa [Function.update_of_ne hrr],hfree,rfl⟩
  · rintro (⟨r',hr',b,hb,hfree,rfl⟩ | ⟨b,hb,hfree,rfl⟩)
    · by_cases hrr : r' = r
      · subst hrr
        simp at hb
      · exact ⟨r',hr',b,by rwa [Function.update_of_ne hrr] at hb ⊢,hfree,rfl⟩
    · exact ⟨r,hr,b,by rwa [Function.update_self],hfree,rfl⟩

section FreeChunks

variable {heap : MmHeap} {R : Nat → List Block} {r : Nat} (hr : r < heap.mm_nregions) {l₁ l₂ : List Block}
  {z : Block}
include hr

theorem MmHeap.freeChunk_allocated (hz : z.free = false) (c : Nat) :
    heap.FreeChunk (Function.update R r (l₁ ++ z :: l₂)) c ↔ heap.FreeChunk (Function.update R r (l₁ ++ l₂)) c := by
  rw [MmHeap.freeChunk_update_iff hr,MmHeap.freeChunk_update_iff hr (l₁ ++ l₂)]
  refine or_congr_right ⟨fun ⟨y,hy,hyf,hyc⟩ => ⟨y,?_,hyf,hyc⟩,fun ⟨y,hy,hyf,hyc⟩ =>
    ⟨y,List.mem_append.mpr ((List.mem_append.mp hy).imp id (List.mem_cons_of_mem z)),hyf,hyc⟩⟩
  rcases List.mem_append.mp hy with hy | hy
  · exact List.mem_append_left _ hy
  · rcases List.mem_cons.mp hy with rfl | hy
    · simp [hz] at hyf
    · exact List.mem_append_right _ hy

theorem MmHeap.freeChunk_insert (hz : z.free = true) (c : Nat) :
    heap.FreeChunk (Function.update R r (l₁ ++ z :: l₂)) c ↔
      heap.FreeChunk (Function.update R r (l₁ ++ l₂)) c ∨ c = z.addr := by
  rw [MmHeap.freeChunk_update_iff hr,MmHeap.freeChunk_update_iff hr (l₁ ++ l₂),or_assoc]
  refine or_congr_right ⟨fun ⟨y,hy,hyf,hyc⟩ => ?_,?_⟩
  · rcases List.mem_append.mp hy with hy | hy
    · exact .inl ⟨y,List.mem_append_left _ hy,hyf,hyc⟩
    · rcases List.mem_cons.mp hy with rfl | hy
      · exact .inr hyc.symm
      · exact .inl ⟨y,List.mem_append_right _ hy,hyf,hyc⟩
  · rintro (⟨y,hy,hyf,hyc⟩ | rfl)
    · exact ⟨y,List.mem_append.mpr ((List.mem_append.mp hy).imp id (List.mem_cons_of_mem z)),hyf,hyc⟩
    · exact ⟨z,by simp,hz,rfl⟩

theorem MmHeap.freeChunk_erase (hO : ∀ c, heap.FreeChunk (Function.update R r []) c → c ≠ z.addr)
    (hn : ∀ y ∈ l₁ ++ l₂, y.addr ≠ z.addr) (c : Nat) :
    heap.FreeChunk (Function.update R r (l₁ ++ z :: l₂)) c ∧ c ≠ z.addr ↔
      heap.FreeChunk (Function.update R r (l₁ ++ l₂)) c := by
  rw [MmHeap.freeChunk_update_iff hr,MmHeap.freeChunk_update_iff hr (l₁ ++ l₂)]
  constructor
  · rintro ⟨hc | ⟨y,hy,hyf,rfl⟩,hne⟩
    · exact .inl hc
    · refine .inr ⟨y,?_,hyf,rfl⟩
      rcases List.mem_append.mp hy with hy | hy
      · exact List.mem_append_left _ hy
      · rcases List.mem_cons.mp hy with rfl | hy
        · exact absurd rfl hne
        · exact List.mem_append_right _ hy
  · rintro (hc | ⟨y,hy,hyf,rfl⟩)
    · exact ⟨.inl hc,hO c hc⟩
    · exact ⟨.inr ⟨y,List.mem_append.mpr ((List.mem_append.mp hy).imp id (List.mem_cons_of_mem z)),hyf,rfl⟩,
        hn y hy⟩

end FreeChunks

section Erase

variable {heap : MmHeap} {B : Nat → List Nat} {j c y : Nat} {P Q : List Nat}

theorem MmHeap.mem_freeList_of_erase (hj : j < MM_NNODES) (hB : B j = P ++ y :: Q)
    (hc : c ∈ heap.freeList (Function.update B j (P ++ Q))) : c ∈ heap.freeList B := by
  rw [heap.freeList_update B hj,List.mem_append,List.mem_cons,List.mem_append,List.mem_append] at hc
  rw [heap.freeList_split B hj,hB]
  simp only [List.mem_append,List.mem_cons]
  tauto

theorem MmHeap.freeList_length_erase (hj : j < MM_NNODES) (hB : B j = P ++ y :: Q) :
    (heap.freeList (Function.update B j (P ++ Q))).length + 1 = (heap.freeList B).length := by
  rw [heap.freeList_update B hj,heap.freeList_split B hj,hB]
  simp only [List.length_append,List.length_cons]
  omega

theorem MmHeap.FreeList.not_mem_erase (hf : heap.FreeList B) (hj : j < MM_NNODES) (hB : B j = P ++ y :: Q) :
    y ∉ heap.freeList (Function.update B j (P ++ Q)) := by
  have hL : heap.freeList B = (heap.classes B (List.range j) ++ heap.nodelist j :: P) ++
      y :: (Q ++ heap.classes B (List.range' (j + 1) (MM_NNODES - (j + 1)))) := by
    rw [heap.freeList_split B hj,hB]
    simp
  have hnd := hf.seg.nodup
  rw [hL,List.nodup_middle,List.nodup_cons] at hnd
  rw [heap.freeList_update B hj]
  intro hy
  refine hnd.1 ?_
  simp only [List.mem_append,List.mem_cons] at hy ⊢
  tauto

end Erase

theorem MmHeap.regionBlocks_mid (heap : MmHeap) (r : Nat) (l₁ l₂ : List Block) (x : Block) :
    heap.regionBlocks r (l₁ ++ x :: l₂) =
      (guard (heap.mm_heapstart r) :: l₁) ++ x :: (l₂ ++ [guard (heap.mm_heapend r)]) := by
  simp [MmHeap.regionBlocks]

theorem aligned_merge {A C : List Block} {a b : Block}
    (h : ∀ y ∈ A ++ a :: b :: C, y.size % MM_MIN_CHUNK = 0) :
    ∀ y ∈ A ++ { a with size := a.size + b.size } :: C, y.size % MM_MIN_CHUNK = 0 := by
  intro y hy
  rcases List.mem_append.mp hy with hy | hy
  · exact h y (List.mem_append_left _ hy)
  · rcases List.mem_cons.mp hy with rfl | hy
    · have := h a (by simp)
      have := h b (by simp)
      simp only [MM_MIN_CHUNK,MM_MIN_SHIFT,Nat.shiftLeft_eq] at *
      omega
    · exact h y (by simp [hy])

def allocatedBlocks (l : List Block) : List Block := l.filter fun b => !b.free

@[simp] theorem mem_allocatedBlocks {l : List Block} {b : Block} :
    b ∈ allocatedBlocks l ↔ b ∈ l ∧ b.free = false := by
  simp [allocatedBlocks]

@[simp] theorem allocatedBlocks_append (l₁ l₂ : List Block) :
    allocatedBlocks (l₁ ++ l₂) = allocatedBlocks l₁ ++ allocatedBlocks l₂ :=
  List.filter_append _ _

theorem allocatedBlocks_cons_free {b : Block} (hb : b.free = true) (l : List Block) :
    allocatedBlocks (b :: l) = allocatedBlocks l := by
  simp [allocatedBlocks,hb]

namespace MmHeap.Freeing

variable {heap : MmHeap} {R : Nat → List Block} {B : Nat → List Nat} {r : Nat} {l₁ l₂ : List Block}
  {x : Block}

theorem mem_region (hf : heap.Freeing R B r l₁ x l₂) {b : Block} (hb : b ∈ heap.regionBlocks r (l₁ ++ x :: l₂)) :
    heap.mm_heapstart r ≤ b.addr ∧ b.addr < heap.regionEnd r := by
  have := hf.tiles.bounds b hb
  have := hf.tiles.pos hb
  simp only [MmHeap.regionEnd]
  omega

theorem size_lt (hf : heap.Freeing R B r l₁ x l₂) {b : Block} (hb : b ∈ heap.regionBlocks r (l₁ ++ x :: l₂)) :
    b.size < MM_ALLOC_BIT := by
  have := hf.tiles.bounds b hb
  have := hf.small
  omega

theorem other_out (hf : heap.Freeing R B r l₁ x l₂) {c : Nat}
    (hc : heap.FreeChunk (Function.update R r []) c) :
    ¬ (heap.mm_heapstart r ≤ c ∧ c < heap.regionEnd r) := by
  obtain ⟨r',hr',b,hb,-,rfl⟩ := hc
  have hrr : r' ≠ r := by
    rintro rfl
    simp at hb
  rw [Function.update_of_ne hrr] at hb
  have hreg := hf.region r' hr' hrr
  have hb' : b ∈ heap.regionBlocks r' (R r') := by simp [MmHeap.regionBlocks,hb]
  have := hreg.tiles.bounds b hb'
  have := hreg.tiles.pos hb'
  rcases hf.apart r' hr' r hf.lt hrr with h | h <;> simp only [MmHeap.regionEnd] at h ⊢ <;> omega

theorem mem_freeList (hf : heap.Freeing R B r l₁ x l₂) {c : Nat} (hc : c ∈ heap.freeList B) :
    (heap.mm_nodelist ≤ c ∧ c < heap.nodelist MM_NNODES) ∨ heap.FreeChunk (Function.update R r []) c ∨
      ∃ b ∈ l₁ ++ l₂, b.free = true ∧ b.addr = c := by
  obtain ⟨i,hi,hc⟩ := (heap.mem_freeList B).mp hc
  rcases hc with rfl | hc
  · left
    simp only [MmHeap.nodelist]
    have : i * SIZEOF_MM_FREENODE < MM_NNODES * SIZEOF_MM_FREENODE :=
      Nat.mul_lt_mul_of_pos_right hi (by decide)
    omega
  · exact .inr ((MmHeap.freeChunk_update_iff hf.lt _ c).mp ((hf.listed_iff c).mp ⟨i,hi,hc⟩))

theorem not_mem_freeList (hf : heap.Freeing R B r l₁ x l₂) {b : Block}
    (hb : b ∈ heap.regionBlocks r (l₁ ++ x :: l₂)) (hne : ∀ y ∈ l₁ ++ l₂, y.addr ≠ b.addr) :
    b.addr ∉ heap.freeList B := by
  intro hc
  have hin := hf.mem_region hb
  rcases hf.mem_freeList hc with h | h | ⟨y,hy,-,he⟩
  · rcases hf.nodes r hf.lt with h' | h' <;> omega
  · exact hf.other_out h hin
  · exact hne y hy he

theorem addr_ne (hf : heap.Freeing R B r l₁ x l₂) : ∀ y ∈ l₁ ++ l₂, y.addr ≠ x.addr := by
  have ht := hf.tiles
  rw [MmHeap.regionBlocks_mid] at ht
  intro y hy
  refine ht.addr_ne y ?_
  rcases List.mem_append.mp hy with hy | hy <;> simp [hy]

theorem x_not_mem_freeList (hf : heap.Freeing R B r l₁ x l₂) : x.addr ∉ heap.freeList B :=
  hf.not_mem_freeList (by simp [MmHeap.regionBlocks]) hf.addr_ne

theorem region_of_writesIn (hf : heap.Freeing R B r l₁ x l₂) {heap' : MmHeap} (hw : heap.WritesIn heap' r) :
    ∀ r' < heap'.mm_nregions, r' ≠ r → heap'.Region r' (R r') := by
  intro r' hr' hrr
  rw [hw.bounds.mm_nregions] at hr'
  exact (hf.region r' hr' hrr).of_writesIn hw (hf.apart r' hr' r hf.lt hrr)

theorem of_writesIn (hf : heap.Freeing R B r l₁ x l₂) {heap' : MmHeap} (hw : heap.WritesIn heap' r)
    {B' : Nat → List Nat} {l₁' l₂' : List Block} {x' : Block}
    (htiles : Tiles heap'.size heap'.preceding mkPrec (heap.mm_heapstart r) 0
      (heap.regionBlocks r (l₁' ++ x' :: l₂')) (heap.mm_heapend r + SIZEOF_MM_ALLOCNODE) SIZEOF_MM_ALLOCNODE)
    (haligned : ∀ b ∈ l₁' ++ x' :: l₂', b.size % MM_MIN_CHUNK = 0)
    (hchain₁ : l₁'.IsChain Coalesced) (hchain₂ : l₂'.IsChain Coalesced) (hfree : x'.free = true)
    (hfl : heap'.FreeList B') (hlisted : ∀ c, Listed B' c ↔ heap.FreeChunk (Function.update R r (l₁' ++ l₂')) c) :
    heap'.Freeing R B' r l₁' x' l₂' := by
  have hb := hw.bounds
  refine ⟨by rw [hb.mm_nregions]; exact hf.lt,hf.region_of_writesIn hw,?_,?_,?_,?_,haligned,hchain₁,hchain₂,
    ?_,?_,hfree,hfl,?_⟩
  · rw [hb.mm_nregions,hb.regionEnd,hb.mm_heapstart]
    exact hf.apart
  · rw [hb.mm_nregions,hb.regionEnd,hb.mm_heapstart,hb.mm_nodelist,hb.nodelist]
    exact hf.nodes
  · rw [hb.nodelist]
    exact hf.nodes_fit
  · rwa [hb.regionBlocks,hb.mm_heapstart,hb.mm_heapend]
  · rw [hb.mm_heapend,hb.mm_heapstart]
    exact hf.small
  · rw [hb.mm_heapend]
    exact hf.fits
  · rwa [hb.freeChunk]

theorem next_chunk (hf : heap.Freeing R B r l₁ x l₂) :
    ∃ d L, l₂ ++ [guard (heap.mm_heapend r)] = d :: L ∧ d.addr = x.addr + x.size ∧
      heap.preceding d.addr = mkPrec x.size d.free := by
  obtain ⟨d,L,hdL⟩ : ∃ d L, l₂ ++ [guard (heap.mm_heapend r)] = d :: L :=
    List.exists_cons_of_ne_nil (by simp)
  have ht := hf.tiles
  rw [MmHeap.regionBlocks_mid,hdL] at ht
  exact ⟨d,L,hdL,ht.next⟩

theorem merge_writes (hf : heap.Freeing R B r l₁ x l₂) {L₀ L : List Block} {u v w : Block}
    (hL : heap.regionBlocks r (l₁ ++ x :: l₂) = L₀ ++ u :: v :: w :: L) {y j : Nat} {P Q : List Nat}
    (hj : j < MM_NNODES) (hB : B j = P ++ y :: Q) (hu : u.addr ∉ heap.freeList (Function.update B j (P ++ Q)))
    {heap' : MmHeap} (hH : heap' = ((heap.unlink y).setSize u.addr (u.size + v.size)).setPreceding w.addr
      ((u.size + v.size) ||| (heap.preceding w.addr &&& MM_ALLOC_BIT))) :
    heap.WritesIn heap' r ∧
      Tiles heap'.size heap'.preceding mkPrec (heap.mm_heapstart r) 0
        (L₀ ++ { u with size := u.size + v.size } :: w :: L) (heap.mm_heapend r + SIZEOF_MM_ALLOCNODE)
        SIZEOF_MM_ALLOCNODE ∧
      heap'.FreeList (Function.update B j (P ++ Q)) := by
  have hin : ∀ b ∈ L₀ ++ u :: v :: w :: L, heap.mm_heapstart r ≤ b.addr ∧ b.addr < heap.regionEnd r :=
    fun b hb => hf.mem_region (hL ▸ hb)
  have hrel := heap.relinked_unlink y
  subst hH
  refine ⟨((MmHeap.WritesIn.of_relinked hrel r).trans (MmHeap.WritesIn.setSize _ ?_ _)).trans
    (MmHeap.WritesIn.setPreceding _ ?_ _),?_,?_⟩
  · simpa [MmHeap.regionEnd] using hin u (by simp)
  · simpa [MmHeap.regionEnd] using hin w (by simp)
  · have ht := hf.tiles
    rw [hL] at ht
    simpa using tiles_merge ht (hf.size_lt (by rw [hL]; simp))
  · refine ((hf.freeList.unlink hj hB).setSize ?_ _).setPreceding _ _
    rwa [hrel.freeList]

theorem mergeNext (hf : heap.Freeing R B r l₁ x l₂) :
    ∃ heap' B' x' l₂', mmFreeMergeNext heap x.addr = (heap',x'.addr + x'.size) ∧
      heap'.Freeing R B' r l₁ x' l₂' ∧ x'.addr = x.addr ∧ (∀ y ∈ l₂'.head?, y.free = false) ∧
      heap.WritesIn heap' r ∧ (heap'.freeList B').length ≤ (heap.freeList B).length ∧
      ((∀ y ∈ l₂.head?, y.free = false) → heap' = heap ∧ B' = B ∧ x' = x ∧ l₂' = l₂) ∧
      ∀ d l₃, l₂ = d :: l₃ → d.free = true → ∀ j < MM_NNODES, d.addr ∈ B j →
        B' = Function.update B j ((B j).erase d.addr) ∧ x' = { x with size := x.size + d.size } ∧ l₂' = l₃ := by
  have hmem : ∀ y ∈ l₁ ++ x :: l₂, y ∈ heap.regionBlocks r (l₁ ++ x :: l₂) := fun y hy =>
    List.mem_cons_of_mem _ (List.mem_append_left _ hy)
  have hsx : heap.size x.addr = x.size := hf.tiles.size_eq (hmem x (by simp))
  have hxlt : x.size < MM_ALLOC_BIT := hf.size_lt (hmem x (by simp))
  obtain ⟨d,L,hdL,hd,hpd⟩ := hf.next_chunk
  unfold mmFreeMergeNext
  simp only [hsx,← hd,hpd,mkPrec_and_alloc_eq_zero hxlt]
  by_cases hdf : d.free = true
  · rw [if_pos hdf]
    obtain ⟨l₃,rfl,hL⟩ : ∃ l₃, l₂ = d :: l₃ ∧ L = l₃ ++ [guard (heap.mm_heapend r)] := by
      cases l₂ with
      | nil =>
        obtain ⟨rfl,-⟩ := List.cons.inj hdL
        simp [guard] at hdf
      | cons y l₃ =>
        obtain ⟨rfl,hL⟩ := List.cons.inj hdL
        exact ⟨l₃,rfl,hL.symm⟩
    obtain ⟨e,L',heL⟩ : ∃ e L', l₃ ++ [guard (heap.mm_heapend r)] = e :: L' :=
      List.exists_cons_of_ne_nil (by simp)
    have hblocks : heap.regionBlocks r (l₁ ++ x :: d :: l₃) =
        (guard (heap.mm_heapstart r) :: l₁) ++ x :: d :: e :: L' := by
      rw [MmHeap.regionBlocks_mid]
      simp only [List.cons_append,heL]
    have ht := hf.tiles
    rw [hblocks] at ht
    have hsd : heap.size d.addr = d.size := ht.size_eq (by simp)
    have he : e.addr = d.addr + d.size :=
      (by simpa using ht : Tiles _ _ _ _ _ ((guard (heap.mm_heapstart r) :: l₁ ++ [x]) ++ d :: e :: L') _ _).next.1
    obtain ⟨j,hj,hdj⟩ : Listed B d.addr :=
      (hf.listed_iff _).mpr ((MmHeap.freeChunk_update_iff hf.lt _ _).mpr (.inr ⟨d,by simp,hdf,rfl⟩))
    obtain ⟨P,Q,hPQ⟩ := List.append_of_mem hdj
    have hx : x.addr ∉ heap.freeList (Function.update B j (P ++ Q)) := fun h =>
      hf.x_not_mem_freeList (MmHeap.mem_freeList_of_erase hj hPQ h)
    obtain ⟨hw,ht',hfl⟩ := hf.merge_writes hblocks hj hPQ hx rfl
    rw [← heL,← MmHeap.regionBlocks_mid] at ht'
    have hdin := hf.mem_region (show d ∈ heap.regionBlocks r (l₁ ++ x :: d :: l₃) by rw [hblocks]; simp)
    have hn : ∀ y ∈ l₁ ++ l₃, y.addr ≠ d.addr := fun y hy => by
      have ht₀ := hf.tiles
      rw [MmHeap.regionBlocks_mid] at ht₀
      refine (by simpa using ht₀ : Tiles _ _ _ _ _ ((guard (heap.mm_heapstart r) :: l₁ ++ [x]) ++ d ::
        (l₃ ++ [guard (heap.mm_heapend r)])) _ _).addr_ne y ?_
      rcases List.mem_append.mp hy with hy | hy <;> simp [hy]
    have haligned := aligned_merge hf.aligned
    have hlisted : ∀ c, Listed (Function.update B j (P ++ Q)) c ↔
        heap.FreeChunk (Function.update R r (l₁ ++ l₃)) c := fun c => by
      rw [listed_erase hf.freeList hj hPQ,hf.listed_iff]
      exact MmHeap.freeChunk_erase hf.lt (fun c hc he => hf.other_out hc (he ▸ hdin)) hn c
    have hhead : ∀ y ∈ l₃.head?, y.free = false := fun y hy => by
      have := (List.isChain_cons.mp hf.chain₂).1 y hy
      simpa [Coalesced,hdf] using this
    have hlen : (heap.freeList (Function.update B j (P ++ Q))).length + 1 = (heap.freeList B).length :=
      MmHeap.freeList_length_erase hj hPQ
    have hdP : d.addr ∉ P := by
      have hnd := hf.freeList.class_nodup hj
      rw [hPQ,List.nodup_append] at hnd
      exact fun h => hnd.2.2 _ h _ List.mem_cons_self rfl
    have herase : ∀ d' l₃', d :: l₃ = d' :: l₃' → d'.free = true → ∀ j' < MM_NNODES, d'.addr ∈ B j' →
        Function.update B j (P ++ Q) = Function.update B j' ((B j').erase d'.addr) ∧
          { x with size := x.size + d.size } = { x with size := x.size + d'.size } ∧ l₃ = l₃' := by
      intro d' l₃' hl _ j' hj' hd'
      obtain ⟨rfl,rfl⟩ := List.cons.inj hl
      obtain rfl := hf.freeList.class_unique hj hj' hdj hd'
      rw [hPQ,List.erase_append_right _ hdP,List.erase_cons_head]
      exact ⟨rfl,rfl,rfl⟩
    simp only [MmHeap.unlink_size,MmHeap.unlink_preceding,MmHeap.setSize_size,MmHeap.setSize_preceding,
      Function.update_self,hsx,hsd,← he]
    exact ⟨_,_,{ x with size := x.size + d.size },l₃,Prod.ext rfl (by simp [he,hd,Nat.add_assoc]),
      hf.of_writesIn hw ht' haligned hf.chain₁ hf.chain₂.tail hf.free hfl hlisted,rfl,hhead,hw,
      by rw [hw.bounds.freeList]; omega,fun h => absurd (h d rfl) (by simp [hdf]),herase⟩
  · rw [if_neg hdf]
    have hno : ∀ d' l₃, l₂ = d' :: l₃ → d'.free = true → False := by
      intro d' l₃ hl hd'
      subst hl
      obtain ⟨rfl,-⟩ := List.cons.inj hdL
      exact hdf hd'
    refine ⟨heap,B,x,l₂,by rw [hd],hf,rfl,fun y hy => ?_,.refl heap r,le_rfl,fun _ => ⟨rfl,rfl,rfl,rfl⟩,
      fun d' l₃ hl hd' => (hno d' l₃ hl hd').elim⟩
    cases l₂ with
    | nil => simp at hy
    | cons y' l₃ =>
      obtain ⟨rfl,-⟩ := List.cons.inj hdL
      simp only [List.head?_cons,Option.mem_def,Option.some.injEq] at hy
      subst hy
      simpa using hdf

theorem addfreechunk (hf : heap.Freeing R B r l₁ x l₂) (hprev : ∀ p ∈ l₁.getLast?, p.free = false)
    (hnext : ∀ y ∈ l₂.head?, y.free = false) {fuel : Nat} (hfuel : (heap.freeList B).length ≤ fuel) :
    ∃ heap' P Q, mmAddfreechunk fuel heap x.addr = some heap' ∧ B (mmSize2ndx x.size) = P ++ Q ∧
      (∀ c ∈ P, heap.size c < x.size) ∧ (∀ c ∈ Q, x.size ≤ heap.size c) ∧
      heap'.Shape (Function.update R r (l₁ ++ x :: l₂)) (Function.update B (mmSize2ndx x.size) (P ++ x.addr :: Q)) ∧
      heap.SameBounds heap' := by
  have hxin : x ∈ heap.regionBlocks r (l₁ ++ x :: l₂) := by simp [MmHeap.regionBlocks]
  have hsx : heap.size x.addr = x.size := hf.tiles.size_eq hxin
  have hpos : 0 < heap.size x.addr := by
    rw [hsx]
    exact hf.tiles.pos hxin
  obtain ⟨heap',P,Q,hadd,hrel,hPQ,hPx,hxQ,hfl⟩ := hf.freeList.addfreechunk hf.x_not_mem_freeList hpos hfuel
  rw [hsx] at hPQ hPx hxQ hfl
  have hb := hrel.sameBounds
  have hchain : (l₁ ++ x :: l₂).IsChain Coalesced := by
    refine List.isChain_split.mpr ⟨List.isChain_append.mpr ⟨hf.chain₁,.singleton _,fun p hp y hy => ?_⟩,
      List.isChain_cons.mpr ⟨fun y hy => .inr (hnext y hy),hf.chain₂⟩⟩
    exact .inl (hprev p hp)
  have hreg : heap.Region r (l₁ ++ x :: l₂) := ⟨hf.tiles,hf.aligned,hchain,hf.small,hf.fits⟩
  refine ⟨heap',P,Q,hadd,hPQ,hPx,hxQ,⟨fun r' hr' => ?_,?_,?_,?_,hfl,fun c => ?_⟩,hb⟩
  · rw [hb.mm_nregions] at hr'
    by_cases hrr : r' = r
    · subst hrr
      rw [Function.update_self]
      exact hrel.region hreg
    · rw [Function.update_of_ne hrr]
      exact hrel.region (hf.region r' hr' hrr)
  · rw [hb.mm_nregions,hb.regionEnd,hb.mm_heapstart]
    exact hf.apart
  · rw [hb.mm_nregions,hb.regionEnd,hb.mm_heapstart,hb.mm_nodelist,hb.nodelist]
    exact hf.nodes
  · rw [hb.nodelist]
    exact hf.nodes_fit
  · rw [listed_insert (mmSize2ndx_lt _) hPQ,hf.listed_iff,hb.freeChunk,MmHeap.freeChunk_insert hf.lt hf.free]

theorem mergeNext_allocatedBlocks (hf : heap.Freeing R B r l₁ x l₂) :
    ∃ heap' B' x' l₂', mmFreeMergeNext heap x.addr = (heap',x'.addr + x'.size) ∧
      heap'.Freeing R B' r l₁ x' l₂' ∧ x'.addr = x.addr ∧ (∀ y ∈ l₂'.head?, y.free = false) ∧
      heap.WritesIn heap' r ∧ (heap'.freeList B').length ≤ (heap.freeList B).length ∧
      allocatedBlocks l₂' = allocatedBlocks l₂ := by
  obtain ⟨heap',B',x',l₂',hmn,hf',hx',hhead,hw,hlen,hstay,hmerge⟩ := hf.mergeNext
  refine ⟨heap',B',x',l₂',hmn,hf',hx',hhead,hw,hlen,?_⟩
  cases l₂ with
  | nil => rw [(hstay (by simp)).2.2.2]
  | cons d l₃ =>
    by_cases hd : d.free = true
    · obtain ⟨j,hj,hdj⟩ : Listed B d.addr :=
        (hf.listed_iff _).mpr ((MmHeap.freeChunk_update_iff hf.lt _ _).mpr (.inr ⟨d,by simp,hd,rfl⟩))
      rw [(hmerge d l₃ rfl hd j hj hdj).2.2,allocatedBlocks_cons_free hd]
    · rw [(hstay (by simpa using hd)).2.2.2]

theorem mergePrev (hf : heap.Freeing R B r l₁ x l₂) (hnext : ∀ y ∈ l₂.head?, y.free = false) {fuel : Nat}
    (hfuel : (heap.freeList B).length ≤ fuel) :
    ∃ heap' R' B', mmFreeMergePrev fuel heap x.addr (x.addr + x.size) = some heap' ∧
      heap'.Shape R' B' ∧ heap.SameBounds heap' ∧
      ((∀ p ∈ l₁.getLast?, p.free = false) → R' = Function.update R r (l₁ ++ x :: l₂) ∧
        ∃ P Q, B (mmSize2ndx x.size) = P ++ Q ∧ (∀ c ∈ P, heap.size c < x.size) ∧
          (∀ c ∈ Q, x.size ≤ heap.size c) ∧ B' = Function.update B (mmSize2ndx x.size) (P ++ x.addr :: Q)) ∧
      ∃ l₁' x', R' = Function.update R r (l₁' ++ x' :: l₂) ∧ x'.free = true ∧
        allocatedBlocks l₁' = allocatedBlocks l₁ := by
  have ht := hf.tiles
  rw [MmHeap.regionBlocks_mid] at ht
  obtain ⟨L₀,p,hL₀⟩ : ∃ L₀ p, guard (heap.mm_heapstart r) :: l₁ = L₀ ++ [p] :=
    ((List.eq_nil_or_concat' _).resolve_left (List.cons_ne_nil _ _))
  rw [hL₀,List.append_assoc,List.singleton_append] at ht
  obtain ⟨d,L,hdL⟩ : ∃ d L, l₂ ++ [guard (heap.mm_heapend r)] = d :: L := List.exists_cons_of_ne_nil (by simp)
  have ht' := ht
  rw [hdL] at ht'
  obtain ⟨hxp,hpx⟩ := ht'.next
  have hpin : p ∈ heap.regionBlocks r (l₁ ++ x :: l₂) := by
    rw [MmHeap.regionBlocks_mid,hL₀]
    simp
  have hplt := hf.size_lt hpin
  have hprev_eq : x.addr - heap.preceding x.addr = p.addr := by
    rw [hpx,hf.free]
    simp only [mkPrec,if_true]
    omega
  have hpt := ht.tag_eq
  have hlt0 : ((L₀.getLast?.map Block.size).getD 0) < MM_ALLOC_BIT := by
    cases hq : L₀.getLast? with
    | none => simp [MM_ALLOC_BIT]
    | some q =>
      refine hf.size_lt ?_
      rw [MmHeap.regionBlocks_mid,hL₀]
      simp [List.mem_of_getLast? hq]
  unfold mmFreeMergePrev
  simp only [hprev_eq,hpt,mkPrec_and_alloc_eq_zero hlt0]
  by_cases hpf : p.free = true
  · rw [if_pos hpf]
    obtain ⟨l₀,rfl,rfl⟩ : ∃ l₀, l₁ = l₀ ++ [p] ∧ L₀ = guard (heap.mm_heapstart r) :: l₀ := by
      rcases List.eq_nil_or_concat' l₁ with rfl | ⟨l₀,q,rfl⟩
      · have h := congrArg List.getLast? hL₀
        simp only [List.getLast?_singleton,List.getLast?_concat,Option.some.injEq] at h
        rw [← h] at hpf
        simp [guard] at hpf
      · have h : (guard (heap.mm_heapstart r) :: l₀) ++ [q] = L₀ ++ [p] := hL₀
        obtain ⟨h₁,h₂⟩ := List.append_inj' h rfl
        cases h₂
        exact ⟨l₀,rfl,h₁.symm⟩
    have hblocks : heap.regionBlocks r (l₀ ++ [p] ++ x :: l₂) =
        (guard (heap.mm_heapstart r) :: l₀) ++ p :: x :: d :: L := by
      rw [MmHeap.regionBlocks_mid,hdL]
      simp
    have hsp : heap.size p.addr = p.size := ht.size_eq (by simp)
    have hsx : heap.size x.addr = x.size := ht.size_eq (by simp)
    obtain ⟨j,hj,hpj⟩ : Listed B p.addr :=
      (hf.listed_iff _).mpr ((MmHeap.freeChunk_update_iff hf.lt _ _).mpr (.inr ⟨p,by simp,hpf,rfl⟩))
    obtain ⟨P,Q,hPQ⟩ := List.append_of_mem hpj
    obtain ⟨hw,ht'',hfl⟩ := hf.merge_writes hblocks hj hPQ (hf.freeList.not_mem_erase hj hPQ) rfl
    rw [← hdL,← MmHeap.regionBlocks_mid] at ht''
    have hpin' := hf.mem_region hpin
    have hn : ∀ y ∈ l₀ ++ l₂, y.addr ≠ p.addr := fun y hy => by
      refine (by simpa using ht : Tiles _ _ _ _ _ ((guard (heap.mm_heapstart r) :: l₀) ++ p ::
        (x :: (l₂ ++ [guard (heap.mm_heapend r)]))) _ _).addr_ne y ?_
      rcases List.mem_append.mp hy with hy | hy <;> simp [hy]
    have haligned := aligned_merge (A := l₀) (fun y hy => hf.aligned y (by simpa using hy))
    have hlisted : ∀ c, Listed (Function.update B j (P ++ Q)) c ↔
        heap.FreeChunk (Function.update R r (l₀ ++ l₂)) c := fun c => by
      rw [listed_erase hf.freeList hj hPQ,hf.listed_iff,List.append_assoc,List.singleton_append]
      exact MmHeap.freeChunk_erase hf.lt (fun c hc he => hf.other_out hc (he ▸ hpin')) hn c
    have hf' := hf.of_writesIn hw ht'' haligned hf.chain₁.left_of_append hf.chain₂ hpf hfl hlisted
    have hprev : ∀ q ∈ l₀.getLast?, q.free = false := fun q hq => by
      have := (List.isChain_append.mp hf.chain₁).2.2 q hq p (by simp)
      simpa [Coalesced,hpf] using this
    have hlen : (heap.freeList (Function.update B j (P ++ Q))).length + 1 = (heap.freeList B).length :=
      MmHeap.freeList_length_erase hj hPQ
    have hdx : d.addr = x.addr + x.size :=
      (by simpa using ht' : Tiles _ _ _ _ _ ((guard (heap.mm_heapstart r) :: l₀ ++ [p]) ++ x :: d :: L) _ _).next.1
    obtain ⟨heap',_,_,hadd,-,-,-,hs',hb⟩ := hf'.addfreechunk hprev hnext
      (le_trans (by rw [hw.bounds.freeList]; omega) hfuel)
    simp only [MmHeap.unlink_size,MmHeap.unlink_preceding,MmHeap.setSize_size,MmHeap.setSize_preceding,
      Function.update_self,hsp,hsx,← hdx]
    refine ⟨heap',_,_,hadd,hs',hw.bounds.trans hb,fun h => absurd (h p (by simp)) (by simp [hpf]),
      l₀,_,rfl,hpf,by rw [allocatedBlocks_append,allocatedBlocks_cons_free hpf]; simp [allocatedBlocks]⟩
  · rw [if_neg hpf]
    have hprev : ∀ q ∈ l₁.getLast?, q.free = false := fun q hq => by
      have : (guard (heap.mm_heapstart r) :: l₁).getLast? = some q := by
        rw [List.getLast?_cons,hq]
        rfl
      rw [hL₀,List.getLast?_concat] at this
      cases this
      simpa using hpf
    obtain ⟨heap',P,Q,hadd,hPQ,hPx,hxQ,hs',hb⟩ := hf.addfreechunk hprev hnext hfuel
    exact ⟨heap',_,_,hadd,hs',hb,fun _ => ⟨rfl,P,Q,hPQ,hPx,hxQ,rfl⟩,l₁,x,rfl,hf.free,rfl⟩

end MmHeap.Freeing

theorem MmHeap.Shape.markFree {heap : MmHeap} {R : Nat → List Block} {B : Nat → List Nat}
    (hs : heap.Shape R B) {r : Nat} (hr : r < heap.mm_nregions) {l₁ l₂ : List Block} {b : Block}
    (hR : R r = l₁ ++ b :: l₂) (hb : b.free = false) :
    (heap.setPreceding b.addr (heap.preceding b.addr &&& (MM_ALLOC_BIT - 1))).Freeing R B r l₁
      { b with free := true } l₂ := by
  have hreg := hs.region r hr
  rw [hR] at hreg
  have hmid : b ∈ heap.regionBlocks r (l₁ ++ b :: l₂) := by simp [MmHeap.regionBlocks]
  have hw : heap.WritesIn (heap.setPreceding b.addr (heap.preceding b.addr &&& (MM_ALLOC_BIT - 1))) r := by
    refine MmHeap.WritesIn.setPreceding heap ⟨(hreg.mem_bounds hmid).1,?_⟩ _
    have := hreg.mem_bounds hmid
    have := hreg.tiles.pos hmid
    simp only [MmHeap.regionEnd]
    omega
  have htiles := hreg.tiles
  rw [MmHeap.regionBlocks_mid] at htiles
  have hlast : (((guard (heap.mm_heapstart r) :: l₁).getLast?.map Block.size).getD 0) < MM_ALLOC_BIT := by
    obtain ⟨p,hp⟩ : ∃ p, (guard (heap.mm_heapstart r) :: l₁).getLast? = some p :=
      ⟨_,List.getLast?_eq_some_getLast (List.cons_ne_nil _ _)⟩
    rw [hp,Option.map_some,Option.getD_some]
    refine hreg.size_lt ?_
    rw [MmHeap.regionBlocks_mid]
    exact List.mem_append_left _ (List.mem_of_getLast? hp)
  have hfree : ∀ c, heap.FreeChunk R c ↔ heap.FreeChunk (Function.update R r (l₁ ++ l₂)) c := fun c => by
    conv_lhs => rw [← Function.update_eq_self r R,hR]
    exact MmHeap.freeChunk_allocated hr hb c
  refine ⟨hr,fun r' hr' hrr => (hs.region r' hr').of_writesIn hw (hs.apart r' hr' r hr hrr),hs.apart,
    hs.nodes,hs.nodes_fit,?_,?_,?_,?_,hreg.small,hreg.fits,rfl,hs.freeList.setPreceding _ _,
    fun c => (hs.listed_iff c).trans (hfree c)⟩
  · simp only [MmHeap.regionBlocks_mid,MmHeap.setPreceding_size,MmHeap.setPreceding_preceding,
      MmHeap.modify_mm_heapstart,MmHeap.modify_mm_heapend]
    exact tiles_markFree htiles hlast
  · intro y hy
    rcases List.mem_append.mp hy with hy | hy
    · exact hreg.aligned y (List.mem_append_left _ hy)
    · rcases List.mem_cons.mp hy with rfl | hy
      · exact hreg.aligned b (by simp)
      · exact hreg.aligned y (by simp [hy])
  · exact (List.isChain_split.mp hreg.coalesced).1.left_of_append
  · exact (List.isChain_split.mp hreg.coalesced).2.tail

theorem mmFree_blocks {heap : MmHeap} {R : Nat → List Block} {B : Nat → List Nat}
    (hs : heap.Shape R B) {r : Nat} (hr : r < heap.mm_nregions) {l₁ l₂ : List Block} {b : Block}
    (hR : R r = l₁ ++ b :: l₂) (hb : b.free = false) {fuel : Nat} (hfuel : (heap.freeList B).length ≤ fuel) :
    ∃ heap' B' l₁' x l₂', mmFree fuel heap (some (b.addr + SIZEOF_MM_ALLOCNODE)) = some heap' ∧
      heap'.Shape (Function.update R r (l₁' ++ x :: l₂')) B' ∧ heap.SameBounds heap' ∧ x.free = true ∧
      allocatedBlocks l₁' = allocatedBlocks l₁ ∧ allocatedBlocks l₂' = allocatedBlocks l₂ := by
  have hf₁ := hs.markFree hr hR hb
  obtain ⟨heap₂,B₂,x₂,l₂',hmn,hf₂,hx₂,hhead,hw₂,hlen₂,hl₂⟩ := hf₁.mergeNext_allocatedBlocks
  obtain ⟨heap',R',B',hmp,hs',hb',-,l₁',x',rfl,hx',hl₁⟩ := hf₂.mergePrev hhead (le_trans (by
    rw [(heap.sameBounds_setPreceding _ _).freeList] at hlen₂
    exact hlen₂) hfuel)
  refine ⟨heap',B',l₁',x',l₂',?_,hs',((heap.sameBounds_setPreceding _ _).trans hw₂.bounds).trans hb',hx',hl₁,hl₂⟩
  simp only [mmFree,Nat.add_sub_cancel]
  rw [show b.addr = ({ b with free := true } : Block).addr from rfl,hmn,← hx₂]
  exact hmp

theorem mmFree_shape {heap : MmHeap} {R : Nat → List Block} {B : Nat → List Nat}
    (hs : heap.Shape R B) {r : Nat} (hr : r < heap.mm_nregions) {l₁ l₂ : List Block} {b : Block}
    (hR : R r = l₁ ++ b :: l₂) (hb : b.free = false) {fuel : Nat} (hfuel : (heap.freeList B).length ≤ fuel) :
    ∃ heap' R' B', mmFree fuel heap (some (b.addr + SIZEOF_MM_ALLOCNODE)) = some heap' ∧
      heap'.Shape R' B' ∧ heap.SameBounds heap' := by
  obtain ⟨heap',B',_,_,_,hfree,hs',hb',-⟩ := mmFree_blocks hs hr hR hb hfuel
  exact ⟨heap',_,B',hfree,hs',hb'⟩

end TizenRT.Heap
