import TizenRT.Heap.Free

set_option autoImplicit false

/-!
`mm_extend` grows a region by the block right after its tail guard: the old guard becomes an
allocated chunk over the block, a new guard ends it, and `mm_free` releases the chunk. The heap
keeps its shape and its regions gain the block's bytes; `mm_heapsize` does not change.
-/

namespace TizenRT.Heap

open BoundaryTag

theorem sum_range_map_of_update {f g : Nat → Nat} {i k : Nat} (hi : g i = f i + k) (ho : ∀ j ≠ i, g j = f j) :
    ∀ n, i < n → ((List.range n).map g).sum = ((List.range n).map f).sum + k
  | 0, h => absurd h (Nat.not_lt_zero _)
  | n + 1, h => by
    rw [List.range_succ,List.map_append,List.map_append,List.sum_append,List.sum_append]
    rcases Nat.lt_succ_iff_lt_or_eq.mp h with h | rfl
    · rw [sum_range_map_of_update hi ho n h]
      simp [ho n (Nat.ne_of_gt h)]
      omega
    · have : (List.range i).map g = (List.range i).map f :=
        List.map_congr_left fun j hj => ho j (Nat.ne_of_lt (List.mem_range.mp hj))
      simp [this,hi]
      omega

theorem MmHeap.totalSize_grow {heap heap' : MmHeap} {region k : Nat} (hr : region < heap.mm_nregions)
    (hn : heap'.mm_nregions = heap.mm_nregions) (hk : heap'.regionSize region = heap.regionSize region + k)
    (ho : ∀ r ≠ region, heap'.regionSize r = heap.regionSize r) : heap'.totalSize = heap.totalSize + k := by
  unfold MmHeap.totalSize
  rw [hn]
  exact sum_range_map_of_update hk ho _ hr

section Extend

variable {heap : MmHeap} {R : Nat → List Block} {B : Nat → List Nat}

theorem extend_spec (hs : heap.Shape R B) {region mem size : Nat} {heapA : MmHeap}
    (hr : region < heap.mm_nregions) (hsize : MIN_EXTEND ≤ size) (h16 : size % MM_MIN_CHUNK = 0)
    (hmem : heap.mm_heapend region + SIZEOF_MM_ALLOCNODE = mem) (hfit : mem + size ≤ 2 ^ 32)
    (hsmall : mem + size - heap.mm_heapstart region < MM_ALLOC_BIT)
    (hapart : ∀ r < heap.mm_nregions, r ≠ region → mem + size ≤ heap.mm_heapstart r ∨ heap.regionEnd r ≤ mem)
    (hnodes : mem + size ≤ heap.mm_nodelist ∨ heap.nodelist MM_NNODES ≤ mem)
    (hsz : heapA.size = Function.update (Function.update heap.size (heap.mm_heapend region) size)
      (mem + size - SIZEOF_MM_ALLOCNODE) SIZEOF_MM_ALLOCNODE)
    (hpr : heapA.preceding = Function.update heap.preceding (mem + size - SIZEOF_MM_ALLOCNODE)
      (size ||| MM_ALLOC_BIT))
    (hfl : heapA.flink = heap.flink) (hbl : heapA.blink = heap.blink)
    (hen : heapA.mm_heapend = Function.update heap.mm_heapend region (mem + size - SIZEOF_MM_ALLOCNODE))
    (hst : heapA.mm_heapstart = heap.mm_heapstart) (hnr : heapA.mm_nregions = heap.mm_nregions)
    (hnl : heapA.mm_nodelist = heap.mm_nodelist) :
    heapA.Shape (Function.update R region (R region ++ [⟨heap.mm_heapend region,size,false⟩])) B := by
  simp only [MIN_EXTEND,SIZEOF_MM_ALLOCNODE] at *
  have hreg := hs.region region hr
  have hnl' : heapA.nodelist = heap.nodelist := by
    funext i
    simp [MmHeap.nodelist,hnl]
  have hend_new : heapA.regionEnd region = mem + size := by
    simp only [MmHeap.regionEnd,hen,Function.update_self,SIZEOF_MM_ALLOCNODE]
    omega
  have hold : ∀ r ≠ region, heapA.regionEnd r = heap.regionEnd r ∧ heapA.mm_heapstart r = heap.mm_heapstart r :=
    fun r hrr => by simp [MmHeap.regionEnd,hen,hst,Function.update_of_ne hrr]
  have hout : ∀ r < heap.mm_nregions, r ≠ region → ∀ a, heap.mm_heapstart r ≤ a → a < heap.regionEnd r →
      a ≠ heap.mm_heapend region ∧ a ≠ mem + size - 8 := fun r hr' hrr a h₁ h₂ => by
    have := hs.apart r hr' region hr hrr
    have := hapart r hr' hrr
    have := hreg.start_le
    simp only [MmHeap.regionEnd,SIZEOF_MM_ALLOCNODE] at *
    omega
  have hcell : ∀ c ∈ heap.freeList B, c ≠ heap.mm_heapend region ∧ c ≠ mem + size - 8 := fun c hc => by
    obtain ⟨i,hi,hc⟩ := (heap.mem_freeList B).mp hc
    rcases hc with rfl | hc
    · have : i * SIZEOF_MM_FREENODE < MM_NNODES * SIZEOF_MM_FREENODE :=
        Nat.mul_lt_mul_of_pos_right hi (by decide)
      have := hs.nodes region hr
      have := hreg.start_le
      simp only [MmHeap.nodelist,MmHeap.regionEnd,SIZEOF_MM_ALLOCNODE,SIZEOF_MM_FREENODE,MM_PTR_SIZE,MM_NNODES,
        MM_MAX_SHIFT,MM_MIN_SHIFT] at *
      rcases hnodes with h | h <;> omega
    · obtain ⟨r,hr',b,hb,-,rfl⟩ := (hs.listed_iff c).mp ⟨i,hi,hc⟩
      have hb' : b ∈ heap.regionBlocks r (R r) := by simp [MmHeap.regionBlocks,hb]
      have hbd := (hs.region r hr').tiles.bounds b hb'
      have hpos := (hs.region r hr').tiles.pos hb'
      simp only [SIZEOF_MM_ALLOCNODE] at hbd
      by_cases hrr : r = region
      · subst hrr
        have ht := hreg.tiles
        rw [MmHeap.regionBlocks,← List.cons_append] at ht
        have hne := ht.addr_ne b (by simp [hb])
        simp only [guard] at hne
        omega
      · exact hout r hr' hrr b.addr hbd.1 (by simp only [MmHeap.regionEnd,SIZEOF_MM_ALLOCNODE]; omega)
  have hfA : heapA.FreeList B := hs.freeList.congr hfl hbl hnl fun c hc => by
    rw [hsz,Function.update_of_ne (hcell c hc).2,Function.update_of_ne (hcell c hc).1]
  have hnew : heap.mm_heapend region + size = mem + size - 8 := by omega
  have hne : heap.mm_heapend region ≠ mem + size - 8 := by omega
  have hgrow : heapA.Region region (R region ++ [⟨heap.mm_heapend region,size,false⟩]) := by
    have ht := hreg.tiles
    rw [MmHeap.regionBlocks,← List.cons_append] at ht
    have hg : Tiles heapA.size heapA.preceding mkPrec (heap.mm_heapstart region) 0
        ((guard (heap.mm_heapstart region) :: R region) ++ [{ guard (heap.mm_heapend region) with size := size },
          ⟨(guard (heap.mm_heapend region)).addr + size,8,false⟩])
        ((guard (heap.mm_heapend region)).addr + size + 8) 8 :=
      ht.grow (by omega) (by decide)
        (by rw [hsz]; simp only [guard]; rw [Function.update_of_ne hne,Function.update_self])
        (by rw [hsz]; simp only [guard]; rw [hnew,Function.update_self])
        (fun x hx => by
          simp only [guard] at hx
          rw [hsz,Function.update_of_ne (by omega),Function.update_of_ne (by omega)])
        (by rw [hpr]; simp only [guard]; rw [hnew,Function.update_self]; rfl)
        (fun x hx => by
          simp only [guard] at hx
          rw [hpr,Function.update_of_ne (by omega)])
    refine ⟨?_,fun b hb => ?_,?_,?_,?_⟩
    · simp only [guard,hnew,SIZEOF_MM_ALLOCNODE,List.cons_append] at hg
      simp only [MmHeap.regionBlocks,hst,hen,Function.update_self,guard,SIZEOF_MM_ALLOCNODE,List.cons_append,
        List.append_assoc]
      exact hg
    · rcases List.mem_append.mp hb with hb | hb
      · exact hreg.aligned b hb
      · rw [List.mem_singleton.mp hb]
        exact h16
    · exact List.isChain_append.mpr ⟨hreg.coalesced,.singleton _,fun _ _ y hy => by
        simp only [List.head?_cons,Option.mem_def,Option.some.injEq] at hy
        exact .inr (by rw [← hy])⟩
    · simp only [hen,hst,Function.update_self,SIZEOF_MM_ALLOCNODE]
      omega
    · simp only [hen,Function.update_self,SIZEOF_MM_ALLOCNODE]
      omega
  refine ⟨fun r hr' => ?_,fun r hr₁ r' hr₂ hrr' => ?_,fun r hr' => ?_,by rw [hnl'] ; exact hs.nodes_fit,hfA,
    fun c => ?_⟩
  · rw [hnr] at hr'
    by_cases hrr : r = region
    · subst hrr
      rw [Function.update_self]
      exact hgrow
    · rw [Function.update_of_ne hrr]
      refine (hs.region r hr').frame (hold r hrr).2 (by rw [hen,Function.update_of_ne hrr])
        (fun a h₁ h₂ => ?_) (fun a h₁ h₂ => ?_)
      · rw [hsz,Function.update_of_ne (hout r hr' hrr a h₁ h₂).2,Function.update_of_ne (hout r hr' hrr a h₁ h₂).1]
      · rw [hpr,Function.update_of_ne (hout r hr' hrr a h₁ h₂).2]
  · rw [hnr] at hr₁ hr₂
    have hgrown : ∀ r < heap.mm_nregions, r ≠ region →
        heap.regionEnd r ≤ heap.mm_heapstart region ∨ mem + size ≤ heap.mm_heapstart r := fun r hr₀ hrr => by
      rcases hs.apart r hr₀ region hr hrr with h | h
      · exact .inl h
      · rcases hapart r hr₀ hrr with h' | h'
        · exact .inr h'
        · have := (hs.region r hr₀).start_le
          simp only [MmHeap.regionEnd,SIZEOF_MM_ALLOCNODE] at h h'
          omega
    by_cases h₁ : r = region
    · subst h₁
      rw [hend_new,(hold r' (Ne.symm hrr')).1,(hold r' (Ne.symm hrr')).2,hst]
      exact (hgrown r' hr₂ (Ne.symm hrr')).symm
    · by_cases h₂ : r' = region
      · subst h₂
        rw [hend_new,(hold r h₁).1,(hold r h₁).2,hst]
        exact hgrown r hr₁ h₁
      · rw [(hold r h₁).1,(hold r h₁).2,(hold r' h₂).1,(hold r' h₂).2]
        exact hs.apart r hr₁ r' hr₂ hrr'
  · rw [hnr] at hr'
    rw [hnl,hnl']
    by_cases hrr : r = region
    · subst hrr
      rw [hend_new,hst]
      have := hs.nodes r hr'
      rcases hnodes with h | h
      · exact .inl h
      · refine .inr ?_
        simp only [MmHeap.regionEnd,MmHeap.nodelist,SIZEOF_MM_ALLOCNODE,SIZEOF_MM_FREENODE,MM_PTR_SIZE,MM_NNODES,
          MM_MAX_SHIFT,MM_MIN_SHIFT] at this h ⊢
        omega
    · rw [(hold r hrr).1,(hold r hrr).2]
      exact hs.nodes r hr'
  · have hfc : heapA.FreeChunk = heap.FreeChunk := by
      funext R c
      simp [MmHeap.FreeChunk,hnr]
    rw [hs.listed_iff,hfc,MmHeap.freeChunk_allocated hr rfl,List.append_nil,Function.update_eq_self]

theorem extend_free (hs : heap.Shape R B) {fuel region mem size : Nat} {heapA : MmHeap}
    (hfuel : (heap.freeList B).length ≤ fuel)
    (hr : region < heap.mm_nregions) (hsize : MIN_EXTEND ≤ size) (h16 : size % MM_MIN_CHUNK = 0)
    (hmem : heap.mm_heapend region + SIZEOF_MM_ALLOCNODE = mem) (hfit : mem + size ≤ 2 ^ 32)
    (hsmall : mem + size - heap.mm_heapstart region < MM_ALLOC_BIT)
    (hapart : ∀ r < heap.mm_nregions, r ≠ region → mem + size ≤ heap.mm_heapstart r ∨ heap.regionEnd r ≤ mem)
    (hnodes : mem + size ≤ heap.mm_nodelist ∨ heap.nodelist MM_NNODES ≤ mem)
    (hsz : heapA.size = Function.update (Function.update heap.size (heap.mm_heapend region) size)
      (mem + size - SIZEOF_MM_ALLOCNODE) SIZEOF_MM_ALLOCNODE)
    (hpr : heapA.preceding = Function.update heap.preceding (mem + size - SIZEOF_MM_ALLOCNODE)
      (size ||| MM_ALLOC_BIT))
    (hfl : heapA.flink = heap.flink) (hbl : heapA.blink = heap.blink)
    (hen : heapA.mm_heapend = Function.update heap.mm_heapend region (mem + size - SIZEOF_MM_ALLOCNODE))
    (hhs : heapA.mm_heapsize = heap.mm_heapsize)
    (hst : heapA.mm_heapstart = heap.mm_heapstart) (hnr : heapA.mm_nregions = heap.mm_nregions)
    (hnl : heapA.mm_nodelist = heap.mm_nodelist) :
    ∃ heap' R' B', mmFree fuel heapA (some mem) = some heap' ∧ heap'.Shape R' B' ∧
      heap'.mm_heapsize = heap.mm_heapsize ∧ heap'.totalSize = heap.totalSize + size := by
  have hsA := extend_spec hs hr hsize h16 hmem hfit hsmall hapart hnodes hsz hpr hfl hbl hen hst hnr hnl
  have hLA : heapA.freeList = heap.freeList := by
    funext B
    simp [MmHeap.freeList,MmHeap.classes,MmHeap.nodelist,hnl]
  have hfuelA : (heapA.freeList B).length ≤ fuel := by
    rw [hLA]
    exact hfuel
  obtain ⟨heap',R',B',hfree,hs',hb⟩ := mmFree_shape hsA (by rw [hnr]; exact hr)
    (Function.update_self region _ R) rfl hfuelA
  have hstart := (hs.region region hr).start_le
  simp only [MIN_EXTEND,SIZEOF_MM_ALLOCNODE] at hsize hmem hsz hpr hen
  refine ⟨heap',R',B',by rwa [← hmem],hs',by rw [hb.mm_heapsize,hhs],?_⟩
  rw [hb.totalSize]
  refine MmHeap.totalSize_grow hr hnr ?_ fun r hrr => ?_
  · simp only [MmHeap.regionSize,hen,hst,Function.update_self,SIZEOF_MM_ALLOCNODE]
    omega
  · simp [MmHeap.regionSize,hen,hst,Function.update_of_ne hrr]

end Extend

theorem mmExtend_shape {heap : MmHeap} {R : Nat → List Block} {B : Nat → List Nat} (hs : heap.Shape R B)
    {fuel mem size region : Nat} (hfuel : (heap.freeList B).length ≤ fuel) (hr : region < heap.mm_nregions)
    (hsize : MIN_EXTEND ≤ size) (hup : mmAlignUp mem = mem) (hdown : mmAlignDown (mem + size) = mem + size)
    (hmem : heap.mm_heapend region + SIZEOF_MM_ALLOCNODE = mem) (hfit : mem + size ≤ 2 ^ 32)
    (hsmall : mem + size - heap.mm_heapstart region < MM_ALLOC_BIT)
    (hapart : ∀ r < heap.mm_nregions, r ≠ region → mem + size ≤ heap.mm_heapstart r ∨ heap.regionEnd r ≤ mem)
    (hnodes : mem + size ≤ heap.mm_nodelist ∨ heap.nodelist MM_NNODES ≤ mem) :
    ∃ heap' R' B', mmExtend fuel heap mem size region = some heap' ∧ heap'.Shape R' B' ∧
      heap'.mm_heapsize = heap.mm_heapsize ∧ heap'.totalSize = heap.totalSize + size := by
  have h16 : size % MM_MIN_CHUNK = 0 := by
    have h₁ : mem % 16 = 0 := by
      rw [← hup]
      simp [mmAlignUp,MM_MIN_CHUNK,MM_MIN_SHIFT]
    have h₂ : (mem + size) % 16 = 0 := by
      rw [← hdown]
      simp [mmAlignDown,MM_MIN_CHUNK,MM_MIN_SHIFT]
    simp only [MM_MIN_CHUNK,MM_MIN_SHIFT,Nat.shiftLeft_eq]
    omega
  have hne : heap.mm_heapend region ≠ mem + size - SIZEOF_MM_ALLOCNODE := by
    simp only [MIN_EXTEND,SIZEOF_MM_ALLOCNODE] at hsize hmem ⊢
    omega
  unfold mmExtend
  exact extend_free hs hfuel hr hsize h16 hmem hfit hsmall hapart hnodes
    (by simp) (by simp [Function.update_of_ne hne]) (by simp) (by simp) rfl rfl rfl rfl rfl

/-- `mm_extend` adds the block's bytes to the regions but not to `mm_heapsize`: from a heap whose
`mm_heapsize` counts the bytes of its regions, the walks of `mm_mallinfo` afterwards count `size` bytes
more than `mm_heapsize`, and its `DEBUGASSERT(uordblks + fordblks == heap->mm_heapsize)` fails. -/
theorem mmExtend_mallinfo {heap : MmHeap} (hinv : heap.HeapInv) (hacc : heap.mm_heapsize = heap.totalSize)
    (fuel mem size region : Nat) (hfuel : 2 ^ 32 ≤ fuel) (hr : region < heap.mm_nregions)
    (hsize : MIN_EXTEND ≤ size) (hup : mmAlignUp mem = mem) (hdown : mmAlignDown (mem + size) = mem + size)
    (hmem : heap.mm_heapend region + SIZEOF_MM_ALLOCNODE = mem) (hfit : mem + size ≤ 2 ^ 32)
    (hsmall : mem + size - heap.mm_heapstart region < MM_ALLOC_BIT)
    (hapart : ∀ r < heap.mm_nregions, r ≠ region → mem + size ≤ heap.mm_heapstart r ∨ heap.regionEnd r ≤ mem)
    (hnodes : mem + size ≤ heap.mm_nodelist ∨ heap.nodelist MM_NNODES ≤ mem) :
    ∃ heap' info, mmExtend fuel heap mem size region = some heap' ∧ heap'.HeapInv ∧
      mmMallinfo heap' = some (true,info) ∧ info.uordblks + info.fordblks = heap'.mm_heapsize + size := by
  obtain ⟨R,B,hs⟩ := hinv
  obtain ⟨heap',R',B',hext,hs',hsz,htot⟩ := mmExtend_shape hs (hs.length_le.trans hfuel) hr hsize hup hdown
    hmem hfit hsmall hapart hnodes
  obtain ⟨info,hinfo,hsum⟩ := mmMallinfo_regions fun r hr' => ⟨R' r,hs'.region r hr'⟩
  exact ⟨heap',info,hext,⟨R',B',hs'⟩,hinfo,by rw [hsum,htot,hsz,hacc]⟩

/-- The heap before `mm_initialize`: the node array at address 0, nothing else set. -/
def blankHeap : MmHeap := ⟨0,fun _ => 0,fun _ => 0,0,0,fun _ => ⟨0,0,none,none⟩⟩

theorem mmExtend_mallinfo_blank :
    ∃ heap₁ heap₂ info, mmInitialize (2 ^ 32) blankHeap 0x1000 0x1000 = some heap₁ ∧
      mmExtend (2 ^ 32) heap₁ 0x2000 0x1000 0 = some heap₂ ∧ mmMallinfo heap₂ = some (true,info) ∧
      info.uordblks + info.fordblks = heap₂.mm_heapsize + 0x1000 := by
  obtain ⟨heap₁,hinit,hs₁,hacc,hnr,hst,hen,hnl⟩ := mmInitialize_shape (2 ^ 32) blankHeap 0x1000 0x1000
    (by decide) (by decide) (by decide) (by decide) (by decide) (by decide) (by decide)
  obtain ⟨heap₂,info,hext,-,hinfo,hsum⟩ := mmExtend_mallinfo ⟨_,_,hs₁⟩ hacc (2 ^ 32) 0x2000 0x1000 0 (le_refl _)
    (by rw [hnr]; decide)
    (by decide) (by decide) (by decide) (by rw [hen]; decide) (by decide) (by rw [hst]; decide)
    (fun r hr hr0 => absurd (by omega : r = 0) hr0) (by rw [MmHeap.nodelist,hnl]; decide)
  exact ⟨heap₁,heap₂,info,hinit,hext,hinfo,hsum⟩

end TizenRT.Heap
