import TizenRT.Heap.Malloc

set_option autoImplicit false

/-!
`mm_free` right after `mm_malloc` gives the heap back its layout and its free list. The chunk that
`mm_malloc` took was the first of its class to fit, so every chunk before it in the class is
smaller, and `mm_addfreechunk` puts it back in front of the first chunk that is not: where it was.
The rest that `mm_malloc` split off is free and next to it, so `mm_free` merges it back; the
chunk's other neighbours were allocated, as the heap keeps free chunks apart.
-/

namespace TizenRT.Heap

open BoundaryTag

namespace MmHeap.Freeing

variable {heap : MmHeap} {R : Nat → List Block} {B : Nat → List Nat} {r : Nat} {l₁ l₂ : List Block}
  {x : Block}

theorem size_eq_of_mem (hf : heap.Freeing R B r l₁ x l₂) {r' : Nat} (hr' : r' < heap.mm_nregions)
    {y : Block} (hy : y ∈ Function.update R r (l₁ ++ l₂) r') : heap.size y.addr = y.size := by
  by_cases hrr : r' = r
  · subst hrr
    rw [Function.update_self,List.mem_append] at hy
    refine hf.tiles.size_eq ?_
    rcases hy with hy | hy <;> simp [MmHeap.regionBlocks,hy]
  · rw [Function.update_of_ne hrr] at hy
    exact (hf.region r' hr' hrr).tiles.size_eq (by simp [MmHeap.regionBlocks,hy])

theorem preceding_lt (hf : heap.Freeing R B r l₁ x l₂) : heap.preceding x.addr < MM_ALLOC_BIT := by
  have ht := hf.tiles
  rw [MmHeap.regionBlocks_mid] at ht
  obtain ⟨p,hp⟩ : ∃ p, (guard (heap.mm_heapstart r) :: l₁).getLast? = some p :=
    ⟨_,List.getLast?_eq_some_getLast (List.cons_ne_nil _ _)⟩
  rw [ht.tag_eq,hf.free,hp,Option.map_some,Option.getD_some]
  refine hf.size_lt ?_
  rw [MmHeap.regionBlocks_mid]
  exact List.mem_append_left _ (List.mem_of_getLast? hp)

theorem mmFree_markAlloc (hf : heap.Freeing R B r l₁ x l₂) {heap' : MmHeap} {next : Nat}
    (hmn : mmFreeMergeNext heap x.addr = (heap',next)) (fuel : Nat) :
    mmFree fuel (heap.setPreceding x.addr (heap.preceding x.addr ||| MM_ALLOC_BIT))
      (some (x.addr + SIZEOF_MM_ALLOCNODE)) = mmFreeMergePrev fuel heap' x.addr next := by
  have hclear : (heap.setPreceding x.addr (heap.preceding x.addr ||| MM_ALLOC_BIT)).setPreceding x.addr
      ((heap.setPreceding x.addr (heap.preceding x.addr ||| MM_ALLOC_BIT)).preceding x.addr &&&
        (MM_ALLOC_BIT - 1)) = heap := by
    simp only [MmHeap.setPreceding_preceding,Function.update_self,or_alloc_and_mask hf.preceding_lt]
    simp [MmHeap.setPreceding,MmHeap.modify,MmHeap.preceding]
  simp only [mmFree,Nat.add_sub_cancel]
  rw [hclear,hmn]

end MmHeap.Freeing

section RoundTrip

variable {heap : MmHeap} {R : Nat → List Block} {B : Nat → List Nat} {r j : Nat} {l₁ l₂ : List Block}
  {b : Block} {P Q : List Nat}

theorem size_listed_of_freeing (hs : heap.Shape R B) (hR : R r = l₁ ++ b :: l₂) {heap' : MmHeap}
    {R' : Nat → List Block} {B' : Nat → List Nat} (hf : heap'.Freeing R' B' r l₁ b l₂)
    (hR' : ∀ r', r' ≠ r → R' r' = R r') (hn : heap'.mm_nregions = heap.mm_nregions) {c : Nat}
    (hc : Listed B' c) : heap'.size c = heap.size c := by
  obtain ⟨r',hr',y,hy,-,rfl⟩ := (hf.listed_iff c).mp hc
  rw [hf.size_eq_of_mem hr' hy]
  have hyR : y ∈ R r' := by
    by_cases hrr : r' = r
    · subst hrr
      rw [Function.update_self] at hy
      rw [hR]
      rcases List.mem_append.mp hy with hy | hy <;> simp [hy]
    · rwa [Function.update_of_ne hrr,hR' r' hrr] at hy
  exact (hs.size_eq (hn ▸ hr') hyR).symm

theorem mergePrev_restores (hs : heap.Shape R B) (hr : r < heap.mm_nregions) (hR : R r = l₁ ++ b :: l₂)
    (hj : j < MM_NNODES) (hB : B j = P ++ b.addr :: Q) (hP : ∀ a ∈ P, heap.size a < b.size)
    {heap' : MmHeap} {R' : Nat → List Block} (hf : heap'.Freeing R' (Function.update B j (P ++ Q)) r l₁ b l₂)
    (hR' : ∀ r', r' ≠ r → R' r' = R r') (hn : heap'.mm_nregions = heap.mm_nregions)
    (hprev : ∀ p ∈ l₁.getLast?, p.free = false) (hnext : ∀ y ∈ l₂.head?, y.free = false) {fuel : Nat}
    (hfuel : (heap'.freeList (Function.update B j (P ++ Q))).length ≤ fuel) :
    ∃ heap'', mmFreeMergePrev fuel heap' b.addr (b.addr + b.size) = some heap'' ∧ heap''.Shape R B ∧
      heap'.SameBounds heap'' := by
  obtain ⟨heap'',R'',B'',hmp,hs'',hb'',hpos,-⟩ := hf.mergePrev hnext hfuel
  obtain ⟨rfl,P',Q',hPQ',hP',hQ',rfl⟩ := hpos hprev
  have hsb : heap.size b.addr = b.size := hs.size_eq hr (by rw [hR]; simp)
  have hjb : mmSize2ndx b.size = j := by
    rw [← hsb]
    exact (hs.freeList.bucket j hj b.addr (by rw [hB]; simp)).1
  rw [hjb,Function.update_self] at hPQ'
  rw [hjb] at hs''
  have hsz : ∀ c ∈ P ++ Q, heap'.size c = heap.size c := fun c hc =>
    size_listed_of_freeing hs hR hf hR' hn ⟨j,hj,by rw [Function.update_self]; exact hc⟩
  have hQ : ∀ c ∈ Q, b.size ≤ heap.size c := by
    have hsorted := hs.freeList.sorted j hj
    rw [hB,List.pairwise_append,List.pairwise_cons] at hsorted
    exact fun c hc => hsb ▸ hsorted.2.1.1 c hc
  have hPP : P = P' := append_eq_of_sep hPQ'
    (fun c hc => by rw [hsz c (List.mem_append_left _ hc)]; exact hP c hc)
    (fun c hc => by rw [hsz c (List.mem_append_right _ hc)]; exact Nat.not_lt.mpr (hQ c hc)) hP'
    (fun c hc => Nat.not_lt.mpr (hQ' c hc))
  subst hPP
  obtain rfl := List.append_cancel_left hPQ'
  have hRR : Function.update R' r (l₁ ++ b :: l₂) = R := by
    funext r'
    by_cases hrr : r' = r
    · subst hrr
      rw [Function.update_self,hR]
    · rw [Function.update_of_ne hrr,hR' r' hrr]
  rw [Function.update_idem,← hB,Function.update_eq_self,hRR] at hs''
  exact ⟨heap'',hmp,hs'',hb''⟩

/-- `mm_free` of the pointer `mm_malloc` has just returned gives the heap back its shape: the same
chunks, with their sizes, their tags and allocation bits, and the same free list, class by class in
the same order; the bounds of the heap do not change. -/
theorem mmFree_mmMalloc_restores (hs : heap.Shape R B) {fuel size : Nat} (hfuel : 2 ^ 32 ≤ fuel)
    (hsize : 0 < size) (hov : size + SIZEOF_MM_ALLOCNODE + MM_GRAN_MASK < 2 ^ 32) {heap' : MmHeap} {p : Nat}
    (hm : mmMalloc fuel heap size = some (heap',some p)) :
    ∃ heap'', mmFree fuel heap' (some p) = some heap'' ∧ heap''.Shape R B ∧ heap.SameBounds heap'' := by
  obtain ⟨hs0,hsa,-⟩ := mallocChunkSize_spec hov
  rw [mmMalloc_eq fuel heap hsize] at hm
  rcases hs.walk_bestFit hs0 (hs.length_le.trans hfuel) with ⟨r,b,hfit,hwalk,hfirst⟩ | ⟨-,hwalk⟩
  swap
  · rw [hwalk] at hm
    cases hm
  rw [hwalk] at hm
  obtain ⟨l₁,l₂,hR⟩ := List.append_of_mem hfit.mem
  obtain ⟨j,hj,hbj⟩ : Listed B b.addr := (hs.listed_iff _).mpr ⟨r,hfit.lt,b,hfit.mem,hfit.free,rfl⟩
  obtain ⟨P,Q,hPQ⟩ := List.append_of_mem hbj
  obtain ⟨hf,hprev,hnext⟩ := hs.unlinkFree hfit.lt hR hfit.free hj hPQ
  have hP : ∀ a ∈ P, heap.size a < b.size := fun a ha =>
    Nat.lt_of_lt_of_le (hfirst j hj P Q hPQ a ha) hfit.fits
  have hrel := heap.relinked_unlink b.addr
  have hlen : (heap.freeList (Function.update B j (P ++ Q))).length + 1 = (heap.freeList B).length :=
    MmHeap.freeList_length_erase hj hPQ
  have hfuel₁ := hs.length_le.trans hfuel
  have hsx : (heap.unlink b.addr).size b.addr = b.size := by
    rw [MmHeap.unlink_size,hs.size_eq hfit.lt hfit.mem]
  unfold mallocTake at hm
  simp only [hsx] at hm
  by_cases hsplit : SIZEOF_MM_FREENODE ≤ b.size - mallocChunkSize size
  · obtain ⟨heap₂,P',Q',hadd,hPQ',hf₂,hw₂⟩ := hf.split hnext hs0 hsa hsplit
      (show _ ≤ fuel by rw [hrel.freeList]; omega)
    simp only [if_pos hsplit,hadd,Option.bind_eq_bind,Option.bind_some,Option.some.injEq,Prod.mk.injEq] at hm
    obtain ⟨rfl,rfl⟩ := hm
    obtain ⟨heap₄,B₄,x₄,l₂₄,hmn,hf₄,-,-,hw₄,-,-,hmerge⟩ := hf₂.mergeNext
    obtain ⟨rfl,hx₄,rfl⟩ := hmerge _ l₂ rfl rfl _ (mmSize2ndx_lt _)
      (by rw [Function.update_self]; simp)
    have hrem : b.addr + mallocChunkSize size ∉ P' := fun h => by
      have h16 : SIZEOF_MM_FREENODE = 16 := rfl
      refine hf.inside_not_mem_freeList (a := b.addr + mallocChunkSize size) (by omega) (by omega) ?_
      rw [MmHeap.mem_freeList]
      exact ⟨_,mmSize2ndx_lt _,.inr (by rw [hPQ']; exact List.mem_append_left _ h)⟩
    have hB₄ : ∀ (B₂ : Nat → List Nat), B₂ = Function.update (Function.update B j (P ++ Q))
        (mmSize2ndx (b.size - mallocChunkSize size)) (P' ++ (b.addr + mallocChunkSize size) :: Q') →
        Function.update B₂ (mmSize2ndx (b.size - mallocChunkSize size))
          ((B₂ (mmSize2ndx (b.size - mallocChunkSize size))).erase (b.addr + mallocChunkSize size)) =
          Function.update B j (P ++ Q) := by
      rintro B₂ rfl
      rw [Function.update_self,List.erase_append_right _ hrem,List.erase_cons_head,Function.update_idem,
        ← hPQ',Function.update_eq_self]
    have hxb : x₄ = b := by
      rw [hx₄,Nat.add_sub_cancel' hfit.fits]
      show (⟨b.addr,b.size,true⟩ : Block) = b
      rw [← hfit.free]
    rw [hB₄ _ rfl,hxb] at hf₄
    rw [hxb] at hmn
    have hb₄ : heap.SameBounds heap₄ := (hrel.sameBounds.trans hw₂.bounds).trans hw₄.bounds
    obtain ⟨heap'',hmp,hs'',hb''⟩ := mergePrev_restores hs hfit.lt hR hj hPQ hP hf₄ (fun _ _ => rfl)
      hb₄.mm_nregions hprev hnext (show _ ≤ fuel by rw [hb₄.freeList]; omega)
    exact ⟨heap'',by rw [hf₂.mmFree_markAlloc hmn]; exact hmp,hs'',hb₄.trans hb''⟩
  · simp only [if_neg hsplit,Option.bind_eq_bind,Option.bind_some,Option.some.injEq,Prod.mk.injEq] at hm
    obtain ⟨rfl,rfl⟩ := hm
    obtain ⟨heap₄,B₄,x₄,l₂₄,hmn,-,-,-,-,-,hstay,-⟩ := hf.mergeNext
    obtain ⟨rfl,rfl,rfl,rfl⟩ := hstay hnext
    obtain ⟨heap'',hmp,hs'',hb''⟩ := mergePrev_restores hs hfit.lt hR hj hPQ hP hf (fun _ _ => rfl)
      hrel.sameBounds.mm_nregions hprev hnext (show _ ≤ fuel by rw [hrel.freeList]; omega)
    exact ⟨heap'',by rw [hf.mmFree_markAlloc hmn]; exact hmp,hs'',hrel.sameBounds.trans hb''⟩

end RoundTrip

theorem mmFree_mmMalloc_restores_blank :
    ∃ heap₁ R B heap₂ p heap₃, mmInitialize (2 ^ 32) blankHeap 0x1000 0x1000 = some heap₁ ∧
      heap₁.Shape R B ∧ mmMalloc (2 ^ 32) heap₁ 7 = some (heap₂,some p) ∧
      mmFree (2 ^ 32) heap₂ (some p) = some heap₃ ∧ heap₃.Shape R B := by
  obtain ⟨heap₁,hinit,hs₁,-,hnr,-⟩ := mmInitialize_shape (2 ^ 32) blankHeap 0x1000 0x1000
    (by decide) (by decide) (by decide) (by decide) (by decide) (by decide) (by decide)
  obtain ⟨hs0,hsa,-⟩ := mallocChunkSize_spec (show 7 + SIZEOF_MM_ALLOCNODE + MM_GRAN_MASK < 2 ^ 32 by decide)
  rcases mmMalloc_spec hs₁ hs₁.length_le (by decide) hs0 hsa with ⟨hno,-⟩ | ⟨r,l₁,b,l₂,heap₂,B₂,-,-,hm,-⟩
  · exact absurd (hno 0 (by rw [hnr]; decide) _ (by rw [Function.update_self]; exact List.mem_cons_self) (by rfl))
      (by decide)
  · obtain ⟨heap₃,hfree,hs₃,-⟩ := mmFree_mmMalloc_restores hs₁ (Nat.le_refl _) (by decide) (by decide) hm
    exact ⟨heap₁,_,_,heap₂,_,heap₃,hinit,hs₁,hm,hfree,hs₃⟩

end TizenRT.Heap
