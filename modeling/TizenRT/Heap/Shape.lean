import TizenRT.Heap.FreeList
import Mathlib.Data.List.Perm.Subperm

set_option autoImplicit false

/-!
The shape of the whole heap, (a) to (d) at once: every region laid out as its chunks, the regions
apart from one another and from the node array, and the free list listing exactly the free chunks.
`mm_initialize` and `mm_addregion` build it.
-/

namespace TizenRT.Heap

open BoundaryTag

def MmHeap.regionEnd (heap : MmHeap) (r : Nat) : Nat := heap.mm_heapend r + SIZEOF_MM_ALLOCNODE

def MmHeap.FreeChunk (heap : MmHeap) (R : Nat → List Block) (c : Nat) : Prop :=
  ∃ r < heap.mm_nregions, ∃ b ∈ R r, b.free = true ∧ b.addr = c

def Listed (B : Nat → List Nat) (c : Nat) : Prop := ∃ i < MM_NNODES, c ∈ B i

/-- The heap's shape, with the chunks `R r` of each region and the classes `B` of the free list. -/
structure MmHeap.Shape (heap : MmHeap) (R : Nat → List Block) (B : Nat → List Nat) : Prop where
  region : ∀ r < heap.mm_nregions, heap.Region r (R r)
  apart : ∀ r < heap.mm_nregions, ∀ r' < heap.mm_nregions, r ≠ r' →
    heap.regionEnd r ≤ heap.mm_heapstart r' ∨ heap.regionEnd r' ≤ heap.mm_heapstart r
  nodes : ∀ r < heap.mm_nregions,
    heap.regionEnd r ≤ heap.mm_nodelist ∨ heap.nodelist MM_NNODES ≤ heap.mm_heapstart r
  nodes_fit : heap.nodelist MM_NNODES ≤ 2 ^ 32
  freeList : heap.FreeList B
  listed_iff : ∀ c, Listed B c ↔ heap.FreeChunk R c

def MmHeap.HeapInv (heap : MmHeap) : Prop := ∃ R B, heap.Shape R B

namespace MmHeap.FreeList

variable {heap heap' : MmHeap} {B : Nat → List Nat}

theorem congr (hf : heap.FreeList B) (hfl : heap'.flink = heap.flink) (hbl : heap'.blink = heap.blink)
    (hnl : heap'.mm_nodelist = heap.mm_nodelist) (hs : ∀ c ∈ heap.freeList B, heap'.size c = heap.size c) :
    heap'.FreeList B := by
  have hnl' : heap'.nodelist = heap.nodelist := by
    funext i
    simp [MmHeap.nodelist,hnl]
  have hfl' : heap'.freeList = heap.freeList := by
    funext B
    simp [MmHeap.freeList,MmHeap.classes,hnl']
  have hsB : ∀ i < MM_NNODES, ∀ c ∈ B i, heap'.size c = heap.size c := fun i hi c hc =>
    hs c ((heap.mem_freeList B).mpr ⟨i,hi,.inr hc⟩)
  refine ⟨by rw [hfl',hfl,hbl,hnl']; exact hf.seg,fun i hi => ?_,fun i hi c hc => ?_,fun i hi => ?_⟩
  · rw [hnl',hs _ ((heap.mem_freeList B).mpr ⟨i,hi,.inl rfl⟩)]
    exact hf.sentinel i hi
  · rw [hsB i hi c hc]
    exact hf.bucket i hi c hc
  · refine (hf.sorted i hi).imp_of_mem fun ha hb hab => ?_
    rwa [hsB i hi _ ha,hsB i hi _ hb]

theorem setPreceding (hf : heap.FreeList B) (p v : Nat) : (heap.setPreceding p v).FreeList B :=
  hf.congr (by simp) (by simp) rfl (by simp)

theorem setSize (hf : heap.FreeList B) {p : Nat} (hp : p ∉ heap.freeList B) (v : Nat) :
    (heap.setSize p v).FreeList B :=
  hf.congr (by simp) (by simp) rfl fun c hc => by
    rw [MmHeap.setSize_size,Function.update_of_ne (fun (he : c = p) => hp (he ▸ hc))]

end MmHeap.FreeList

theorem MmHeap.Region.frame {heap heap' : MmHeap} {r : Nat} {cs : List Block} (hr : heap.Region r cs)
    (hst : heap'.mm_heapstart r = heap.mm_heapstart r) (hen : heap'.mm_heapend r = heap.mm_heapend r)
    (hs : ∀ x, heap.mm_heapstart r ≤ x → x < heap.regionEnd r → heap'.size x = heap.size x)
    (hp : ∀ x, heap.mm_heapstart r ≤ x → x < heap.regionEnd r → heap'.preceding x = heap.preceding x) :
    heap'.Region r cs := by
  obtain ⟨ht,ha,hc,hsm,hf⟩ := hr
  have hin : ∀ b ∈ heap.regionBlocks r cs, heap.mm_heapstart r ≤ b.addr ∧ b.addr < heap.regionEnd r :=
    fun b hb => by
      have := ht.bounds b hb
      have := ht.pos hb
      simp only [MmHeap.regionEnd]
      omega
  refine ⟨?_,ha,hc,by rwa [hst,hen],by rwa [hen]⟩
  rw [MmHeap.regionBlocks,hst,hen,← MmHeap.regionBlocks]
  exact ht.frame (fun b hb => hs _ (hin b hb).1 (hin b hb).2) (fun b hb => hp _ (hin b hb).1 (hin b hb).2)

theorem MmHeap.Shape.length_le {heap : MmHeap} {R : Nat → List Block} {B : Nat → List Nat}
    (hs : heap.Shape R B) : (heap.freeList B).length ≤ 2 ^ 32 := by
  have hlt : ∀ c ∈ heap.freeList B, c < 2 ^ 32 := fun c hc => by
    obtain ⟨i,hi,hc⟩ := (heap.mem_freeList B).mp hc
    rcases hc with rfl | hc
    · have := hs.nodes_fit
      simp only [MmHeap.nodelist] at this ⊢
      have : i * SIZEOF_MM_FREENODE < MM_NNODES * SIZEOF_MM_FREENODE :=
        Nat.mul_lt_mul_of_pos_right hi (by decide)
      omega
    · obtain ⟨r,hr,b,hb,-,rfl⟩ := (hs.listed_iff c).mp ⟨i,hi,hc⟩
      have hreg := hs.region r hr
      have := hreg.tiles.bounds b (by simp [MmHeap.regionBlocks,hb])
      have := hreg.tiles.pos (by simp [MmHeap.regionBlocks,hb] : b ∈ heap.regionBlocks r (R r))
      have := hreg.fits
      omega
  have hsub : List.Subperm (heap.freeList B) (List.range (2 ^ 32)) :=
    List.Nodup.subperm hs.freeList.seg.nodup fun c hc => List.mem_range.mpr (hlt c hc)
  simpa using hsub.length_le

theorem listed_insert {B : Nat → List Nat} {i x : Nat} {P Q : List Nat} (hi : i < MM_NNODES)
    (hB : B i = P ++ Q) (c : Nat) :
    Listed (Function.update B i (P ++ x :: Q)) c ↔ Listed B c ∨ c = x := by
  constructor
  · rintro ⟨j,hj,hc⟩
    by_cases hji : j = i
    · subst hji
      rw [Function.update_self,List.mem_append,List.mem_cons] at hc
      rcases hc with hc | rfl | hc
      · exact .inl ⟨j,hj,by rw [hB]; exact List.mem_append_left Q hc⟩
      · exact .inr rfl
      · exact .inl ⟨j,hj,by rw [hB]; exact List.mem_append_right P hc⟩
    · exact .inl ⟨j,hj,by rwa [Function.update_of_ne hji] at hc⟩
  · rintro (⟨j,hj,hc⟩ | rfl)
    · refine ⟨j,hj,?_⟩
      by_cases hji : j = i
      · subst hji
        rw [hB,List.mem_append] at hc
        rw [Function.update_self]
        rcases hc with hc | hc <;> simp [hc]
      · rwa [Function.update_of_ne hji]
    · exact ⟨i,hi,by simp⟩

theorem MmHeap.mem_classes {heap : MmHeap} {B : Nat → List Nat} {l : List Nat} {c : Nat} :
    c ∈ heap.classes B l ↔ ∃ j ∈ l, c = heap.nodelist j ∨ c ∈ B j := by
  simp [MmHeap.classes]

namespace MmHeap.FreeList

variable {heap : MmHeap} {B : Nat → List Nat}

theorem class_nodup (hf : heap.FreeList B) {i : Nat} (hi : i < MM_NNODES) : (B i).Nodup := by
  have hnd := hf.seg.nodup
  rw [heap.freeList_split B hi] at hnd
  exact ((List.nodup_cons.mp hnd.of_append_right).2).of_append_left

theorem class_unique (hf : heap.FreeList B) {i j x : Nat} (hi : i < MM_NNODES) (hj : j < MM_NNODES)
    (hxi : x ∈ B i) (hxj : x ∈ B j) : i = j := by
  have hnd := hf.seg.nodup
  rw [heap.freeList_split B hi] at hnd
  have hd := List.disjoint_of_nodup_append hnd
  have hd' := List.disjoint_of_nodup_append (List.nodup_cons.mp hnd.of_append_right).2
  by_contra hij
  rcases Nat.lt_or_gt_of_ne hij with hlt | hlt
  · exact hd' hxi (MmHeap.mem_classes.mpr ⟨j,List.mem_range'.mpr ⟨j - (i + 1),by omega,by omega⟩,.inr hxj⟩)
  · exact hd (MmHeap.mem_classes.mpr ⟨j,List.mem_range.mpr hlt,.inr hxj⟩)
      (List.mem_cons_of_mem _ (List.mem_append_left _ hxi))

end MmHeap.FreeList

theorem listed_erase {heap : MmHeap} {B : Nat → List Nat} {i x : Nat} {P Q : List Nat}
    (hf : heap.FreeList B) (hi : i < MM_NNODES) (hB : B i = P ++ x :: Q) (c : Nat) :
    Listed (Function.update B i (P ++ Q)) c ↔ Listed B c ∧ c ≠ x := by
  have hnd := hf.class_nodup hi
  rw [hB,List.nodup_append,List.nodup_cons] at hnd
  have hxP : x ∉ P := fun hx => hnd.2.2 x hx x List.mem_cons_self rfl
  have hxB : x ∈ B i := by simp [hB]
  constructor
  · rintro ⟨j,hj,hc⟩
    by_cases hji : j = i
    · subst hji
      rw [Function.update_self,List.mem_append] at hc
      refine ⟨⟨j,hj,by rw [hB]; rcases hc with hc | hc <;> simp [hc]⟩,?_⟩
      rintro rfl
      rcases hc with hc | hc
      · exact hxP hc
      · exact hnd.2.1.1 hc
    · rw [Function.update_of_ne hji] at hc
      exact ⟨⟨j,hj,hc⟩,fun he => hji (hf.class_unique hj hi (he ▸ hc) hxB)⟩
  · rintro ⟨⟨j,hj,hc⟩,hcx⟩
    refine ⟨j,hj,?_⟩
    by_cases hji : j = i
    · subst hji
      rw [Function.update_self]
      rw [hB] at hc
      simp only [List.mem_append,List.mem_cons] at hc ⊢
      tauto
    · rwa [Function.update_of_ne hji]

theorem MmHeap.freeChunk_update {heap heap' : MmHeap} {R : Nat → List Block} {X : List Block}
    (hnr : heap'.mm_nregions = heap.mm_nregions + 1) (c : Nat) :
    heap'.FreeChunk (Function.update R heap.mm_nregions X) c ↔
      heap.FreeChunk R c ∨ ∃ b ∈ X, b.free = true ∧ b.addr = c := by
  constructor
  · rintro ⟨r,hr,b,hb,hfree,rfl⟩
    by_cases hrn : r = heap.mm_nregions
    · subst hrn
      rw [Function.update_self] at hb
      exact .inr ⟨b,hb,hfree,rfl⟩
    · rw [Function.update_of_ne hrn] at hb
      exact .inl ⟨r,by omega,b,hb,hfree,rfl⟩
  · rintro (⟨r,hr,b,hb,hfree,rfl⟩ | ⟨b,hb,hfree,rfl⟩)
    · exact ⟨r,by omega,b,by rwa [Function.update_of_ne (by omega)],hfree,rfl⟩
    · exact ⟨heap.mm_nregions,by omega,b,by rwa [Function.update_self],hfree,rfl⟩

theorem MmHeap.Shape.mem_freeList {heap : MmHeap} {R : Nat → List Block} {B : Nat → List Nat}
    (hs : heap.Shape R B) {c : Nat} (hc : c ∈ heap.freeList B) :
    (heap.mm_nodelist ≤ c ∧ c < heap.nodelist MM_NNODES) ∨
      ∃ r < heap.mm_nregions, heap.mm_heapstart r ≤ c ∧ c < heap.regionEnd r := by
  obtain ⟨i,hi,hc⟩ := (heap.mem_freeList B).mp hc
  rcases hc with rfl | hc
  · left
    simp only [MmHeap.nodelist]
    have : i * SIZEOF_MM_FREENODE < MM_NNODES * SIZEOF_MM_FREENODE :=
      Nat.mul_lt_mul_of_pos_right hi (by decide)
    omega
  · right
    obtain ⟨r,hr,b,hb,-,rfl⟩ := (hs.listed_iff c).mp ⟨i,hi,hc⟩
    have hreg := hs.region r hr
    have hb' : b ∈ heap.regionBlocks r (R r) := by simp [MmHeap.regionBlocks,hb]
    have hbd := hreg.tiles.bounds b hb'
    have := hreg.tiles.pos hb'
    exact ⟨r,hr,hbd.1,by simp only [MmHeap.regionEnd]; omega⟩

theorem nodelistInit_mem (heap : MmHeap) {i : Nat} (hi : i < MM_NNODES) :
    (nodelistInit heap).mem (heap.nodelist i) =
      { size := 0, preceding := 0,
        flink := if i + 1 < MM_NNODES then some (heap.nodelist (i + 1)) else none,
        blink := if i = 0 then none else some (heap.nodelist (i - 1)) } := by
  have hsub : heap.nodelist i - heap.mm_nodelist = i * SIZEOF_MM_FREENODE := by
    simp [MmHeap.nodelist]
  have hlt : heap.nodelist i < heap.nodelist MM_NNODES := by
    simp only [MmHeap.nodelist,SIZEOF_MM_FREENODE,SIZEOF_MM_ALLOCNODE,MM_PTR_SIZE]
    omega
  simp only [nodelistInit]
  rw [if_pos ⟨by simp [MmHeap.nodelist],hlt,by rw [hsub]; simp⟩,hsub,
    Nat.mul_div_cancel _ (by decide : 0 < SIZEOF_MM_FREENODE)]

theorem nodelistInit_seg (heap : MmHeap) (n k : Nat) (hk : k + n + 1 = MM_NNODES) :
    DList.Seg (nodelistInit heap).flink (nodelistInit heap).blink
      (if k = 0 then none else some (heap.nodelist (k - 1))) (some (heap.nodelist k))
      ((List.range' k (n + 1)).map heap.nodelist) none := by
  induction n generalizing k with
  | zero =>
    refine .cons _ _ _ _ ?_ (DList.Seg.nil_iff.mpr ?_)
    · simp [MmHeap.blink,nodelistInit_mem heap (by omega : k < MM_NNODES)]
    · simp [MmHeap.flink,nodelistInit_mem heap (by omega : k < MM_NNODES)]
      omega
  | succ n ih =>
    rw [List.range'_succ,List.map_cons]
    refine .cons _ _ _ _ ?_ ?_
    · simp [MmHeap.blink,nodelistInit_mem heap (by omega : k < MM_NNODES)]
    · have := ih (k + 1) (by omega)
      simp only [Nat.add_one_ne_zero,if_false,Nat.add_sub_cancel] at this
      simpa [MmHeap.flink,nodelistInit_mem heap (by omega : k < MM_NNODES),
        (by omega : k + 1 < MM_NNODES)] using this

theorem nodelistInit_shape (heap : MmHeap) (h0 : heap.mm_nregions = 0)
    (hfit : heap.nodelist MM_NNODES ≤ 2 ^ 32) :
    (nodelistInit heap).Shape (fun _ => []) (fun _ => []) := by
  have hnl : (nodelistInit heap).nodelist = heap.nodelist := rfl
  refine ⟨fun r hr => absurd hr (by simp [nodelistInit,h0]),fun r hr => absurd hr (by simp [nodelistInit,h0]),
    fun r hr => absurd hr (by simp [nodelistInit,h0]),hfit,⟨?_,fun i hi => ?_,by simp,by simp⟩,
    fun c => ?_⟩
  · have hL : (nodelistInit heap).freeList (fun _ => []) = (List.range' 0 (18 + 1)).map heap.nodelist := by
      simp [MmHeap.freeList,MmHeap.classes,hnl,MM_NNODES,MM_MAX_SHIFT,MM_MIN_SHIFT,List.range_eq_range',
        List.map_eq_flatMap]
    rw [hL,hnl]
    exact nodelistInit_seg heap 18 0 rfl
  · simp [MmHeap.size,hnl,nodelistInit_mem heap hi]
  · simp [Listed,MmHeap.FreeChunk]

section Addregion

variable {heap : MmHeap} {R : Nat → List Block} {B : Nat → List Nat}

theorem MmHeap.totalSize_update {heap heap' : MmHeap} {n v w : Nat} (hn : heap.mm_nregions = n)
    (hnr : heap'.mm_nregions = n + 1) (hst : heap'.mm_heapstart = Function.update heap.mm_heapstart n v)
    (hen : heap'.mm_heapend = Function.update heap.mm_heapend n w) :
    heap'.totalSize = heap.totalSize + heap'.regionSize n := by
  simp only [MmHeap.totalSize,hnr,hn,List.range_succ,List.map_append,List.sum_append,List.map_cons,
    List.map_nil,List.sum_cons,List.sum_nil,Nat.add_zero]
  congr 1
  refine congrArg List.sum (List.map_congr_left fun r hr => ?_)
  have : r ≠ n := Nat.ne_of_lt (List.mem_range.mp hr)
  simp [MmHeap.regionSize,hst,hen,Function.update_of_ne this]

theorem addregion_spec (hs : heap.Shape R B) {fuel hb he : Nat} {heapA : MmHeap}
    (hfuel : (heap.freeList B).length ≤ fuel)
    (hb16 : hb % MM_MIN_CHUNK = 0) (he16 : he % MM_MIN_CHUNK = 0) (hroom : hb + 2 * MM_MIN_CHUNK ≤ he)
    (hsmall : he - hb < MM_ALLOC_BIT) (hfit : he ≤ 2 ^ 32)
    (hapart : ∀ r < heap.mm_nregions, heap.regionEnd r ≤ hb ∨ he ≤ heap.mm_heapstart r)
    (hnodes : he ≤ heap.mm_nodelist ∨ heap.nodelist MM_NNODES ≤ hb)
    (hsize : heapA.size = Function.update (Function.update (Function.update heap.size hb SIZEOF_MM_ALLOCNODE)
      (hb + SIZEOF_MM_ALLOCNODE) (he - hb - 2 * SIZEOF_MM_ALLOCNODE)) (he - SIZEOF_MM_ALLOCNODE)
      SIZEOF_MM_ALLOCNODE)
    (hprec : heapA.preceding = Function.update (Function.update (Function.update heap.preceding hb MM_ALLOC_BIT)
      (hb + SIZEOF_MM_ALLOCNODE) SIZEOF_MM_ALLOCNODE) (he - SIZEOF_MM_ALLOCNODE)
      ((he - hb - 2 * SIZEOF_MM_ALLOCNODE) ||| MM_ALLOC_BIT))
    (hfl : heapA.flink = heap.flink) (hbl : heapA.blink = heap.blink)
    (hsz : heapA.mm_heapsize = heap.mm_heapsize + (he - hb))
    (hst : heapA.mm_heapstart = Function.update heap.mm_heapstart heap.mm_nregions hb)
    (hen : heapA.mm_heapend = Function.update heap.mm_heapend heap.mm_nregions (he - SIZEOF_MM_ALLOCNODE))
    (hnr : heapA.mm_nregions = heap.mm_nregions + 1) (hnl : heapA.mm_nodelist = heap.mm_nodelist) :
    ∃ heap' P Q, mmAddfreechunk fuel heapA (hb + SIZEOF_MM_ALLOCNODE) = some heap' ∧
      B (mmSize2ndx (he - hb - 2 * SIZEOF_MM_ALLOCNODE)) = P ++ Q ∧
      heap'.Shape (Function.update R heap.mm_nregions
        [⟨hb + SIZEOF_MM_ALLOCNODE,he - hb - 2 * SIZEOF_MM_ALLOCNODE,true⟩])
        (Function.update B (mmSize2ndx (he - hb - 2 * SIZEOF_MM_ALLOCNODE)) (P ++ (hb + SIZEOF_MM_ALLOCNODE) :: Q)) ∧
      heap'.mm_heapsize = heap.mm_heapsize + (he - hb) ∧ heap'.totalSize = heap.totalSize + (he - hb) ∧
      heap'.mm_nregions = heap.mm_nregions + 1 ∧
      heap'.mm_heapstart = Function.update heap.mm_heapstart heap.mm_nregions hb ∧
      heap'.mm_heapend = Function.update heap.mm_heapend heap.mm_nregions (he - SIZEOF_MM_ALLOCNODE) ∧
      heap'.mm_nodelist = heap.mm_nodelist := by
  simp only [MM_MIN_CHUNK,MM_MIN_SHIFT,Nat.shiftLeft_eq,SIZEOF_MM_ALLOCNODE] at *
  have hnl' : heapA.nodelist = heap.nodelist := by
    funext i
    simp [MmHeap.nodelist,hnl]
  have hout : ∀ c ∈ heap.freeList B, c < hb ∨ he ≤ c := fun c hc => by
    rcases hs.mem_freeList hc with ⟨h1,h2⟩ | ⟨r,hr,h1,h2⟩
    · rcases hnodes with h | h <;> omega
    · rcases hapart r hr with h | h <;> simp only [MmHeap.regionEnd,SIZEOF_MM_ALLOCNODE] at h h2 <;> omega
  have hfA : heapA.FreeList B := hs.freeList.congr hfl hbl hnl fun c hc => by
    rw [hsize]
    have := hout c hc
    simp only [Function.update_apply]
    split_ifs <;> first | rfl | omega
  have hLA : heapA.freeList = heap.freeList := by
    funext B
    simp [MmHeap.freeList,MmHeap.classes,hnl']
  have hnode : hb + 8 ∉ heapA.freeList B := by
    rw [hLA]
    intro hc
    have := hout _ hc
    omega
  have hsx : heapA.size (hb + 8) = he - hb - 2 * 8 := by
    rw [hsize]
    simp only [Function.update_apply]
    split_ifs <;> omega
  obtain ⟨heap',P,Q,hadd,hrel,hPQ,-,-,hf'⟩ := hfA.addfreechunk hnode (by rw [hsx]; omega) (hLA ▸ hfuel)
  rw [hsx] at hPQ hf'
  have hrA : ∀ r < heapA.mm_nregions, heapA.Region r
      (Function.update R heap.mm_nregions [⟨hb + 8,he - hb - 2 * 8,true⟩] r) := fun r hr => by
    by_cases hrn : r = heap.mm_nregions
    · subst hrn
      simp only [Function.update_self]
      refine ⟨?_,by simp [MM_MIN_CHUNK,MM_MIN_SHIFT,Nat.shiftLeft_eq]; omega,.singleton _,
        by simp [hst,hen,SIZEOF_MM_ALLOCNODE]; omega,by simp [hen,SIZEOF_MM_ALLOCNODE]; omega⟩
      simp only [MmHeap.regionBlocks,guard,hst,hen,Function.update_self,List.cons_append,List.nil_append,
        Tiles.cons_iff,Tiles.nil_iff,hsize,hprec,Function.update_apply,SIZEOF_MM_ALLOCNODE,mkPrec]
      split_ifs <;> first | omega | (simp [MM_ALLOC_BIT]; omega)
    · rw [Function.update_of_ne hrn]
      have hr' : r < heap.mm_nregions := by omega
      refine (hs.region r hr').frame (by rw [hst,Function.update_of_ne hrn])
        (by rw [hen,Function.update_of_ne hrn]) (fun x h1 h2 => ?_) (fun x h1 h2 => ?_)
      all_goals
        have := hapart r hr'
        simp only [MmHeap.regionEnd,SIZEOF_MM_ALLOCNODE] at this h2
        simp only [hsize,hprec,Function.update_apply]
        split_ifs <;> first | rfl | omega
  have hen' : heap'.mm_heapend = Function.update heap.mm_heapend heap.mm_nregions (he - 8) := by
    rw [hrel.mm_heapend,hen]
  have hst' : heap'.mm_heapstart = Function.update heap.mm_heapstart heap.mm_nregions hb := by
    rw [hrel.mm_heapstart,hst]
  have hnr' : heap'.mm_nregions = heap.mm_nregions + 1 := by rw [hrel.mm_nregions,hnr]
  have hend_new : heap'.regionEnd heap.mm_nregions = he := by
    simp only [MmHeap.regionEnd,hen',Function.update_self,SIZEOF_MM_ALLOCNODE]
    omega
  have hold : ∀ r < heap.mm_nregions, heap'.regionEnd r = heap.regionEnd r ∧
      heap'.mm_heapstart r = heap.mm_heapstart r := fun r hr => by
    simp [MmHeap.regionEnd,hen',hst',Function.update_of_ne (Nat.ne_of_lt hr)]
  refine ⟨heap',P,Q,hadd,hPQ,⟨fun r hr => hrel.region (hrA r (by rw [hrel.mm_nregions] at hr; exact hr)),
    fun r hr r' hr' hne => ?_,fun r hr => ?_,by rw [hrel.nodelist,hnl']; exact hs.nodes_fit,hf',
    fun c => ?_⟩,by rw [hrel.mm_heapsize,hsz],?_,hnr',hst',hen',by rw [hrel.mm_nodelist,hnl]⟩
  · rw [hnr'] at hr hr'
    rcases Nat.lt_succ_iff_lt_or_eq.mp hr with hr | rfl <;>
      rcases Nat.lt_succ_iff_lt_or_eq.mp hr' with hr' | rfl
    · rw [(hold r hr).1,(hold r' hr').1,(hold r hr).2,(hold r' hr').2]
      exact hs.apart r hr r' hr' hne
    · rw [(hold r hr).1,(hold r hr).2,hend_new,hst',Function.update_self]
      exact hapart r hr
    · rw [(hold r' hr').1,(hold r' hr').2,hend_new,hst',Function.update_self]
      exact (hapart r' hr').symm
    · exact absurd rfl hne
  · rw [hnr'] at hr
    rw [hrel.mm_nodelist,hrel.nodelist,hnl,hnl']
    rcases Nat.lt_succ_iff_lt_or_eq.mp hr with hr | rfl
    · rw [(hold r hr).1,(hold r hr).2]
      exact hs.nodes r hr
    · rw [hend_new,hst',Function.update_self]
      exact hnodes
  · rw [listed_insert (mmSize2ndx_lt _) hPQ,hs.listed_iff,MmHeap.freeChunk_update hnr']
    simp only [List.mem_singleton,exists_eq_left,true_and]
    exact or_congr_right eq_comm
  · rw [MmHeap.totalSize_update rfl hnr' hst' hen']
    simp only [MmHeap.regionSize,hen',hst',Function.update_self,SIZEOF_MM_ALLOCNODE]
    omega

theorem mmAlignUp_of_lt {a : Nat} (h : a + MM_GRAN_MASK < 2 ^ 32) : mmAlignUp a = (a + 15) / 16 * 16 := by
  simp only [mmAlignUp,MM_GRAN_MASK,MM_MIN_CHUNK,MM_MIN_SHIFT,Nat.shiftLeft_eq] at h ⊢
  rw [Nat.mod_eq_of_lt (by omega)]

theorem mmAddregion_shape (hs : heap.Shape R B) (fuel heapstart heapsize : Nat)
    (hfuel : (heap.freeList B).length ≤ fuel) (hstart : heapstart + MM_GRAN_MASK < 2 ^ 32)
    (hend : heapstart + heapsize ≤ 2 ^ 32)
    (hroom : mmAlignUp heapstart + 2 * MM_MIN_CHUNK ≤ mmAlignDown (heapstart + heapsize))
    (hsmall : mmAlignDown (heapstart + heapsize) - mmAlignUp heapstart < MM_ALLOC_BIT)
    (hapart : ∀ r < heap.mm_nregions,
      heap.regionEnd r ≤ heapstart ∨ heapstart + heapsize ≤ heap.mm_heapstart r)
    (hnodes : heapstart + heapsize ≤ heap.mm_nodelist ∨ heap.nodelist MM_NNODES ≤ heapstart) :
    ∃ heap' P Q, mmAddregion fuel heap heapstart heapsize = some heap' ∧
      B (mmSize2ndx (mmAlignDown (heapstart + heapsize) - mmAlignUp heapstart - 2 * SIZEOF_MM_ALLOCNODE)) =
        P ++ Q ∧
      heap'.Shape (Function.update R heap.mm_nregions
        [⟨mmAlignUp heapstart + SIZEOF_MM_ALLOCNODE,
          mmAlignDown (heapstart + heapsize) - mmAlignUp heapstart - 2 * SIZEOF_MM_ALLOCNODE,true⟩])
        (Function.update B
          (mmSize2ndx (mmAlignDown (heapstart + heapsize) - mmAlignUp heapstart - 2 * SIZEOF_MM_ALLOCNODE))
          (P ++ (mmAlignUp heapstart + SIZEOF_MM_ALLOCNODE) :: Q)) ∧
      heap'.mm_heapsize = heap.mm_heapsize + (mmAlignDown (heapstart + heapsize) - mmAlignUp heapstart) ∧
      heap'.totalSize = heap.totalSize + (mmAlignDown (heapstart + heapsize) - mmAlignUp heapstart) ∧
      heap'.mm_nregions = heap.mm_nregions + 1 ∧
      heap'.mm_heapstart = Function.update heap.mm_heapstart heap.mm_nregions (mmAlignUp heapstart) ∧
      heap'.mm_heapend = Function.update heap.mm_heapend heap.mm_nregions
        (mmAlignDown (heapstart + heapsize) - SIZEOF_MM_ALLOCNODE) ∧
      heap'.mm_nodelist = heap.mm_nodelist := by
  have hup := mmAlignUp_of_lt hstart
  have hdown : mmAlignDown (heapstart + heapsize) = (heapstart + heapsize) / 16 * 16 := rfl
  simp only [MM_MIN_CHUNK,MM_MIN_SHIFT,Nat.shiftLeft_eq,MM_GRAN_MASK] at hroom hstart
  have hne : mmAlignUp heapstart + SIZEOF_MM_ALLOCNODE ≠
      mmAlignDown (heapstart + heapsize) - SIZEOF_MM_ALLOCNODE := by
    simp only [SIZEOF_MM_ALLOCNODE]
    omega
  unfold mmAddregion
  exact addregion_spec hs hfuel
    (by rw [hup]; simp [MM_MIN_CHUNK,MM_MIN_SHIFT]) (by rw [hdown]; simp [MM_MIN_CHUNK,MM_MIN_SHIFT])
    (by simp [MM_MIN_CHUNK,MM_MIN_SHIFT]; omega) hsmall (by omega)
    (fun r hr => by rcases hapart r hr with h | h <;> omega) (by rcases hnodes with h | h <;> omega)
    (by simp) (by simp [Function.update_of_ne hne]) (by simp) (by simp) rfl rfl rfl rfl rfl

theorem mmInitialize_shape (fuel : Nat) (heap : MmHeap) (heapstart heapsize : Nat)
    (hfuel : MM_NNODES ≤ fuel) (hfit : heap.nodelist MM_NNODES ≤ 2 ^ 32)
    (hstart : heapstart + MM_GRAN_MASK < 2 ^ 32) (hend : heapstart + heapsize ≤ 2 ^ 32)
    (hroom : mmAlignUp heapstart + 2 * MM_MIN_CHUNK ≤ mmAlignDown (heapstart + heapsize))
    (hsmall : mmAlignDown (heapstart + heapsize) - mmAlignUp heapstart < MM_ALLOC_BIT)
    (hnodes : heapstart + heapsize ≤ heap.mm_nodelist ∨ heap.nodelist MM_NNODES ≤ heapstart) :
    ∃ heap', mmInitialize fuel heap heapstart heapsize = some heap' ∧
      heap'.Shape (Function.update (fun _ => []) 0
          [⟨mmAlignUp heapstart + SIZEOF_MM_ALLOCNODE,
            mmAlignDown (heapstart + heapsize) - mmAlignUp heapstart - 2 * SIZEOF_MM_ALLOCNODE,true⟩])
        (Function.update (fun _ => [])
          (mmSize2ndx (mmAlignDown (heapstart + heapsize) - mmAlignUp heapstart - 2 * SIZEOF_MM_ALLOCNODE))
          [mmAlignUp heapstart + SIZEOF_MM_ALLOCNODE]) ∧
      heap'.mm_heapsize = heap'.totalSize ∧ heap'.mm_nregions = 1 ∧
      heap'.mm_heapstart 0 = mmAlignUp heapstart ∧
      heap'.mm_heapend 0 = mmAlignDown (heapstart + heapsize) - SIZEOF_MM_ALLOCNODE ∧
      heap'.mm_nodelist = heap.mm_nodelist := by
  let heap₀ : MmHeap := { heap with mm_heapsize := 0, mm_nregions := 0 }
  have hs₀ := nodelistInit_shape heap₀ rfl hfit
  have hlen : ((nodelistInit heap₀).freeList fun _ => []).length ≤ fuel := by
    simpa [MmHeap.freeList,MmHeap.classes,MM_NNODES,MM_MAX_SHIFT,MM_MIN_SHIFT] using hfuel
  obtain ⟨heap',P,Q,hadd,hPQ,hs',hsz,htot,hnr,hst,hen,hnl⟩ := mmAddregion_shape hs₀ fuel heapstart heapsize hlen
    hstart hend hroom hsmall (fun r hr => absurd hr (by simp [nodelistInit,heap₀])) hnodes
  obtain ⟨rfl,rfl⟩ := List.append_eq_nil_iff.mp hPQ.symm
  refine ⟨heap',hadd,by simpa [nodelistInit,heap₀] using hs',?_,by simpa [nodelistInit,heap₀] using hnr,by simp [hst,nodelistInit,heap₀],
    by simp [hen,nodelistInit,heap₀],by simpa [nodelistInit,heap₀] using hnl⟩
  rw [hsz,htot]
  simp [MmHeap.totalSize,nodelistInit,heap₀]

end Addregion

end TizenRT.Heap
