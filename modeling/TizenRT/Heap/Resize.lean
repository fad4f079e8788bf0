import TizenRT.Heap.Malloc

set_option autoImplicit false

/-!
Resizing an allocated chunk where it lies (mm/mm_shrinkchunk.c, mm_realloc.c). `mm_shrinkchunk`
gives the end of a chunk back, to a free next chunk or as a free chunk of its own; `mm_realloc`
grows a chunk into its free neighbours, taking from the previous one, the next one or both. Each
step keeps the heap's shape and every allocated chunk other than the one resized.
-/

namespace TizenRT.Heap

open BoundaryTag

theorem eq_or_eq_of_update_ne {f : Nat → Nat} {p q v w a : Nat}
    (h : Function.update (Function.update f p v) q w a ≠ f a) : a = q ∨ a = p := by
  by_contra hne
  simp only [not_or] at hne
  exact h (by rw [Function.update_of_ne hne.1,Function.update_of_ne hne.2])

theorem MmHeap.WritesIn.of_update {heap heap' : MmHeap} {r p₁ p₂ q₁ q₂ v₁ v₂ w₁ w₂ : Nat}
    (hb : heap.SameBounds heap')
    (hsz : heap'.size = Function.update (Function.update heap.size p₁ v₁) p₂ v₂)
    (hpr : heap'.preceding = Function.update (Function.update heap.preceding q₁ w₁) q₂ w₂)
    (hin : ∀ a ∈ [p₁,p₂,q₁,q₂], heap.mm_heapstart r ≤ a ∧ a < heap.regionEnd r) : heap.WritesIn heap' r := by
  refine ⟨hb,fun a ha => ?_,fun a ha => ?_⟩
  · rw [hsz] at ha
    rcases eq_or_eq_of_update_ne ha with rfl | rfl <;> exact hin _ (by simp)
  · rw [hpr] at ha
    rcases eq_or_eq_of_update_ne ha with rfl | rfl <;> exact hin _ (by simp)

section Writes

variable {heap : MmHeap} {a ps e pe s : Nat} {L₀ L : List Block}

theorem tiles_shift {u v w : Block} {f : Bool}
    (h : Tiles heap.size heap.preceding mkPrec a ps (L₀ ++ u :: v :: w :: L) e pe) (hv : v.size < MM_ALLOC_BIT)
    (hs0 : 0 < s) (hlt : s < u.size + v.size) :
    Tiles (Function.update (Function.update heap.size (u.addr + s) (u.size + v.size - s)) u.addr s)
      (Function.update (Function.update heap.preceding (u.addr + s) (mkPrec s f)) w.addr
        ((u.size + v.size - s) ||| (heap.preceding w.addr &&& MM_ALLOC_BIT)))
      mkPrec a ps (L₀ ++ ⟨u.addr,s,u.free⟩ :: ⟨u.addr + s,u.size + v.size - s,f⟩ :: w :: L) e pe := by
  have h' : Tiles heap.size heap.preceding mkPrec a ps ((L₀ ++ [u]) ++ v :: w :: L) e pe := by simpa using h
  have hvu := h.next.1
  have hwv := h'.next.1
  have hpu := h.pos (b := u) (by simp)
  refine h.in_context (fun x hx => ?_) (fun x hx => ?_) fun hmid => ?_
  · rw [Function.update_of_ne (by omega),Function.update_of_ne (by omega)]
  · rw [Function.update_of_ne (by omega),Function.update_of_ne (by omega)]
  obtain ⟨-,-,-,-,h₁⟩ := Tiles.cons_iff.mp hmid
  obtain ⟨-,-,-,-,h₂⟩ := Tiles.cons_iff.mp h₁
  obtain ⟨hw,-,htw,-,-⟩ := Tiles.cons_iff.mp h₂
  refine hmid.shift hs0 hlt (Function.update_self _ _ _) ?_ (fun x h₁ h₂ _ => ?_) ?_ ?_ (fun x h₁ _ h₃ => ?_)
  · rw [Function.update_of_ne (by omega),Function.update_self]
  · rw [Function.update_of_ne h₁,Function.update_of_ne h₂]
  · rw [Function.update_of_ne (by omega),Function.update_self]
  · rw [Function.update_self,hw,htw,or_mkPrec_and_alloc hv]
  · rw [Function.update_of_ne h₃,Function.update_of_ne h₁]

theorem tiles_split {u w : Block} {f : Bool}
    (h : Tiles heap.size heap.preceding mkPrec a ps (L₀ ++ u :: w :: L) e pe) (hu : u.size < MM_ALLOC_BIT)
    (hs0 : 0 < s) (hlt : s < u.size) :
    Tiles (Function.update (Function.update heap.size (u.addr + s) (u.size - s)) u.addr s)
      (Function.update (Function.update heap.preceding (u.addr + s) (mkPrec s f)) w.addr
        ((u.size - s) ||| (heap.preceding w.addr &&& MM_ALLOC_BIT)))
      mkPrec a ps (L₀ ++ ⟨u.addr,s,u.free⟩ :: ⟨u.addr + s,u.size - s,f⟩ :: w :: L) e pe := by
  have hwu := h.next.1
  refine h.in_context (fun x hx => ?_) (fun x hx => ?_) fun hmid => ?_
  · rw [Function.update_of_ne (by omega),Function.update_of_ne (by omega)]
  · rw [Function.update_of_ne (by omega),Function.update_of_ne (by omega)]
  obtain ⟨-,-,-,-,h₁⟩ := Tiles.cons_iff.mp hmid
  obtain ⟨hw,-,htw,-,-⟩ := Tiles.cons_iff.mp h₁
  refine hmid.split_block hs0 hlt (Function.update_self _ _ _) ?_ (fun x h₁ h₂ => ?_) ?_ ?_ (fun x h₁ h₂ => ?_)
  · rw [Function.update_of_ne (by omega),Function.update_self]
  · rw [Function.update_of_ne h₁,Function.update_of_ne h₂]
  · rw [Function.update_of_ne (by omega),Function.update_self]
  · rw [Function.update_self,hw,htw,or_mkPrec_and_alloc hu]
  · rw [Function.update_of_ne h₂,Function.update_of_ne h₁]

end Writes

theorem head_of_append_guard {l₂ L : List Block} {d : Block} {g : Nat} (h : l₂ ++ [guard g] = d :: L) :
    (l₂ = [] ∧ d = guard g) ∨ ∃ l₃, l₂ = d :: l₃ ∧ L = l₃ ++ [guard g] := by
  cases l₂ with
  | nil => exact .inl ⟨rfl,(List.cons.inj h).1.symm⟩
  | cons y l₃ =>
    obtain ⟨rfl,hL⟩ := List.cons.inj h
    exact .inr ⟨l₃,rfl,hL.symm⟩

theorem MmHeap.Region.pair {heap : MmHeap} {r : Nat} {l₁ l₃ : List Block} {b d : Block}
    (hreg : heap.Region r (l₁ ++ b :: d :: l₃)) :
    ∃ w L, l₃ ++ [guard (heap.mm_heapend r)] = w :: L ∧
      Tiles heap.size heap.preceding mkPrec (heap.mm_heapstart r) 0
        ((guard (heap.mm_heapstart r) :: l₁) ++ b :: d :: w :: L) (heap.mm_heapend r + SIZEOF_MM_ALLOCNODE)
        SIZEOF_MM_ALLOCNODE ∧
      d.addr = b.addr + b.size ∧ w.addr = d.addr + d.size ∧ heap.mm_heapstart r ≤ b.addr ∧
      w.addr < heap.regionEnd r := by
  obtain ⟨w,L,hwL⟩ : ∃ w L, l₃ ++ [guard (heap.mm_heapend r)] = w :: L := List.exists_cons_of_ne_nil (by simp)
  have ht : Tiles heap.size heap.preceding mkPrec (heap.mm_heapstart r) 0
      ((guard (heap.mm_heapstart r) :: l₁) ++ b :: d :: w :: L) (heap.mm_heapend r + SIZEOF_MM_ALLOCNODE)
      SIZEOF_MM_ALLOCNODE := by
    have := hreg.tiles
    simp only [MmHeap.regionBlocks_mid,List.cons_append] at this
    rw [hwL] at this
    exact this
  have hwd : w.addr = d.addr + d.size := (by simpa using ht : Tiles heap.size heap.preceding mkPrec _ 0
    (((guard (heap.mm_heapstart r) :: l₁) ++ [b]) ++ d :: w :: L) _ _).next.1
  have hbb := ht.bounds b (by simp)
  have hwb := ht.bounds w (by simp)
  have hw0 := ht.pos (b := w) (by simp)
  refine ⟨w,L,hwL,ht,ht.next.1,hwd,hbb.1,?_⟩
  simp only [MmHeap.regionEnd]
  omega

theorem isChain_append_allocated {l : List Block} {b : Block} (hl : l.IsChain Coalesced) (hb : b.free = false) :
    (l ++ [b]).IsChain Coalesced :=
  List.isChain_append.mpr ⟨hl,.singleton _,fun _ _ y hy => by
    simp only [List.head?_cons,Option.mem_def,Option.some.injEq] at hy
    exact .inr (hy ▸ hb)⟩

section Shape

variable {heap : MmHeap} {R : Nat → List Block} {B : Nat → List Nat} {r : Nat}

theorem MmHeap.Shape.not_mem_freeList_of_mem (hs : heap.Shape R B) (hr : r < heap.mm_nregions)
    {y : Block} (hy : y ∈ R r) {a : Nat}
    (ha : y.addr < a ∧ a < y.addr + y.size ∨ a = y.addr ∧ y.free = false) : a ∉ heap.freeList B := by
  have hreg := hs.region r hr
  have hy' : y ∈ heap.regionBlocks r (R r) := by simp [MmHeap.regionBlocks,hy]
  have hyb := hreg.tiles.bounds y hy'
  have hy0 := hreg.tiles.pos hy'
  intro hc
  obtain ⟨i,hi,rfl | hc'⟩ := (heap.mem_freeList B).mp hc
  · have : i * SIZEOF_MM_FREENODE < MM_NNODES * SIZEOF_MM_FREENODE := Nat.mul_lt_mul_of_pos_right hi (by decide)
    rcases hs.nodes r hr with h | h <;> simp only [MmHeap.regionEnd,MmHeap.nodelist] at h ha <;> omega
  obtain ⟨r',hr',z,hz,hzf,rfl⟩ := (hs.listed_iff _).mp ⟨i,hi,hc'⟩
  have hz' : z ∈ heap.regionBlocks r' (R r') := by simp [MmHeap.regionBlocks,hz]
  have hz0 := (hs.region r' hr').tiles.pos hz'
  by_cases hrr : r' = r
  · subst hrr
    by_cases hzy : z = y
    · subst hzy
      rcases ha with h | h
      · omega
      · simp [h.2] at hzf
    · rcases hreg.tiles.disjoint hz' hy' hzy with h | h <;> omega
  · have := (hs.region r' hr').tiles.bounds z hz'
    rcases hs.apart r' hr' r hr hrr with h | h <;> simp only [MmHeap.regionEnd] at h <;> omega

theorem MmHeap.Shape.freeing (hs : heap.Shape R B) (hr : r < heap.mm_nregions) {heap' : MmHeap}
    (hw : heap.WritesIn heap' r) {B' : Nat → List Nat} {l₁ l₂ : List Block} {x : Block}
    (htiles : Tiles heap'.size heap'.preceding mkPrec (heap.mm_heapstart r) 0
      (heap.regionBlocks r (l₁ ++ x :: l₂)) (heap.mm_heapend r + SIZEOF_MM_ALLOCNODE) SIZEOF_MM_ALLOCNODE)
    (haligned : ∀ b ∈ l₁ ++ x :: l₂, b.size % MM_MIN_CHUNK = 0)
    (hchain₁ : l₁.IsChain Coalesced) (hchain₂ : l₂.IsChain Coalesced) (hfree : x.free = true)
    (hfl : heap'.FreeList B') (hlisted : ∀ c, Listed B' c ↔ heap.FreeChunk (Function.update R r (l₁ ++ l₂)) c) :
    heap'.Freeing R B' r l₁ x l₂ := by
  have hb := hw.bounds
  have hreg := hs.region r hr
  refine ⟨by rw [hb.mm_nregions]; exact hr,fun r' hr' hrr => ?_,?_,?_,?_,?_,haligned,hchain₁,hchain₂,
    ?_,?_,hfree,hfl,fun c => by rw [hlisted,hb.freeChunk]⟩
  · rw [hb.mm_nregions] at hr'
    exact (hs.region r' hr').of_writesIn hw (hs.apart r' hr' r hr hrr)
  · rw [hb.mm_nregions,hb.regionEnd,hb.mm_heapstart]
    exact hs.apart
  · rw [hb.mm_nregions,hb.regionEnd,hb.mm_heapstart,hb.mm_nodelist,hb.nodelist]
    exact hs.nodes
  · rw [hb.nodelist]
    exact hs.nodes_fit
  · rwa [hb.regionBlocks,hb.mm_heapstart,hb.mm_heapend]
  · rw [hb.mm_heapend,hb.mm_heapstart]
    exact hreg.small
  · rw [hb.mm_heapend]
    exact hreg.fits

theorem MmHeap.Shape.unlinkListed (hs : heap.Shape R B) (hr : r < heap.mm_nregions) {l₁ l₂ : List Block}
    {x : Block} (hR : R r = l₁ ++ x :: l₂) (hx : x.free = true) :
    ∃ B₁, (heap.unlink x.addr).Freeing R B₁ r l₁ x l₂ ∧ (∀ p ∈ l₁.getLast?, p.free = false) ∧
      (∀ y ∈ l₂.head?, y.free = false) ∧ (∀ c ∈ (heap.unlink x.addr).freeList B₁, c ∈ heap.freeList B) ∧
      ((heap.unlink x.addr).freeList B₁).length + 1 = (heap.freeList B).length := by
  obtain ⟨j,hj,hxj⟩ : Listed B x.addr := (hs.listed_iff _).mpr ⟨r,hr,x,by rw [hR]; simp,hx,rfl⟩
  obtain ⟨P,Q,hPQ⟩ := List.append_of_mem hxj
  obtain ⟨hf,hprev,hnext⟩ := hs.unlinkFree hr hR hx hj hPQ
  have hrel := heap.relinked_unlink x.addr
  refine ⟨_,hf,hprev,hnext,fun c hc => ?_,?_⟩
  · exact MmHeap.mem_freeList_of_erase hj hPQ (by rwa [hrel.freeList] at hc)
  · rw [hrel.freeList]
    exact MmHeap.freeList_length_erase hj hPQ

theorem MmHeap.Shape.shiftNext (hs : heap.Shape R B) (hr : r < heap.mm_nregions) {l₁ l₃ : List Block}
    {b d : Block} (hR : R r = l₁ ++ b :: d :: l₃) (hb : b.free = false) (hd : d.free = true) {s fuel : Nat}
    (hs0 : 0 < s) (hsa : s % MM_MIN_CHUNK = 0) (hroom : s + SIZEOF_MM_FREENODE ≤ b.size + d.size)
    (hfuel : (heap.freeList B).length ≤ fuel) (heap₂ : MmHeap)
    (hfl : heap₂.flink = (heap.unlink d.addr).flink) (hbl : heap₂.blink = (heap.unlink d.addr).blink)
    (hbd : (heap.unlink d.addr).SameBounds heap₂)
    (hsz : heap₂.size = Function.update (Function.update heap.size (b.addr + s) (b.size + d.size - s)) b.addr s)
    (hpr : heap₂.preceding = Function.update (Function.update heap.preceding (b.addr + s) s) (d.addr + d.size)
      ((b.size + d.size - s) ||| (heap.preceding (d.addr + d.size) &&& MM_ALLOC_BIT))) :
    ∃ heap' B', mmAddfreechunk fuel heap₂ (b.addr + s) = some heap' ∧
      heap'.Shape (Function.update R r (l₁ ++ ⟨b.addr,s,false⟩ :: ⟨b.addr + s,b.size + d.size - s,true⟩ :: l₃)) B' ∧
      heap.SameBounds heap' := by
  have h16 : SIZEOF_MM_FREENODE = 16 := rfl
  have hreg := hs.region r hr
  obtain ⟨B₁,hf,-,hnext,hsub,hlen⟩ := hs.unlinkListed hr (by rw [hR]; simp : R r = (l₁ ++ [b]) ++ d :: l₃) hd
  have hrel := heap.relinked_unlink d.addr
  obtain ⟨w,L,hwL,ht,hdb,hwd,hbs,hwe⟩ := (hR ▸ hreg).pair
  have hdin : d ∈ heap.regionBlocks r (R r) := by simp [MmHeap.regionBlocks,hR]
  have hw : (heap.unlink d.addr).WritesIn heap₂ r := by
    refine MmHeap.WritesIn.of_update hbd (by rw [hsz,MmHeap.unlink_size]) (by rw [hpr,MmHeap.unlink_preceding])
      fun a ha => ?_
    simp only [List.mem_cons,List.not_mem_nil,or_false] at ha
    rw [hrel.sameBounds.regionEnd,hrel.mm_heapstart]
    omega
  have htiles := tiles_shift (f := true) ht (hreg.size_lt hdin) hs0 (by omega)
  rw [hb,hwd,← hsz,show mkPrec s true = s from rfl,← hpr] at htiles
  have hfl₂ : heap₂.FreeList B₁ := by
    refine hf.freeList.congr (by rw [hfl]) (by rw [hbl]) hbd.mm_nodelist fun c hc => ?_
    have hcB := hsub c hc
    have hcb : c ≠ b.addr := fun he => hs.not_mem_freeList_of_mem hr (by rw [hR]; simp) (.inr ⟨he,hb⟩) hcB
    have hcs : c ≠ b.addr + s := by
      intro hc'
      rcases Nat.lt_trichotomy s b.size with h | h | h
      · exact hs.not_mem_freeList_of_mem hr (y := b) (by rw [hR]; simp) (.inl ⟨by omega,by omega⟩) hcB
      · obtain rfl : c = d.addr := by omega
        exact hf.x_not_mem_freeList hc
      · exact hs.not_mem_freeList_of_mem hr (y := d) (by rw [hR]; simp) (.inl ⟨by omega,by omega⟩) hcB
    rw [hsz,MmHeap.unlink_size,Function.update_of_ne hcb,Function.update_of_ne hcs]
  have hlisted : ∀ c, Listed B₁ c ↔
      (heap.unlink d.addr).FreeChunk (Function.update R r ((l₁ ++ [⟨b.addr,s,false⟩]) ++ l₃)) c := fun c => by
    rw [hf.listed_iff c]
    simp only [List.append_assoc,List.singleton_append]
    rw [MmHeap.freeChunk_allocated hf.lt hb,MmHeap.freeChunk_allocated hf.lt rfl]
  have haligned : ∀ y ∈ (l₁ ++ [⟨b.addr,s,false⟩]) ++ ⟨b.addr + s,b.size + d.size - s,true⟩ :: l₃,
      y.size % MM_MIN_CHUNK = 0 := by
    have hal : ∀ y ∈ l₁ ++ b :: d :: l₃, y.size % MM_MIN_CHUNK = 0 := hR ▸ hreg.aligned
    intro y hy
    simp only [List.append_assoc,List.singleton_append,List.mem_append,List.mem_cons] at hy
    rcases hy with hy | rfl | rfl | hy
    · exact hal y (by simp [hy])
    · exact hsa
    · have := hal b (by simp)
      have := hal d (by simp)
      simp only [MM_MIN_CHUNK,MM_MIN_SHIFT,Nat.shiftLeft_eq] at *
      omega
    · exact hal y (by simp [hy])
  have hf₂ := hf.of_writesIn hw (by rw [hrel.sameBounds.regionBlocks,hrel.mm_heapstart,hrel.mm_heapend,
      MmHeap.regionBlocks_mid,hwL]; simpa using htiles) haligned
    (isChain_append_allocated (List.isChain_append.mp hf.chain₁).1 rfl) hf.chain₂ rfl hfl₂ hlisted
  have hfuel₂ : (heap₂.freeList B₁).length ≤ fuel := by
    rw [hbd.freeList]
    omega
  obtain ⟨heap',P',Q',hadd,-,-,-,hsh,hb'⟩ := hf₂.addfreechunk (by simp) hnext hfuel₂
  simp only [List.append_assoc,List.singleton_append] at hsh
  exact ⟨heap',_,hadd,hsh,(hrel.sameBounds.trans hbd).trans hb'⟩

theorem MmHeap.Shape.splitAllocated (hs : heap.Shape R B) (hr : r < heap.mm_nregions) {l₁ l₂ : List Block}
    {b : Block} (hR : R r = l₁ ++ b :: l₂) (hb : b.free = false) (hnext : ∀ y ∈ l₂.head?, y.free = false)
    {s fuel : Nat} (hs0 : 0 < s) (hsa : s % MM_MIN_CHUNK = 0) (hroom : s + SIZEOF_MM_FREENODE ≤ b.size)
    (hfuel : (heap.freeList B).length ≤ fuel) (heap₂ : MmHeap) (hfl : heap₂.flink = heap.flink)
    (hbl : heap₂.blink = heap.blink) (hbd : heap.SameBounds heap₂)
    (hsz : heap₂.size = Function.update (Function.update heap.size (b.addr + s) (b.size - s)) b.addr s)
    (hpr : heap₂.preceding = Function.update (Function.update heap.preceding (b.addr + s) s) (b.addr + b.size)
      ((b.size - s) ||| MM_ALLOC_BIT)) :
    ∃ heap' B', mmAddfreechunk fuel heap₂ (b.addr + s) = some heap' ∧
      heap'.Shape (Function.update R r (l₁ ++ ⟨b.addr,s,false⟩ :: ⟨b.addr + s,b.size - s,true⟩ :: l₂)) B' ∧
      heap.SameBounds heap' := by
  have h16 : SIZEOF_MM_FREENODE = 16 := rfl
  have hreg := hs.region r hr
  obtain ⟨w,L,hwL⟩ : ∃ w L, l₂ ++ [guard (heap.mm_heapend r)] = w :: L := List.exists_cons_of_ne_nil (by simp)
  have ht : Tiles heap.size heap.preceding mkPrec (heap.mm_heapstart r) 0
      ((guard (heap.mm_heapstart r) :: l₁) ++ b :: w :: L) (heap.mm_heapend r + SIZEOF_MM_ALLOCNODE)
      SIZEOF_MM_ALLOCNODE := by
    have := hreg.tiles
    rwa [hR,MmHeap.regionBlocks_mid,hwL] at this
  obtain ⟨hwb,hpw⟩ := ht.next
  have hwf : w.free = false := by
    rcases head_of_append_guard hwL with ⟨-,rfl⟩ | ⟨l₃,rfl,-⟩
    · rfl
    · exact hnext w rfl
  have hbin : b ∈ heap.regionBlocks r (R r) := by simp [MmHeap.regionBlocks,hR]
  have hwin : w ∈ heap.regionBlocks r (R r) := by
    have : w ∈ l₂ ++ [guard (heap.mm_heapend r)] := by rw [hwL]; exact List.mem_cons_self
    simp only [List.mem_append,List.mem_singleton] at this
    rcases this with h | h <;> simp [MmHeap.regionBlocks,hR,h]
  have hbb := hreg.mem_bounds hbin
  have hwb' := hreg.mem_bounds hwin
  have hw0 := hreg.tiles.pos hwin
  have hw : heap.WritesIn heap₂ r := by
    refine MmHeap.WritesIn.of_update hbd hsz hpr fun a ha => ?_
    simp only [List.mem_cons,List.not_mem_nil,or_false] at ha
    simp only [MmHeap.regionEnd]
    omega
  have hblt := hreg.size_lt hbin
  have htiles := tiles_split (f := true) ht hblt hs0 (by omega)
  have hpa : mkPrec b.size false &&& MM_ALLOC_BIT = MM_ALLOC_BIT := or_alloc_and_alloc
  rw [hpw,hwf,hpa,hb,hwb,← hsz,show mkPrec s true = s from rfl,← hpr] at htiles
  have hfl₂ : heap₂.FreeList B := by
    refine hs.freeList.congr hfl hbl hbd.mm_nodelist fun c hc => ?_
    have hcb : c ≠ b.addr := fun he => hs.not_mem_freeList_of_mem hr (by rw [hR]; simp) (.inr ⟨he,hb⟩) hc
    have hcs : c ≠ b.addr + s := fun he =>
      hs.not_mem_freeList_of_mem hr (y := b) (by rw [hR]; simp) (.inl ⟨by omega,by omega⟩) hc
    rw [hsz,Function.update_of_ne hcb,Function.update_of_ne hcs]
  have hlisted : ∀ c, Listed B c ↔ heap.FreeChunk (Function.update R r ((l₁ ++ [⟨b.addr,s,false⟩]) ++ l₂)) c :=
    fun c => by
      rw [hs.listed_iff c]
      conv_lhs => rw [← Function.update_eq_self r R,hR]
      simp only [List.append_assoc,List.singleton_append]
      rw [MmHeap.freeChunk_allocated hr hb,MmHeap.freeChunk_allocated hr rfl]
  have haligned : ∀ y ∈ (l₁ ++ [⟨b.addr,s,false⟩]) ++ ⟨b.addr + s,b.size - s,true⟩ :: l₂,
      y.size % MM_MIN_CHUNK = 0 := by
    have hal : ∀ y ∈ l₁ ++ b :: l₂, y.size % MM_MIN_CHUNK = 0 := hR ▸ hreg.aligned
    intro y hy
    simp only [List.append_assoc,List.singleton_append,List.mem_append,List.mem_cons] at hy
    rcases hy with hy | rfl | rfl | hy
    · exact hal y (by simp [hy])
    · exact hsa
    · have := hal b (by simp)
      simp only [MM_MIN_CHUNK,MM_MIN_SHIFT,Nat.shiftLeft_eq] at *
      omega
    · exact hal y (by simp [hy])
  have hchain := List.isChain_split.mp (hR ▸ hreg.coalesced)
  have hf := hs.freeing hr hw (by rw [MmHeap.regionBlocks_mid,hwL]; simpa using htiles) haligned
    (isChain_append_allocated hchain.1.left_of_append rfl) hchain.2.tail rfl hfl₂ hlisted
  have hfuel₂ : (heap₂.freeList B).length ≤ fuel := by rwa [hbd.freeList]
  obtain ⟨heap',P',Q',hadd,-,-,-,hsh,hb'⟩ := hf.addfreechunk (by simp) hnext hfuel₂
  simp only [List.append_assoc,List.singleton_append] at hsh
  exact ⟨heap',_,hadd,hsh,hbd.trans hb'⟩

theorem MmHeap.Shape.shrinkchunk (hs : heap.Shape R B) (hr : r < heap.mm_nregions) {l₁ l₂ : List Block}
    {b : Block} (hR : R r = l₁ ++ b :: l₂) (hb : b.free = false) {s fuel : Nat} (hs0 : 0 < s)
    (hsa : s % MM_MIN_CHUNK = 0) (hlt : s < b.size) (hfuel : (heap.freeList B).length ≤ fuel) :
    ∃ heap' B' l₂', mmShrinkchunk fuel heap b.addr s = some heap' ∧
      heap'.Shape (Function.update R r (l₁ ++ ⟨b.addr,s,false⟩ :: l₂')) B' ∧ heap.SameBounds heap' ∧
      allocatedBlocks l₂' = allocatedBlocks l₂ := by
  have h16 : SIZEOF_MM_FREENODE = 16 := rfl
  have hreg := hs.region r hr
  have hbin : b ∈ R r := by rw [hR]; simp
  have hsx : heap.size b.addr = b.size := hs.size_eq hr hbin
  have hblt : b.size < MM_ALLOC_BIT := hreg.size_lt (by simp [MmHeap.regionBlocks,hbin])
  have hroom : s + SIZEOF_MM_FREENODE ≤ b.size := by
    have := hreg.aligned b hbin
    simp only [MM_MIN_CHUNK,MM_MIN_SHIFT,Nat.shiftLeft_eq] at this hsa
    omega
  obtain ⟨d,L,hdL⟩ : ∃ d L, l₂ ++ [guard (heap.mm_heapend r)] = d :: L := List.exists_cons_of_ne_nil (by simp)
  have ht := hreg.tiles
  rw [hR,MmHeap.regionBlocks_mid,hdL] at ht
  obtain ⟨hdb,hpd⟩ := ht.next
  unfold mmShrinkchunk
  simp only [hsx,← hdb,hpd,mkPrec_and_alloc_eq_zero hblt]
  by_cases hdf : d.free = true
  · obtain ⟨l₃,rfl,-⟩ : ∃ l₃, l₂ = d :: l₃ ∧ L = l₃ ++ [guard (heap.mm_heapend r)] := by
      rcases head_of_append_guard hdL with ⟨-,rfl⟩ | h
      · simp [guard] at hdf
      · exact h
    have hsd : heap.size d.addr = d.size := hs.size_eq hr (by rw [hR]; simp)
    have hne₁ : b.addr + s ≠ b.addr := by omega
    have hne₂ : d.addr + d.size ≠ b.addr + s := by omega
    rw [if_pos hdf]
    refine (hs.shiftNext hr hR hb hdf hs0 hsa (by omega) hfuel _ ?_ ?_ ?_ ?_ ?_).elim fun heap' h =>
      ⟨heap',h.imp fun _ h => ⟨_,h.1,h.2.1,h.2.2,by simp [allocatedBlocks,hdf]⟩⟩
    · simp
    · simp
    · exact ⟨rfl,rfl,rfl,rfl,rfl⟩
    · simp only [MmHeap.setPreceding_size,MmHeap.setSize_size,MmHeap.unlink_size,hsd,hsx]
      rw [Nat.add_comm d.size]
    · simp only [MmHeap.setPreceding_preceding,MmHeap.setSize_preceding,MmHeap.unlink_preceding,
        MmHeap.setPreceding_size,MmHeap.setSize_size,MmHeap.unlink_size,hsd,hsx,Function.update_of_ne hne₁,
        Function.update_of_ne hne₂,Function.update_self]
      rw [Nat.add_comm d.size]
  · have hnext : ∀ y ∈ l₂.head?, y.free = false := by
      rcases head_of_append_guard hdL with ⟨rfl,-⟩ | ⟨l₃,rfl,-⟩
      · simp
      · simpa using hdf
    have hne₁ : b.addr + s ≠ b.addr := by omega
    have hmod : (s + SIZEOF_MM_FREENODE) % 2 ^ 32 = s + SIZEOF_MM_FREENODE := by
      rw [alloc_bit_eq] at hblt
      exact Nat.mod_eq_of_lt (by omega)
    rw [if_neg hdf,hmod,if_pos hroom]
    refine (hs.splitAllocated hr hR hb hnext hs0 hsa hroom hfuel _ ?_ ?_ ?_ ?_ ?_).elim fun heap' h =>
      ⟨heap',h.imp fun _ h => ⟨_,h.1,h.2.1,h.2.2,allocatedBlocks_cons_free rfl l₂⟩⟩
    · simp
    · simp
    · exact ⟨rfl,rfl,rfl,rfl,rfl⟩
    · simp only [MmHeap.setPreceding_size,MmHeap.setSize_size]
    · simp only [MmHeap.setPreceding_preceding,MmHeap.setSize_preceding,MmHeap.setPreceding_size,
        MmHeap.setSize_size,hdb,Function.update_of_ne hne₁,Function.update_self]

theorem MmHeap.Shape.growNext (hs : heap.Shape R B) (hr : r < heap.mm_nregions) {l₁ l₃ : List Block}
    {b d : Block} (hR : R r = l₁ ++ b :: d :: l₃) (hb : b.free = false) (hd : d.free = true) {t fuel : Nat}
    (ht0 : 0 < t) (hta : t % MM_MIN_CHUNK = 0) (htd : t ≤ d.size) (hfuel : (heap.freeList B).length ≤ fuel) :
    ∃ heap' B' b' l₂', reallocIntoNext fuel heap b.addr b.size d.addr d.size t = some heap' ∧
      heap'.Shape (Function.update R r (l₁ ++ b' :: l₂')) B' ∧ heap.SameBounds heap' ∧ b'.addr = b.addr ∧
      b'.free = false ∧ b.size + t ≤ b'.size ∧ allocatedBlocks l₂' = allocatedBlocks l₃ := by
  have h16 : SIZEOF_MM_FREENODE = 16 := rfl
  have hreg := hs.region r hr
  obtain ⟨w,L,hwL,ht,hdb,hwd,hbs,hwe⟩ := (hR ▸ hreg).pair
  have hal : ∀ y ∈ l₁ ++ b :: d :: l₃, y.size % MM_MIN_CHUNK = 0 := hR ▸ hreg.aligned
  have hdin : d ∈ heap.regionBlocks r (R r) := by simp [MmHeap.regionBlocks,hR]
  unfold reallocIntoNext
  by_cases hrest : SIZEOF_MM_FREENODE ≤ d.size - t
  · have hne : b.addr + (b.size + t) ≠ b.addr := by omega
    have hne' : d.addr + d.size ≠ b.addr + (b.size + t) := by omega
    have hsa : (b.size + t) % MM_MIN_CHUNK = 0 := by
      have := hal b (by simp)
      simp only [MM_MIN_CHUNK,MM_MIN_SHIFT,Nat.shiftLeft_eq] at this hta ⊢
      omega
    simp only [if_pos hrest,MmHeap.setSize_size,MmHeap.unlink_size,Function.update_self]
    refine (hs.shiftNext hr hR hb hd (by omega) hsa (by omega) hfuel _ ?_ ?_ ?_ ?_ ?_).elim fun heap' h =>
      ⟨heap',h.imp fun _ h => ⟨⟨b.addr,b.size + t,false⟩,_,h.1,h.2.1,h.2.2,rfl,rfl,le_refl _,
        by simp [allocatedBlocks]⟩⟩
    · simp
    · simp
    · exact ⟨rfl,rfl,rfl,rfl,rfl⟩
    · funext x
      simp only [MmHeap.setPreceding_size,MmHeap.setSize_size,MmHeap.unlink_size,Function.update_apply]
      split_ifs <;> omega
    · simp only [MmHeap.setPreceding_preceding,MmHeap.setSize_preceding,MmHeap.unlink_preceding,
        MmHeap.setPreceding_size,MmHeap.setSize_size,MmHeap.unlink_size,Function.update_of_ne hne',
        Function.update_of_ne hne.symm,Function.update_self]
      rw [show b.size + d.size - (b.size + t) = d.size - t by omega]
  · obtain ⟨B₁,hf,-,-,hsub,-⟩ := hs.unlinkListed hr (by rw [hR]; simp : R r = (l₁ ++ [b]) ++ d :: l₃) hd
    have hrel := heap.relinked_unlink d.addr
    simp only [if_neg hrest]
    refine ⟨_,B₁,{ b with size := b.size + d.size },l₃,rfl,hf.shape ?_ ?_ ?_ fun c => ?_,
      hrel.sameBounds.trans ⟨rfl,rfl,rfl,rfl,rfl⟩,rfl,hb,by simp only; omega,rfl⟩
    · have hin : heap.mm_heapstart r ≤ b.addr ∧ d.addr + d.size < heap.regionEnd r := ⟨hbs,hwd ▸ hwe⟩
      refine (MmHeap.WritesIn.setSize _ ?_ _).trans (MmHeap.WritesIn.setPreceding _ ?_ _) <;>
      · simp only [MmHeap.regionEnd,MmHeap.modify_mm_heapstart,MmHeap.modify_mm_heapend,
          MmHeap.unlink_mm_heapstart,MmHeap.unlink_mm_heapend] at hin ⊢
        omega
    · have htm := tiles_merge ht (hreg.size_lt hdin)
      have hcoal := List.isChain_split.mp (hR ▸ hreg.coalesced)
      refine ⟨?_,aligned_merge hal,List.isChain_split.mpr ⟨isChain_append_allocated hcoal.1.left_of_append hb,
        List.isChain_cons.mpr ⟨fun _ _ => .inl hb,hcoal.2.tail.tail⟩⟩,by simpa using hreg.small,by simpa using hreg.fits⟩
      rw [hwd] at htm
      simpa [MmHeap.regionBlocks,← hwL] using htm
    · refine (hf.freeList.setSize (fun hc => ?_) _).setPreceding _ _
      exact hs.not_mem_freeList_of_mem hr (by rw [hR]; simp) (.inr ⟨rfl,hb⟩) (hsub _ hc)
    · rw [hf.listed_iff c]
      simp only [List.append_assoc,List.singleton_append]
      rw [MmHeap.freeChunk_allocated hf.lt hb,MmHeap.freeChunk_allocated hf.lt (show ({ b with size := b.size + d.size } : Block).free = false from hb)]

theorem MmHeap.Shape.growPrev (hs : heap.Shape R B) (hr : r < heap.mm_nregions) {l₀ l₂ : List Block}
    {p b : Block} (hR : R r = l₀ ++ p :: b :: l₂) (hp : p.free = true) (hb : b.free = false) {t fuel : Nat}
    (ht0 : 0 < t) (hta : t % MM_MIN_CHUNK = 0) (htp : t ≤ p.size) (hfuel : (heap.freeList B).length ≤ fuel) :
    ∃ heap' B' l₁' b', reallocIntoPrev fuel heap b.addr b.size p.addr p.size t (b.addr + b.size) =
        some (heap',b'.addr) ∧
      heap'.Shape (Function.update R r (l₁' ++ b' :: l₂)) B' ∧ heap.SameBounds heap' ∧ b'.free = false ∧
      b'.addr + b'.size = b.addr + b.size ∧ b.size + t ≤ b'.size ∧ allocatedBlocks l₁' = allocatedBlocks l₀ := by
  have h16 : SIZEOF_MM_FREENODE = 16 := rfl
  have hreg := hs.region r hr
  obtain ⟨w,L,hwL,ht,hbp,hwb,hps,hwe⟩ := (hR ▸ hreg).pair
  have hal : ∀ y ∈ l₀ ++ p :: b :: l₂, y.size % MM_MIN_CHUNK = 0 := hR ▸ hreg.aligned
  have hpa := hal p (by simp)
  have hba := hal b (by simp)
  have hbin : b ∈ heap.regionBlocks r (R r) := by simp [MmHeap.regionBlocks,hR]
  have hsp : heap.size p.addr = p.size := hs.size_eq hr (by rw [hR]; simp)
  obtain ⟨B₁,hf,hprev,-,hsub,hlen⟩ := hs.unlinkListed hr hR hp
  have hrel := heap.relinked_unlink p.addr
  have hchain₂ : l₂.IsChain Coalesced := (List.isChain_cons.mp hf.chain₂).2
  unfold reallocIntoPrev
  simp only [MmHeap.unlink_size,hsp]
  by_cases hrest : SIZEOF_MM_FREENODE ≤ p.size - t
  · rw [if_pos hrest]
    have hne : p.addr ≠ b.addr - t := by omega
    have hne' : b.addr + b.size ≠ b.addr - t := by omega
    set X₂ := ((heap.unlink p.addr).setSize p.addr (p.size - t)).setSize (b.addr - t) (b.size + t)
    set X₃ := X₂.setPreceding (b.addr - t) (X₂.size p.addr ||| MM_ALLOC_BIT)
    set X₄ := X₃.setPreceding (b.addr + b.size)
      (X₃.size (b.addr - t) ||| (X₃.preceding (b.addr + b.size) &&& MM_ALLOC_BIT))
    have hXs : X₄.size = Function.update (Function.update heap.size (b.addr - t) (b.size + t)) p.addr (p.size - t) := by
      funext x
      simp only [X₄,X₃,X₂,MmHeap.setPreceding_size,MmHeap.setSize_size,MmHeap.unlink_size,Function.update_apply]
      split_ifs <;> omega
    have hXp : X₄.preceding = Function.update (Function.update heap.preceding (b.addr - t)
        (mkPrec (p.size - t) false)) (b.addr + b.size)
        ((b.size + t) ||| (heap.preceding (b.addr + b.size) &&& MM_ALLOC_BIT)) := by
      simp only [X₄,X₃,X₂,MmHeap.setPreceding_preceding,MmHeap.setSize_preceding,MmHeap.unlink_preceding,
        MmHeap.setPreceding_size,MmHeap.setSize_size,MmHeap.unlink_size,Function.update_self,
        Function.update_of_ne hne,Function.update_of_ne hne']
      rfl
    have hXb : (heap.unlink p.addr).SameBounds X₄ := ⟨rfl,rfl,rfl,rfl,rfl⟩
    have hw : (heap.unlink p.addr).WritesIn X₄ r := by
      refine MmHeap.WritesIn.of_update hXb (by rw [hXs,MmHeap.unlink_size]) (by rw [hXp,MmHeap.unlink_preceding])
        fun a ha => ?_
      simp only [List.mem_cons,List.not_mem_nil,or_false] at ha
      rw [hrel.sameBounds.regionEnd,hrel.mm_heapstart]
      omega
    have htiles := tiles_shift (f := false) ht (hreg.size_lt hbin) (s := p.size - t) (by omega) (by omega)
    rw [show p.addr + (p.size - t) = b.addr - t by omega,show p.size + b.size - (p.size - t) = b.size + t by omega,
      hp,hwb,← hXs,← hXp] at htiles
    have hfl : X₄.FreeList B₁ := by
      refine hf.freeList.congr (by simp [X₄,X₃,X₂]) (by simp [X₄,X₃,X₂]) rfl fun c hc => ?_
      have hcp : c ≠ p.addr := fun he => hf.x_not_mem_freeList (he ▸ hc)
      have hct : c ≠ b.addr - t := fun he =>
        hs.not_mem_freeList_of_mem hr (y := p) (by rw [hR]; simp) (.inl ⟨by omega,by omega⟩) (he ▸ hsub c hc)
      rw [hXs,MmHeap.unlink_size,Function.update_of_ne hcp,Function.update_of_ne hct]
    have hlisted : ∀ c, Listed B₁ c ↔
        (heap.unlink p.addr).FreeChunk (Function.update R r (l₀ ++ ⟨b.addr - t,b.size + t,false⟩ :: l₂)) c :=
      fun c => by rw [hf.listed_iff c,MmHeap.freeChunk_allocated hf.lt hb,MmHeap.freeChunk_allocated hf.lt rfl]
    have haligned : ∀ y ∈ l₀ ++ ⟨p.addr,p.size - t,true⟩ :: ⟨b.addr - t,b.size + t,false⟩ :: l₂,
        y.size % MM_MIN_CHUNK = 0 := by
      intro y hy
      simp only [List.mem_append,List.mem_cons] at hy
      rcases hy with hy | rfl | rfl | hy
      · exact hal y (by simp [hy])
      · simp only [MM_MIN_CHUNK,MM_MIN_SHIFT,Nat.shiftLeft_eq] at hpa hta ⊢
        omega
      · simp only [MM_MIN_CHUNK,MM_MIN_SHIFT,Nat.shiftLeft_eq] at hba hta ⊢
        omega
      · exact hal y (by simp [hy])
    have hf₂ := hf.of_writesIn hw (by
        rw [hrel.sameBounds.regionBlocks,hrel.mm_heapstart,hrel.mm_heapend]
        simp only [MmHeap.regionBlocks_mid,List.cons_append]
        rw [hwL]
        exact htiles) haligned hf.chain₁
      (List.isChain_cons.mpr ⟨fun _ _ => .inl rfl,hchain₂⟩) rfl hfl hlisted
    have hfuel₂ : (X₄.freeList B₁).length ≤ fuel := by
      rw [hXb.freeList]
      omega
    obtain ⟨heap',P',Q',hadd,-,-,-,hsh,hb'⟩ := hf₂.addfreechunk hprev (by simp) hfuel₂
    refine ⟨heap',_,l₀ ++ [⟨p.addr,p.size - t,true⟩],⟨b.addr - t,b.size + t,false⟩,by rw [hadd]; rfl,
      by simpa using hsh,(hrel.sameBounds.trans hXb).trans hb',rfl,by simp only; omega,le_refl _,
      by simp [allocatedBlocks]⟩
  · rw [if_neg hrest]
    simp only [show b.addr - p.size = p.addr by omega,hsp]
    have hne : b.addr + b.size ≠ p.addr := by omega
    set X₁ := (heap.unlink p.addr).setSize p.addr (p.size + b.size)
    set X₂ := X₁.setPreceding p.addr (X₁.preceding p.addr ||| MM_ALLOC_BIT)
    set X₃ := X₂.setPreceding (b.addr + b.size)
      (X₂.size p.addr ||| (X₂.preceding (b.addr + b.size) &&& MM_ALLOC_BIT))
    have hXb : heap.SameBounds X₃ := hrel.sameBounds.trans ⟨rfl,rfl,rfl,rfl,rfl⟩
    set heapM := (heap.setSize p.addr (p.size + b.size)).setPreceding w.addr
      ((p.size + b.size) ||| (heap.preceding w.addr &&& MM_ALLOC_BIT))
    have htm := tiles_merge ht (hreg.size_lt hbin)
    rw [show Function.update heap.size p.addr (p.size + b.size) = heapM.size by simp [heapM],
      show Function.update heap.preceding w.addr ((p.size + b.size) ||| (heap.preceding w.addr &&& MM_ALLOC_BIT)) =
        heapM.preceding by simp [heapM]] at htm
    have hta := tiles_markAlloc htm
    have hXs : X₃.size = heapM.size := by simp [X₃,X₂,X₁,heapM]
    have hXp : X₃.preceding = Function.update heapM.preceding p.addr (heapM.preceding p.addr ||| MM_ALLOC_BIT) := by
      funext x
      simp only [X₃,X₂,X₁,heapM,MmHeap.setPreceding_preceding,MmHeap.setSize_preceding,MmHeap.unlink_preceding,
        MmHeap.setPreceding_size,MmHeap.setSize_size,MmHeap.unlink_size,Function.update_apply,hwb]
      split_ifs <;> omega
    refine ⟨_,B₁,l₀,⟨p.addr,p.size + b.size,false⟩,rfl,hf.shape ?_ ⟨?_,?_,?_,?_,?_⟩ ?_ fun c => ?_,hXb,rfl,
      by simp only; omega,by simp only; omega,rfl⟩
    · have hin : heap.mm_heapstart r ≤ p.addr ∧ b.addr + b.size < heap.regionEnd r := ⟨hps,hwb ▸ hwe⟩
      refine ((MmHeap.WritesIn.setSize _ ?_ _).trans (MmHeap.WritesIn.setPreceding _ ?_ _)).trans
        (MmHeap.WritesIn.setPreceding _ ?_ _) <;>
      · simp only [MmHeap.regionEnd,MmHeap.modify_mm_heapstart,MmHeap.modify_mm_heapend,
          MmHeap.unlink_mm_heapstart,MmHeap.unlink_mm_heapend] at hin ⊢
        omega
    · rw [hXb.regionBlocks,hXb.mm_heapstart,hXb.mm_heapend,hXs,hXp]
      simp only [MmHeap.regionBlocks_mid,List.cons_append]
      rw [hwL]
      exact hta
    · intro y hy
      simp only [List.mem_append,List.mem_cons] at hy
      rcases hy with hy | rfl | hy
      · exact hal y (by simp [hy])
      · simp only [MM_MIN_CHUNK,MM_MIN_SHIFT,Nat.shiftLeft_eq] at hpa hba ⊢
        omega
      · exact hal y (by simp [hy])
    · exact List.isChain_split.mpr ⟨isChain_append_allocated hf.chain₁ rfl,
        List.isChain_cons.mpr ⟨fun _ _ => .inl rfl,hchain₂⟩⟩
    · rw [hXb.mm_heapend,hXb.mm_heapstart]
      exact hreg.small
    · rw [hXb.mm_heapend]
      exact hreg.fits
    · exact ((hf.freeList.setSize hf.x_not_mem_freeList _).setPreceding _ _).setPreceding _ _
    · rw [hf.listed_iff c,MmHeap.freeChunk_allocated hf.lt hb,MmHeap.freeChunk_allocated hf.lt rfl]

theorem MmHeap.Shape.neighbours (hs : heap.Shape R B) (hr : r < heap.mm_nregions) {l₁ l₂ : List Block}
    {b : Block} (hR : R r = l₁ ++ b :: l₂) :
    ∃ q d, (guard (heap.mm_heapstart r) :: l₁).getLast? = some q ∧
      (l₂ ++ [guard (heap.mm_heapend r)]).head? = some d ∧
      b.addr - (heap.preceding b.addr &&& (MM_ALLOC_BIT - 1)) = q.addr ∧ q.addr + q.size = b.addr ∧
      heap.size q.addr = q.size ∧ (heap.preceding q.addr &&& MM_ALLOC_BIT = 0 ↔ q.free = true) ∧
      d.addr = b.addr + b.size ∧ heap.size d.addr = d.size ∧
      (heap.preceding d.addr &&& MM_ALLOC_BIT = 0 ↔ d.free = true) ∧
      heap.mm_heapstart r ≤ q.addr ∧ d.addr + d.size ≤ heap.regionEnd r := by
  have hreg := hs.region r hr
  obtain ⟨q,hq⟩ : ∃ q, (guard (heap.mm_heapstart r) :: l₁).getLast? = some q :=
    ⟨_,List.getLast?_eq_some_getLast (List.cons_ne_nil _ _)⟩
  obtain ⟨A,hA⟩ := List.getLast?_eq_some_iff.mp hq
  obtain ⟨d,L,hdL⟩ : ∃ d L, l₂ ++ [guard (heap.mm_heapend r)] = d :: L := List.exists_cons_of_ne_nil (by simp)
  have ht := hreg.tiles
  rw [hR,MmHeap.regionBlocks_mid,hA,hdL] at ht
  have hin : ∀ y ∈ (A ++ [q]) ++ b :: d :: L, y.size < MM_ALLOC_BIT := fun y hy => by
    refine hreg.size_lt ?_
    rwa [hR,MmHeap.regionBlocks_mid,hA,hdL]
  have ht' : Tiles heap.size heap.preceding mkPrec (heap.mm_heapstart r) 0 (A ++ q :: b :: d :: L)
      (heap.mm_heapend r + SIZEOF_MM_ALLOCNODE) SIZEOF_MM_ALLOCNODE := by
    simpa using ht
  obtain ⟨hbq,hpb⟩ := ht'.next
  obtain ⟨hdb,hpd⟩ := ht.next
  have hpq := ht'.tag_eq
  have hlast : ((A.getLast?.map Block.size).getD 0) < MM_ALLOC_BIT := by
    cases hz : A.getLast? with
    | none => simp [MM_ALLOC_BIT]
    | some z => exact hin z (by simp [List.mem_of_getLast? hz])
  refine ⟨q,d,hq,by simp [hdL],?_,hbq.symm,ht.size_eq (by simp),?_,hdb,ht.size_eq (by simp),?_,
    (ht.bounds q (by simp)).1,by simpa [MmHeap.regionEnd] using (ht.bounds d (by simp)).2⟩
  · rw [hpb,mkPrec_and_mask (hin q (by simp))]
    omega
  · rw [hpq]
    exact mkPrec_and_alloc_eq_zero hlast _
  · rw [hpd]
    exact mkPrec_and_alloc_eq_zero (hin b (by simp)) _

theorem reallocTakes_spec {prevsize nextsize needed tp tn : Nat}
    (ht : reallocTakes prevsize nextsize needed = (tp,tn)) (h : needed ≤ prevsize + nextsize) :
    tp ≤ prevsize ∧ tn ≤ nextsize ∧ tp + tn = needed ∧
      (prevsize % MM_MIN_CHUNK = 0 → nextsize % MM_MIN_CHUNK = 0 → needed % MM_MIN_CHUNK = 0 →
        tp % MM_MIN_CHUNK = 0 ∧ tn % MM_MIN_CHUNK = 0) := by
  unfold reallocTakes at ht
  simp only [MM_MIN_CHUNK,MM_MIN_SHIFT,Nat.shiftLeft_eq]
  split_ifs at ht <;> simp only at ht <;> split_ifs at ht <;> simp only [Prod.mk.injEq] at ht <;> omega

theorem MmHeap.Shape.realloc (hs : heap.Shape R B) (hr : r < heap.mm_nregions) {l₁ l₂ : List Block}
    {b : Block} (hR : R r = l₁ ++ b :: l₂) (hb : b.free = false) {size fuel : Nat} (hsize : 0 < size)
    (hov : size + SIZEOF_MM_ALLOCNODE + MM_GRAN_MASK < 2 ^ 32) (hfuel : 2 ^ 32 ≤ fuel) :
    (∃ heap' B' l₁' b' l₂', mmRealloc fuel heap (some (b.addr + SIZEOF_MM_ALLOCNODE)) size =
        some (heap',some (b'.addr + SIZEOF_MM_ALLOCNODE)) ∧
      heap'.Shape (Function.update R r (l₁' ++ b' :: l₂')) B' ∧ heap.SameBounds heap' ∧ b'.free = false ∧
      mallocChunkSize size ≤ b'.size ∧ allocatedBlocks l₁' = allocatedBlocks l₁ ∧
      allocatedBlocks l₂' = allocatedBlocks l₂) ∨
    mmRealloc fuel heap (some (b.addr + SIZEOF_MM_ALLOCNODE)) size =
      match mmMalloc fuel heap size with
      | some (heap,some newmem) =>
        (mmFree fuel heap (some (b.addr + SIZEOF_MM_ALLOCNODE))).map fun heap => (heap,some newmem)
      | r => r := by
  have hreg := hs.region r hr
  have hbin : b ∈ R r := by rw [hR]; simp
  have hsx : heap.size b.addr = b.size := hs.size_eq hr hbin
  obtain ⟨hs0,hsa,-⟩ := mallocChunkSize_spec hov
  obtain ⟨q,d,hq,hd,hprev,hqb,hsq,hqf,hdb,hsd,hdf,hqs,hde⟩ := hs.neighbours hr hR
  have hqfree : q.free = true → ∃ l₀, l₁ = l₀ ++ [q] := fun hf => by
    cases l₁ with
    | nil =>
      obtain rfl : guard (heap.mm_heapstart r) = q := by simpa using hq
      simp [guard] at hf
    | cons y l =>
      rw [List.getLast?_cons_cons] at hq
      exact List.getLast?_eq_some_iff.mp hq
  have hdfree : d.free = true → ∃ l₃, l₂ = d :: l₃ := fun hf => by
    obtain ⟨L,hL⟩ := List.head?_eq_some_iff.mp hd
    rcases head_of_append_guard hL with ⟨-,rfl⟩ | ⟨l₃,hl₃,-⟩
    · simp [guard] at hf
    · exact ⟨l₃,hl₃⟩
  rw [hdb] at hsd hdf
  unfold mmRealloc
  simp only [Nat.add_sub_cancel,if_neg (Nat.not_lt.mpr hsize),hsx,hprev,hsq,hqf,hsd,hdf,
    show mmAlignUp ((size + SIZEOF_MM_ALLOCNODE) % 2 ^ 32) = mallocChunkSize size from rfl]
  by_cases hle : mallocChunkSize size ≤ b.size
  · refine .inl ?_
    rw [if_pos hle]
    by_cases hlt : mallocChunkSize size < b.size
    · obtain ⟨heap',B',l₂',hsh,hs',hbd,hl₂⟩ := hs.shrinkchunk hr hR hb hs0 hsa hlt (hs.length_le.trans hfuel)
      exact ⟨heap',B',l₁,⟨b.addr,mallocChunkSize size,false⟩,l₂',by rw [if_pos hlt,hsh]; rfl,hs',hbd,rfl,le_refl _,
        rfl,hl₂⟩
    · refine ⟨heap,B,l₁,b,l₂,by rw [if_neg hlt],?_,.refl heap,hb,hle,rfl,rfl⟩
      rwa [← hR,Function.update_eq_self]
  rw [if_neg hle]
  have hsum : ((if d.free = true then d.size else 0) + if q.free = true then q.size else 0) + b.size < 2 ^ 32 := by
    have := hreg.small
    rw [alloc_bit_eq] at this
    simp only [MmHeap.regionEnd] at hde
    split_ifs <;> omega
  rw [Nat.mod_eq_of_lt hsum]
  by_cases hfit : mallocChunkSize size ≤ ((if d.free = true then d.size else 0) + if q.free = true then q.size else 0) + b.size
  swap
  · exact .inr (if_neg hfit)
  refine .inl ?_
  rw [if_pos hfit]
  obtain ⟨tp,tn,htt⟩ : ∃ tp tn, reallocTakes (if q.free = true then q.size else 0) (if d.free = true then d.size else 0)
      (mallocChunkSize size - b.size) = (tp,tn) := ⟨_,_,rfl⟩
  have hal : ∀ y ∈ R r, y.size % MM_MIN_CHUNK = 0 := hreg.aligned
  have hqa : (if q.free = true then q.size else 0) % MM_MIN_CHUNK = 0 := by
    split_ifs with hf
    · obtain ⟨l₀,rfl⟩ := hqfree hf
      exact hal q (by rw [hR]; simp)
    · rfl
  have hda : (if d.free = true then d.size else 0) % MM_MIN_CHUNK = 0 := by
    split_ifs with hf
    · obtain ⟨l₃,rfl⟩ := hdfree hf
      exact hal d (by rw [hR]; simp)
    · rfl
  have hna : (mallocChunkSize size - b.size) % MM_MIN_CHUNK = 0 := by
    have := hal b hbin
    simp only [MM_MIN_CHUNK,MM_MIN_SHIFT,Nat.shiftLeft_eq] at this hsa ⊢
    omega
  obtain ⟨htp,htn,hneed,htpa,htna⟩ : tp ≤ _ ∧ tn ≤ _ ∧ tp + tn = _ ∧ tp % MM_MIN_CHUNK = 0 ∧ tn % MM_MIN_CHUNK = 0 := by
    obtain ⟨h₁,h₂,h₃,h₄⟩ := reallocTakes_spec htt (by omega)
    exact ⟨h₁,h₂,h₃,h₄ hqa hda hna⟩
  simp only [htt]
  have hgrow : b.size < mallocChunkSize size := Nat.lt_of_not_le hle
  rcases Nat.eq_zero_or_pos tp with rfl | htp0
  · have htn0 : 0 < tn := by omega
    have hdf' : d.free = true := by
      by_contra h
      rw [if_neg h] at htn
      omega
    simp only [hdf',if_true] at htn
    obtain ⟨l₃,rfl⟩ := hdfree hdf'
    obtain ⟨heap',B',b',l₂',hnx,hs',hbd,hba,hbf,hbs,hl₂⟩ :=
      hs.growNext hr hR hb hdf' htn0 htna htn (hs.length_le.trans hfuel)
    rw [hdb] at hnx
    refine ⟨heap',B',l₁,b',l₂',?_,hs',hbd,hbf,by omega,rfl,by rw [hl₂,allocatedBlocks_cons_free hdf']⟩
    simp [hdf',hnx,hba,htn0.ne']
  have hqf' : q.free = true := by
    by_contra h
    rw [if_neg h] at htp
    omega
  simp only [hqf',if_true] at htp
  obtain ⟨l₀,rfl⟩ := hqfree hqf'
  obtain ⟨heap₁,B₁,l₁',b₁,hpv,hs₁,hbd₁,hbf₁,hbe₁,hbs₁,hl₁⟩ :=
    hs.growPrev hr (show R r = l₀ ++ q :: b :: l₂ by rw [hR]; simp) hqf' hb htp0 htpa htp (hs.length_le.trans hfuel)
  have hl₁' : allocatedBlocks l₁' = allocatedBlocks (l₀ ++ [q]) := by
    rw [hl₁,allocatedBlocks_append]
    simp [allocatedBlocks,hqf']
  rcases Nat.eq_zero_or_pos tn with rfl | htn0
  · refine ⟨heap₁,B₁,l₁',b₁,l₂,?_,hs₁,hbd₁,hbf₁,by omega,hl₁',rfl⟩
    simp [hqf',hpv,htp0.ne']
  have hdf' : d.free = true := by
    by_contra h
    rw [if_neg h] at htn
    omega
  simp only [hdf',if_true] at htn
  obtain ⟨l₃,rfl⟩ := hdfree hdf'
  have hr₁ : r < heap₁.mm_nregions := by rwa [hbd₁.mm_nregions]
  have hsb₁ : heap₁.size b₁.addr = b₁.size := hs₁.size_eq hr₁ (by simp)
  obtain ⟨heap₂,B₂,b₂,l₂',hnx,hs₂,hbd₂,hba₂,hbf₂,hbs₂,hl₂⟩ :=
    hs₁.growNext hr₁ (Function.update_self ..) hbf₁ hdf' htn0 htna htn (hs₁.length_le.trans hfuel)
  rw [hdb] at hnx
  refine ⟨heap₂,B₂,l₁',b₂,l₂',?_,by rwa [Function.update_idem] at hs₂,hbd₁.trans hbd₂,hbf₂,by omega,hl₁',
    by rw [hl₂,allocatedBlocks_cons_free hdf']⟩
  simp [hqf',hdf',hpv,hsb₁,hnx,hba₂,htp0.ne',htn0.ne']

end Shape

end TizenRT.Heap
