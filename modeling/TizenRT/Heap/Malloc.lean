import TizenRT.Heap.Extend

set_option autoImplicit false

/-!
`mm_malloc` takes a smallest free chunk that fits the request. The walk from the request's size
class stops at the first chunk of the list that is large enough, and the list holds the chunks by
class and, within a class, by size. The chunk leaves the list, gives back what it does not need when
that makes a free node, and is marked allocated: the heap keeps its shape. The request is rounded
in `size_t`, and within 23 bytes of `2 ^ 32` it wraps to a chunk size of 0 or 16.
-/

namespace TizenRT.Heap

open BoundaryTag

/-- `MM_ALIGN_UP(size + SIZEOF_MM_ALLOCNODE)` in `size_t`: the chunk size `mm_malloc` looks for. -/
def mallocChunkSize (size : Nat) : Nat := mmAlignUp ((size + SIZEOF_MM_ALLOCNODE) % 2 ^ 32)

theorem mmSize2ndxLoop_ge (n v k : Nat) : k ≤ mmSize2ndxLoop n v k := by
  induction n generalizing v k with
  | zero => simp [mmSize2ndxLoop]
  | succ n ih =>
    unfold mmSize2ndxLoop
    split
    · exact le_trans (Nat.le_succ k) (ih _ _)
    · exact le_rfl

theorem mmSize2ndxLoop_mono (n : Nat) {v w : Nat} (k : Nat) (h : v ≤ w) :
    mmSize2ndxLoop n v k ≤ mmSize2ndxLoop n w k := by
  induction n generalizing v w k with
  | zero => simp [mmSize2ndxLoop]
  | succ n ih =>
    unfold mmSize2ndxLoop
    by_cases hv : v > 1
    · rw [if_pos hv,if_pos (by omega)]
      exact ih (k + 1) (by simp only [Nat.shiftRight_eq_div_pow]; exact Nat.div_le_div_right h)
    · rw [if_neg hv]
      split
      · exact le_trans (Nat.le_succ k) (mmSize2ndxLoop_ge _ _ _)
      · exact le_rfl

theorem mmSize2ndx_mono {a b : Nat} (h : a ≤ b) : mmSize2ndx a ≤ mmSize2ndx b := by
  by_cases hb : b ≥ MM_MAX_CHUNK
  · have := mmSize2ndx_lt a
    rw [show mmSize2ndx b = MM_NNODES - 1 by rw [mmSize2ndx,if_pos hb]]
    omega
  · have ha : ¬ a ≥ MM_MAX_CHUNK := by omega
    rw [mmSize2ndx,mmSize2ndx,if_neg ha,if_neg hb]
    exact mmSize2ndxLoop_mono _ _ (by simp only [Nat.shiftRight_eq_div_pow]; exact Nat.div_le_div_right h)

theorem lt_of_mmSize2ndx_lt {a b : Nat} (h : mmSize2ndx a < mmSize2ndx b) : a < b :=
  Nat.lt_of_not_le fun hba => Nat.not_le_of_lt h (mmSize2ndx_mono hba)

theorem malloc_ndx (s : Nat) : (if s ≥ MM_MAX_CHUNK then MM_NNODES - 1 else mmSize2ndx s) = mmSize2ndx s := by
  by_cases h : s ≥ MM_MAX_CHUNK
  · rw [if_pos h,mmSize2ndx,if_pos h]
  · rw [if_neg h,mmSize2ndx,if_neg h]

/-- The list after sentinel `i`: class `i`, then the classes above with their sentinels. -/
def MmHeap.listAfter (heap : MmHeap) (B : Nat → List Nat) (i : Nat) : List Nat :=
  B i ++ heap.classes B (List.range' (i + 1) (MM_NNODES - (i + 1)))

theorem MmHeap.sublist_listAfter (heap : MmHeap) (B : Nat → List Nat) {i j : Nat} (hij : i ≤ j)
    (hj : j < MM_NNODES) : List.Sublist (B j) (heap.listAfter B i) := by
  rcases Nat.eq_or_lt_of_le hij with rfl | hlt
  · exact List.sublist_append_left _ _
  · refine ((List.sublist_cons_self (heap.nodelist j) (B j)).trans ?_).trans (List.sublist_append_right _ _)
    rw [MmHeap.classes,List.flatMap_def]
    exact List.sublist_flatten_of_mem (List.mem_map_of_mem (List.mem_range'_1.mpr ⟨hlt,by omega⟩))

namespace MmHeap.FreeList

variable {heap : MmHeap} {B : Nat → List Nat}

theorem walk (hf : heap.FreeList B) {i : Nat} (hi : i < MM_NNODES) (cont : Nat → Bool) {fuel : Nat}
    (hfuel : (heap.freeList B).length ≤ fuel) :
    DList.walkUntil heap.flink cont fuel (heap.flink (heap.nodelist i)) =
      some ((heap.listAfter B i).find? fun p => !cont p) := by
  have hseg := hf.seg
  rw [heap.freeList_split B hi] at hseg
  obtain ⟨m,-,h₂⟩ := hseg.split
  obtain ⟨-,-,h₃⟩ := DList.Seg.cons_iff.mp h₂
  refine h₃.walkUntil cont (le_trans ?_ hfuel)
  rw [heap.freeList_split B hi]
  simp only [List.length_append,List.length_cons]
  omega

theorem le_of_mem_classes (hf : heap.FreeList B) {k n c d : Nat} (hkn : k + 1 + n ≤ MM_NNODES) (hc : c ∈ B k)
    (hd : d ∈ heap.classes B (List.range' (k + 1) n)) (hd0 : 0 < heap.size d) : heap.size c ≤ heap.size d := by
  obtain ⟨j,hj,hdj⟩ := MmHeap.mem_classes.mp hd
  rw [List.mem_range'_1] at hj
  rcases hdj with rfl | hdj
  · rw [hf.sentinel j (by omega)] at hd0
    exact absurd hd0 (Nat.lt_irrefl 0)
  · have hcls := (hf.bucket k (by omega) c hc).1
    have hdls := (hf.bucket j (by omega) d hdj).1
    exact Nat.le_of_lt (lt_of_mmSize2ndx_lt (by omega))

theorem classes_sorted (hf : heap.FreeList B) (n : Nat) :
    ∀ k, k + n ≤ MM_NNODES → (heap.classes B (List.range' k n)).Pairwise
      fun c d => 0 < heap.size c → 0 < heap.size d → heap.size c ≤ heap.size d := by
  induction n with
  | zero => simp [MmHeap.classes]
  | succ n ih =>
    intro k hk
    have hcls : heap.classes B (List.range' k (n + 1)) =
        (heap.nodelist k :: B k) ++ heap.classes B (List.range' (k + 1) n) := by
      simp [MmHeap.classes,List.range'_succ]
    rw [hcls,List.pairwise_append,List.pairwise_cons]
    refine ⟨⟨fun d _ h₀ => ?_,(hf.sorted k (by omega)).imp fun h _ _ => h⟩,ih (k + 1) (by omega),
      fun c hc d hd hc0 hd0 => ?_⟩
    · rw [hf.sentinel k (by omega)] at h₀
      exact absurd h₀ (Nat.lt_irrefl 0)
    · rcases List.mem_cons.mp hc with rfl | hc
      · rw [hf.sentinel k (by omega)] at hc0
        exact absurd hc0 (Nat.lt_irrefl 0)
      · exact hf.le_of_mem_classes (by omega) hc hd hd0

theorem listAfter_sorted (hf : heap.FreeList B) {i : Nat} (hi : i < MM_NNODES) :
    (heap.listAfter B i).Pairwise fun c d => 0 < heap.size c → 0 < heap.size d → heap.size c ≤ heap.size d := by
  rw [MmHeap.listAfter,List.pairwise_append]
  exact ⟨(hf.sorted i hi).imp fun h _ _ => h,hf.classes_sorted _ _ (by omega),
    fun c hc d hd _ hd0 => hf.le_of_mem_classes (by omega) hc hd hd0⟩

theorem listAfter_nodup (hf : heap.FreeList B) {i : Nat} (hi : i < MM_NNODES) : (heap.listAfter B i).Nodup := by
  have hnd := hf.seg.nodup
  rw [heap.freeList_split B hi] at hnd
  exact (List.nodup_cons.mp hnd.of_append_right).2

theorem mem_listAfter (hf : heap.FreeList B) {s c : Nat} (hc : Listed B c) (hsc : s ≤ heap.size c) :
    c ∈ heap.listAfter B (mmSize2ndx s) := by
  obtain ⟨j,hj,hcj⟩ := hc
  have hcls := (hf.bucket j hj c hcj).1
  have hle : mmSize2ndx s ≤ j := hcls ▸ mmSize2ndx_mono hsc
  rw [MmHeap.listAfter,List.mem_append]
  rcases Nat.eq_or_lt_of_le hle with heq | hlt
  · exact .inl (heq ▸ hcj)
  · exact .inr (MmHeap.mem_classes.mpr ⟨j,List.mem_range'_1.mpr ⟨hlt,by omega⟩,.inr hcj⟩)

theorem listed_of_mem_listAfter (hf : heap.FreeList B) {i c : Nat} (hi : i < MM_NNODES)
    (hc : c ∈ heap.listAfter B i) (hc0 : 0 < heap.size c) : Listed B c := by
  rcases List.mem_append.mp hc with hc | hc
  · exact ⟨i,hi,hc⟩
  · obtain ⟨j,hj,hcj⟩ := MmHeap.mem_classes.mp hc
    rw [List.mem_range'_1] at hj
    rcases hcj with rfl | hcj
    · rw [hf.sentinel j (by omega)] at hc0
      exact absurd hc0 (Nat.lt_irrefl 0)
    · exact ⟨j,by omega,hcj⟩

end MmHeap.FreeList

/-- `b`, a free chunk of region `r`, has `s` bytes, and no free chunk that has them is smaller. -/
structure MmHeap.BestFit (heap : MmHeap) (R : Nat → List Block) (s r : Nat) (b : Block) : Prop where
  lt : r < heap.mm_nregions
  mem : b ∈ R r
  free : b.free = true
  fits : s ≤ b.size
  least : ∀ r' < heap.mm_nregions, ∀ b' ∈ R r', b'.free = true → s ≤ b'.size → b.size ≤ b'.size

def MmHeap.NoFit (heap : MmHeap) (R : Nat → List Block) (s : Nat) : Prop :=
  ∀ r < heap.mm_nregions, ∀ b ∈ R r, b.free = true → b.size < s

theorem MmHeap.Shape.size_eq {heap : MmHeap} {R : Nat → List Block} {B : Nat → List Nat} (hs : heap.Shape R B)
    {r : Nat} (hr : r < heap.mm_nregions) {b : Block} (hb : b ∈ R r) : heap.size b.addr = b.size :=
  (hs.region r hr).tiles.size_eq (by simp [MmHeap.regionBlocks,hb])

theorem MmHeap.Shape.walk_bestFit {heap : MmHeap} {R : Nat → List Block} {B : Nat → List Nat}
    (hs : heap.Shape R B) {s fuel : Nat} (hs0 : 0 < s) (hfuel : (heap.freeList B).length ≤ fuel) :
    (∃ r b, heap.BestFit R s r b ∧ DList.walkUntil heap.flink (fun node => decide (heap.size node < s)) fuel
        (heap.flink (heap.nodelist (mmSize2ndx s))) = some (some b.addr) ∧
        ∀ j < MM_NNODES, ∀ P Q, B j = P ++ b.addr :: Q → ∀ a ∈ P, heap.size a < s) ∨
      (heap.NoFit R s ∧ DList.walkUntil heap.flink (fun node => decide (heap.size node < s)) fuel
        (heap.flink (heap.nodelist (mmSize2ndx s))) = some none) := by
  have hf := hs.freeList
  rw [hf.walk (mmSize2ndx_lt s) _ hfuel]
  have hafter : ∀ r < heap.mm_nregions, ∀ b ∈ R r, b.free = true → s ≤ b.size →
      b.addr ∈ heap.listAfter B (mmSize2ndx s) := fun r hr b hb hfree hsb =>
    hf.mem_listAfter ((hs.listed_iff _).mpr ⟨r,hr,b,hb,hfree,rfl⟩) (by rw [hs.size_eq hr hb]; exact hsb)
  cases hfind : (heap.listAfter B (mmSize2ndx s)).find? fun p => !decide (heap.size p < s) with
  | none =>
    refine .inr ⟨fun r hr b hb hfree => Nat.lt_of_not_le fun hsb => ?_,rfl⟩
    have := List.find?_eq_none.mp hfind _ (hafter r hr b hb hfree hsb)
    simp only [hs.size_eq hr hb,Bool.not_eq_true',decide_eq_false_iff_not,Nat.not_lt] at this
    omega
  | some c =>
    obtain ⟨hc,as,bs,hL,has⟩ := List.find?_eq_some_iff_append.mp hfind
    have hsc : s ≤ heap.size c := by simpa using hc
    have hmem : c ∈ heap.listAfter B (mmSize2ndx s) := by simp [hL]
    obtain ⟨r,hr,b,hb,hfree,rfl⟩ :=
      (hs.listed_iff c).mp (hf.listed_of_mem_listAfter (mmSize2ndx_lt s) hmem (by omega))
    have hsorted := hf.listAfter_sorted (mmSize2ndx_lt s)
    rw [hL,List.pairwise_append,List.pairwise_cons] at hsorted
    refine .inl ⟨r,b,⟨hr,hb,hfree,by rwa [← hs.size_eq hr hb],fun r' hr' b' hb' hfree' hsb' => ?_⟩,rfl,
      fun j hj P Q hB a ha => ?_⟩
    · have hin := hafter r' hr' b' hb' hfree' hsb'
      rw [← hs.size_eq hr hb,← hs.size_eq hr' hb']
      rw [hL,List.mem_append,List.mem_cons] at hin
      rcases hin with hin | he | hin
      · have := has _ hin
        simp only [hs.size_eq hr' hb',Bool.not_not,decide_eq_true_eq] at this
        omega
      · rw [he]
      · exact hsorted.2.1.1 _ hin (by omega) (by rw [hs.size_eq hr' hb']; omega)
    · have hij : mmSize2ndx s ≤ j := by
        rw [← (hf.bucket j hj b.addr (by rw [hB]; simp)).1]
        exact mmSize2ndx_mono hsc
      have hab : a ≠ b.addr := by
        have hnd := hf.class_nodup hj
        rw [hB,List.nodup_append] at hnd
        exact hnd.2.2 _ ha _ List.mem_cons_self
      have hpair : List.Sublist [a,b.addr] (heap.listAfter B (mmSize2ndx s)) := by
        refine List.Sublist.trans ?_ (heap.sublist_listAfter B hij hj)
        rw [hB]
        exact (List.singleton_sublist.mpr ha).append (List.singleton_sublist.mpr List.mem_cons_self)
      have hnd := hf.listAfter_nodup (mmSize2ndx_lt s)
      rw [hL] at hpair hnd
      simpa using has _ (mem_of_pair_sublist hnd hab hpair)

/-- The split of `mm_malloc`: the chunk at `node` keeps `size` bytes, and the rest becomes the chunk
after it. -/
def mallocSplit (heap : MmHeap) (node size : Nat) : MmHeap :=
  let remaining := heap.size node - size
  let next := node + heap.size node
  let remainder := node + size
  let heap := heap.setSize remainder remaining
  let heap := heap.setPreceding remainder size
  let heap := heap.setSize node size
  heap.setPreceding next (remaining ||| (heap.preceding next &&& MM_ALLOC_BIT))

def mallocTake (fuel : Nat) (heap : MmHeap) (node size : Nat) : Option (MmHeap × Option Nat) := do
  let heap := heap.unlink node
  let heap ← if heap.size node - size ≥ SIZEOF_MM_FREENODE then
      mmAddfreechunk fuel (mallocSplit heap node size) (node + size)
    else some heap
  let heap := heap.setPreceding node (heap.preceding node ||| MM_ALLOC_BIT)
  some (heap,some (node + SIZEOF_MM_ALLOCNODE))

theorem mmMalloc_eq (fuel : Nat) (heap : MmHeap) {size : Nat} (hsize : 0 < size) :
    mmMalloc fuel heap size =
      match DList.walkUntil heap.flink (fun node => decide (heap.size node < mallocChunkSize size)) fuel
        (heap.flink (heap.nodelist (mmSize2ndx (mallocChunkSize size)))) with
      | none => none
      | some none => some (heap,none)
      | some (some node) => mallocTake fuel heap node (mallocChunkSize size) := by
  simp only [mmMalloc,if_neg (Nat.not_lt.mpr hsize),malloc_ndx]
  rfl

/-- The chunks `mm_malloc` leaves of the free chunk `b` for `s` bytes: `b` allocated, followed by the
rest as a free chunk when the rest makes a free node. -/
def allocBlocks (b : Block) (s : Nat) : List Block :=
  if SIZEOF_MM_FREENODE ≤ b.size - s then [⟨b.addr,s,false⟩,⟨b.addr + s,b.size - s,true⟩]
  else [{ b with free := false }]

theorem MmHeap.Shape.addr_ne {heap : MmHeap} {R : Nat → List Block} {B : Nat → List Nat} (hs : heap.Shape R B)
    {r r' : Nat} (hr : r < heap.mm_nregions) (hr' : r' < heap.mm_nregions) (hrr : r' ≠ r) {b y : Block}
    (hb : b ∈ R r) (hy : y ∈ R r') : y.addr ≠ b.addr := by
  have hb' : b ∈ heap.regionBlocks r (R r) := by simp [MmHeap.regionBlocks,hb]
  have hy' : y ∈ heap.regionBlocks r' (R r') := by simp [MmHeap.regionBlocks,hy]
  have := (hs.region r hr).mem_bounds hb'
  have := (hs.region r hr).tiles.pos hb'
  have := (hs.region r' hr').mem_bounds hy'
  have := (hs.region r' hr').tiles.pos hy'
  rcases hs.apart r' hr' r hr hrr with h | h <;> simp only [MmHeap.regionEnd] at h <;> omega

theorem MmHeap.Shape.unlinkFree {heap : MmHeap} {R : Nat → List Block} {B : Nat → List Nat}
    (hs : heap.Shape R B) {r : Nat} (hr : r < heap.mm_nregions) {l₁ l₂ : List Block} {b : Block}
    (hR : R r = l₁ ++ b :: l₂) (hb : b.free = true) {j : Nat} {P Q : List Nat} (hj : j < MM_NNODES)
    (hB : B j = P ++ b.addr :: Q) :
    (heap.unlink b.addr).Freeing R (Function.update B j (P ++ Q)) r l₁ b l₂ ∧
      (∀ p ∈ l₁.getLast?, p.free = false) ∧ ∀ y ∈ l₂.head?, y.free = false := by
  have hrel := heap.relinked_unlink b.addr
  have hbd := hrel.sameBounds
  have hreg := hs.region r hr
  rw [hR] at hreg
  have ht := hreg.tiles
  rw [MmHeap.regionBlocks_mid] at ht
  have hn : ∀ y ∈ l₁ ++ l₂, y.addr ≠ b.addr := fun y hy => by
    refine ht.addr_ne y ?_
    rcases List.mem_append.mp hy with hy | hy <;> simp [hy]
  have hO : ∀ c, heap.FreeChunk (Function.update R r []) c → c ≠ b.addr := by
    rintro c ⟨r',hr',y,hy,-,rfl⟩
    have hrr : r' ≠ r := by
      rintro rfl
      simp at hy
    rw [Function.update_of_ne hrr] at hy
    exact hs.addr_ne hr hr' hrr (by rw [hR]; simp) hy
  have hlisted : ∀ c, Listed (Function.update B j (P ++ Q)) c ↔
      heap.FreeChunk (Function.update R r (l₁ ++ l₂)) c := fun c => by
    rw [listed_erase hs.freeList hj hB,hs.listed_iff,← MmHeap.freeChunk_erase hr hO hn c,← hR,
      Function.update_eq_self]
  have hchain := List.isChain_split.mp hreg.coalesced
  refine ⟨⟨by rw [hbd.mm_nregions]; exact hr,fun r' hr' _ => hrel.region (hs.region r' (hbd.mm_nregions ▸ hr')),
    ?_,?_,?_,?_,hreg.aligned,hchain.1.left_of_append,hchain.2.tail,?_,?_,hb,hs.freeList.unlink hj hB,
    fun c => by rw [hlisted,hbd.freeChunk]⟩,fun p hp => ?_,fun y hy => ?_⟩
  · rw [hbd.mm_nregions,hbd.regionEnd,hbd.mm_heapstart]
    exact hs.apart
  · rw [hbd.mm_nregions,hbd.regionEnd,hbd.mm_heapstart,hbd.mm_nodelist,hbd.nodelist]
    exact hs.nodes
  · rw [hbd.nodelist]
    exact hs.nodes_fit
  · rw [hrel.size,hrel.preceding,hbd.regionBlocks,hbd.mm_heapstart,hbd.mm_heapend]
    exact hreg.tiles
  · rw [hbd.mm_heapend,hbd.mm_heapstart]
    exact hreg.small
  · rw [hbd.mm_heapend]
    exact hreg.fits
  · have := (List.isChain_append.mp hchain.1).2.2 p hp b (by simp)
    simpa [Coalesced,hb] using this
  · have := (List.isChain_cons.mp hchain.2).1 y hy
    simpa [Coalesced,hb] using this

namespace MmHeap.Freeing

variable {heap : MmHeap} {R : Nat → List Block} {B : Nat → List Nat} {r : Nat} {l₁ l₂ : List Block}
  {x : Block}

theorem shape (hf : heap.Freeing R B r l₁ x l₂) {heap' : MmHeap} (hw : heap.WritesIn heap' r) {cs : List Block}
    (hreg : heap'.Region r cs) {B' : Nat → List Nat} (hfl : heap'.FreeList B')
    (hlisted : ∀ c, Listed B' c ↔ heap.FreeChunk (Function.update R r cs) c) :
    heap'.Shape (Function.update R r cs) B' := by
  have hb := hw.bounds
  refine ⟨fun r' hr' => ?_,?_,?_,?_,hfl,fun c => by rw [hlisted,hb.freeChunk]⟩
  · by_cases hrr : r' = r
    · subst hrr
      rw [Function.update_self]
      exact hreg
    · rw [Function.update_of_ne hrr]
      exact hf.region_of_writesIn hw r' hr' hrr
  · rw [hb.mm_nregions,hb.regionEnd,hb.mm_heapstart]
    exact hf.apart
  · rw [hb.mm_nregions,hb.regionEnd,hb.mm_heapstart,hb.mm_nodelist,hb.nodelist]
    exact hf.nodes
  · rw [hb.nodelist]
    exact hf.nodes_fit

theorem markAlloc (hf : heap.Freeing R B r l₁ x l₂) :
    (heap.setPreceding x.addr (heap.preceding x.addr ||| MM_ALLOC_BIT)).Shape
      (Function.update R r (l₁ ++ { x with free := false } :: l₂)) B := by
  have hw := MmHeap.WritesIn.setPreceding heap (hf.mem_region (b := x) (by simp [MmHeap.regionBlocks]))
    (heap.preceding x.addr ||| MM_ALLOC_BIT)
  have ht := hf.tiles
  rw [MmHeap.regionBlocks_mid] at ht
  have hchain : (l₁ ++ { x with free := false } :: l₂).IsChain Coalesced :=
    List.isChain_split.mpr ⟨List.isChain_append.mpr ⟨hf.chain₁,.singleton _,fun _ _ y hy => by
      simp only [List.head?_cons,Option.mem_def,Option.some.injEq] at hy
      subst hy
      exact .inr rfl⟩,
      List.isChain_cons.mpr ⟨fun _ _ => .inl rfl,hf.chain₂⟩⟩
  have haligned : ∀ b ∈ l₁ ++ { x with free := false } :: l₂, b.size % MM_MIN_CHUNK = 0 := by
    intro b hb
    rcases List.mem_append.mp hb with hb | hb
    · exact hf.aligned b (by simp [hb])
    · rcases List.mem_cons.mp hb with rfl | hb
      · exact hf.aligned x (by simp)
      · exact hf.aligned b (by simp [hb])
  have hreg : (heap.setPreceding x.addr (heap.preceding x.addr ||| MM_ALLOC_BIT)).Region r
      (l₁ ++ { x with free := false } :: l₂) := by
    refine ⟨?_,haligned,hchain,hf.small,hf.fits⟩
    simp only [MmHeap.regionBlocks_mid,MmHeap.setPreceding_size,MmHeap.setPreceding_preceding,
      MmHeap.modify_mm_heapstart,MmHeap.modify_mm_heapend]
    exact tiles_markAlloc ht
  refine hf.shape hw hreg (hf.freeList.setPreceding _ _) fun c => ?_
  rw [hf.listed_iff]
  exact (MmHeap.freeChunk_allocated hf.lt rfl c).symm

theorem inside_not_mem_freeList (hf : heap.Freeing R B r l₁ x l₂) {a : Nat} (h₁ : x.addr < a)
    (h₂ : a < x.addr + x.size) : a ∉ heap.freeList B := by
  intro ha
  have ht := hf.tiles
  rw [MmHeap.regionBlocks_mid] at ht
  have hpw := List.pairwise_append.mp ht.pairwise
  have hxb := ht.bounds x (by simp)
  rcases hf.mem_freeList ha with h | h | ⟨y,hy,-,rfl⟩
  · rcases hf.nodes r hf.lt with h' | h'
    · simp only [MmHeap.regionEnd] at h'
      omega
    · omega
  · exact hf.other_out h ⟨by omega,by simp only [MmHeap.regionEnd]; omega⟩
  · rcases List.mem_append.mp hy with hy | hy
    · have := hpw.2.2 y (by simp [hy]) x (by simp)
      omega
    · have := (List.pairwise_cons.mp hpw.2.1).1 y (by simp [hy])
      omega

theorem split (hf : heap.Freeing R B r l₁ x l₂) (hnext : ∀ y ∈ l₂.head?, y.free = false) {s fuel : Nat}
    (hs0 : 0 < s) (hsa : s % MM_MIN_CHUNK = 0) (hrem : SIZEOF_MM_FREENODE ≤ x.size - s)
    (hfuel : (heap.freeList B).length ≤ fuel) :
    ∃ heap' P Q, mmAddfreechunk fuel (mallocSplit heap x.addr s) (x.addr + s) = some heap' ∧
      B (mmSize2ndx (x.size - s)) = P ++ Q ∧
      heap'.Freeing R (Function.update B (mmSize2ndx (x.size - s)) (P ++ (x.addr + s) :: Q)) r l₁
        ⟨x.addr,s,true⟩ (⟨x.addr + s,x.size - s,true⟩ :: l₂) ∧ heap.WritesIn heap' r := by
  have hxin : x ∈ heap.regionBlocks r (l₁ ++ x :: l₂) := by simp [MmHeap.regionBlocks]
  have hsx : heap.size x.addr = x.size := hf.tiles.size_eq hxin
  have hxb := hf.tiles.bounds x hxin
  have hxlt := hf.size_lt hxin
  have h16 : SIZEOF_MM_FREENODE = 16 := rfl
  obtain ⟨d,L,hdL,hd,hpd⟩ := hf.next_chunk
  have hdin : d ∈ heap.regionBlocks r (l₁ ++ x :: l₂) := by
    rw [MmHeap.regionBlocks_mid,hdL]
    simp
  have hWs : (mallocSplit heap x.addr s).size =
      Function.update (Function.update heap.size (x.addr + s) (x.size - s)) x.addr s := by
    simp [mallocSplit,hsx]
  have hWp : (mallocSplit heap x.addr s).preceding =
      Function.update (Function.update heap.preceding (x.addr + s) s) d.addr
        ((x.size - s) ||| (heap.preceding d.addr &&& MM_ALLOC_BIT)) := by
    simp [mallocSplit,hsx,← hd,Function.update_of_ne (show d.addr ≠ x.addr + s by omega)]
  have hw : heap.WritesIn (mallocSplit heap x.addr s) r := by
    refine ⟨heap.sameBounds_setSize _ _ |>.trans (MmHeap.sameBounds_setPreceding _ _ _) |>.trans
      (MmHeap.sameBounds_setSize _ _ _) |>.trans (MmHeap.sameBounds_setPreceding _ _ _),fun a ha => ?_,
      fun a ha => ?_⟩
    · rw [hWs] at ha
      have : a = x.addr ∨ a = x.addr + s := by
        by_contra hne
        simp only [not_or] at hne
        exact ha (by rw [Function.update_of_ne hne.1,Function.update_of_ne hne.2])
      simp only [MmHeap.regionEnd]
      omega
    · rw [hWp] at ha
      have : a = d.addr ∨ a = x.addr + s := by
        by_contra hne
        simp only [not_or] at hne
        exact ha (by rw [Function.update_of_ne hne.1,Function.update_of_ne hne.2])
      have := hf.mem_region hdin
      simp only [MmHeap.regionEnd] at this ⊢
      omega
  have ht := hf.tiles
  rw [MmHeap.regionBlocks_mid,hdL] at ht
  have ht' : Tiles (mallocSplit heap x.addr s).size (mallocSplit heap x.addr s).preceding mkPrec
      (heap.mm_heapstart r) 0 (heap.regionBlocks r (l₁ ++ ⟨x.addr,s,true⟩ :: ⟨x.addr + s,x.size - s,true⟩ :: l₂))
      (heap.mm_heapend r + SIZEOF_MM_ALLOCNODE) SIZEOF_MM_ALLOCNODE := by
    rw [MmHeap.regionBlocks_mid,show (⟨x.addr + s,x.size - s,true⟩ :: l₂ : List Block) ++
      [guard (heap.mm_heapend r)] = ⟨x.addr + s,x.size - s,true⟩ :: d :: L by rw [List.cons_append,hdL]]
    refine ht.in_context (fun a ha => ?_) (fun a ha => ?_) fun hmid => ?_
    · rw [hWs,Function.update_of_ne (by omega),Function.update_of_ne (by omega)]
    · rw [hWp,Function.update_of_ne (by omega),Function.update_of_ne (by omega)]
    · have : Tiles (mallocSplit heap x.addr s).size (mallocSplit heap x.addr s).preceding mkPrec x.addr _
          (⟨x.addr,s,x.free⟩ :: ⟨x.addr + s,x.size - s,true⟩ :: d :: L) _ _ :=
        hmid.split_block hs0 (by omega) (by rw [hWs,Function.update_self])
        (by rw [hWs,Function.update_of_ne (by omega),Function.update_self])
        (fun a h₁ h₂ => by rw [hWs,Function.update_of_ne h₁,Function.update_of_ne h₂])
        (by rw [hWp,Function.update_of_ne (by omega),Function.update_self]; rfl)
        (by rw [hWp,Function.update_self,hpd,or_mkPrec_and_alloc hxlt])
        (fun a h₁ h₂ => by rw [hWp,Function.update_of_ne h₂,Function.update_of_ne h₁])
      rwa [hf.free] at this
  have hin : x.addr + s ∉ heap.freeList B := hf.inside_not_mem_freeList (by omega) (by omega)
  have hfl : (mallocSplit heap x.addr s).FreeList B :=
    (((hf.freeList.setSize hin _).setPreceding _ _).setSize hf.x_not_mem_freeList _).setPreceding _ _
  have hpos : 0 < (mallocSplit heap x.addr s).size (x.addr + s) := by
    rw [hWs,Function.update_of_ne (by omega),Function.update_self]
    omega
  obtain ⟨heap',P,Q,hadd,hrel,hPQ,-,-,hfl'⟩ := hfl.addfreechunk hin hpos hfuel
  have hsr : (mallocSplit heap x.addr s).size (x.addr + s) = x.size - s := by
    rw [hWs,Function.update_of_ne (by omega),Function.update_self]
  rw [hsr] at hPQ hfl'
  have hw' := hw.trans (MmHeap.WritesIn.of_relinked hrel r)
  have haligned : ∀ b ∈ l₁ ++ ⟨x.addr,s,true⟩ :: ⟨x.addr + s,x.size - s,true⟩ :: l₂,
      b.size % MM_MIN_CHUNK = 0 := by
    intro b hb
    have hx := hf.aligned x (by simp)
    rcases List.mem_append.mp hb with hb | hb
    · exact hf.aligned b (by simp [hb])
    · rcases List.mem_cons.mp hb with rfl | hb
      · exact hsa
      · rcases List.mem_cons.mp hb with rfl | hb
        · simp only [MM_MIN_CHUNK,MM_MIN_SHIFT,Nat.shiftLeft_eq] at hx hsa ⊢
          omega
        · exact hf.aligned b (by simp [hb])
  have hchain₂ : (⟨x.addr + s,x.size - s,true⟩ :: l₂ : List Block).IsChain Coalesced :=
    List.isChain_cons.mpr ⟨fun y hy => .inr (hnext y hy),hf.chain₂⟩
  have hlisted : ∀ c, Listed (Function.update B (mmSize2ndx (x.size - s)) (P ++ (x.addr + s) :: Q)) c ↔
      heap.FreeChunk (Function.update R r (l₁ ++ ⟨x.addr + s,x.size - s,true⟩ :: l₂)) c := fun c => by
    rw [listed_insert (mmSize2ndx_lt _) hPQ,hf.listed_iff,MmHeap.freeChunk_insert hf.lt rfl]
  refine ⟨heap',P,Q,hadd,hPQ,hf.of_writesIn hw' (by rw [hrel.size,hrel.preceding]; exact ht') haligned
    hf.chain₁ hchain₂ rfl hfl' hlisted,hw'⟩

end MmHeap.Freeing

theorem MmHeap.Shape.min_chunk_le {heap : MmHeap} {R : Nat → List Block} {B : Nat → List Nat}
    (hs : heap.Shape R B) {r : Nat} (hr : r < heap.mm_nregions) {b : Block} (hb : b ∈ R r) :
    MM_MIN_CHUNK ≤ b.size := by
  have := (hs.region r hr).aligned b hb
  have := (hs.region r hr).tiles.pos (b := b) (by simp [MmHeap.regionBlocks,hb])
  simp only [MM_MIN_CHUNK,MM_MIN_SHIFT,Nat.shiftLeft_eq] at *
  omega

theorem mem_allocBlocks {b : Block} {s : Nat} (hsb : s ≤ b.size) (hsa : s % MM_MIN_CHUNK = 0)
    (hba : b.size % MM_MIN_CHUNK = 0) : ⟨b.addr,s,false⟩ ∈ allocBlocks b s := by
  unfold allocBlocks
  split
  · exact List.mem_cons_self
  · have : b.size = s := by
      simp only [SIZEOF_MM_FREENODE,SIZEOF_MM_ALLOCNODE,MM_PTR_SIZE,MM_MIN_CHUNK,MM_MIN_SHIFT,
        Nat.shiftLeft_eq] at *
      omega
    simp [← this]

theorem MmHeap.Shape.take {heap : MmHeap} {R : Nat → List Block} {B : Nat → List Nat} (hs : heap.Shape R B)
    {r : Nat} (hr : r < heap.mm_nregions) {l₁ l₂ : List Block} {b : Block} (hR : R r = l₁ ++ b :: l₂)
    (hb : b.free = true) {s fuel : Nat} (hs0 : 0 < s) (hsa : s % MM_MIN_CHUNK = 0)
    (hfuel : (heap.freeList B).length ≤ fuel) :
    ∃ heap' B', mallocTake fuel heap b.addr s = some (heap',some (b.addr + SIZEOF_MM_ALLOCNODE)) ∧
      heap'.Shape (Function.update R r (l₁ ++ allocBlocks b s ++ l₂)) B' ∧ heap.SameBounds heap' := by
  obtain ⟨j,hj,hbj⟩ : Listed B b.addr := (hs.listed_iff _).mpr ⟨r,hr,b,by rw [hR]; simp,hb,rfl⟩
  obtain ⟨P,Q,hPQ⟩ := List.append_of_mem hbj
  obtain ⟨hf,-,hnext⟩ := hs.unlinkFree hr hR hb hj hPQ
  have hrel := heap.relinked_unlink b.addr
  have hsx : (heap.unlink b.addr).size b.addr = b.size := by
    rw [MmHeap.unlink_size,hs.size_eq hr (by rw [hR]; simp)]
  unfold mallocTake
  simp only [hsx]
  by_cases hsplit : SIZEOF_MM_FREENODE ≤ b.size - s
  · have hfuel' : ((heap.unlink b.addr).freeList (Function.update B j (P ++ Q))).length ≤ fuel := by
      have : (heap.freeList (Function.update B j (P ++ Q))).length + 1 = (heap.freeList B).length :=
        MmHeap.freeList_length_erase hj hPQ
      rw [hrel.freeList]
      omega
    obtain ⟨heap₂,_,_,hadd,-,hf₂,hw₂⟩ := hf.split hnext hs0 hsa hsplit hfuel'
    have hblocks : l₁ ++ allocBlocks b s ++ l₂ =
        l₁ ++ { (⟨b.addr,s,true⟩ : Block) with free := false } :: ⟨b.addr + s,b.size - s,true⟩ :: l₂ := by
      simp [allocBlocks,hsplit]
    refine ⟨_,_,by rw [if_pos hsplit,hadd]; rfl,by rw [hblocks]; exact hf₂.markAlloc,?_⟩
    exact (hrel.sameBounds.trans hw₂.bounds).trans (MmHeap.sameBounds_setPreceding _ _ _)
  · have hblocks : l₁ ++ allocBlocks b s ++ l₂ = l₁ ++ { b with free := false } :: l₂ := by
      simp [allocBlocks,hsplit]
    refine ⟨_,_,by rw [if_neg hsplit]; rfl,by rw [hblocks]; exact hf.markAlloc,
      hrel.sameBounds.trans (MmHeap.sameBounds_setPreceding _ _ _)⟩

theorem mallocChunkSize_spec {size : Nat} (h : size + SIZEOF_MM_ALLOCNODE + MM_GRAN_MASK < 2 ^ 32) :
    0 < mallocChunkSize size ∧ mallocChunkSize size % MM_MIN_CHUNK = 0 ∧
      size + SIZEOF_MM_ALLOCNODE ≤ mallocChunkSize size := by
  have hm : (size + SIZEOF_MM_ALLOCNODE) % 2 ^ 32 = size + SIZEOF_MM_ALLOCNODE := Nat.mod_eq_of_lt (by omega)
  rw [mallocChunkSize,hm,mmAlignUp_of_lt h]
  simp only [SIZEOF_MM_ALLOCNODE,MM_MIN_CHUNK,MM_MIN_SHIFT,Nat.shiftLeft_eq]
  omega

theorem mallocChunkSize_wrap_zero {size : Nat} (h₁ : 2 ^ 32 - 23 ≤ size) (h₂ : size ≤ 2 ^ 32 - 8) :
    mallocChunkSize size = 0 := by
  simp only [mallocChunkSize,mmAlignUp,SIZEOF_MM_ALLOCNODE,MM_GRAN_MASK,MM_MIN_CHUNK,MM_MIN_SHIFT,Nat.shiftLeft_eq]
  omega

theorem mallocChunkSize_wrap_min {size : Nat} (h₁ : 2 ^ 32 - 7 ≤ size) (h₂ : size < 2 ^ 32) :
    mallocChunkSize size = MM_MIN_CHUNK := by
  simp only [mallocChunkSize,mmAlignUp,SIZEOF_MM_ALLOCNODE,MM_GRAN_MASK,MM_MIN_CHUNK,MM_MIN_SHIFT,Nat.shiftLeft_eq]
  omega

theorem mmMalloc_spec {heap : MmHeap} {R : Nat → List Block} {B : Nat → List Nat} (hs : heap.Shape R B)
    {fuel size : Nat} (hfuel : (heap.freeList B).length ≤ fuel) (hsize : 0 < size)
    (hs0 : 0 < mallocChunkSize size) (hsa : mallocChunkSize size % MM_MIN_CHUNK = 0) :
    (heap.NoFit R (mallocChunkSize size) ∧ mmMalloc fuel heap size = some (heap,none)) ∨
      ∃ r l₁ b l₂ heap' B', R r = l₁ ++ b :: l₂ ∧ heap.BestFit R (mallocChunkSize size) r b ∧
        mmMalloc fuel heap size = some (heap',some (b.addr + SIZEOF_MM_ALLOCNODE)) ∧
        heap'.Shape (Function.update R r (l₁ ++ allocBlocks b (mallocChunkSize size) ++ l₂)) B' ∧
        heap.SameBounds heap' := by
  rw [mmMalloc_eq fuel heap hsize]
  rcases hs.walk_bestFit hs0 hfuel with ⟨r,b,hfit,hwalk,-⟩ | ⟨hno,hwalk⟩
  · obtain ⟨l₁,l₂,hR⟩ := List.append_of_mem hfit.mem
    obtain ⟨heap',B',htake,hs',hb⟩ := hs.take hfit.lt hR hfit.free hs0 hsa hfuel
    rw [hwalk]
    exact .inr ⟨r,l₁,b,l₂,heap',B',hR,hfit,htake,hs',hb⟩
  · rw [hwalk]
    exact .inl ⟨hno,rfl⟩

/-- `mm_malloc` of `size ≥ 1` bytes whose chunk size does not wrap: NULL, with the heap unchanged,
when no free chunk has the chunk size, and otherwise the payload of a smallest free chunk that has
it, allocated, with the rest split off as a free chunk when the rest makes a free node. -/
theorem mmMalloc_best_fit {heap : MmHeap} {R : Nat → List Block} {B : Nat → List Nat} (hs : heap.Shape R B)
    (fuel size : Nat) (hfuel : 2 ^ 32 ≤ fuel) (hsize : 0 < size)
    (hov : size + SIZEOF_MM_ALLOCNODE + MM_GRAN_MASK < 2 ^ 32) :
    (heap.NoFit R (mallocChunkSize size) ∧ mmMalloc fuel heap size = some (heap,none)) ∨
      ∃ r l₁ b l₂ heap' B', R r = l₁ ++ b :: l₂ ∧ heap.BestFit R (mallocChunkSize size) r b ∧
        mmMalloc fuel heap size = some (heap',some (b.addr + SIZEOF_MM_ALLOCNODE)) ∧
        heap'.Shape (Function.update R r (l₁ ++ allocBlocks b (mallocChunkSize size) ++ l₂)) B' := by
  obtain ⟨hs0,hsa,-⟩ := mallocChunkSize_spec hov
  rcases mmMalloc_spec hs (hs.length_le.trans hfuel) hsize hs0 hsa with h | ⟨r,l₁,b,l₂,heap',B',hR,hfit,hm,hs',-⟩
  · exact .inl h
  · exact .inr ⟨r,l₁,b,l₂,heap',B',hR,hfit,hm,hs'⟩

theorem mmMalloc_best_fit_blank :
    ∃ heap₁ heap₂, mmInitialize (2 ^ 32) blankHeap 0x1000 0x1000 = some heap₁ ∧
      mmMalloc (2 ^ 32) heap₁ 7 = some (heap₂,some 0x1010) := by
  obtain ⟨heap₁,hinit,hs₁,-,hnr,-⟩ := mmInitialize_shape (2 ^ 32) blankHeap 0x1000 0x1000
    (by decide) (by decide) (by decide) (by decide) (by decide) (by decide) (by decide)
  rcases mmMalloc_best_fit hs₁ (2 ^ 32) 7 (le_refl _) (by decide) (by decide) with
    ⟨hno,-⟩ | ⟨r,l₁,b,l₂,heap₂,B₂,hR,hfit,hm,-⟩
  · exact absurd (hno 0 (by rw [hnr]; decide) _ (by rw [Function.update_self]; exact List.mem_cons_self) (by rfl)) (by decide)
  · obtain rfl : r = 0 := by
      have := hfit.lt
      omega
    have hb := hfit.mem
    simp only [Function.update_self,List.mem_singleton] at hb
    subst hb
    exact ⟨heap₁,heap₂,hinit,by rw [hm]; rfl⟩

theorem mmMalloc_zero_null :
    ∃ heap₁ R B, mmInitialize (2 ^ 32) blankHeap 0x1000 0x1000 = some heap₁ ∧ heap₁.Shape R B ∧
      0 + SIZEOF_MM_ALLOCNODE + MM_GRAN_MASK < 2 ^ 32 ∧ ¬ heap₁.NoFit R (mallocChunkSize 0) ∧
      mmMalloc (2 ^ 32) heap₁ 0 = some (heap₁,none) := by
  obtain ⟨heap₁,hinit,hs₁,-,hnr,-⟩ := mmInitialize_shape (2 ^ 32) blankHeap 0x1000 0x1000
    (by decide) (by decide) (by decide) (by decide) (by decide) (by decide) (by decide)
  exact ⟨heap₁,_,_,hinit,hs₁,by decide,fun hno => absurd (hno 0 (by rw [hnr]; decide) _ (by rw [Function.update_self]; exact List.mem_cons_self) (by rfl)) (by decide),
    rfl⟩

theorem mmMalloc_chunk {heap : MmHeap} {R : Nat → List Block} {B : Nat → List Nat} (hs : heap.Shape R B)
    {fuel size : Nat} (hfuel : (heap.freeList B).length ≤ fuel) (hsize : 0 < size)
    (hs0 : 0 < mallocChunkSize size) (hsa : mallocChunkSize size % MM_MIN_CHUNK = 0)
    (hfit : ¬ heap.NoFit R (mallocChunkSize size)) :
    ∃ heap' p, mmMalloc fuel heap size = some (heap',some p) ∧ heap'.HeapInv ∧
      heap'.size (p - SIZEOF_MM_ALLOCNODE) = mallocChunkSize size := by
  rcases mmMalloc_spec hs hfuel hsize hs0 hsa with ⟨hno,-⟩ | ⟨r,l₁,b,l₂,heap',B',hR,hbest,hm,hs',hb⟩
  · exact absurd hno hfit
  · have hr' : r < heap'.mm_nregions := by
      rw [hb.mm_nregions]
      exact hbest.lt
    have hmem : (⟨b.addr,mallocChunkSize size,false⟩ : Block) ∈
        Function.update R r (l₁ ++ allocBlocks b (mallocChunkSize size) ++ l₂) r := by
      rw [Function.update_self]
      exact List.mem_append_left _ (List.mem_append_right _
        (mem_allocBlocks hbest.fits hsa ((hs.region r hbest.lt).aligned b hbest.mem)))
    refine ⟨heap',_,hm,⟨_,_,hs'⟩,?_⟩
    rw [Nat.add_sub_cancel]
    exact hs'.size_eq hr' hmem

/-- A request within 7 bytes of `2 ^ 32` wraps to a chunk size of `MM_MIN_CHUNK`: `mm_malloc` returns
a 16-byte chunk, whose 8-byte payload is far smaller than the request. -/
theorem mmMalloc_wrap_min_chunk {heap : MmHeap} {R : Nat → List Block} {B : Nat → List Nat}
    (hs : heap.Shape R B) (fuel size : Nat) (hfuel : 2 ^ 32 ≤ fuel) (h₁ : 2 ^ 32 - 7 ≤ size) (h₂ : size < 2 ^ 32)
    (hfree : ∃ r < heap.mm_nregions, ∃ b ∈ R r, b.free = true) :
    ∃ heap' p, mmMalloc fuel heap size = some (heap',some p) ∧ heap'.HeapInv ∧
      heap'.size (p - SIZEOF_MM_ALLOCNODE) - SIZEOF_MM_ALLOCNODE < size := by
  have hmin := mallocChunkSize_wrap_min h₁ h₂
  have hfit : ¬ heap.NoFit R (mallocChunkSize size) := fun hno => by
    obtain ⟨r,hr,b,hb,hfree⟩ := hfree
    exact absurd (hno r hr b hb hfree) (by rw [hmin]; exact Nat.not_lt.mpr (hs.min_chunk_le hr hb))
  obtain ⟨heap',p,hm,hinv,hp⟩ := mmMalloc_chunk hs (hs.length_le.trans hfuel) (show 0 < size by omega)
    (by rw [hmin]; decide) (by rw [hmin]; decide) hfit
  refine ⟨heap',p,hm,hinv,?_⟩
  rw [hp,hmin]
  simp only [MM_MIN_CHUNK,MM_MIN_SHIFT,SIZEOF_MM_ALLOCNODE,Nat.shiftLeft_eq]
  omega

theorem mmMalloc_wrap_min_chunk_blank :
    ∃ heap₁ heap₂ p, mmInitialize (2 ^ 32) blankHeap 0x1000 0x1000 = some heap₁ ∧
      mmMalloc (2 ^ 32) heap₁ (2 ^ 32 - 1) = some (heap₂,some p) ∧
      heap₂.size (p - SIZEOF_MM_ALLOCNODE) - SIZEOF_MM_ALLOCNODE < 2 ^ 32 - 1 := by
  obtain ⟨heap₁,hinit,hs₁,-,hnr,-⟩ := mmInitialize_shape (2 ^ 32) blankHeap 0x1000 0x1000
    (by decide) (by decide) (by decide) (by decide) (by decide) (by decide) (by decide)
  obtain ⟨heap₂,p,hm,-,hp⟩ := mmMalloc_wrap_min_chunk hs₁ (2 ^ 32) (2 ^ 32 - 1) (le_refl _) (by decide) (by decide)
    ⟨0,by rw [hnr]; decide,_,by rw [Function.update_self]; exact List.mem_cons_self,by rfl⟩
  exact ⟨heap₁,heap₂,p,hinit,hm,hp⟩

theorem MmHeap.FreeList.not_unlink_sentinel {heap : MmHeap} {B : Nat → List Nat} (hf : heap.FreeList B) {i : Nat}
    (hi₀ : 0 < i) (hi : i < MM_NNODES) {heap' : MmHeap}
    (hfl : heap'.flink = DList.unlinkNext heap.flink heap.blink (heap.nodelist i))
    (hbl : heap'.blink = DList.unlinkPrev heap.flink heap.blink (heap.nodelist i))
    (hnl : heap'.mm_nodelist = heap.mm_nodelist) (B' : Nat → List Nat) : ¬ heap'.FreeList B' := by
  intro hf'
  obtain ⟨l₁,y,hl⟩ : ∃ l₁ y, heap.classes B (List.range i) = l₁ ++ [y] := by
    rcases List.eq_nil_or_concat' (heap.classes B (List.range i)) with h | h
    · have : heap.nodelist 0 ∈ heap.classes B (List.range i) :=
        MmHeap.mem_classes.mpr ⟨0,List.mem_range.mpr hi₀,.inl rfl⟩
      rw [h] at this
      simp at this
    · exact h
  have hseg := hf.seg
  rw [heap.freeList_split B hi,hl,List.append_assoc,List.singleton_append] at hseg
  have hnd := hseg.nodup
  have hseg' := hseg.unlink
  rw [← hfl,← hbl] at hseg'
  have hnodes : heap'.nodelist = heap.nodelist := funext fun j => by simp [MmHeap.nodelist,hnl]
  have heq := hf'.seg.eq_of_start (by rw [hnodes]; exact hseg')
  have hmem : heap.nodelist i ∈ heap'.freeList B' := (heap'.mem_freeList B').mpr ⟨i,hi,.inl (by rw [hnodes])⟩
  rw [heq] at hmem
  rw [← List.singleton_append,← List.append_assoc,List.nodup_middle,List.nodup_cons] at hnd
  exact hnd.1 (by simpa using hmem)

theorem mmAddfreechunk_size_zero {heap : MmHeap} {node fuel : Nat} (h0 : heap.size node = 0) (hfuel : 0 < fuel) :
    ∃ heap', mmAddfreechunk fuel heap node = some heap' ∧ heap.Relinked heap' := by
  obtain ⟨n,rfl⟩ : ∃ n, fuel = n + 1 := ⟨fuel - 1,by omega⟩
  have hwalk : ∃ next, DList.walkUntilPrev heap.flink (fun next => heap.size next != 0 && heap.size next < heap.size node)
      (n + 1) (heap.nodelist (mmSize2ndx (heap.size node))) (heap.flink (heap.nodelist (mmSize2ndx (heap.size node)))) =
        some (heap.nodelist (mmSize2ndx (heap.size node)),next) := by
    cases heap.flink (heap.nodelist (mmSize2ndx (heap.size node))) with
    | none => exact ⟨none,rfl⟩
    | some p => exact ⟨some p,by simp [DList.walkUntilPrev,h0]⟩
  obtain ⟨next,hw⟩ := hwalk
  unfold mmAddfreechunk
  dsimp only
  rw [hw]
  have hrel : ∀ prev : Nat, heap.Relinked (((heap.setFlink prev (some node)).setBlink node (some prev)).setFlink
      node next) := fun prev =>
    ((heap.relinked_setFlink _ _).trans (MmHeap.relinked_setBlink _ _ _)).trans (MmHeap.relinked_setFlink _ _ _)
  cases next with
  | none => exact ⟨_,rfl,hrel _⟩
  | some p => exact ⟨_,rfl,(hrel _).trans (MmHeap.relinked_setBlink _ _ _)⟩

theorem mmMalloc_size_zero {heap : MmHeap} {R : Nat → List Block} {B : Nat → List Nat} (hs : heap.Shape R B)
    {fuel size c : Nat} {rest : List Nat} (hfuel : (heap.freeList B).length ≤ fuel) (hsize : 0 < size)
    (hzero : mallocChunkSize size = 0) (h0 : B 0 = c :: rest) :
    ∃ heap', mmMalloc fuel heap size = some (heap',some (c + SIZEOF_MM_ALLOCNODE)) ∧ heap'.size c = 0 ∧
      heap'.preceding c &&& MM_ALLOC_BIT = MM_ALLOC_BIT := by
  have hwalk : DList.walkUntil heap.flink (fun node => decide (heap.size node < mallocChunkSize size)) fuel
      (heap.flink (heap.nodelist (mmSize2ndx (mallocChunkSize size)))) = some (some c) := by
    rw [hs.freeList.walk (mmSize2ndx_lt _) _ hfuel,hzero,show mmSize2ndx 0 = 0 by decide,MmHeap.listAfter,h0]
    simp
  obtain ⟨r,hr,b,hb,-,hbc⟩ := (hs.listed_iff c).mp ⟨0,by decide,by rw [h0]; exact List.mem_cons_self⟩
  have hsc : SIZEOF_MM_FREENODE ≤ heap.size c := by
    rw [← hbc,hs.size_eq hr hb]
    exact hs.min_chunk_le hr hb
  have hfuel0 : 0 < fuel := by
    have : heap.nodelist 0 ∈ heap.freeList B := (heap.mem_freeList B).mpr ⟨0,by decide,.inl rfl⟩
    have := List.length_pos_of_mem this
    omega
  have hW : (mallocSplit (heap.unlink c) c 0).size (c + 0) = 0 := by
    simp [mallocSplit]
  obtain ⟨heap₂,hadd,hrel⟩ := mmAddfreechunk_size_zero hW hfuel0
  rw [mmMalloc_eq fuel heap hsize,hwalk,hzero]
  dsimp only
  unfold mallocTake
  simp only [MmHeap.unlink_size,Nat.sub_zero,ge_iff_le,if_pos hsc,hadd]
  refine ⟨_,rfl,?_,by rw [MmHeap.setPreceding_preceding,Function.update_self]; exact or_alloc_and_alloc⟩
  rw [MmHeap.setPreceding_size,hrel.size]
  exact hW

/-- A request of `2 ^ 32 - 23` to `2 ^ 32 - 8` bytes wraps to a chunk size of 0. With class 0 empty,
the walk stops at once, on sentinel 1: `mm_malloc` unlinks it and returns the bytes after its header,
and the heap has lost its shape. -/
theorem mmMalloc_takes_sentinel {heap : MmHeap} {R : Nat → List Block} {B : Nat → List Nat}
    (hs : heap.Shape R B) (fuel size : Nat) (hfuel : 2 ^ 32 ≤ fuel) (h₁ : 2 ^ 32 - 23 ≤ size)
    (h₂ : size ≤ 2 ^ 32 - 8) (h0 : B 0 = []) :
    ∃ heap', mmMalloc fuel heap size = some (heap',some (heap.nodelist 1 + SIZEOF_MM_ALLOCNODE)) ∧
      ¬ heap'.HeapInv := by
  have hzero := mallocChunkSize_wrap_zero h₁ h₂
  have h1 : heap.size (heap.nodelist 1) = 0 := hs.freeList.sentinel 1 (by decide)
  have hwalk : DList.walkUntil heap.flink (fun node => decide (heap.size node < mallocChunkSize size)) fuel
      (heap.flink (heap.nodelist (mmSize2ndx (mallocChunkSize size)))) = some (some (heap.nodelist 1)) := by
    rw [hs.freeList.walk (mmSize2ndx_lt _) _ (hs.length_le.trans hfuel),hzero,show mmSize2ndx 0 = 0 by decide,
      MmHeap.listAfter,h0,show MM_NNODES - (0 + 1) = 17 + 1 from rfl,List.range'_succ]
    simp [MmHeap.classes]
  have htake : mallocTake fuel heap (heap.nodelist 1) 0 =
      some ((heap.unlink (heap.nodelist 1)).setPreceding (heap.nodelist 1)
        (heap.preceding (heap.nodelist 1) ||| MM_ALLOC_BIT),some (heap.nodelist 1 + SIZEOF_MM_ALLOCNODE)) := by
    simp [mallocTake,h1,SIZEOF_MM_FREENODE,SIZEOF_MM_ALLOCNODE,MM_PTR_SIZE]
  rw [mmMalloc_eq fuel heap (by omega),hwalk,hzero]
  dsimp only
  rw [htake]
  refine ⟨_,rfl,?_⟩
  rintro ⟨R',B',hs'⟩
  refine hs.freeList.not_unlink_sentinel (show 0 < 1 by decide) (show 1 < MM_NNODES by decide) ?_ ?_ ?_ B'
    hs'.freeList
  · rw [MmHeap.setPreceding_flink,MmHeap.unlink_flink]
  · rw [MmHeap.setPreceding_blink,MmHeap.unlink_blink]
  · simp

theorem mmMalloc_takes_sentinel_blank :
    ∃ heap₁ heap₂, mmInitialize (2 ^ 32) blankHeap 0x1000 0x1000 = some heap₁ ∧
      mmMalloc (2 ^ 32) heap₁ (2 ^ 32 - 8) = some (heap₂,some 24) ∧ ¬ heap₂.HeapInv := by
  obtain ⟨heap₁,hinit,hs₁,-,-,-,-,hnl⟩ := mmInitialize_shape (2 ^ 32) blankHeap 0x1000 0x1000
    (by decide) (by decide) (by decide) (by decide) (by decide) (by decide) (by decide)
  obtain ⟨heap₂,hm,hinv⟩ := mmMalloc_takes_sentinel hs₁ (2 ^ 32) (2 ^ 32 - 8) (le_refl _) (by decide) (le_refl _)
    (by decide)
  refine ⟨heap₁,heap₂,hinit,?_,hinv⟩
  rw [hm,MmHeap.nodelist,hnl]
  rfl

/-- `mm_calloc` hands the product `n * elem_size` to `mm_zalloc` as `size_t`: past `2 ^ 32` it wraps,
and a free chunk large enough for the wrapped product gives a block far smaller than `n * elem_size`
bytes. -/
theorem mmCalloc_wrap {heap : MmHeap} {R : Nat → List Block} {B : Nat → List Nat} (hs : heap.Shape R B)
    (fuel n elem_size : Nat) (hfuel : 2 ^ 32 ≤ fuel) (hn : 0 < n) (he : 0 < elem_size)
    (hwrap : 2 ^ 32 ≤ n * elem_size) (hw0 : 0 < n * elem_size % 2 ^ 32)
    (hov : n * elem_size % 2 ^ 32 + SIZEOF_MM_ALLOCNODE + MM_GRAN_MASK < 2 ^ 32)
    (hfit : ¬ heap.NoFit R (mallocChunkSize (n * elem_size % 2 ^ 32))) :
    ∃ heap' p, mmCalloc fuel heap n elem_size = some (heap',some p) ∧ heap'.HeapInv ∧
      heap'.size (p - SIZEOF_MM_ALLOCNODE) - SIZEOF_MM_ALLOCNODE < n * elem_size := by
  obtain ⟨hs0,hsa,-⟩ := mallocChunkSize_spec hov
  obtain ⟨heap',p,hm,hinv,hp⟩ := mmMalloc_chunk hs (hs.length_le.trans hfuel) hw0 hs0 hsa hfit
  refine ⟨heap',p,by rw [mmCalloc,if_pos ⟨hn,he⟩]; exact hm,hinv,?_⟩
  have := Nat.mod_lt (n * elem_size) (show 0 < 2 ^ 32 by decide)
  rw [hp]
  simp only [mallocChunkSize,mmAlignUp,SIZEOF_MM_ALLOCNODE,MM_GRAN_MASK,MM_MIN_CHUNK,MM_MIN_SHIFT,
    Nat.shiftLeft_eq] at hov ⊢
  omega

theorem mmCalloc_wrap_blank :
    ∃ heap₁ heap₂ p, mmInitialize (2 ^ 32) blankHeap 0x1000 0x1000 = some heap₁ ∧
      mmCalloc (2 ^ 32) heap₁ 2 (2 ^ 31 + 8) = some (heap₂,some p) ∧
      heap₂.size (p - SIZEOF_MM_ALLOCNODE) - SIZEOF_MM_ALLOCNODE < 2 * (2 ^ 31 + 8) := by
  obtain ⟨heap₁,hinit,hs₁,-,hnr,-⟩ := mmInitialize_shape (2 ^ 32) blankHeap 0x1000 0x1000
    (by decide) (by decide) (by decide) (by decide) (by decide) (by decide) (by decide)
  obtain ⟨heap₂,p,hm,-,hp⟩ := mmCalloc_wrap hs₁ (2 ^ 32) 2 (2 ^ 31 + 8) (le_refl _) (by decide) (by decide)
    (by decide) (by decide) (by decide)
    (fun hno => absurd (hno 0 (by rw [hnr]; decide) _ (by rw [Function.update_self]; exact List.mem_cons_self)
      (by rfl)) (by decide))
  exact ⟨heap₁,heap₂,p,hinit,hm,hp⟩

end TizenRT.Heap
