import TizenRT.Lib.DList
import Mathlib

set_option autoImplicit false

/-!
The heap allocator (mm/mm_heap/): the build with 32-bit `size_t` chunk sizes, no heap-info
debugging and several regions. Memory holds a chunk header at each address the allocator uses;
a header is read and written field by field, and the headers of distinct chunks never overlap.
Addresses and pointers are `Nat`s, NULL is `none`; `heap->mm_nodelist[i]` is the free node at
`mm_nodelist + i * SIZEOF_MM_FREENODE`. A walk along the free list runs on at most `fuel` nodes
and gives `none` when the fuel runs out; DEBUGASSERTs are not modelled.
-/

namespace TizenRT.Heap

def SIZEOF_MM_ALLOCNODE : Nat := 8
def MM_PTR_SIZE : Nat := 4
def SIZEOF_MM_FREENODE : Nat := SIZEOF_MM_ALLOCNODE + 2 * MM_PTR_SIZE
def MM_MIN_SHIFT : Nat := 4
def MM_MAX_SHIFT : Nat := 22
def MM_MIN_CHUNK : Nat := 1 <<< MM_MIN_SHIFT
def MM_MAX_CHUNK : Nat := 1 <<< MM_MAX_SHIFT
def MM_NNODES : Nat := MM_MAX_SHIFT - MM_MIN_SHIFT + 1
def MM_GRAN_MASK : Nat := MM_MIN_CHUNK - 1
def MM_ALLOC_BIT : Nat := 0x80000000
def MIN_EXTEND : Nat := 2 * SIZEOF_MM_ALLOCNODE

/-- `MM_ALIGN_UP` on a `size_t`: the sum wraps at 2^32, and clearing the low bits rounds down to
a multiple of `MM_MIN_CHUNK`. -/
def mmAlignUp (a : Nat) : Nat := (a + MM_GRAN_MASK) % 2 ^ 32 / MM_MIN_CHUNK * MM_MIN_CHUNK

def mmAlignDown (a : Nat) : Nat := a / MM_MIN_CHUNK * MM_MIN_CHUNK

/-- `struct mm_freenode_s`; an allocated chunk uses its first two fields. -/
structure MmNode where
  size : Nat
  preceding : Nat
  flink : Option Nat
  blink : Option Nat

/-- The fields of `struct mm_heap_s` the allocator uses, and the memory. -/
structure MmHeap where
  mm_heapsize : Nat
  mm_heapstart : Nat → Nat
  mm_heapend : Nat → Nat
  mm_nregions : Nat
  /-- the address of `mm_nodelist[0]` -/
  mm_nodelist : Nat
  mem : Nat → MmNode

def MmHeap.nodelist (heap : MmHeap) (i : Nat) : Nat := heap.mm_nodelist + i * SIZEOF_MM_FREENODE

def MmHeap.size (heap : MmHeap) (p : Nat) : Nat := (heap.mem p).size

def MmHeap.preceding (heap : MmHeap) (p : Nat) : Nat := (heap.mem p).preceding

def MmHeap.flink (heap : MmHeap) (p : Nat) : Option Nat := (heap.mem p).flink

def MmHeap.blink (heap : MmHeap) (p : Nat) : Option Nat := (heap.mem p).blink

def MmHeap.modify (heap : MmHeap) (p : Nat) (f : MmNode → MmNode) : MmHeap :=
  { heap with mem := Function.update heap.mem p (f (heap.mem p)) }

@[reducible] def MmHeap.setSize (heap : MmHeap) (p v : Nat) : MmHeap := heap.modify p fun n => { n with size := v }

@[reducible] def MmHeap.setPreceding (heap : MmHeap) (p v : Nat) : MmHeap :=
  heap.modify p fun n => { n with preceding := v }

@[reducible] def MmHeap.setFlink (heap : MmHeap) (p : Nat) (v : Option Nat) : MmHeap :=
  heap.modify p fun n => { n with flink := v }

@[reducible] def MmHeap.setBlink (heap : MmHeap) (p : Nat) (v : Option Nat) : MmHeap :=
  heap.modify p fun n => { n with blink := v }

section Fields

variable (heap : MmHeap) (p : Nat)

@[simp] theorem MmHeap.modify_mm_heapsize (f : MmNode → MmNode) :
    (heap.modify p f).mm_heapsize = heap.mm_heapsize := rfl
@[simp] theorem MmHeap.modify_mm_heapstart (f : MmNode → MmNode) :
    (heap.modify p f).mm_heapstart = heap.mm_heapstart := rfl
@[simp] theorem MmHeap.modify_mm_heapend (f : MmNode → MmNode) :
    (heap.modify p f).mm_heapend = heap.mm_heapend := rfl
@[simp] theorem MmHeap.modify_mm_nregions (f : MmNode → MmNode) :
    (heap.modify p f).mm_nregions = heap.mm_nregions := rfl
@[simp] theorem MmHeap.modify_mm_nodelist (f : MmNode → MmNode) :
    (heap.modify p f).mm_nodelist = heap.mm_nodelist := rfl
@[simp] theorem MmHeap.modify_nodelist (f : MmNode → MmNode) :
    (heap.modify p f).nodelist = heap.nodelist := rfl

@[simp] theorem MmHeap.mk_size (a : Nat) (b c : Nat → Nat) (d e : Nat) (m : Nat → MmNode) :
    (MmHeap.mk a b c d e m).size = fun p => (m p).size := rfl
@[simp] theorem MmHeap.mk_preceding (a : Nat) (b c : Nat → Nat) (d e : Nat) (m : Nat → MmNode) :
    (MmHeap.mk a b c d e m).preceding = fun p => (m p).preceding := rfl
@[simp] theorem MmHeap.mk_flink (a : Nat) (b c : Nat → Nat) (d e : Nat) (m : Nat → MmNode) :
    (MmHeap.mk a b c d e m).flink = fun p => (m p).flink := rfl
@[simp] theorem MmHeap.mk_blink (a : Nat) (b c : Nat → Nat) (d e : Nat) (m : Nat → MmNode) :
    (MmHeap.mk a b c d e m).blink = fun p => (m p).blink := rfl
@[simp] theorem MmHeap.size_eta : (fun p => (heap.mem p).size) = heap.size := rfl
@[simp] theorem MmHeap.preceding_eta : (fun p => (heap.mem p).preceding) = heap.preceding := rfl
@[simp] theorem MmHeap.flink_eta : (fun p => (heap.mem p).flink) = heap.flink := rfl
@[simp] theorem MmHeap.blink_eta : (fun p => (heap.mem p).blink) = heap.blink := rfl

theorem MmHeap.modify_mem (f : MmNode → MmNode) :
    (heap.modify p f).mem = Function.update heap.mem p (f (heap.mem p)) := rfl

theorem MmHeap.modify_apply (f : MmNode → MmNode) (q : Nat) :
    (heap.modify p f).mem q = if q = p then f (heap.mem p) else heap.mem q := by
  rw [modify_mem,Function.update_apply]

theorem MmHeap.update_field {β : Type} (g : MmNode → β) (f : MmNode → MmNode) :
    (fun q => g ((heap.modify p f).mem q)) = Function.update (fun q => g (heap.mem q)) p (g (f (heap.mem p))) := by
  funext q
  by_cases hq : q = p
  · subst hq
    simp [modify_apply]
  · simp [modify_apply,hq]

@[simp] theorem MmHeap.setSize_size (v : Nat) : (heap.setSize p v).size = Function.update heap.size p v :=
  update_field heap p MmNode.size _
@[simp] theorem MmHeap.setSize_preceding (v : Nat) : (heap.setSize p v).preceding = heap.preceding :=
  (update_field heap p MmNode.preceding _).trans (Function.update_eq_self p _)
@[simp] theorem MmHeap.setSize_flink (v : Nat) : (heap.setSize p v).flink = heap.flink :=
  (update_field heap p MmNode.flink _).trans (Function.update_eq_self p _)
@[simp] theorem MmHeap.setSize_blink (v : Nat) : (heap.setSize p v).blink = heap.blink :=
  (update_field heap p MmNode.blink _).trans (Function.update_eq_self p _)

@[simp] theorem MmHeap.setPreceding_size (v : Nat) : (heap.setPreceding p v).size = heap.size :=
  (update_field heap p MmNode.size _).trans (Function.update_eq_self p _)
@[simp] theorem MmHeap.setPreceding_preceding (v : Nat) :
    (heap.setPreceding p v).preceding = Function.update heap.preceding p v :=
  update_field heap p MmNode.preceding _
@[simp] theorem MmHeap.setPreceding_flink (v : Nat) : (heap.setPreceding p v).flink = heap.flink :=
  (update_field heap p MmNode.flink _).trans (Function.update_eq_self p _)
@[simp] theorem MmHeap.setPreceding_blink (v : Nat) : (heap.setPreceding p v).blink = heap.blink :=
  (update_field heap p MmNode.blink _).trans (Function.update_eq_self p _)

@[simp] theorem MmHeap.setFlink_size (v : Option Nat) : (heap.setFlink p v).size = heap.size :=
  (update_field heap p MmNode.size _).trans (Function.update_eq_self p _)
@[simp] theorem MmHeap.setFlink_preceding (v : Option Nat) : (heap.setFlink p v).preceding = heap.preceding :=
  (update_field heap p MmNode.preceding _).trans (Function.update_eq_self p _)
@[simp] theorem MmHeap.setFlink_flink (v : Option Nat) :
    (heap.setFlink p v).flink = Function.update heap.flink p v :=
  update_field heap p MmNode.flink _
@[simp] theorem MmHeap.setFlink_blink (v : Option Nat) : (heap.setFlink p v).blink = heap.blink :=
  (update_field heap p MmNode.blink _).trans (Function.update_eq_self p _)

@[simp] theorem MmHeap.setBlink_size (v : Option Nat) : (heap.setBlink p v).size = heap.size :=
  (update_field heap p MmNode.size _).trans (Function.update_eq_self p _)
@[simp] theorem MmHeap.setBlink_preceding (v : Option Nat) : (heap.setBlink p v).preceding = heap.preceding :=
  (update_field heap p MmNode.preceding _).trans (Function.update_eq_self p _)
@[simp] theorem MmHeap.setBlink_flink (v : Option Nat) : (heap.setBlink p v).flink = heap.flink :=
  (update_field heap p MmNode.flink _).trans (Function.update_eq_self p _)
@[simp] theorem MmHeap.setBlink_blink (v : Option Nat) :
    (heap.setBlink p v).blink = Function.update heap.blink p v :=
  update_field heap p MmNode.blink _

end Fields

def MmHeap.allocated (heap : MmHeap) (p : Nat) : Bool := heap.preceding p &&& MM_ALLOC_BIT != 0

/-- The `while (size > 1)` loop of `mm_size2ndx`, run for at most `n` halvings. -/
def mmSize2ndxLoop : Nat → Nat → Nat → Nat
  | 0, _, ndx => ndx
  | n + 1, size, ndx => if size > 1 then mmSize2ndxLoop n (size >>> 1) (ndx + 1) else ndx

/-- Below `MM_MAX_CHUNK`, `MM_MAX_SHIFT` halvings bring `size >> MM_MIN_SHIFT` down to 1. -/
def mmSize2ndx (size : Nat) : Nat :=
  if size ≥ MM_MAX_CHUNK then MM_NNODES - 1 else mmSize2ndxLoop MM_MAX_SHIFT (size >>> MM_MIN_SHIFT) 0

/-- `node->blink->flink = node->flink; if (node->flink) node->flink->blink = node->blink;` -/
def MmHeap.unlink (heap : MmHeap) (node : Nat) : MmHeap :=
  let heap := match heap.blink node with
    | some b => heap.setFlink b (heap.flink node)
    | none => heap
  match heap.flink node with
  | some f => heap.setBlink f (heap.blink node)
  | none => heap

section Unlink

variable (heap : MmHeap) (x : Nat)

theorem MmHeap.unlink_flink_self (b : Nat) :
    Function.update heap.flink b (heap.flink x) x = heap.flink x := by
  by_cases hb : x = b
  · subst hb
    simp
  · simp [Function.update_of_ne hb]

theorem MmHeap.unlink_flink : (heap.unlink x).flink = DList.unlinkNext heap.flink heap.blink x := by
  unfold MmHeap.unlink DList.unlinkNext
  cases hb : heap.blink x with
  | none => cases hf : heap.flink x <;> simp [hf]
  | some b =>
    simp only [MmHeap.setFlink_flink,unlink_flink_self]
    cases hf : heap.flink x <;> simp

theorem MmHeap.unlink_blink : (heap.unlink x).blink = DList.unlinkPrev heap.flink heap.blink x := by
  unfold MmHeap.unlink DList.unlinkPrev
  cases hb : heap.blink x with
  | none => cases hf : heap.flink x <;> simp [hb,hf]
  | some b =>
    simp only [MmHeap.setFlink_flink,unlink_flink_self]
    cases hf : heap.flink x <;> simp [hb]

theorem MmHeap.unlink_frame {β : Type} (g : MmHeap → β) (hf : ∀ h p v, g (h.setFlink p v) = g h)
    (hb : ∀ h p v, g (h.setBlink p v) = g h) : g (heap.unlink x) = g heap := by
  unfold MmHeap.unlink
  cases heap.blink x <;> dsimp only <;> split <;> simp only [hf,hb]

@[simp] theorem MmHeap.unlink_size : (heap.unlink x).size = heap.size :=
  unlink_frame heap x MmHeap.size (fun h p v => setFlink_size h p v) (fun h p v => setBlink_size h p v)

@[simp] theorem MmHeap.unlink_preceding : (heap.unlink x).preceding = heap.preceding :=
  unlink_frame heap x MmHeap.preceding (fun h p v => setFlink_preceding h p v)
    (fun h p v => setBlink_preceding h p v)

@[simp] theorem MmHeap.unlink_mm_nodelist : (heap.unlink x).mm_nodelist = heap.mm_nodelist :=
  unlink_frame heap x MmHeap.mm_nodelist (fun _ _ _ => rfl) (fun _ _ _ => rfl)

@[simp] theorem MmHeap.unlink_mm_heapstart : (heap.unlink x).mm_heapstart = heap.mm_heapstart :=
  unlink_frame heap x MmHeap.mm_heapstart (fun _ _ _ => rfl) (fun _ _ _ => rfl)

@[simp] theorem MmHeap.unlink_mm_heapend : (heap.unlink x).mm_heapend = heap.mm_heapend :=
  unlink_frame heap x MmHeap.mm_heapend (fun _ _ _ => rfl) (fun _ _ _ => rfl)

@[simp] theorem MmHeap.unlink_mm_nregions : (heap.unlink x).mm_nregions = heap.mm_nregions :=
  unlink_frame heap x MmHeap.mm_nregions (fun _ _ _ => rfl) (fun _ _ _ => rfl)

@[simp] theorem MmHeap.unlink_mm_heapsize : (heap.unlink x).mm_heapsize = heap.mm_heapsize :=
  unlink_frame heap x MmHeap.mm_heapsize (fun _ _ _ => rfl) (fun _ _ _ => rfl)

end Unlink

def mmAddfreechunk (fuel : Nat) (heap : MmHeap) (node : Nat) : Option MmHeap := do
  let ndx := mmSize2ndx (heap.size node)
  let (prev,next) ← DList.walkUntilPrev heap.flink
    (fun next => heap.size next != 0 && heap.size next < heap.size node) fuel
    (heap.nodelist ndx) (heap.flink (heap.nodelist ndx))
  let heap := heap.setFlink prev (some node)
  let heap := heap.setBlink node (some prev)
  let heap := heap.setFlink node next
  match next with
  | some next => some (heap.setBlink next (some node))
  | none => some heap

def mmMalloc (fuel : Nat) (heap : MmHeap) (size : Nat) : Option (MmHeap × Option Nat) :=
  if size < 1 then some (heap,none)
  else
    let size := mmAlignUp ((size + SIZEOF_MM_ALLOCNODE) % 2 ^ 32)
    let ndx := if size ≥ MM_MAX_CHUNK then MM_NNODES - 1 else mmSize2ndx size
    match DList.walkUntil heap.flink (fun node => heap.size node < size) fuel
      (heap.flink (heap.nodelist ndx)) with
    | none => none
    | some none => some (heap,none)
    | some (some node) => do
      let heap := heap.unlink node
      let remaining := heap.size node - size
      let heap ← if remaining ≥ SIZEOF_MM_FREENODE then
          let next := node + heap.size node
          let remainder := node + size
          let heap := heap.setSize remainder remaining
          let heap := heap.setPreceding remainder size
          let heap := heap.setSize node size
          let heap := heap.setPreceding next (remaining ||| (heap.preceding next &&& MM_ALLOC_BIT))
          mmAddfreechunk fuel heap remainder
        else some heap
      let heap := heap.setPreceding node (heap.preceding node ||| MM_ALLOC_BIT)
      some (heap,some (node + SIZEOF_MM_ALLOCNODE))

/-- The middle of `mm_free`: the chunk at `node` merged with the following one when that is free;
the heap and the chunk now after `node`. -/
def mmFreeMergeNext (heap : MmHeap) (node : Nat) : MmHeap × Nat :=
  let next := node + heap.size node
  if heap.preceding next &&& MM_ALLOC_BIT = 0 then
    let andbeyond := next + heap.size next
    let heap := heap.unlink next
    let heap := heap.setSize node (heap.size node + heap.size next)
    let heap := heap.setPreceding andbeyond (heap.size node ||| (heap.preceding andbeyond &&& MM_ALLOC_BIT))
    (heap,andbeyond)
  else (heap,next)

/-- The end of `mm_free`: the chunk merged into the preceding one when that is free, and the result
added to the free list. -/
def mmFreeMergePrev (fuel : Nat) (heap : MmHeap) (node next : Nat) : Option MmHeap :=
  let prev := node - heap.preceding node
  if heap.preceding prev &&& MM_ALLOC_BIT = 0 then
    let heap := heap.unlink prev
    let heap := heap.setSize prev (heap.size prev + heap.size node)
    let heap := heap.setPreceding next (heap.size prev ||| (heap.preceding next &&& MM_ALLOC_BIT))
    mmAddfreechunk fuel heap prev
  else mmAddfreechunk fuel heap node

def mmFree (fuel : Nat) (heap : MmHeap) (mem : Option Nat) : Option MmHeap :=
  match mem with
  | none => some heap
  | some mem =>
    let node := mem - SIZEOF_MM_ALLOCNODE
    let heap := heap.setPreceding node (heap.preceding node &&& (MM_ALLOC_BIT - 1))
    let (heap,next) := mmFreeMergeNext heap node
    mmFreeMergePrev fuel heap node next

/-- `mm_zalloc`: `mm_malloc`, then the payload cleared (payload bytes are not modelled). -/
def mmZalloc (fuel : Nat) (heap : MmHeap) (size : Nat) : Option (MmHeap × Option Nat) :=
  mmMalloc fuel heap size

def mmCalloc (fuel : Nat) (heap : MmHeap) (n elem_size : Nat) : Option (MmHeap × Option Nat) :=
  if n > 0 ∧ elem_size > 0 then mmZalloc fuel heap (n * elem_size % 2 ^ 32) else some (heap,none)

/-- `mm_shrinkchunk`: the allocated chunk at `node` cut to `size` bytes; the rest joins a free next
chunk, or becomes a free chunk of its own when it makes a free node. -/
def mmShrinkchunk (fuel : Nat) (heap : MmHeap) (node size : Nat) : Option MmHeap :=
  let next := node + heap.size node
  if heap.preceding next &&& MM_ALLOC_BIT = 0 then
    let andbeyond := next + heap.size next
    let heap := heap.unlink next
    let newnode := node + size
    let heap := heap.setSize newnode (heap.size next + heap.size node - size)
    let heap := heap.setPreceding newnode size
    let heap := heap.setSize node size
    let heap := heap.setPreceding andbeyond (heap.size newnode ||| (heap.preceding andbeyond &&& MM_ALLOC_BIT))
    mmAddfreechunk fuel heap newnode
  else if heap.size node ≥ (size + SIZEOF_MM_FREENODE) % 2 ^ 32 then
    let newnode := node + size
    let heap := heap.setSize newnode (heap.size node - size)
    let heap := heap.setPreceding newnode size
    let heap := heap.setSize node size
    let heap := heap.setPreceding next (heap.size newnode ||| MM_ALLOC_BIT)
    mmAddfreechunk fuel heap newnode
  else some heap

/-- How much `mm_realloc` takes from the previous and from the next free chunk, for `needed` bytes:
from the previous one first when it is the smaller or the next one is allocated. -/
def reallocTakes (prevsize nextsize needed : Nat) : Nat × Nat :=
  let (takeprev,takenext,needed) :=
    if prevsize > 0 ∧ (nextsize ≥ prevsize ∨ nextsize < 1) then
      if needed > prevsize then (prevsize,needed - prevsize,0) else (needed,0,0)
    else (0,0,needed)
  if nextsize > 0 ∧ needed ≠ 0 then
    if needed > nextsize then (needed - nextsize,nextsize) else (0,needed)
  else (takeprev,takenext)

/-- `mm_realloc`'s extension of the chunk at `oldnode` down into the free chunk `prev` by `takeprev`
bytes; the heap and the chunk's new address. -/
def reallocIntoPrev (fuel : Nat) (heap : MmHeap) (oldnode oldsize prev prevsize takeprev next : Nat) :
    Option (MmHeap × Nat) :=
  let heap := heap.unlink prev
  if prevsize - takeprev ≥ SIZEOF_MM_FREENODE then
    let newnode := oldnode - takeprev
    let heap := heap.setSize prev (heap.size prev - takeprev)
    let heap := heap.setSize newnode (oldsize + takeprev)
    let heap := heap.setPreceding newnode (heap.size prev ||| MM_ALLOC_BIT)
    let heap := heap.setPreceding next (heap.size newnode ||| (heap.preceding next &&& MM_ALLOC_BIT))
    (mmAddfreechunk fuel heap prev).map fun heap => (heap,newnode)
  else
    let takeprev := heap.size prev
    let newnode := oldnode - takeprev
    let heap := heap.setSize newnode (heap.size newnode + oldsize)
    let heap := heap.setPreceding newnode (heap.preceding newnode ||| MM_ALLOC_BIT)
    let heap := heap.setPreceding next (heap.size newnode ||| (heap.preceding next &&& MM_ALLOC_BIT))
    some (heap,newnode)

/-- `mm_realloc`'s extension of the chunk at `oldnode` up into the free chunk `next` by `takenext`
bytes. -/
def reallocIntoNext (fuel : Nat) (heap : MmHeap) (oldnode oldsize next nextsize takenext : Nat) :
    Option MmHeap :=
  let andbeyond := next + nextsize
  let heap := heap.unlink next
  if nextsize - takenext ≥ SIZEOF_MM_FREENODE then
    let heap := heap.setSize oldnode (oldsize + takenext)
    let newnode := oldnode + heap.size oldnode
    let heap := heap.setSize newnode (nextsize - takenext)
    let heap := heap.setPreceding newnode (heap.size oldnode)
    let heap := heap.setPreceding andbeyond (heap.size newnode ||| (heap.preceding andbeyond &&& MM_ALLOC_BIT))
    mmAddfreechunk fuel heap newnode
  else
    let heap := heap.setSize oldnode (oldsize + nextsize)
    some (heap.setPreceding andbeyond (heap.size oldnode ||| (heap.preceding andbeyond &&& MM_ALLOC_BIT)))

/-- `mm_realloc` with the extension into free neighbours: the heap and the returned pointer (payload
bytes, which it copies, are not modelled). -/
def mmRealloc (fuel : Nat) (heap : MmHeap) (oldmem : Option Nat) (size : Nat) : Option (MmHeap × Option Nat) :=
  match oldmem with
  | none => mmMalloc fuel heap size
  | some oldmem =>
    if size < 1 then (mmFree fuel heap (some oldmem)).map fun heap => (heap,none)
    else
      let newsize := mmAlignUp ((size + SIZEOF_MM_ALLOCNODE) % 2 ^ 32)
      let oldnode := oldmem - SIZEOF_MM_ALLOCNODE
      let oldsize := heap.size oldnode
      if newsize ≤ oldsize then
        if newsize < oldsize then (mmShrinkchunk fuel heap oldnode newsize).map fun heap => (heap,some oldmem)
        else some (heap,some oldmem)
      else
        let next := oldnode + heap.size oldnode
        let nextsize := if heap.preceding next &&& MM_ALLOC_BIT = 0 then heap.size next else 0
        let prev := oldnode - (heap.preceding oldnode &&& (MM_ALLOC_BIT - 1))
        let prevsize := if heap.preceding prev &&& MM_ALLOC_BIT = 0 then heap.size prev else 0
        if (nextsize + prevsize + oldsize) % 2 ^ 32 ≥ newsize then do
          let (takeprev,takenext) := reallocTakes prevsize nextsize (newsize - oldsize)
          let (heap,oldnode,oldsize,newmem) ← if takeprev ≠ 0 then
              (reallocIntoPrev fuel heap oldnode oldsize prev prevsize takeprev next).map fun (heap,newnode) =>
                (heap,newnode,heap.size newnode,newnode + SIZEOF_MM_ALLOCNODE)
            else some (heap,oldnode,oldsize,oldmem)
          let heap ← if takenext ≠ 0 then reallocIntoNext fuel heap oldnode oldsize next nextsize takenext
            else some heap
          some (heap,some newmem)
        else
          match mmMalloc fuel heap size with
          | some (heap,some newmem) => (mmFree fuel heap (some oldmem)).map fun heap => (heap,some newmem)
          | r => r

/-- `mm_memalign` for an `alignment` above `MM_MIN_CHUNK`: a chunk with two alignment points more,
the space before the first usable one given back as a free chunk, the end given back by
`mm_shrinkchunk`. Sums of sizes are taken in `size_t`. -/
def mmMemalign (fuel : Nat) (heap : MmHeap) (alignment size : Nat) : Option (MmHeap × Option Nat) :=
  if alignment ≤ MM_MIN_CHUNK then mmMalloc fuel heap size
  else
    let mask := alignment - 1
    let size := mmAlignUp size
    let allocsize := (size + 2 * alignment) % 2 ^ 32
    match mmMalloc fuel heap allocsize with
    | some (heap,some rawchunk) => do
      let node := rawchunk - SIZEOF_MM_ALLOCNODE
      let alignedchunk := (rawchunk + mask) % 2 ^ 32 &&& (2 ^ 32 - 1 - mask)
      let (heap,node,allocsize,alignedchunk) ← if alignedchunk ≠ rawchunk then
          let next := node + heap.size node
          let newnode := alignedchunk - SIZEOF_MM_ALLOCNODE
          let precedingsize := newnode - node
          let (alignedchunk,newnode,precedingsize) := if precedingsize < SIZEOF_MM_FREENODE then
              let alignedchunk := (alignedchunk + alignment) % 2 ^ 32
              (alignedchunk,alignedchunk - SIZEOF_MM_ALLOCNODE,alignedchunk - SIZEOF_MM_ALLOCNODE - node)
            else (alignedchunk,newnode,precedingsize)
          let heap := heap.setSize newnode ((next + 2 ^ 32 - newnode) % 2 ^ 32)
          let heap := heap.setPreceding newnode (precedingsize ||| MM_ALLOC_BIT)
          let heap := heap.setSize node precedingsize
          let heap := heap.setPreceding node (heap.preceding node &&& (MM_ALLOC_BIT - 1))
          let heap := heap.setPreceding next (heap.size newnode ||| (heap.preceding next &&& MM_ALLOC_BIT))
          let allocsize := heap.size newnode - SIZEOF_MM_ALLOCNODE
          (mmAddfreechunk fuel heap node).map fun heap => (heap,newnode,allocsize,alignedchunk)
        else some (heap,node,allocsize,alignedchunk)
      let heap ← if allocsize > size then mmShrinkchunk fuel heap node ((size + SIZEOF_MM_ALLOCNODE) % 2 ^ 32)
        else some heap
      some (heap,some alignedchunk)
    | r => r

def mmAddregion (fuel : Nat) (heap : MmHeap) (heapstart heapsize : Nat) : Option MmHeap :=
  let IDX := heap.mm_nregions
  let heapbase := mmAlignUp heapstart
  let heapend := mmAlignDown (heapstart + heapsize)
  let heapsize := heapend - heapbase
  let heap := { heap with mm_heapsize := heap.mm_heapsize + heapsize }
  let heap := { heap with mm_heapstart := Function.update heap.mm_heapstart IDX heapbase }
  let heap := heap.setSize heapbase SIZEOF_MM_ALLOCNODE
  let heap := heap.setPreceding heapbase MM_ALLOC_BIT
  let node := heapbase + SIZEOF_MM_ALLOCNODE
  let heap := heap.setSize node (heapsize - 2 * SIZEOF_MM_ALLOCNODE)
  let heap := heap.setPreceding node SIZEOF_MM_ALLOCNODE
  let heap := { heap with mm_heapend := Function.update heap.mm_heapend IDX (heapend - SIZEOF_MM_ALLOCNODE) }
  let heap := heap.setSize (heapend - SIZEOF_MM_ALLOCNODE) SIZEOF_MM_ALLOCNODE
  let heap := heap.setPreceding (heapend - SIZEOF_MM_ALLOCNODE) (heap.size node ||| MM_ALLOC_BIT)
  let heap := { heap with mm_nregions := heap.mm_nregions + 1 }
  mmAddfreechunk fuel heap node

/-- `memset` of the node array, then `mm_nodelist[i - 1].flink = &mm_nodelist[i]` and
`mm_nodelist[i].blink = &mm_nodelist[i - 1]` for `i` from 1. -/
def nodelistInit (heap : MmHeap) : MmHeap :=
  { heap with
    mem := fun p =>
      if heap.mm_nodelist ≤ p ∧ p < heap.nodelist MM_NNODES ∧
          (p - heap.mm_nodelist) % SIZEOF_MM_FREENODE = 0 then
        let i := (p - heap.mm_nodelist) / SIZEOF_MM_FREENODE
        { size := 0, preceding := 0
          flink := if i + 1 < MM_NNODES then some (heap.nodelist (i + 1)) else none
          blink := if i = 0 then none else some (heap.nodelist (i - 1)) }
      else heap.mem p }

def mmInitialize (fuel : Nat) (heap : MmHeap) (heapstart heapsize : Nat) : Option MmHeap :=
  let heap := { heap with mm_heapsize := 0, mm_nregions := 0 }
  mmAddregion fuel (nodelistInit heap) heapstart heapsize

def mmExtend (fuel : Nat) (heap : MmHeap) (mem size region : Nat) : Option MmHeap :=
  let oldnode := heap.mm_heapend region
  let heap := heap.setSize oldnode size
  let newnode := mem + size - SIZEOF_MM_ALLOCNODE
  let heap := heap.setSize newnode SIZEOF_MM_ALLOCNODE
  let heap := heap.setPreceding newnode (heap.size oldnode ||| MM_ALLOC_BIT)
  let heap := { heap with mm_heapend := Function.update heap.mm_heapend region newnode }
  mmFree fuel heap (some mem)

structure Mallinfo where
  ordblks : Nat
  mxordblk : Nat
  uordblks : Nat
  fordblks : Nat

/-- The walk of one region of `mm_mallinfo` from `node` on: the node it stops at and the counters;
`none` when it meets a chunk of size 0, on which the C loop never ends. -/
def mallinfoRegion (heap : MmHeap) (heapend node : Nat) (info : Mallinfo) : Option (Nat × Mallinfo) :=
  if node < heapend then
    let size := heap.size node
    if size = 0 then none
    else
      let info := if heap.allocated node then { info with uordblks := info.uordblks + size }
        else { info with ordblks := info.ordblks + 1, fordblks := info.fordblks + size,
                         mxordblk := max info.mxordblk size }
      mallinfoRegion heap heapend (node + size) info
  else some (node,info)
termination_by heapend - node

/-- The regions from `region` on; `false` in the result when a walk does not stop at
`mm_heapend[region]`. -/
def mallinfoFrom (heap : MmHeap) : Nat → Nat → Mallinfo → Option (Bool × Mallinfo)
  | 0, _, info => some (true,info)
  | n + 1, region, info => do
    let (node,info) ← mallinfoRegion heap (heap.mm_heapend region) (heap.mm_heapstart region) info
    let info := { info with uordblks := info.uordblks + SIZEOF_MM_ALLOCNODE }
    let (ok,info) ← mallinfoFrom heap n (region + 1) info
    some (ok && node == heap.mm_heapend region,info)

/-- `mm_mallinfo`: whether the walks end at `mm_heapend`, and the counters. -/
def mmMallinfo (heap : MmHeap) : Option (Bool × Mallinfo) :=
  mallinfoFrom heap heap.mm_nregions 0 ⟨0,0,0,0⟩

end TizenRT.Heap
