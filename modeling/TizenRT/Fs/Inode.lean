import Mathlib.Logic.Function.Basic
import TizenRT.Environ.Model
import TizenRT.Wdog.Model

set_option autoImplicit false

/-!
The pseudo-filesystem's inode tree (fs_inode.c, fs_inodereserve.c, fs_inoderemove.c). Inodes sit
at addresses of a heap and are linked by `i_peer`, along the sorted list of one level, and by
`i_child`, down to the next level; `root_inode` heads the top level. `kmm_zalloc` places a new
inode at the next free address and fails once `avail` allocations have been made.
-/

namespace TizenRT.Fs

open TizenRT.Environ (ENOMEM EINVAL)
open TizenRT.Wdog (OK)

def EEXIST : Int := 17
def slash : UInt8 := 0x2f

structure Inode where
  name : List UInt8
  peer : Option Nat
  child : Option Nat
  mountpt : Bool

structure InodeHeap where
  nodes : Nat → Option Inode
  root : Option Nat
  nextAddr : Nat
  avail : Nat

/-- `_inode_compare` of the path from `fname` on with a node's name: the path's segment ends at
`/` or at its end. -/
def inodeCompare : List UInt8 → List UInt8 → Int
  | fname, [] => if fname = [] ∨ fname.head? = some slash then 0 else 1
  | [], _ :: _ => -1
  | f :: fname, n :: nname =>
    if f = slash then -1 else if f > n then 1 else if f < n then -1 else inodeCompare fname nname

/-- `inode_nextname`: the path after the segment at its head and the `/` after it. -/
def inodeNextname (name : List UInt8) : List UInt8 :=
  match name.dropWhile (· ≠ slash) with
  | [] => []
  | _ :: rest => rest

/-- What `inode_search` returns and passes back through `peer`, `parent` and `path`. -/
structure InodeSearch where
  node : Option Nat
  peer : Option Nat
  parent : Option Nat
  name : List UInt8

/-- The `while (node)` of `inode_search`, for at most `fuel` nodes visited. -/
def inodeSearchLoop (h : InodeHeap) : Nat → List UInt8 → Option Nat → Option Nat → Option Nat →
    InodeSearch
  | 0, name, node, left, above => ⟨node, left, above, name⟩
  | _ + 1, name, none, left, above => ⟨none, left, above, name⟩
  | fuel + 1, name, some n, left, above =>
    match h.nodes n with
    | none => ⟨none, left, above, name⟩
    | some nd =>
      if inodeCompare name nd.name < 0 then ⟨none, left, above, name⟩
      else if inodeCompare name nd.name > 0 then inodeSearchLoop h fuel name nd.peer (some n) above
      else if inodeNextname name = [] ∨ nd.mountpt then ⟨some n, left, above, inodeNextname name⟩
      else inodeSearchLoop h fuel (inodeNextname name) nd.child none (some n)

/-- `inode_search` from `root_inode`, skipping the leading `/`; a tree visits each of its
`nextAddr` nodes at most once. -/
def inodeSearch (h : InodeHeap) (path : List UInt8) : InodeSearch :=
  inodeSearchLoop h (h.nextAddr + 1) (path.drop 1) h.root none none

def InodeHeap.setNode (h : InodeHeap) (a : Nat) (nd : Inode) : InodeHeap :=
  { h with nodes := Function.update h.nodes a (some nd) }

/-- `inode_alloc`: a zeroed inode named after the segment at the head of `name`. -/
def inodeAlloc (h : InodeHeap) (name : List UInt8) : Option (Nat × InodeHeap) :=
  if h.avail = 0 then none
  else some (h.nextAddr, { h.setNode h.nextAddr ⟨name.takeWhile (· ≠ slash), none, none, false⟩ with
    nextAddr := h.nextAddr + 1
    avail := h.avail - 1 })

/-- `inode_insert` of the inode at `node` after `peer`, or at the head of `parent`'s children,
or at the head of the top level. -/
def inodeInsert (h : InodeHeap) (node : Nat) (peer parent : Option Nat) : InodeHeap :=
  match h.nodes node, peer, parent with
  | none, _, _ => h
  | some nd, some p, _ =>
    match h.nodes p with
    | some pd => (h.setNode node { nd with peer := pd.peer }).setNode p { pd with peer := some node }
    | none => h
  | some nd, none, some q =>
    match h.nodes q with
    | some qd => (h.setNode node { nd with peer := qd.child }).setNode q { qd with child := some node }
    | none => h
  | some nd, none, none => { h.setNode node { nd with peer := h.root } with root := some node }

/-- The `for (;;)` of `inode_reserve`, for at most `fuel` segments: each is allocated and
inserted before the next is allocated. -/
def inodeReserveLoop : Nat → InodeHeap → List UInt8 → Option Nat → Option Nat →
    Int × Option Nat × InodeHeap
  | 0, h, _, _, _ => (-ENOMEM, none, h)
  | fuel + 1, h, name, left, parent =>
    if inodeNextname name ≠ [] then
      match inodeAlloc h name with
      | some (node, h) => inodeReserveLoop fuel (inodeInsert h node left parent) (inodeNextname name)
          none (some node)
      | none => (-ENOMEM, none, h)
    else
      match inodeAlloc h name with
      | some (node, h) => (OK, some node, inodeInsert h node left parent)
      | none => (-ENOMEM, none, h)

/-- `inode_reserve`: the result, the inode made for `path`, and the tree. -/
def inodeReserve (path : List UInt8) (h : InodeHeap) : Int × Option Nat × InodeHeap :=
  if path = [] ∨ path.head? ≠ some slash then (-EINVAL, none, h)
  else
    let r := inodeSearch h path
    if r.node ≠ none then (-EEXIST, none, h)
    else inodeReserveLoop (path.length + 1) h r.name r.peer r.parent

/-- The inode `nd` taken off its level's list, after `peer`, at the head of `parent`'s children,
or at the head of the top level. -/
def inodeDetach (h : InodeHeap) (nd : Inode) (peer parent : Option Nat) : InodeHeap :=
  match peer, parent with
  | some p, _ =>
    match h.nodes p with
    | some pd => h.setNode p { pd with peer := nd.peer }
    | none => h
  | none, some q =>
    match h.nodes q with
    | some qd => h.setNode q { qd with child := nd.peer }
    | none => h
  | none, none => { h with root := nd.peer }

/-- `inode_unlink`: the inode `inode_search` finds is taken off its level's list, and its
`i_peer` cleared. -/
def inodeUnlink (path : List UInt8) (h : InodeHeap) : Option Nat × InodeHeap :=
  if path = [] ∨ path.head? ≠ some slash then (none, h)
  else
    let r := inodeSearch h path
    match r.node with
    | none => (none, h)
    | some n =>
      match h.nodes n with
      | none => (none, h)
      | some nd =>
        let h := inodeDetach h nd r.peer r.parent
        match h.nodes n with
        | some nd => (some n, h.setNode n { nd with peer := none })
        | none => (some n, h)

section Segment

variable {a : List UInt8}

theorem inodeCompare_self (ha : slash ∉ a) : inodeCompare a a = 0 := by
  induction a with
  | nil => simp [inodeCompare]
  | cons c a ih =>
    have hc : c ≠ slash := fun h => ha (h ▸ List.mem_cons_self)
    rw [inodeCompare,if_neg hc,if_neg (UInt8.lt_irrefl c),if_neg (UInt8.lt_irrefl c)]
    exact ih (fun h => ha (List.mem_cons_of_mem c h))

theorem dropWhile_ne_slash (ha : slash ∉ a) (rest : List UInt8) :
    (a ++ rest).dropWhile (· ≠ slash) = rest.dropWhile (· ≠ slash) := by
  induction a with
  | nil => rfl
  | cons c a ih =>
    have hc : c ≠ slash := fun h => ha (h ▸ List.mem_cons_self)
    rw [List.cons_append,List.dropWhile_cons_of_pos (by simpa using hc)]
    exact ih (fun h => ha (List.mem_cons_of_mem c h))

theorem inodeNextname_of_not_mem (ha : slash ∉ a) : inodeNextname a = [] := by
  have := dropWhile_ne_slash ha []
  rw [List.append_nil] at this
  rw [inodeNextname,this]
  rfl

theorem inodeNextname_append (ha : slash ∉ a) (rest : List UInt8) :
    inodeNextname (a ++ slash :: rest) = rest := by
  rw [inodeNextname,dropWhile_ne_slash ha,List.dropWhile_cons_of_neg (by simp)]

theorem takeWhile_ne_slash (ha : slash ∉ a) (rest : List UInt8) :
    (a ++ slash :: rest).takeWhile (· ≠ slash) = a := by
  induction a with
  | nil => simp
  | cons c a ih =>
    have hc : c ≠ slash := fun h => ha (h ▸ List.mem_cons_self)
    rw [List.cons_append,List.takeWhile_cons_of_pos (by simpa using hc),
      ih (fun h => ha (List.mem_cons_of_mem c h))]

end Segment

theorem inodeSearch_empty (h : InodeHeap) (path : List UInt8) (hroot : h.root = none) :
    inodeSearch h path = ⟨none, none, none, path.drop 1⟩ := by
  rw [inodeSearch,hroot,inodeSearchLoop]

/-- On an empty tree that can allocate one inode, `inode_reserve` of `/a/rest` fails with ENOMEM
after it has made `/a`, which `inode_search` then finds. -/
theorem inodeReserve_enomem_leaves_parent (h : InodeHeap) (a rest : List UInt8) (ha : slash ∉ a)
    (hrest : rest ≠ []) (hroot : h.root = none) (havail : h.avail = 1) :
    (inodeSearch h (slash :: a)).node = none ∧
      (inodeReserve (slash :: (a ++ slash :: rest)) h).1 = -ENOMEM ∧
      (inodeSearch (inodeReserve (slash :: (a ++ slash :: rest)) h).2.2 (slash :: a)).node =
        some h.nextAddr := by
  set h₂ : InodeHeap := { h.setNode h.nextAddr ⟨a, none, none, false⟩ with
    root := some h.nextAddr
    nextAddr := h.nextAddr + 1
    avail := 0 } with hh₂
  have hreserve : inodeReserve (slash :: (a ++ slash :: rest)) h = (-ENOMEM, none, h₂) := by
    have hfuel : (slash :: (a ++ slash :: rest)).length + 1 = (a.length + rest.length + 1) + 1 + 1 := by
      simp
      omega
    rw [inodeReserve,if_neg (by simp),inodeSearch_empty h _ hroot]
    simp only [List.drop_succ_cons,List.drop_zero,ne_eq,not_true_eq_false,if_false]
    rw [hfuel,inodeReserveLoop,if_pos (by rw [inodeNextname_append ha]; exact hrest)]
    simp only [inodeAlloc,havail,Nat.one_ne_zero,if_false,takeWhile_ne_slash ha,Nat.sub_self]
    rw [inodeNextname_append ha,inodeReserveLoop]
    have hins : inodeInsert { h.setNode h.nextAddr ⟨a, none, none, false⟩ with
        nextAddr := h.nextAddr + 1, avail := 0 } h.nextAddr none none = h₂ := by
      simp [inodeInsert,InodeHeap.setNode,hroot,hh₂]
    have hav : h₂.avail = 0 := rfl
    rw [hins]
    split <;> simp [inodeAlloc,hav]
  refine ⟨by rw [inodeSearch_empty h _ hroot],by rw [hreserve],?_⟩
  rw [hreserve]
  simp only [inodeSearch,List.drop_succ_cons,List.drop_zero,hh₂,inodeSearchLoop,InodeHeap.setNode,
    Function.update_self,inodeCompare_self ha,lt_self_iff_false,if_false,inodeNextname_of_not_mem ha,true_or,
    if_true]

theorem inodeReserve_enomem_leaves_parent_dev :
    slash ∉ [0x64, 0x65, 0x76] ∧
      (inodeSearch ⟨fun _ => none, none, 0, 1⟩ [slash, 0x64, 0x65, 0x76]).node = none ∧
      (inodeReserve [slash, 0x64, 0x65, 0x76, slash, 0x78] ⟨fun _ => none, none, 0, 1⟩).1 = -ENOMEM ∧
      (inodeSearch (inodeReserve [slash, 0x64, 0x65, 0x76, slash, 0x78] ⟨fun _ => none, none, 0, 1⟩).2.2
        [slash, 0x64, 0x65, 0x76]).node = some 0 :=
  ⟨by decide,inodeReserve_enomem_leaves_parent ⟨fun _ => none, none, 0, 1⟩ [0x64, 0x65, 0x76] [0x78]
    (by decide) (by simp) rfl rfl⟩

end TizenRT.Fs
