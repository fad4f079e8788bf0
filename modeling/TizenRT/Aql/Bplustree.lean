import Mathlib.Data.List.Sort
import Mathlib.Logic.Function.Basic

set_option autoImplicit false

/-!
The B+ tree index of arastorage (index_bplustree.c), single-threaded and with its node and bucket
caches taken as transparent: a read returns what was last written. Inner nodes route a key to the
first separator not below it; leaves name buckets of up to BUCKET_SIZE `(key, tuple id)` pairs,
chained through `info[0]` in key order. `insert_item_btree` appends to the bucket `tree_find`
reaches, or sorts a full bucket with the new pair and halves it, inserting the median in the
parent node by `tree_split`, which splits full nodes up to a new root. `get_next` walks from the
bucket of the range's low key along the chain; only a select (`matched_condition` TRUE) is
modelled, not the removal it does for a delete.

Keys and tuple ids are below 2^16, as the `uint16_t` fields store them, and kept as numbers. A
node's count is `val[BRANCH_FACTOR - 1]`, as in the source. The uninitialised slots of the local
nodes and buckets that `tree_split` and `bucket_split` write out are read as 0. `qsort` with
`compare` is taken as the stable sort by key; it fixes no order among equal keys.

When `get_next` moves to the next bucket of the chain it sets the end of its scan from the bucket it
leaves, before it reads the next one, and scans the new bucket only as far as the old one was full.
-/

namespace TizenRT.Aql

def BUCKET_SIZE : Nat := 48
def KEY_MAX : Nat := 32768
def ROOT_NODE_PARENT : Nat := 255

/-- CONFIG_BRANCH_FACTOR, CONFIG_NODE_LIMIT and CONFIG_BUCKETS_LIMIT. -/
structure BptConfig where
  branchFactor : Nat
  nodeLimit : Nat
  bucketsLimit : Nat

def BptConfig.default : BptConfig := ⟨5,110,80⟩

structure BptPair where
  key : Nat
  value : Nat
  deriving DecidableEq, Repr

def nullPair : BptPair := ⟨0,0⟩

structure TreeNode where
  val : Nat → Nat
  id : Nat → Nat
  is_leaf : Bool

structure Bucket where
  pairs : Nat → BptPair
  next_free_slot : Nat
  info : Nat → Int

structure BpTree where
  nodes : Nat → TreeNode
  buckets : Nat → Bucket
  off_nodes : Nat
  off_buckets : Nat
  root : Nat
  levels : Nat
  inserted : Nat

inductive TreeResult where
  | ok
  | insertFail
  deriving DecidableEq, Repr

section Tree

variable (c : BptConfig)

def emptyNode : TreeNode := ⟨fun _ => 0,fun _ => 0,false⟩

def emptyBucket : Bucket := ⟨fun _ => nullPair,0,fun _ => 0⟩

/-- `create`: bucket 0 empty and ending the chain, and `tree_insert` making node 0 a leaf with the
separator KEY_MAX before bucket 0. -/
def bptCreate : BpTree where
  nodes := Function.update (fun _ => emptyNode) 0
    ⟨fun i => if i = 0 then KEY_MAX else if i = c.branchFactor - 1 then 1 else 0,
     fun i => if i = 0 then 0 else if i = 1 then c.bucketsLimit - 1 else 0,true⟩
  buckets := Function.update (fun _ => emptyBucket) 0
    ⟨fun _ => nullPair,0,fun i => if i = 0 then (c.bucketsLimit : Int) - 1 else if i = 1 then KEY_MAX else 0⟩
  off_nodes := 1
  off_buckets := 1
  root := 0
  levels := 2
  inserted := 0

/-- The entry `tree_find` takes in a node for `key`: the first separator not below it, or the count. -/
def nodeIndex (node : TreeNode) (key : Nat) : Nat :=
  ((List.range (node.val (c.branchFactor - 1))).find? (fun j => node.val j ≥ key)).getD
    (node.val (c.branchFactor - 1))

/-- The descent of `tree_find` from node `id`, appending to `path` each node and the entry taken,
and last the bucket. -/
def treeFindLoop (t : BpTree) (key : Nat) : Nat → Nat → List (Nat × Nat) → Option (List (Nat × Nat))
  | 0, _, _ => none
  | fuel + 1, id, path =>
    let node := t.nodes id
    let index := nodeIndex c node key
    if node.is_leaf then some (path ++ [(id,index),(node.id index,0)])
    else treeFindLoop t key fuel (node.id index) (path ++ [(id,index)])

def treeFind (t : BpTree) (key : Nat) : Option (List (Nat × Nat)) :=
  treeFindLoop c t key t.levels t.root [(ROOT_NODE_PARENT,0)]

def pathAt (path : List (Nat × Nat)) (level : Nat) : Nat × Nat := path.getD level (0,0)

/-- The entries of a full node with `key` and the child `id` put at `pos`: `key_arr` and
`ids_arr`. -/
def keyArr (n : TreeNode) (pos key : Nat) (i : Nat) : Nat :=
  if i = pos then key else n.val (if i < pos then i else i - 1)

def idsArr (n : TreeNode) (pos id : Nat) : Nat → Nat
  | 0 => n.id 0
  | i + 1 => if i = pos then id else n.id ((if i < pos then i else i - 1) + 1)

/-- `tree_split`: insert the separator `key` and the child `id` in the node at `path[level]`, or
make a new root; a full node is split and its median inserted a level up first. `true` is
TSPLIT_OK, `false` TSPLIT_FAIL when the node file is full. -/
def treeSplit (path : List (Nat × Nat)) : Nat → Nat → Nat → BpTree → Bool × BpTree
  | key, id, level, t =>
    if (pathAt path level).1 = ROOT_NODE_PARENT then
      let root := t.root
      let new_root := t.off_nodes
      let t := { t with off_nodes := t.off_nodes + 1 }
      if t.off_nodes > c.nodeLimit then (false,{ t with off_nodes := t.off_nodes - 1 })
      else
        let node : TreeNode :=
          ⟨fun i => if i = 0 then key else if i = c.branchFactor - 1 then 1 else 0,
           fun i => if i = 0 then root else if i = 1 then id else 0,false⟩
        (true,{ t with nodes := Function.update t.nodes new_root node, root := new_root, levels := t.levels + 1 })
    else
      let nodeId := (pathAt path level).1
      let pos := (pathAt path level).2
      let n := t.nodes nodeId
      let count := n.val (c.branchFactor - 1)
      if count < c.branchFactor - 1 then
        let node : TreeNode :=
          ⟨fun i => if i = c.branchFactor - 1 then count + 1 else if i < count + 1 then keyArr n pos key i else 0,
           fun i => if i < count + 2 then idsArr n pos id i else 0,n.is_leaf⟩
        (true,{ t with nodes := Function.update t.nodes nodeId node })
      else
        let nid := t.off_nodes
        let t := { t with off_nodes := t.off_nodes + 1 }
        if t.off_nodes > c.nodeLimit then (false,{ t with off_nodes := t.off_nodes - 1 })
        else
          let half := c.branchFactor / 2
          let (res,t) :=
            match level with
            | 0 => (false,t)
            | level + 1 => treeSplit path (keyArr n pos key half) nid level t
          if res then
            let node : TreeNode :=
              ⟨fun i => if i = c.branchFactor - 1 then half else if i < half then keyArr n pos key i else 0,
               fun i => if i < half + 1 then idsArr n pos id i else 0,n.is_leaf⟩
            let node1 : TreeNode :=
              ⟨fun i => if i = c.branchFactor - 1 then (c.branchFactor - 1) / 2
                else if i < c.branchFactor - half - 1 then keyArr n pos key (i + half + 1) else 0,
               fun i => if i < c.branchFactor - half then idsArr n pos id (i + half + 1) else 0,n.is_leaf⟩
            (true,{ t with nodes := Function.update (Function.update t.nodes nodeId node) nid node1 })
          else (false,{ t with off_nodes := t.off_nodes - 1 })

/-- The bucket's `BUCKET_SIZE` pairs and the new one, sorted by key. -/
def bucketTuples (bucket : Bucket) (key value : Nat) : List BptPair :=
  (((List.range BUCKET_SIZE).map bucket.pairs) ++ [BptPair.mk key value]).insertionSort (fun a b => a.key ≤ b.key)

/-- `bucket_split` of the full bucket at `path[levels]` with the new pair: the lower half stays, the
upper half goes to a new bucket chained after it. It reports BSPLIT_OK also when `tree_split`
fails; `false` is BSPLIT_FAIL, when the bucket file is full. -/
def bucketSplit (t : BpTree) (key value : Nat) (path : List (Nat × Nat)) : Bool × BpTree :=
  let bucket_id := (pathAt path t.levels).1
  if t.off_buckets = c.bucketsLimit - 1 then (false,t)
  else
    let bucket := t.buckets bucket_id
    let tuples := bucketTuples bucket key value
    let off := (BUCKET_SIZE + 1) / 2
    let median := (tuples.getD off nullPair).key
    let b_id := t.off_buckets
    let t := { t with off_buckets := t.off_buckets + 1 }
    let (res,t) := treeSplit c path median b_id (t.levels - 1) t
    if res then
      let b1 : Bucket :=
        ⟨fun i => if i < off then tuples.getD i nullPair else nullPair,off,
         fun i => if i = 0 then b_id else if i = 1 then (tuples.getD 0 nullPair).key
           else if i = 2 then (tuples.getD (off - 1) nullPair).key else 0⟩
      let b2 : Bucket :=
        ⟨fun i => if i < BUCKET_SIZE + 1 - off then tuples.getD (i + off) nullPair else nullPair,BUCKET_SIZE + 1 - off,
         fun i => if i = 0 then bucket.info 0 else if i = 1 then (tuples.getD off nullPair).key
           else if i = 2 then (tuples.getD BUCKET_SIZE nullPair).key else 0⟩
      (true,{ t with buckets := Function.update (Function.update t.buckets bucket_id b1) b_id b2 })
    else (true,{ t with off_buckets := t.off_buckets - 1 })

def cacheBucketAppend (t : BpTree) (bucket_id : Nat) (pair : BptPair) : BpTree :=
  let b := t.buckets bucket_id
  let b : Bucket :=
    ⟨Function.update b.pairs b.next_free_slot pair,b.next_free_slot + 1,
     fun i => if i = 1 then min (b.info 1) pair.key else if i = 2 then max (b.info 2) pair.key else b.info i⟩
  { t with buckets := Function.update t.buckets bucket_id b }

/-- `insert_item_btree`; `none` where the source would retry `tree_find` without end. -/
def insertItemBtree (t : BpTree) (key value : Nat) : Option (TreeResult × BpTree) :=
  match treeFind c t key with
  | none => none
  | some path =>
    let bucket_id := (pathAt path t.levels).1
    if (t.buckets bucket_id).next_free_slot = BUCKET_SIZE then
      match bucketSplit c t key value path with
      | (false,t) => some (.insertFail,t)
      | (true,t) => some (.ok,t)
    else some (.ok,{ cacheBucketAppend t bucket_id ⟨key,value⟩ with inserted := t.inserted + 1 })

def insertAll (t : BpTree) : List BptPair → Option BpTree
  | [] => some t
  | p :: ps =>
    match insertItemBtree c t p.key p.value with
    | some (.ok,t) => insertAll t ps
    | _ => none

def keysUpTo (n : Nat) : List BptPair := (List.range' 1 n).map fun k => ⟨k,k⟩

/-- The tree that inserting the keys 1 to `n` into an empty default tree builds. -/
def keysTree (n : Nat) : BpTree :=
  (insertAll BptConfig.default (bptCreate BptConfig.default) (keysUpTo n)).getD (bptCreate BptConfig.default)

theorem insertAll_keysUpTo {n : Nat} (h : (insertAll BptConfig.default (bptCreate BptConfig.default) (keysUpTo n)).isSome) :
    insertAll BptConfig.default (bptCreate BptConfig.default) (keysUpTo n) = some (keysTree n) :=
  (Option.getD_of_ne_none (Option.isSome_iff_ne_none.mp h) _).symm

/-- The static `iteration_cache` of `get_next` (`endSlot` is its `end`) and the iterator's counters. -/
structure IterState where
  bucket_id : Nat
  bucket : Bucket
  start : Nat
  endSlot : Nat
  found_items : Nat
  next_item_no : Nat

def IterState.init : IterState := ⟨0,emptyBucket,0,0,0,0⟩

/-- `next_bucket`: `info[0]` as a `uint16_t`, none at the end of the chain. -/
def nextBucket (bucket : Bucket) : Option Nat :=
  let next := (bucket.info 0 % 65536).toNat
  if next = 65535 ∨ next = c.bucketsLimit - 1 then none else some next

def pairInRange (key_min key_max : Nat) (pair : BptPair) : Bool := key_min ≤ pair.key ∧ pair.key ≤ key_max

/-- The start of `get_next`: on an iterator that has found nothing and is at its first item, the
cache is set to the bucket of `key_min`; `none` where `tree_find` fails and INVALID_TUPLE is
returned. -/
def getNextInit (t : BpTree) (key_min : Nat) (it : IterState) : Option IterState :=
  if it.next_item_no = 0 ∧ it.found_items = 0 then
    (treeFind c t key_min).map fun path =>
      let bucket_id := (pathAt path t.levels).1
      { it with bucket_id := bucket_id, bucket := t.buckets bucket_id, start := 0,
                endSlot := (t.buckets bucket_id).next_free_slot }
  else some it

/-- `get_next` with `matched_condition` TRUE over keys `key_min..key_max`: a tuple id, or `none` for
INVALID_TUPLE; the fuel bounds the buckets it moves through, and `none` outside is the end of it. -/
def getNext (t : BpTree) (key_min key_max : Nat) : Nat → IterState → Option (Option Nat × IterState)
  | 0, _ => none
  | fuel + 1, it =>
    match getNextInit c t key_min it with
    | none => some (none,it)
    | some it =>
      match (List.range' it.start (it.endSlot - it.start)).find? (fun i => pairInRange key_min key_max (it.bucket.pairs i)) with
      | some i =>
        some (some (it.bucket.pairs i).value,
          { it with found_items := it.found_items + 1, next_item_no := it.found_items + 1, start := i + 1 })
      | none =>
        let done := { it with next_item_no := if it.found_items = 0 then 0 else 1 }
        match nextBucket c it.bucket with
        | none => some (none,done)
        | some bucket_id =>
          let endSlot := it.bucket.next_free_slot
          let bucket := t.buckets bucket_id
          if bucket.info 1 > key_max then some (none,{ done with bucket_id := bucket_id, bucket := bucket })
          else
            getNext t key_min key_max fuel
              { it with bucket_id := bucket_id, bucket := bucket, start := 0, endSlot := endSlot, next_item_no := 1 }

/-- The tuple ids of a select over `key_min..key_max`: `get_next` until INVALID_TUPLE, each call
with `fuel` buckets and at most `calls` calls. -/
def indexRange (t : BpTree) (key_min key_max fuel : Nat) : Nat → IterState → Option (List Nat)
  | 0, _ => none
  | calls + 1, it =>
    match getNext c t key_min key_max fuel it with
    | none => none
    | some (none,_) => some []
    | some (some v,it) => (indexRange t key_min key_max fuel calls it).map (v :: ·)

theorem treeSplit_buckets (path : List (Nat × Nat)) (level : Nat) : ∀ (key id : Nat) (t : BpTree),
    (treeSplit c path key id level t).2.buckets = t.buckets ∧
      (treeSplit c path key id level t).2.off_buckets = t.off_buckets := by
  induction level with
  | zero =>
    intro key id t
    unfold treeSplit
    dsimp only
    split_ifs <;> simp
  | succ level ih =>
    intro key id t
    unfold treeSplit
    dsimp only
    split_ifs <;> first | exact ih _ _ _ | simp

theorem length_bucketTuples (bucket : Bucket) (key value : Nat) : (bucketTuples bucket key value).length = BUCKET_SIZE + 1 := by
  simp [bucketTuples,List.length_insertionSort]

theorem bucketTuples_perm (bucket : Bucket) (key value : Nat) :
    (bucketTuples bucket key value).Perm ((List.range BUCKET_SIZE).map bucket.pairs ++ [⟨key,value⟩]) :=
  List.perm_insertionSort _ _

theorem map_range_getD_append {l : List BptPair} {m k : Nat} (h : l.length = m + k) (d : BptPair) :
    (List.range m).map (fun i => if i < m then l.getD i d else d) ++
      (List.range k).map (fun i => if i < k then l.getD (i + m) d else d) = l := by
  have h₁ : (List.range m).map (fun i => if i < m then l.getD i d else d) = l.take m := by
    apply List.ext_getElem (by simp; omega)
    intro i hi _
    simp at hi
    simp [hi,List.getElem?_eq_getElem (show i < l.length by omega)]
  have h₂ : (List.range k).map (fun i => if i < k then l.getD (i + m) d else d) = l.drop m := by
    apply List.ext_getElem (by simp; omega)
    intro i hi _
    simp at hi
    simp [hi,List.getElem?_eq_getElem (show m + i < l.length by omega),Nat.add_comm i m]
  rw [h₁,h₂,List.take_append_drop]

/-- A `bucket_split` that reports BSPLIT_OK either keeps every pair of the full bucket and the new
one, split between the bucket and a new one, or, when `tree_split` failed, leaves the buckets as
they were: the new pair is then in no bucket. -/
theorem bucketSplit_ok_cases (t : BpTree) (key value : Nat) (path : List (Nat × Nat))
    (hne : (pathAt path t.levels).1 ≠ t.off_buckets) (hok : (bucketSplit c t key value path).1 = true) :
    ((List.range ((BUCKET_SIZE + 1) / 2)).map ((bucketSplit c t key value path).2.buckets (pathAt path t.levels).1).pairs ++
        (List.range (BUCKET_SIZE + 1 - (BUCKET_SIZE + 1) / 2)).map
          ((bucketSplit c t key value path).2.buckets t.off_buckets).pairs).Perm
      ((List.range BUCKET_SIZE).map (t.buckets (pathAt path t.levels).1).pairs ++ [⟨key,value⟩]) ∨
      (bucketSplit c t key value path).2.buckets = t.buckets := by
  unfold bucketSplit at hok ⊢
  dsimp only at hok ⊢
  by_cases hfull : t.off_buckets = c.bucketsLimit - 1
  · simp [hfull] at hok
  rw [if_neg hfull] at hok ⊢
  have hb := (treeSplit_buckets c path (t.levels - 1)
    ((bucketTuples (t.buckets (pathAt path t.levels).1) key value).getD ((BUCKET_SIZE + 1) / 2) nullPair).key
    t.off_buckets { t with off_buckets := t.off_buckets + 1 }).1
  generalize treeSplit c path _ t.off_buckets (t.levels - 1) _ = ts at hb ⊢
  by_cases hres : ts.1 = true
  · left
    simp only [hres,↓reduceIte,Function.update_self,Function.update_of_ne hne]
    have hlen : (bucketTuples (t.buckets (pathAt path t.levels).1) key value).length =
        (BUCKET_SIZE + 1) / 2 + (BUCKET_SIZE + 1 - (BUCKET_SIZE + 1) / 2) := by
      rw [length_bucketTuples]
      have := Nat.div_le_self (BUCKET_SIZE + 1) 2
      omega
    rw [map_range_getD_append hlen nullPair]
    exact bucketTuples_perm _ key value
  · right
    simp only [hres,Bool.false_eq_true,↓reduceIte]
    exact hb

theorem bucketSplit_ok_cases_insert_49 :
    ∃ t path, insertAll BptConfig.default (bptCreate BptConfig.default) (keysUpTo 48) = some t ∧
      treeFind BptConfig.default t 49 = some path ∧ (pathAt path t.levels).1 ≠ t.off_buckets ∧
      (bucketSplit BptConfig.default t 49 49 path).1 = true ∧
      (((List.range ((BUCKET_SIZE + 1) / 2)).map
            ((bucketSplit BptConfig.default t 49 49 path).2.buckets (pathAt path t.levels).1).pairs ++
          (List.range (BUCKET_SIZE + 1 - (BUCKET_SIZE + 1) / 2)).map
            ((bucketSplit BptConfig.default t 49 49 path).2.buckets t.off_buckets).pairs).Perm
        ((List.range BUCKET_SIZE).map (t.buckets (pathAt path t.levels).1).pairs ++ [⟨49,49⟩]) ∨
        (bucketSplit BptConfig.default t 49 49 path).2.buckets = t.buckets) := by
  have hs : (insertAll BptConfig.default (bptCreate BptConfig.default) (keysUpTo 48)).isSome := by
    decide +kernel
  have hfind : treeFind BptConfig.default (keysTree 48) 49 = some [(255,0),(0,0),(0,0)] := by decide +kernel
  have hne : (pathAt [(255,0),(0,0),(0,0)] (keysTree 48).levels).1 ≠ (keysTree 48).off_buckets := by
    decide +kernel
  have hok : (bucketSplit BptConfig.default (keysTree 48) 49 49 [(255,0),(0,0),(0,0)]).1 = true := by
    decide +kernel
  exact ⟨_,_,insertAll_keysUpTo hs,hfind,hne,hok,
    bucketSplit_ok_cases _ _ 49 49 _ hne hok⟩

def bucketKeys (t : BpTree) (b : Nat) : List Nat :=
  (List.range (t.buckets b).next_free_slot).map fun i => ((t.buckets b).pairs i).key

/-- What a leaf is to keep of its buckets: each of its `count + 1` entries names a bucket of at most
BUCKET_SIZE pairs, whose keys lie above the separator before the entry and not above the one at
it, the entry `tree_find` routes them to. -/
def leafBucketsInRange (t : BpTree) (leaf : Nat) : Bool :=
  let node := t.nodes leaf
  let count := node.val (c.branchFactor - 1)
  (List.range (count + 1)).all fun i =>
    decide ((t.buckets (node.id i)).next_free_slot ≤ BUCKET_SIZE) &&
      (bucketKeys t (node.id i)).all fun k =>
        (i == 0 || decide (node.val (i - 1) < k)) && (i == count || decide (k ≤ node.val i))

theorem treeSplit_room {path : List (Nat × Nat)} {level : Nat} (key id : Nat) {t : BpTree}
    (hnode : (pathAt path level).1 ≠ ROOT_NODE_PARENT)
    (hroom : (t.nodes (pathAt path level).1).val (c.branchFactor - 1) < c.branchFactor - 1)
    (hpos : (pathAt path level).2 ≤ (t.nodes (pathAt path level).1).val (c.branchFactor - 1)) :
    (treeSplit c path key id level t).1 = true ∧
      ((treeSplit c path key id level t).2.nodes (pathAt path level).1).val (pathAt path level).2 = key ∧
      ((treeSplit c path key id level t).2.nodes (pathAt path level).1).id ((pathAt path level).2 + 1) = id ∧
      ((treeSplit c path key id level t).2.nodes (pathAt path level).1).val (c.branchFactor - 1) =
        (t.nodes (pathAt path level).1).val (c.branchFactor - 1) + 1 := by
  have hne : (pathAt path level).2 ≠ c.branchFactor - 1 := by omega
  have hlt : (pathAt path level).2 < (t.nodes (pathAt path level).1).val (c.branchFactor - 1) + 1 := by omega
  unfold treeSplit
  simp only [if_neg hnode, if_pos hroom, Function.update_self]
  refine ⟨trivial, ?_, ?_, ?_⟩
  · rw [if_neg hne, if_pos hlt, keyArr, if_pos rfl]
  · rw [if_pos (by omega), idsArr, if_pos rfl]
  · rw [if_pos trivial]

section Split

variable {t : BpTree} (key value : Nat) {path : List (Nat × Nat)}

theorem bucketSplit_median_right (hfile : t.off_buckets ≠ c.bucketsLimit - 1)
    (hleaf : (pathAt path (t.levels - 1)).1 ≠ ROOT_NODE_PARENT)
    (hroom : (t.nodes (pathAt path (t.levels - 1)).1).val (c.branchFactor - 1) < c.branchFactor - 1)
    (hpos : (pathAt path (t.levels - 1)).2 ≤ (t.nodes (pathAt path (t.levels - 1)).1).val (c.branchFactor - 1)) :
    (bucketSplit c t key value path).1 = true ∧
      ((bucketSplit c t key value path).2.nodes (pathAt path (t.levels - 1)).1).id
          ((pathAt path (t.levels - 1)).2 + 1) = t.off_buckets ∧
      ((bucketSplit c t key value path).2.nodes (pathAt path (t.levels - 1)).1).val
          ((pathAt path (t.levels - 1)).2) = (((bucketSplit c t key value path).2.buckets t.off_buckets).pairs 0).key ∧
      0 < ((bucketSplit c t key value path).2.buckets t.off_buckets).next_free_slot ∧
      ((bucketSplit c t key value path).2.nodes (pathAt path (t.levels - 1)).1).val (c.branchFactor - 1) =
        (t.nodes (pathAt path (t.levels - 1)).1).val (c.branchFactor - 1) + 1 := by
  obtain ⟨hres, hval, hid, hcount⟩ := treeSplit_room c
    ((bucketTuples (t.buckets (pathAt path t.levels).1) key value).getD ((BUCKET_SIZE + 1) / 2) nullPair).key
    t.off_buckets (t := { t with off_buckets := t.off_buckets + 1 }) hleaf hroom hpos
  have hb := treeSplit_buckets c path (t.levels - 1)
    ((bucketTuples (t.buckets (pathAt path t.levels).1) key value).getD ((BUCKET_SIZE + 1) / 2) nullPair).key
    t.off_buckets { t with off_buckets := t.off_buckets + 1 }
  unfold bucketSplit
  simp only [if_neg hfile]
  generalize treeSplit c path _ t.off_buckets (t.levels - 1) _ = ts at hres hval hid hcount hb ⊢
  obtain ⟨res, ts⟩ := ts
  dsimp only at hres hval hid hcount hb ⊢
  subst hres
  have hhalf : 0 < BUCKET_SIZE + 1 - (BUCKET_SIZE + 1) / 2 := by decide
  refine ⟨rfl, hid, ?_, ?_, hcount⟩
  · simp only [if_true, Function.update_self, if_pos hhalf, Nat.zero_add, hval]
  · simpa only [if_true, Function.update_self] using hhalf

theorem bucketSplit_leaf_out_of_range (hfile : t.off_buckets ≠ c.bucketsLimit - 1)
    (hleaf : (pathAt path (t.levels - 1)).1 ≠ ROOT_NODE_PARENT)
    (hroom : (t.nodes (pathAt path (t.levels - 1)).1).val (c.branchFactor - 1) < c.branchFactor - 1)
    (hpos : (pathAt path (t.levels - 1)).2 ≤ (t.nodes (pathAt path (t.levels - 1)).1).val (c.branchFactor - 1)) :
    leafBucketsInRange c (bucketSplit c t key value path).2 (pathAt path (t.levels - 1)).1 = false := by
  obtain ⟨-, hid, hval, hslot, hcount⟩ := bucketSplit_median_right c key value hfile hleaf hroom hpos
  generalize (bucketSplit c t key value path).2 = t' at hid hval hslot hcount
  have hmem : (((t'.buckets t.off_buckets).pairs 0).key) ∈ bucketKeys t' t.off_buckets :=
    List.mem_map.mpr ⟨0, List.mem_range.mpr hslot, rfl⟩
  simp only [leafBucketsInRange, List.all_eq_false, List.mem_range]
  refine ⟨(pathAt path (t.levels - 1)).2 + 1, by omega, fun h => ?_⟩
  rw [hid] at h
  have hk := List.all_eq_true.mp (Bool.and_eq_true_iff.mp h).2 _ hmem
  simp [hval] at hk

/-- An insert into a full bucket whose leaf has room returns TREE_OK and leaves the leaf with a
bucket out of its range. -/
theorem insertItemBtree_split_out_of_range (hfind : treeFind c t key = some path)
    (hfull : (t.buckets (pathAt path t.levels).1).next_free_slot = BUCKET_SIZE)
    (hfile : t.off_buckets ≠ c.bucketsLimit - 1)
    (hleaf : (pathAt path (t.levels - 1)).1 ≠ ROOT_NODE_PARENT)
    (hroom : (t.nodes (pathAt path (t.levels - 1)).1).val (c.branchFactor - 1) < c.branchFactor - 1)
    (hpos : (pathAt path (t.levels - 1)).2 ≤ (t.nodes (pathAt path (t.levels - 1)).1).val (c.branchFactor - 1)) :
    ∃ t', insertItemBtree c t key value = some (.ok, t') ∧
      leafBucketsInRange c t' (pathAt path (t.levels - 1)).1 = false := by
  obtain ⟨hres, -⟩ := bucketSplit_median_right c key value hfile hleaf hroom hpos
  refine ⟨(bucketSplit c t key value path).2, ?_, bucketSplit_leaf_out_of_range c key value hfile hleaf hroom hpos⟩
  simp only [insertItemBtree, hfind, hfull, if_true]
  generalize bucketSplit c t key value path = b at hres ⊢
  obtain ⟨r, t'⟩ := b
  subst hres
  rfl

theorem insertItemBtree_split_out_of_range_insert_49 :
    ∃ t path, insertAll BptConfig.default (bptCreate BptConfig.default) (keysUpTo 48) = some t ∧
      treeFind BptConfig.default t 49 = some path ∧
      (t.buckets (pathAt path t.levels).1).next_free_slot = BUCKET_SIZE ∧
      t.off_buckets ≠ BptConfig.default.bucketsLimit - 1 ∧
      (pathAt path (t.levels - 1)).1 ≠ ROOT_NODE_PARENT ∧
      (t.nodes (pathAt path (t.levels - 1)).1).val (BptConfig.default.branchFactor - 1) <
        BptConfig.default.branchFactor - 1 ∧
      (pathAt path (t.levels - 1)).2 ≤
        (t.nodes (pathAt path (t.levels - 1)).1).val (BptConfig.default.branchFactor - 1) ∧
      ∃ t', insertItemBtree BptConfig.default t 49 49 = some (.ok,t') ∧
        leafBucketsInRange BptConfig.default t' (pathAt path (t.levels - 1)).1 = false := by
  have hs : (insertAll BptConfig.default (bptCreate BptConfig.default) (keysUpTo 48)).isSome := by
    decide +kernel
  have hfind : treeFind BptConfig.default (keysTree 48) 49 = some [(255,0),(0,0),(0,0)] := by decide +kernel
  have hfull : ((keysTree 48).buckets
      (pathAt [(255,0),(0,0),(0,0)] (keysTree 48).levels).1).next_free_slot =
        BUCKET_SIZE := by
    decide +kernel
  have hfile : (keysTree 48).off_buckets ≠ BptConfig.default.bucketsLimit - 1 := by decide +kernel
  have hleaf : (pathAt [(255,0),(0,0),(0,0)] ((keysTree 48).levels - 1)).1 ≠ ROOT_NODE_PARENT := by
    decide +kernel
  have hroom : ((keysTree 48).nodes
      (pathAt [(255,0),(0,0),(0,0)] ((keysTree 48).levels - 1)).1).val
        (BptConfig.default.branchFactor - 1) < BptConfig.default.branchFactor - 1 := by
    decide +kernel
  have hpos : (pathAt [(255,0),(0,0),(0,0)] ((keysTree 48).levels - 1)).2 ≤
      ((keysTree 48).nodes
        (pathAt [(255,0),(0,0),(0,0)] ((keysTree 48).levels - 1)).1).val
          (BptConfig.default.branchFactor - 1) := by
    decide +kernel
  exact ⟨_,_,insertAll_keysUpTo hs,hfind,hfull,hfile,hleaf,hroom,hpos,
    insertItemBtree_split_out_of_range _ 49 49 hfind hfull hfile hleaf hroom hpos⟩

end Split

/-- Keys 1 to 49 inserted with themselves as tuple ids, in the default configuration: the leaf
starts in range, and the 49th insert splits the first bucket at the median 25, into the leaf
that has room, and returns TREE_OK with the pair of key 25 first in the new bucket, after the
separator 25. `tree_find` of 25 then leads to the first bucket, which does not hold it. -/
theorem insertAll_leaf_bucket_out_of_range :
    leafBucketsInRange BptConfig.default (bptCreate BptConfig.default) 0 = true ∧
      (insertAll BptConfig.default (bptCreate BptConfig.default) ((List.range' 1 49).map fun k => ⟨k, k⟩)).map
          (fun t => leafBucketsInRange BptConfig.default t 0) = some false ∧
      ((insertAll BptConfig.default (bptCreate BptConfig.default) ((List.range' 1 49).map fun k => ⟨k, k⟩)).bind
          fun t => (treeFind BptConfig.default t 25).map fun path =>
            decide (25 ∈ bucketKeys t (pathAt path t.levels).1)) = some false := by
  decide +kernel

variable (t : BpTree) (key_min key_max : Nat)

/-- The tuple ids of the pairs of `B` in range among slots `s..e-1`, in slot order. -/
def bucketScan (B : Bucket) (s e : Nat) : List Nat :=
  ((List.range' s (e - s)).filter fun i => pairInRange key_min key_max (B.pairs i)).map fun i => (B.pairs i).value

theorem filter_range'_eq_cons {p : Nat → Bool} {s n i : Nat} {L : List Nat}
    (h : (List.range' s n).filter p = i :: L) : (List.range' (i + 1) (s + n - (i + 1))).filter p = L := by
  induction n generalizing s with
  | zero => simp at h
  | succ n ih =>
    rw [List.range'_succ,List.filter_cons] at h
    split at h
    · obtain ⟨rfl,rfl⟩ := List.cons.inj h
      congr 2
      omega
    · rw [show s + (n + 1) - (i + 1) = s + 1 + n - (i + 1) by omega]
      exact ih h

theorem getNextInit_of_ne {it : IterState} (h : it.next_item_no ≠ 0 ∨ it.found_items ≠ 0) :
    getNextInit c t key_min it = some it := by
  unfold getNextInit
  rw [if_neg (by omega)]

theorem getNext_succ (fuel : Nat) (it : IterState) :
    getNext c t key_min key_max (fuel + 1) it =
      match getNextInit c t key_min it with
      | none => some (none,it)
      | some it =>
        match (List.range' it.start (it.endSlot - it.start)).find? (fun i => pairInRange key_min key_max (it.bucket.pairs i)) with
        | some i =>
          some (some (it.bucket.pairs i).value,
            { it with found_items := it.found_items + 1, next_item_no := it.found_items + 1, start := i + 1 })
        | none =>
          let done := { it with next_item_no := if it.found_items = 0 then 0 else 1 }
          match nextBucket c it.bucket with
          | none => some (none,done)
          | some bucket_id =>
            let endSlot := it.bucket.next_free_slot
            let bucket := t.buckets bucket_id
            if bucket.info 1 > key_max then some (none,{ done with bucket_id := bucket_id, bucket := bucket })
            else
              getNext c t key_min key_max fuel
                { it with bucket_id := bucket_id, bucket := bucket, start := 0, endSlot := endSlot, next_item_no := 1 } :=
  rfl

theorem indexRange_succ (fuel calls : Nat) (it : IterState) :
    indexRange c t key_min key_max fuel (calls + 1) it =
      match getNext c t key_min key_max fuel it with
      | none => none
      | some (none,_) => some []
      | some (some v,it) => (indexRange c t key_min key_max fuel calls it).map (v :: ·) :=
  rfl

theorem getNext_found {it s : IterState} (hs : getNextInit c t key_min it = some s) {i : Nat}
    (hi : (List.range' s.start (s.endSlot - s.start)).find? (fun i => pairInRange key_min key_max (s.bucket.pairs i)) = some i)
    (fuel : Nat) :
    getNext c t key_min key_max (fuel + 1) it =
      some (some (s.bucket.pairs i).value,
        { s with found_items := s.found_items + 1, next_item_no := s.found_items + 1, start := i + 1 }) := by
  simp only [getNext_succ,hs,hi]

theorem getNext_move {it s : IterState} (hs : getNextInit c t key_min it = some s)
    (hi : (List.range' s.start (s.endSlot - s.start)).find? (fun i => pairInRange key_min key_max (s.bucket.pairs i)) = none)
    {b : Nat} (hb : nextBucket c s.bucket = some b) (hk : ¬ (t.buckets b).info 1 > key_max) (fuel : Nat) :
    getNext c t key_min key_max (fuel + 1) it =
      getNext c t key_min key_max fuel
        { s with bucket_id := b, bucket := t.buckets b, start := 0, endSlot := s.bucket.next_free_slot, next_item_no := 1 } := by
  simp only [getNext_succ,hs,hi,hb,hk,if_false]

theorem getNext_last {it s : IterState} (hs : getNextInit c t key_min it = some s)
    (hi : (List.range' s.start (s.endSlot - s.start)).find? (fun i => pairInRange key_min key_max (s.bucket.pairs i)) = none)
    (hb : nextBucket c s.bucket = none) (fuel : Nat) :
    ∃ it', getNext c t key_min key_max (fuel + 1) it = some (none,it') := by
  simp only [getNext_succ,hs,hi,hb]
  exact ⟨_,rfl⟩

def IterState.left (it : IterState) : List Nat :=
  (List.range' it.start (it.endSlot - it.start)).filter fun i => pairInRange key_min key_max (it.bucket.pairs i)

theorem indexRange_scan (fuel calls : Nat) (L : List Nat) : ∀ it : IterState, getNextInit c t key_min it = some it →
    it.left key_min key_max = L →
    ∃ it', indexRange c t key_min key_max (fuel + 1) (calls + L.length) it =
        (indexRange c t key_min key_max (fuel + 1) calls it').map (L.map (fun i => (it.bucket.pairs i).value) ++ ·) ∧
      getNextInit c t key_min it' = some it' ∧ it'.bucket = it.bucket ∧ it'.bucket_id = it.bucket_id ∧
      it'.left key_min key_max = [] ∧ it'.found_items = it.found_items + L.length := by
  induction L with
  | nil => exact fun it hs hL => ⟨it,by simp,hs,rfl,rfl,hL,rfl⟩
  | cons i L ih =>
    intro it hs hL
    have hi : (List.range' it.start (it.endSlot - it.start)).find? (fun i => pairInRange key_min key_max (it.bucket.pairs i)) = some i := by
      rw [← List.head?_filter]
      exact congrArg List.head? hL
    have hnext := getNext_found c t key_min key_max hs hi fuel
    set it₁ : IterState := { it with found_items := it.found_items + 1, next_item_no := it.found_items + 1, start := i + 1 }
    have hs₁ : getNextInit c t key_min it₁ = some it₁ := getNextInit_of_ne c t key_min (.inr (by simp [it₁]))
    have hL₁ : it₁.left key_min key_max = L := by
      have h := filter_range'_eq_cons hL
      have hle : it.start ≤ it.endSlot := by
        have hm : i ∈ (List.range' it.start (it.endSlot - it.start)) := List.mem_of_mem_filter (hL ▸ List.mem_cons_self)
        rw [List.mem_range'_1] at hm
        omega
      simpa [IterState.left,it₁,show it.start + (it.endSlot - it.start) = it.endSlot by omega] using h
    obtain ⟨it',hrun,hs',hb',hid',hleft',hfound'⟩ := ih it₁ hs₁ hL₁
    refine ⟨it',?_,hs',hb',hid',hleft',by simp [hfound',it₁]; omega⟩
    rw [List.length_cons,← Nat.add_assoc,indexRange_succ,hnext]
    simp only [hrun,Option.map_map]
    rfl

theorem indexRange_scan_of_le (fuel calls : Nat) {it : IterState} (hs : getNextInit c t key_min it = some it)
    (hc : (it.left key_min key_max).length ≤ calls) :
    ∃ it', indexRange c t key_min key_max (fuel + 1) calls it =
        (indexRange c t key_min key_max (fuel + 1) (calls - (it.left key_min key_max).length) it').map
          ((it.left key_min key_max).map (fun i => (it.bucket.pairs i).value) ++ ·) ∧
      getNextInit c t key_min it' = some it' ∧ it'.bucket = it.bucket ∧ it'.left key_min key_max = [] := by
  obtain ⟨it',hrun,hs',hb',-,hleft',-⟩ :=
    indexRange_scan c t key_min key_max fuel (calls - (it.left key_min key_max).length) _ it hs rfl
  rw [Nat.sub_add_cancel hc] at hrun
  exact ⟨it',hrun,hs',hb',hleft'⟩

theorem indexRange_congr_init {it it' s : IterState} (h : getNextInit c t key_min it = some s)
    (h' : getNextInit c t key_min it' = some s) (fuel calls : Nat) :
    indexRange c t key_min key_max fuel calls it = indexRange c t key_min key_max fuel calls it' := by
  have hg : ∀ f, getNext c t key_min key_max f it = getNext c t key_min key_max f it' := by
    intro f
    cases f with
    | zero => rfl
    | succ f => simp only [getNext_succ,h,h']
  cases calls with
  | zero => rfl
  | succ calls => simp only [indexRange_succ,hg]

theorem left_eq_nil_find? {it : IterState} (h : it.left key_min key_max = []) :
    (List.range' it.start (it.endSlot - it.start)).find? (fun i => pairInRange key_min key_max (it.bucket.pairs i)) = none := by
  rw [← List.head?_filter]
  exact congrArg List.head? h

theorem getNext_last_bucket {it : IterState} (hs : getNextInit c t key_min it = some it)
    (hlast : nextBucket c it.bucket = none) (fuel : Nat) :
    getNext c t key_min key_max (fuel + 1) it = getNext c t key_min key_max 1 it := by
  cases hi : (List.range' it.start (it.endSlot - it.start)).find? (fun i => pairInRange key_min key_max (it.bucket.pairs i)) with
  | some i => rw [getNext_found c t key_min key_max hs hi,getNext_found c t key_min key_max hs hi]
  | none => simp only [getNext_succ,hs,hi,hlast]

theorem indexRange_exhausted_last {it : IterState} (hs : getNextInit c t key_min it = some it)
    (hleft : it.left key_min key_max = []) (hlast : nextBucket c it.bucket = none) (fuel : Nat) {calls : Nat}
    (hcalls : 0 < calls) :
    indexRange c t key_min key_max (fuel + 1) calls it = some [] := by
  obtain ⟨it',h⟩ := getNext_last c t key_min key_max hs (left_eq_nil_find? key_min key_max hleft) hlast fuel
  obtain ⟨k,rfl⟩ : ∃ k, calls = k + 1 := ⟨calls - 1,by omega⟩
  simp only [indexRange_succ,h]

theorem length_left_le (it : IterState) : (it.left key_min key_max).length ≤ it.endSlot - it.start :=
  (List.length_filter_le _ _).trans (by simp)

/-- A select whose low key leads to a bucket chained to a last one: the pairs in range of the first
bucket, then those of the second, each scanned only as far as the first bucket is full. -/
theorem indexRange_two_buckets {path : List (Nat × Nat)} (hfind : treeFind c t key_min = some path) {b₁ : Nat}
    (hnext₀ : nextBucket c (t.buckets (pathAt path t.levels).1) = some b₁) (hk : ¬ (t.buckets b₁).info 1 > key_max)
    (hnext₁ : nextBucket c (t.buckets b₁) = none) (calls : Nat)
    (hcalls : 2 * (t.buckets (pathAt path t.levels).1).next_free_slot < calls) :
    indexRange c t key_min key_max 2 calls IterState.init =
      some (bucketScan key_min key_max (t.buckets (pathAt path t.levels).1) 0
          (t.buckets (pathAt path t.levels).1).next_free_slot ++
        bucketScan key_min key_max (t.buckets b₁) 0 (t.buckets (pathAt path t.levels).1).next_free_slot) := by
  set B₀ := t.buckets (pathAt path t.levels).1
  set S₀ : IterState := { IterState.init with bucket_id := (pathAt path t.levels).1, bucket := B₀, endSlot := B₀.next_free_slot }
  have hinit : getNextInit c t key_min IterState.init = some S₀ := by simp [getNextInit,IterState.init,hfind,S₀,B₀]
  have hS₀ : getNextInit c t key_min S₀ = some S₀ := by simp [getNextInit,IterState.init,hfind,S₀,B₀]
  rw [indexRange_congr_init c t key_min key_max hinit hS₀]
  have hL₀ := length_left_le key_min key_max S₀
  have hS₀e : S₀.endSlot - S₀.start = B₀.next_free_slot := Nat.sub_zero _
  obtain ⟨E,hrun₀,hsE,hbE,hleftE⟩ := indexRange_scan_of_le c t key_min key_max 1 calls hS₀ (by omega)
  rw [hrun₀]
  set M : IterState := { E with bucket_id := b₁, bucket := t.buckets b₁, start := 0, endSlot := E.bucket.next_free_slot, next_item_no := 1 }
  have hsM : getNextInit c t key_min M = some M := getNextInit_of_ne c t key_min (.inl (by simp [M]))
  have hmove := getNext_move c t key_min key_max hsE (left_eq_nil_find? key_min key_max hleftE) (hbE ▸ hnext₀) hk 1
  have hL₁ := length_left_le key_min key_max M
  have hMe : M.endSlot - M.start = B₀.next_free_slot := by simp [M,hbE,S₀]
  have hEM : indexRange c t key_min key_max 2 (calls - (S₀.left key_min key_max).length) E =
      indexRange c t key_min key_max 2 (calls - (S₀.left key_min key_max).length) M := by
    obtain ⟨k,hk'⟩ : ∃ k, calls - (S₀.left key_min key_max).length = k + 1 := ⟨_,(Nat.succ_pred_eq_of_pos (by omega)).symm⟩
    rw [hk']
    simp only [indexRange_succ,hmove,getNext_last_bucket c t key_min key_max hsM hnext₁ 1]
    rfl
  obtain ⟨F,hrun₁,hsF,hbF,hleftF⟩ :=
    indexRange_scan_of_le c t key_min key_max 1 (calls - (S₀.left key_min key_max).length) hsM (by omega)
  rw [hEM,hrun₁,indexRange_exhausted_last c t key_min key_max hsF hleftF (hbF ▸ hnext₁) 1 (by omega)]
  simp only [Option.map_some,List.append_nil,bucketScan,IterState.left,hMe]
  rfl

theorem indexRange_two_buckets_insert_49 :
    ∃ t path, insertAll BptConfig.default (bptCreate BptConfig.default) (keysUpTo 49) = some t ∧
      treeFind BptConfig.default t 1 = some path ∧
      nextBucket BptConfig.default (t.buckets (pathAt path t.levels).1) = some 1 ∧
      ¬ (t.buckets 1).info 1 > 49 ∧ nextBucket BptConfig.default (t.buckets 1) = none ∧
      2 * (t.buckets (pathAt path t.levels).1).next_free_slot < 100 ∧
      indexRange BptConfig.default t 1 49 2 100 IterState.init =
        some (bucketScan 1 49 (t.buckets (pathAt path t.levels).1) 0
            (t.buckets (pathAt path t.levels).1).next_free_slot ++
          bucketScan 1 49 (t.buckets 1) 0 (t.buckets (pathAt path t.levels).1).next_free_slot) := by
  have hs : (insertAll BptConfig.default (bptCreate BptConfig.default) (keysUpTo 49)).isSome := by
    decide +kernel
  have hfind : treeFind BptConfig.default (keysTree 49) 1 = some [(255,0),(0,0),(0,0)] := by decide +kernel
  have hnext₀ : nextBucket BptConfig.default ((keysTree 49).buckets
      (pathAt [(255,0),(0,0),(0,0)] (keysTree 49).levels).1) = some 1 := by
    decide +kernel
  have hk : ¬ ((keysTree 49).buckets 1).info 1 > 49 := by decide +kernel
  have hnext₁ : nextBucket BptConfig.default ((keysTree 49).buckets 1) = none := by decide +kernel
  have hcalls : 2 * ((keysTree 49).buckets
      (pathAt [(255,0),(0,0),(0,0)] (keysTree 49).levels).1).next_free_slot < 100 := by
    decide +kernel
  exact ⟨_,_,insertAll_keysUpTo hs,hfind,hnext₀,hk,hnext₁,hcalls,
    indexRange_two_buckets _ _ _ _ hfind hnext₀ hk hnext₁ 100 hcalls⟩

/-- Keys 1 to 49 inserted with themselves as tuple ids, in the default configuration: the 49th
insert splits the full first bucket into 24 and 25 pairs. A select over 1..49 then returns 1 to 48:
the second bucket is scanned over its first 24 slots only, and tuple 49, in its 25th, is never
returned. -/
theorem bplustree_select_misses_pair :
    (insertAll BptConfig.default (bptCreate BptConfig.default) ((List.range' 1 49).map fun k => ⟨k,k⟩)).isSome ∧
      ((insertAll BptConfig.default (bptCreate BptConfig.default) ((List.range' 1 49).map fun k => ⟨k,k⟩)).bind
        fun t => indexRange BptConfig.default t 1 49 2 100 IterState.init) = some (List.range' 1 48) := by
  decide +kernel

end Tree

end TizenRT.Aql
