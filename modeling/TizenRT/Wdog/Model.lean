import TizenRT.Lib.DeltaList
import TizenRT.Lib.StableInsert
import Mathlib.Tactic.Ring

set_option autoImplicit false

/-!
Watchdog timers (`os/kernel/wdog`). The active watchdogs sit in `g_wdactivelist` ordered
by expiry, and each keeps in its `lag` field only the ticks that separate its expiry from
that of its predecessor. A watchdog is modelled by an identifier; the list holds, for each
queued watchdog, its identifier and its lag. The callback and its parameters, which
`wd_start` stores and `wd_expiration` passes on, are not modelled: a tick returns the
identifiers of the watchdogs it fires, in firing order.
-/

namespace TizenRT.Wdog

open DeltaList StableInsert

def OK : Int := 0
def ERROR : Int := -1
def INT_MAX : Int := 2 ^ 31 - 1

structure WdState (W : Type) where
  /-- `g_wdactivelist`: each queued watchdog with its lag. -/
  activelist : List (W × Int)
  /-- `WDOG_ISACTIVE` of every watchdog. -/
  active : W → Bool

variable {W : Type} [DecidableEq W]

/-- The search and unlinking done by `wd_cancel`; the successor inherits the lag. -/
def wdRemove (wdog : W) : List (W × Int) → List (W × Int)
  | [] => []
  | (k,d) :: rest =>
    if k = wdog then
      match rest with
      | [] => []
      | (n,nd) :: rest' => (n,nd + d) :: rest'
    else (k,d) :: wdRemove wdog rest

def wdCancel (s : WdState W) (wdog : W) : Int × WdState W :=
  if s.active wdog then
    (OK,{ activelist := wdRemove wdog s.activelist,
          active := Function.update s.active wdog false })
  else (ERROR,s)

/-- `delay+1` forced into the range of `int` as `wd_start` does it: the increment wraps at
`INT_MAX` and is then stepped back. -/
def wdDelay (delay : Int32) : Int32 :=
  if delay ≤ 0 then 1
  else
    let d := delay + 1
    if d ≤ 0 then d - 1 else d

/-- First search loop of `wd_start` ("advance to positive time"). The list is
`before ++ curr :: rest`; `now` is the sum of the lags before `curr`. -/
def advancePositive (before : List (W × Int)) (now : Int) (curr : W × Int) :
    List (W × Int) → List (W × Int) × (W × Int) × List (W × Int) × Int
  | [] => (before,curr,[],now + curr.2)
  | next :: rest =>
    if now + curr.2 < 0 then advancePositive (before ++ [curr]) (now + curr.2) next rest
    else (before,curr,next :: rest,now + curr.2)

/-- Second search loop of `wd_start` ("advance past shorter delays"); here `now` already
includes the lag of `curr`. -/
def advanceShorter (delay : Int) (before : List (W × Int)) (now : Int) (curr : W × Int) :
    List (W × Int) → List (W × Int) × (W × Int) × List (W × Int) × Int
  | [] => (before,curr,[],now)
  | next :: rest =>
    if now ≤ delay then advanceShorter delay (before ++ [curr]) (now + next.2) next rest
    else (before,curr,next :: rest,now)

/-- The insertion of `wd_start` into a non-empty queue `head :: rest`. -/
def wdInsert (wdog : W) (delay : Int) (head : W × Int) (rest : List (W × Int)) :
    List (W × Int) :=
  let (b₁,c₁,r₁,now₁) := advancePositive [] 0 head rest
  let (before,curr,after,now) := advanceShorter delay b₁ now₁ c₁ r₁
  if delay < now then
    let lag := delay - (now - curr.2)
    before ++ (wdog,lag) :: (curr.1,curr.2 - lag) :: after
  else
    let lag := delay - now
    match after with
    | [] => before ++ [curr,(wdog,lag)]
    | next :: after' => before ++ curr :: (wdog,lag) :: (next.1,next.2 - lag) :: after'

def wdStart (s : WdState W) (wdog : W) (delay : Int32) : Int × WdState W :=
  if delay < 0 then (ERROR,s)
  else
    let s := if s.active wdog then (wdCancel s wdog).2 else s
    let d := (wdDelay delay).toInt
    let list :=
      match s.activelist with
      | [] => [(wdog,d)]
      | head :: rest => wdInsert wdog d head rest
    (OK,{ activelist := list, active := Function.update s.active wdog true })

/-- `wd_expiration`: the watchdogs at the head whose lag has run out are unlinked and fired
in order, each adding its lag to its successor; `carry` is the lag so added to the head. -/
def wdExpiration (carry : Int) : List (W × Int) → List W × List (W × Int)
  | [] => ([],[])
  | (k,d) :: rest =>
    if d + carry ≤ 0 then
      let r := wdExpiration (d + carry) rest
      (k :: r.1,r.2)
    else ([],(k,d + carry) :: rest)

/-- The `wd_timer` of the non-tickless build: one tick off the head's lag, then
`wd_expiration`. Returns the fired watchdogs. -/
def wdTimer (s : WdState W) : List W × WdState W :=
  match s.activelist with
  | [] => ([],s)
  | (k,d) :: rest =>
    let r := wdExpiration 0 ((k,d - 1) :: rest)
    (r.1,{ activelist := r.2, active := fun w => s.active w && !(r.1.contains w) })

/-- The traversal of `wd_gettime`, accumulating lags up to `wdog`. -/
def gettimeFrom (wdog : W) (delay : Int) : List (W × Int) → Int
  | [] => 0
  | (k,d) :: rest => if k = wdog then delay + d else gettimeFrom wdog (delay + d) rest

def wdGettime (s : WdState W) (wdog : W) : Int :=
  if s.active wdog then gettimeFrom wdog 0 s.activelist else 0

theorem wdDelay_toInt (delay : Int32) (h : 0 ≤ delay) :
    (wdDelay delay).toInt = min (delay.toInt + 1) INT_MAX := by
  have hlt := delay.toInt_lt
  rw [Int32.le_iff_toInt_le,Int32.toInt_zero] at h
  unfold wdDelay
  simp only [Int32.le_iff_toInt_le,Int32.toInt_zero,Int32.toInt_add,Int32.toInt_one]
  split_ifs with h1 h2
  · simp [INT_MAX]; omega
  · simp [Int.bmod_def,INT_MAX] at *
    split_ifs at * <;> omega
  · simp [Int.bmod_def,INT_MAX] at *
    split_ifs at * <;> omega

theorem times_wdRemove (wdog : W) (base : Int) {l : List (W × Int)}
    (hnd : (l.map Prod.fst).Nodup) :
    times base (wdRemove wdog l) = (times base l).filter (fun e => e.1 ≠ wdog) := by
  induction l generalizing base with
  | nil => rfl
  | cons e rest ih =>
    obtain ⟨k,d⟩ := e
    simp only [List.map_cons,List.nodup_cons] at hnd
    by_cases hk : k = wdog
    · subst hk
      have hrest : (times (base + d) rest).filter (fun e => e.1 ≠ k) = times (base + d) rest := by
        rw [List.filter_eq_self]
        intro e he
        have := fst_mem_of_mem_times he
        simp only [ne_eq,decide_not,Bool.not_eq_eq_eq_not,Bool.not_true,decide_eq_false_iff_not]
        exact fun h => hnd.1 (h ▸ this)
      cases rest with
      | nil => simp [wdRemove]
      | cons f rest' =>
        obtain ⟨n,nd⟩ := f
        simp only [wdRemove,ite_true]
        rw [times_shift,times_cons base k d,List.filter_cons,if_neg (by simp),hrest]
    · simp [wdRemove,hk,ih _ hnd.2]

omit [DecidableEq W] in
theorem advancePositive_of_nonneg (before : List (W × Int)) (now : Int) (curr : W × Int)
    (rest : List (W × Int)) (h : 0 ≤ now + curr.2) :
    advancePositive before now curr rest = (before,curr,rest,now + curr.2) := by
  cases rest with
  | nil => rfl
  | cons next rest => simp [advancePositive,not_lt.mpr h]

omit [DecidableEq W] in
theorem advanceShorter_spec (delay : Int) (before : List (W × Int)) (curr : W × Int)
    (rest : List (W × Int)) (hbefore : ∀ e ∈ times 0 before, e.2 ≤ delay) :
    let r := advanceShorter delay before (lagSum before + curr.2) curr rest
    r.1 ++ r.2.1 :: r.2.2.1 = before ++ curr :: rest ∧
    r.2.2.2 = lagSum r.1 + r.2.1.2 ∧
    (∀ e ∈ times 0 r.1, e.2 ≤ delay) ∧
    (r.2.2.1 = [] ∨ delay < r.2.2.2) := by
  induction rest generalizing before curr with
  | nil => simpa [advanceShorter] using hbefore
  | cons next rest ih =>
    by_cases hle : lagSum before + curr.2 ≤ delay
    · have hsum : lagSum (before ++ [curr]) = lagSum before + curr.2 := by
        obtain ⟨k,d⟩ := curr
        simp [lagSum_append]
      have hb' : ∀ e ∈ times 0 (before ++ [curr]), e.2 ≤ delay := by
        obtain ⟨k,d⟩ := curr
        intro e he
        rw [times_append] at he
        rcases List.mem_append.mp he with he | he
        · exact hbefore e he
        · simp only [times_cons,times_nil,List.mem_singleton] at he
          subst he
          simpa using hle
      have h := ih (before ++ [curr]) next hb'
      rw [hsum] at h
      simp only [advanceShorter,hle,ite_true]
      simpa using h
    · simp only [advanceShorter,hle,ite_false]
      exact ⟨trivial,trivial,hbefore,Or.inr (not_le.mp hle)⟩

omit [DecidableEq W] in
theorem times_wdInsert (wdog : W) (delay : Int) (head : W × Int) (rest : List (W × Int))
    (hhead : 0 ≤ head.2) :
    times 0 (wdInsert wdog delay head rest) =
      insertByKey Prod.snd (wdog,delay) (times 0 (head :: rest)) := by
  have h₁ := advancePositive_of_nonneg [] 0 head rest (by simpa using hhead)
  have hspec := advanceShorter_spec delay [] head rest (by simp)
  simp only [lagSum_nil] at hspec
  unfold wdInsert
  rw [h₁]
  dsimp only
  generalize advanceShorter delay [] (0 + head.2) head rest = r at hspec ⊢
  obtain ⟨before,curr,after,now⟩ := r
  obtain ⟨hsplit,hnow,hle,hend⟩ := hspec
  simp only [List.nil_append] at hsplit hnow hle hend
  obtain ⟨k,d⟩ := curr
  simp only at hnow ⊢
  have hT : times 0 (head :: rest) =
      times 0 before ++ (k,now) :: times now after := by
    rw [← hsplit,times_append,times_cons,hnow]
    simp
  rw [hT,insertByKey_append _ _ hle]
  by_cases hlt : delay < now
  · have hlag : now - d = lagSum before := by omega
    simp only [hlt,ite_true,hlag]
    rw [times_append,times_cons,times_shift_sub,insertByKey_cons_of_lt _ (by simpa using hlt)]
    have h0 : (0 : Int) + lagSum before = lagSum before := by simp
    have h1 : lagSum before + (delay - lagSum before) = delay := by ring
    have h2 : delay - (delay - lagSum before) = lagSum before := by ring
    simp only [h0,h1,h2,times_cons,hnow]
  · simp only [hlt,ite_false]
    have hafter : after = [] := hend.resolve_right hlt
    subst hafter
    have h1 : now + (delay - now) = delay := by ring
    have hkey : (k,now).2 ≤ (wdog,delay).2 := not_lt.mp hlt
    rw [times_append,insertByKey_cons_of_le _ hkey]
    simp [← hnow,h1]

omit [DecidableEq W] in
theorem wdExpiration_spec (carry : Int) (l : List (W × Int))
    (hsort : Sorted Prod.snd (times carry l)) :
    (wdExpiration carry l).1 = ((times carry l).filter (fun e => e.2 ≤ 0)).map Prod.fst ∧
    times 0 (wdExpiration carry l).2 = (times carry l).filter (fun e => 0 < e.2) := by
  induction l generalizing carry with
  | nil => simp [wdExpiration]
  | cons e rest ih =>
    obtain ⟨k,d⟩ := e
    have hc : carry + d = d + carry := add_comm carry d
    rw [times_cons,hc] at hsort ⊢
    have hs := List.pairwise_cons.mp hsort
    by_cases hdue : d + carry ≤ 0
    · obtain ⟨ih₁,ih₂⟩ := ih (d + carry) hs.2
      simp only [wdExpiration,hdue,ite_true]
      refine ⟨?_,?_⟩
      · simp [hdue,ih₁]
      · simp [ih₂,not_lt.mpr hdue]
    · have hlater : ∀ f ∈ times (d + carry) rest, 0 < f.2 := fun f hf =>
        lt_of_lt_of_le (not_le.mp hdue) (hs.1 f hf)
      simp only [wdExpiration,hdue,ite_false]
      refine ⟨?_,?_⟩
      · have hnil : (times (d + carry) rest).filter (fun e => e.2 ≤ 0) = [] := by
          simpa using fun f hf => hlater f hf
        simp [hdue,hnil]
      · have hall : (times (d + carry) rest).filter (fun e => 0 < e.2) =
            times (d + carry) rest := by
          simpa using fun f hf => hlater f hf
        simp [not_le.mp hdue,hall]

theorem gettimeFrom_eq (wdog : W) (base : Int) {l : List (W × Int)}
    (hnd : (l.map Prod.fst).Nodup) {t : Int} (h : (wdog,t) ∈ times base l) :
    gettimeFrom wdog base l = t := by
  induction l generalizing base with
  | nil => simp at h
  | cons e rest ih =>
    obtain ⟨k,d⟩ := e
    simp only [List.map_cons,List.nodup_cons] at hnd
    simp only [times_cons,List.mem_cons,Prod.mk.injEq] at h
    by_cases hk : k = wdog
    · subst hk
      rcases h with ⟨-,rfl⟩ | h
      · simp [gettimeFrom]
      · exact absurd (by simpa using fst_mem_of_mem_times h) hnd.1
    · have h' : (wdog,t) ∈ times (base + d) rest := h.resolve_left (fun h => hk h.1.symm)
      simp [gettimeFrom,hk,ih _ hnd.2 h']

/-- One operation on the watchdog queue: `wd_start`, `wd_cancel` or a timer tick. -/
inductive WdOp (W : Type) where
  | start (wdog : W) (delay : Int32)
  | cancel (wdog : W)
  | timer

def wdStep (s : WdState W) : WdOp W → WdState W × List W
  | .start wdog delay => ((wdStart s wdog delay).2,[])
  | .cancel wdog => ((wdCancel s wdog).2,[])
  | .timer => ((wdTimer s).2,(wdTimer s).1)

def wdRun (s : WdState W) : List (WdOp W) → WdState W × List (List W)
  | [] => (s,[])
  | op :: ops =>
    let r := wdStep s op
    let rest := wdRun r.1 ops
    (rest.1,r.2 :: rest.2)

theorem wdRun_append (s : WdState W) (ops ops' : List (WdOp W)) :
    (wdRun s (ops ++ ops')).1 = (wdRun (wdRun s ops).1 ops').1 := by
  induction ops generalizing s with
  | nil => rfl
  | cons op ops ih => exact ih (wdStep s op).1

/-- The operation on `w` as an operation on a queue of `w` alone; the others' are dropped. -/
def WdOp.only (w : W) : WdOp W → Option (WdOp Unit)
  | .start wdog delay => if wdog = w then some (.start () delay) else none
  | .cancel wdog => if wdog = w then some (.cancel ()) else none
  | .timer => some .timer

end TizenRT.Wdog
