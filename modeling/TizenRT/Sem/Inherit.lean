import Mathlib.Logic.Function.Basic
import Mathlib.Tactic.SplitIfs

set_option autoImplicit false

/-!
Priority inheritance on a semaphore's holder (sem_holder.c, sched_reprioritize.c), built with
CONFIG_PRIORITY_INHERITANCE and CONFIG_SEM_NNESTPRIO > 0: `sem_boostholderprio`, run on the holder
when a thread is about to wait, and `sem_restoreholderprio`, run on it when a count is handed to a
waiter or a wait is cancelled. The holder is taken to be alive, so the stale-TCB branch is left out.

The holder's TCB keeps the priorities it is to return to in `pend_reprios`, an array of
CONFIG_SEM_NNESTPRIO bytes counted by `npend_reprio`. The model keeps the memory from the array's
first byte on, with no end, so that a write past the array is a write the model can show. A waiter
whose priority is above the holder's base priority and not above its current one is appended with
no check of the count against the array's size.
-/

namespace TizenRT.Sem

/-- The fields of `struct tcb_s` that priority inheritance reads and writes. -/
structure PrioTcb where
  sched_priority : UInt8
  base_priority : UInt8
  npend_reprio : UInt8
  /-- `pend_reprios` and the bytes after it -/
  pend_reprios : Nat → UInt8

def PrioTcb.pushReprio (htcb : PrioTcb) (prio : UInt8) : PrioTcb :=
  { htcb with
    pend_reprios := Function.update htcb.pend_reprios htcb.npend_reprio.toNat prio
    npend_reprio := htcb.npend_reprio + 1 }

@[simp] theorem PrioTcb.pushReprio_npend_reprio (htcb : PrioTcb) (prio : UInt8) :
    (htcb.pushReprio prio).npend_reprio = htcb.npend_reprio + 1 := rfl

def schedSetpriority (tcb : PrioTcb) (sched_priority : UInt8) : PrioTcb :=
  { tcb with sched_priority := sched_priority }

/-- `sched_reprioritize`: the base priority is set too, and the pending priorities dropped. -/
def schedReprioritize (tcb : PrioTcb) (sched_priority : UInt8) : PrioTcb :=
  { tcb with sched_priority := sched_priority, base_priority := sched_priority, npend_reprio := 0 }

section Inherit

-- CONFIG_SEM_NNESTPRIO, the size of `pend_reprios`
variable (nnest : Nat)

/-- `sem_boostholderprio` on the holder `htcb` for a waiter of priority `rprio`. -/
def semBoostholderprio (htcb : PrioTcb) (rprio : UInt8) : PrioTcb :=
  if rprio > htcb.base_priority then
    if rprio > htcb.sched_priority then
      let htcb :=
        if htcb.sched_priority > htcb.base_priority then
          if htcb.npend_reprio.toNat < nnest then htcb.pushReprio htcb.sched_priority else htcb
        else htcb
      schedSetpriority htcb rprio
    else htcb.pushReprio rprio
  else htcb

/-- The loop of `sem_restoreholderprio` over the first `n` pending priorities: the index of the
first largest, `j` moving only to a larger entry. -/
def maxReprioIndex (pend_reprios : Nat → UInt8) (n : Nat) : Nat :=
  (List.range' 1 (n - 1)).foldl (fun j i => if pend_reprios i > pend_reprios j then i else j) 0

/-- `sem_restoreholderprio` on the holder `htcb` once the thread of priority `sprio` has the
count, or has stopped waiting. -/
def semRestoreholderprio (htcb : PrioTcb) (sprio : UInt8) : PrioTcb :=
  if htcb.sched_priority ≠ htcb.base_priority then
    if htcb.npend_reprio < 1 then schedReprioritize htcb htcb.base_priority
    else if htcb.sched_priority ≤ sprio then
      let j := maxReprioIndex htcb.pend_reprios htcb.npend_reprio.toNat
      let rpriority := htcb.pend_reprios j
      let i := htcb.npend_reprio - 1
      let pend_reprios :=
        if i > 0 then Function.update htcb.pend_reprios j (htcb.pend_reprios i.toNat) else htcb.pend_reprios
      schedSetpriority { htcb with pend_reprios := pend_reprios, npend_reprio := i } rpriority
    else
      match (List.range htcb.npend_reprio.toNat).find? (fun i => htcb.pend_reprios i = sprio) with
      | some i =>
        let j := htcb.npend_reprio - 1
        let pend_reprios :=
          if j > 0 then Function.update htcb.pend_reprios i (htcb.pend_reprios j.toNat) else htcb.pend_reprios
        { htcb with pend_reprios := pend_reprios, npend_reprio := j }
      | none => htcb
  else htcb

theorem semBoostholderprio_of_le {htcb : PrioTcb} {rprio : UInt8} (hbase : htcb.base_priority < rprio)
    (hsched : rprio ≤ htcb.sched_priority) : semBoostholderprio nnest htcb rprio = htcb.pushReprio rprio := by
  have hn : ¬ rprio > htcb.sched_priority := fun h => absurd hsched (UInt8.not_le.mpr h)
  simp [semBoostholderprio,hbase,hn]

theorem foldl_semBoostholderprio_of_le (ws : List UInt8) (htcb : PrioTcb)
    (hws : ∀ q ∈ ws, htcb.base_priority < q ∧ q ≤ htcb.sched_priority) :
    ws.foldl (semBoostholderprio nnest) htcb = ws.foldl PrioTcb.pushReprio htcb := by
  induction ws generalizing htcb with
  | nil => rfl
  | cons q ws ih =>
    obtain ⟨hb,hs⟩ := hws q List.mem_cons_self
    rw [List.foldl_cons,List.foldl_cons,semBoostholderprio_of_le nnest hb hs]
    exact ih _ fun q' hq' => hws q' (List.mem_cons_of_mem q hq')

theorem foldl_pushReprio_npend_reprio (ws : List UInt8) (htcb : PrioTcb) :
    (ws.foldl PrioTcb.pushReprio htcb).npend_reprio.toNat = (htcb.npend_reprio.toNat + ws.length) % 256 := by
  induction ws generalizing htcb with
  | nil => simp [Nat.mod_eq_of_lt (UInt8.toNat_lt htcb.npend_reprio)]
  | cons q ws ih =>
    rw [List.foldl_cons,ih,PrioTcb.pushReprio_npend_reprio,UInt8.toNat_add,UInt8.toNat_one,List.length_cons]
    omega

end Inherit

/-- A holder of base priority `b` is boosted to `p` by a first waiter, and then `nnest + 1` waiters
of a priority `q` between the two block on it: the last of them is written at index `nnest`, past
the `nnest` bytes of `pend_reprios`, and `npend_reprio` ends above `nnest`. -/
theorem semBoostholderprio_overflows_pend_reprios (nnest : Nat) (hn : nnest < 255) (b p q : UInt8)
    (pend_reprios : Nat → UInt8) (hbp : b < p) (hbq : b < q) (hqp : q ≤ p) :
    ((List.replicate (nnest + 1) q).foldl (semBoostholderprio nnest)
        (semBoostholderprio nnest ⟨b, b, 0, pend_reprios⟩ p)).npend_reprio.toNat = nnest + 1 ∧
      ((List.replicate (nnest + 1) q).foldl (semBoostholderprio nnest)
        (semBoostholderprio nnest ⟨b, b, 0, pend_reprios⟩ p)).pend_reprios nnest = q := by
  have hfirst : semBoostholderprio nnest ⟨b, b, 0, pend_reprios⟩ p = ⟨p, b, 0, pend_reprios⟩ := by
    simp [semBoostholderprio,hbp,schedSetpriority]
  have hws : ∀ q' ∈ List.replicate (nnest + 1) q,
      (⟨p, b, 0, pend_reprios⟩ : PrioTcb).base_priority < q' ∧ q' ≤ (⟨p, b, 0, pend_reprios⟩ : PrioTcb).sched_priority := by
    intro q' hq'
    rw [List.eq_of_mem_replicate hq']
    exact ⟨hbq,hqp⟩
  have hrun : (List.replicate (nnest + 1) q).foldl (semBoostholderprio nnest)
      (semBoostholderprio nnest ⟨b, b, 0, pend_reprios⟩ p) =
        (List.replicate (nnest + 1) q).foldl PrioTcb.pushReprio ⟨p, b, 0, pend_reprios⟩ := by
    rw [← foldl_semBoostholderprio_of_le nnest _ _ hws,← hfirst]
  refine ⟨?_,?_⟩
  · rw [hrun,foldl_pushReprio_npend_reprio,List.length_replicate]
    simp only [UInt8.toNat_zero,Nat.zero_add]
    exact Nat.mod_eq_of_lt (by omega)
  · have hlast := foldl_pushReprio_npend_reprio (List.replicate nnest q) ⟨p, b, 0, pend_reprios⟩
    rw [List.length_replicate] at hlast
    simp only [UInt8.toNat_zero,Nat.zero_add,Nat.mod_eq_of_lt (show nnest < 256 by omega)] at hlast
    rw [hrun,List.replicate_succ',List.foldl_append,List.foldl_cons,List.foldl_nil]
    simp only [PrioTcb.pushReprio,hlast,Function.update_self]

theorem semBoostholderprio_overflows_one :
    (1 < 255 ∧ (10 : UInt8) < 20 ∧ (10 : UInt8) < 15 ∧ (15 : UInt8) ≤ 20) ∧
      ((List.replicate 2 15).foldl (semBoostholderprio 1) (semBoostholderprio 1 ⟨10, 10, 0, fun _ => 0⟩ 20)).npend_reprio.toNat = 2 ∧
      ((List.replicate 2 15).foldl (semBoostholderprio 1) (semBoostholderprio 1 ⟨10, 10, 0, fun _ => 0⟩ 20)).pend_reprios 1 = 15 :=
  ⟨by decide,semBoostholderprio_overflows_pend_reprios 1 (by decide) 10 20 15 (fun _ => 0) (by decide) (by decide) (by decide)⟩

end TizenRT.Sem
