import TizenRT.Signal.Set
import TizenRT.Sem.Model

set_option autoImplicit false

/-!
Pending signals of one task that is alone in its group (signal/): `sig_tcbdispatch` from task
or interrupt context, `sigprocmask` with `sig_unmaskpendingsignal`, and `sigtimedwait` with its
watchdog `sig_timeout`.

A pending record (`sigpendq_t`) is an element of `R`, with its fields `info` and `type`. The
preallocated records start on g_sigpendingsignal and g_sigpendingirqsignal; the kernel heap
that `kmm_malloc` takes SIG_ALLOC_DYN records from, and `sched_kfree` returns them to, is a
list of free blocks.

`sigtimedwait` is cut where it lets interrupts in. After it has taken a pending signal it
releases the record, restores interrupts, and only then reads `sigpend->info.si_signo`
(`released`). A wait that blocks ends when a dispatch or the watchdog unblocks the task
(`woken`).
-/

namespace TizenRT.Signal

open TizenRT.Wdog TizenRT.Sem

def SI_TIMER : Nat := 2
def SIG_WAIT_TIMEOUT : Nat := 0xff
def SIG_BLOCK : Int := 1
def SIG_UNBLOCK : Int := 2
def SIG_SETMASK : Int := 3
def NUM_SIGNALS_PENDING : Nat := 16
def NUM_INT_SIGNALS_PENDING : Nat := 8

structure SigInfo where
  si_signo : Nat
  si_code : Nat
  si_value : Int
  deriving DecidableEq, Repr

inductive SigAllocType where
  | fixed
  | dyn
  | irq
  deriving DecidableEq, Repr

inductive Pc (R : Type) where
  | running
  /-- `sigpend` was taken off the pending list and released, its info `uinfo` copied out for
  the caller; `ret = sigpend->info.si_signo` comes next -/
  | released (sigpend : R) (uinfo : SigInfo)
  /-- TSTATE_WAIT_SIG for the signals of `set`, with a watchdog when `timed` -/
  | waiting (set : BitVec 32) (timed : Bool)
  /-- unblocked, not yet running again -/
  | woken (set : BitVec 32)
  deriving DecidableEq, Repr

namespace Pc

variable {R : Type}

def isWaiting : Pc R → Bool
  | .waiting _ _ => true
  | _ => false

def wake : Pc R → Pc R
  | .waiting set _ => .woken set
  | pc => pc

end Pc

structure SigState (R : Type) where
  info : R → SigInfo
  type : R → SigAllocType
  g_sigpendingsignal : List R
  g_sigpendingirqsignal : List R
  /-- The group's sigpendingq. -/
  sigpendingq : List R
  /-- The free blocks of the kernel heap that can hold a record. -/
  heap : List R
  sigprocmask : BitVec 32
  sigwaitmask : BitVec 32
  sigunbinfo : SigInfo
  pc : Pc R
  errno : Int
  /-- Ghost: the signals dispatched unmasked, in order; each has had its action queued and
  `sig_deliver` scheduled. -/
  delivered : List SigInfo

variable {R : Type} [DecidableEq R]

/-- `sig_initialize`: the two blocks of preallocated records on their free lists; the task
starts with nothing masked and nothing pending. -/
def sigInitialize (fixed irq heap : List R) : SigState R where
  info _ := ⟨0,0,0⟩
  type r := if r ∈ fixed then .fixed else if r ∈ irq then .irq else .dyn
  g_sigpendingsignal := fixed
  g_sigpendingirqsignal := irq
  sigpendingq := []
  heap := heap
  sigprocmask := NULL_SIGNAL_SET
  sigwaitmask := NULL_SIGNAL_SET
  sigunbinfo := ⟨0,0,0⟩
  pc := .running
  errno := 0
  delivered := []

/-- `sig_allocatependingsignal`: an interrupt handler may fall back on the records reserved for
interrupts, a task on `kmm_malloc`. -/
def sigAllocatependingsignal (s : SigState R) (intr : Bool) : Option R × SigState R :=
  match s.g_sigpendingsignal with
  | sigpend :: rest => (some sigpend,{ s with g_sigpendingsignal := rest })
  | [] =>
    if intr then
      match s.g_sigpendingirqsignal with
      | sigpend :: rest => (some sigpend,{ s with g_sigpendingirqsignal := rest })
      | [] => (none,s)
    else
      match s.heap with
      | sigpend :: rest => (some sigpend,{ s with heap := rest, type := Function.update s.type sigpend .dyn })
      | [] => (none,s)

def sigFindpendingsignal (s : SigState R) (signo : Nat) : Option R :=
  s.sigpendingq.find? (fun sigpend => (s.info sigpend).si_signo = signo)

/-- `sig_addpendingsignal`: one record per signal number, which keeps the latest info. -/
def sigAddpendingsignal (s : SigState R) (info : SigInfo) (intr : Bool) : Option R × SigState R :=
  match sigFindpendingsignal s info.si_signo with
  | some sigpend => (some sigpend,{ s with info := Function.update s.info sigpend info })
  | none =>
    match sigAllocatependingsignal s intr with
    | (some sigpend,s) =>
      (some sigpend,{ s with
        info := Function.update s.info sigpend info
        sigpendingq := s.sigpendingq ++ [sigpend] })
    | (none,s) => (none,s)

/-- The lines of `sig_tcbdispatch` that end a wait for signals. -/
def sigUnblock (s : SigState R) (info : SigInfo) : SigState R :=
  { s with sigunbinfo := info, sigwaitmask := NULL_SIGNAL_SET, pc := s.pc.wake }

/-- `sig_tcbdispatch`; `none` when its ASSERT on `sig_addpendingsignal` fails. The task waits
only in `sigtimedwait` here, so the `sem_waitirq` and `mq_waitirq` cases do not arise. -/
def sigTcbdispatch (s : SigState R) (info : SigInfo) (intr : Bool) : Option (SigState R) :=
  if sigismember s.sigprocmask info.si_signo ≠ 0 then
    if s.pc.isWaiting ∧ sigismember s.sigwaitmask info.si_signo ≠ 0 then some (sigUnblock s info)
    else
      match sigAddpendingsignal s info intr with
      | (some _,s) => some s
      | (none,_) => none
  else
    let s := { s with delivered := s.delivered ++ [info] }
    if s.pc.isWaiting then some (sigUnblock s info) else some s

/-- `sig_removependingsignal`: unlink the first record of that number. -/
def sigRemovependingsignal (s : SigState R) (signo : Int) : Option R × SigState R :=
  match s.sigpendingq.find? (fun currsig => ((s.info currsig).si_signo : Int) = signo) with
  | some currsig => (some currsig,{ s with sigpendingq := s.sigpendingq.erase currsig })
  | none => (none,s)

/-- `sig_releasependingsignal`: back to the free list of its kind, or `sched_kfree`. -/
def sigReleasependingsignal (s : SigState R) (sigpend : R) : SigState R :=
  match s.type sigpend with
  | .fixed => { s with g_sigpendingsignal := s.g_sigpendingsignal ++ [sigpend] }
  | .irq => { s with g_sigpendingirqsignal := s.g_sigpendingirqsignal ++ [sigpend] }
  | .dyn => { s with heap := sigpend :: s.heap }

def sigPendingset (s : SigState R) : BitVec 32 :=
  s.sigpendingq.foldl (fun sigpendset sigpend => sigaddset sigpendset (s.info sigpend).si_signo)
    NULL_SIGNAL_SET

/-- `sigtimedwait` up to the point where it lets interrupts in; `none` when its ASSERT fails. -/
def sigtimedwait (s : SigState R) (set : BitVec 32) (timed : Bool) : Option (SigState R) :=
  let intersection := set &&& sigPendingset s
  if intersection ≠ NULL_SIGNAL_SET then
    match sigRemovependingsignal s (sigLowest intersection) with
    | (some sigpend,s) =>
      some { sigReleasependingsignal s sigpend with pc := .released sigpend (s.info sigpend) }
    | (none,_) => none
  else some { s with sigwaitmask := set, pc := .waiting set timed }

/-- After `irqrestore`: `ret = sigpend->info.si_signo`, read from the released record. -/
def sigtimedwaitReleased (s : SigState R) (sigpend : R) : Int × SigState R :=
  ((s.info sigpend).si_signo,{ s with pc := .running })

/-- The rest of a `sigtimedwait` that blocked: the number and the info, or ERROR with errno
EINTR or EAGAIN. -/
def sigtimedwaitWoken (s : SigState R) (set : BitVec 32) : Int × SigInfo × SigState R :=
  let s := { s with sigwaitmask := NULL_SIGNAL_SET, pc := .running }
  if GOOD_SIGNO s.sigunbinfo.si_signo then
    if sigismember set s.sigunbinfo.si_signo ≠ 0 then (s.sigunbinfo.si_signo,s.sigunbinfo,s)
    else (ERROR,s.sigunbinfo,{ s with errno := EINTR })
  else (ERROR,s.sigunbinfo,{ s with errno := EAGAIN })

def sigTimeout (s : SigState R) : SigState R :=
  if s.pc.isWaiting then
    { s with
      sigunbinfo := { si_signo := SIG_WAIT_TIMEOUT, si_code := SI_TIMER, si_value := 0 }
      pc := s.pc.wake }
  else s

/-- The loop of `sig_unmaskpendingsignal` over the pending signals just unmasked, lowest first:
each is taken off the pending list, dispatched again (now unmasked) and released. -/
def sigUnmaskLoop (s : SigState R) (unmaskedset : BitVec 32) : Option (SigState R) :=
  if h : unmaskedset ≠ NULL_SIGNAL_SET then
    let signo := sigLowest unmaskedset
    if hs : signo ≠ ERROR then
      match sigRemovependingsignal s signo with
      | (some pendingsig,s) => do
        let s ← sigTcbdispatch s (s.info pendingsig) false
        sigUnmaskLoop (sigReleasependingsignal s pendingsig) (sigdelset unmaskedset signo.toNat)
      | (none,s) => sigUnmaskLoop s (sigdelset unmaskedset signo.toNat)
    else sigUnmaskLoop s unmaskedset
  else some s
termination_by unmaskedset.toNat
decreasing_by
  all_goals
    obtain ⟨n,hn,hmem,-⟩ := exists_sigLowest h
  · rw [hn]
    exact sigdelset_lt hmem
  · rw [hn]
    exact sigdelset_lt hmem
  · exact absurd (sigLowest_ne_ERROR h) hs

def sigUnmaskpendingsignal (s : SigState R) : Option (SigState R) :=
  sigUnmaskLoop s (~~~s.sigprocmask &&& sigPendingset s)

/-- `sigprocmask` with a new set (`none`: only the old mask is asked for, which is not
modelled); `none` overall when a dispatch's ASSERT fails. -/
def sigprocmask (s : SigState R) (how : Int) (set : Option (BitVec 32)) : Option (Int × SigState R) :=
  match set with
  | none => some (OK,s)
  | some set =>
    let r : Int × BitVec 32 :=
      if how = SIG_BLOCK then (OK,s.sigprocmask ||| set)
      else if how = SIG_UNBLOCK then (OK,s.sigprocmask &&& ~~~set)
      else if how = SIG_SETMASK then (OK,set)
      else (ERROR,s.sigprocmask)
    (sigUnmaskpendingsignal { s with sigprocmask := r.2 }).map (r.1,·)

end TizenRT.Signal
