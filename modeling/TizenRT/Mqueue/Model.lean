import TizenRT.Sem.Model

set_option autoImplicit false

/-!
One message queue (mqueue/): `mq_send`, `mq_timedsend`, `mq_receive`, `mq_timedreceive`,
`mq_send` from an interrupt handler, and `mq_waitirq`, with the notification by signal left
out (it reads and clears `ntmqdes`, which nothing here reads).

The queue's messages are `msglist` from the head. The tasks blocked on the queue are the entries
of g_waitingformqnotempty and g_waitingformqnotfull whose `msgwaitq` is this queue; as for the
semaphore, `up_block_task` puts them in by priority, and the model keeps the entries of this
queue in that order. A blocking call is several steps, each one critical section of the source:
the call up to its block, its return to the wait loop once restarted, and, for a send, the
`mq_dosend` after `mq_msgalloc`, which other tasks may precede when the allocation blocks.
-/

namespace TizenRT.Mqueue

open TizenRT.Sched TizenRT.Sem
open TizenRT.Wdog (OK ERROR)

def EPERM : Int := 1
def EINVAL : Int := 22
def EMSGSIZE : Int := 90
def MQ_PRIO_MAX : Int := 255
def O_RDOK : Nat := 1
def O_WROK : Nat := 2
def O_NONBLOCK : Nat := 64

/-- `struct mqueue_msg_s`: its priority and its `msglen` bytes of `mail`. -/
structure MqMsg where
  priority : Nat
  mail : List UInt8
  /-- Ghost: the order of the `mq_dosend` that queued the message. -/
  stamp : Nat
  deriving DecidableEq, Repr

/-- The arguments of a `mq_send` that has passed `mq_verifysend`. -/
structure MqSend where
  mail : List UInt8
  prio : Nat
  deriving DecidableEq, Repr

/-- The two events a task waits for: TSTATE_WAIT_MQNOTEMPTY in `mq_waitreceive`, on
g_waitingformqnotempty and counted in `nwaitnotempty`, and TSTATE_WAIT_MQNOTFULL in
`mq_waitsend`, on g_waitingformqnotfull and counted in `nwaitnotfull`. -/
inductive MqEvent where
  | notEmpty
  | notFull
  deriving DecidableEq, Repr

inductive MqWait where
  | idle
  | blocked (e : MqEvent)
  /-- restarted by `mq_dosend`, `mq_doreceive` or `mq_waitirq`, back in its wait loop -/
  | restarted (e : MqEvent)
  /-- past the full test of `mq_send`: `mq_msgalloc` and `mq_dosend` next -/
  | sending
  /-- `mq_waitreceive` returned the message: `mq_doreceive` next -/
  | received (msg : MqMsg)
  deriving DecidableEq, Repr

structure MqState (T : Type) where
  msglist : List MqMsg
  nmsgs : Nat
  maxmsgs : Nat
  maxmsgsize : Nat
  /-- `nwaitnotempty` and `nwaitnotfull` -/
  nwait : MqEvent → Nat
  waiting : MqEvent → List T
  /-- `tcb->msgwaitq == msgq` -/
  msgwaitq : T → Bool
  wait : T → MqWait
  /-- What the `mq_send` of each task holds to queue. -/
  pending : T → MqSend
  pterrno : T → Int
  sched_priority : T → Nat
  /-- Ghost: the stamp of the next message. -/
  clock : Nat

variable {T : Type} [DecidableEq T]

def mqInit (maxmsgs maxmsgsize : Nat) (sched_priority : T → Nat) : MqState T where
  msglist := []
  nmsgs := 0
  maxmsgs := maxmsgs
  maxmsgsize := maxmsgsize
  nwait _ := 0
  waiting _ := []
  msgwaitq _ := false
  wait _ := .idle
  pending _ := ⟨[],0⟩
  pterrno _ := 0
  sched_priority := sched_priority
  clock := 0

def mqVerifysend (oflags maxmsgsize msglen : Nat) (prio : Int) : Int :=
  if prio < 0 ∨ prio > MQ_PRIO_MAX then EINVAL
  else if oflags &&& O_WROK = 0 then EPERM
  else if msglen > maxmsgsize then EMSGSIZE
  else OK

def mqVerifyreceive (oflags maxmsgsize msglen : Nat) : Int :=
  if oflags &&& O_RDOK = 0 then EPERM
  else if msglen < maxmsgsize then EMSGSIZE
  else OK

/-- The walk of `mq_dosend`: past every message of priority not below the new one. -/
def mqInsert (msg : MqMsg) : List MqMsg → List MqMsg
  | [] => [msg]
  | next :: rest => if msg.priority ≤ next.priority then next :: mqInsert msg rest else msg :: next :: rest

namespace MqState

/-- `rtcb->msgwaitq = msgq; msgq->nwait...++; set_errno(OK); up_block_task(rtcb, ...)`. -/
def block (s : MqState T) (rtcb : T) (e : MqEvent) : MqState T :=
  { s with
    msgwaitq := Function.update s.msgwaitq rtcb true
    nwait := Function.update s.nwait e (s.nwait e + 1)
    waiting := Function.update s.waiting e (addPrioritized s.sched_priority rtcb (s.waiting e))
    wait := Function.update s.wait rtcb (.blocked e)
    pterrno := Function.update s.pterrno rtcb OK }

/-- `btcb->msgwaitq = NULL; msgq->nwait...--; up_unblock_task(btcb)`. -/
def restart (s : MqState T) (e : MqEvent) (btcb : T) : MqState T :=
  { s with
    msgwaitq := Function.update s.msgwaitq btcb false
    nwait := Function.update s.nwait e (s.nwait e - 1)
    waiting := Function.update s.waiting e ((s.waiting e).erase btcb)
    wait := Function.update s.wait btcb (.restarted e) }

/-- The end of `mq_dosend` and of `mq_doreceive`: when the count says a task waits, the first one
of the list whose `msgwaitq` is this queue is restarted; `ASSERT(btcb)` fails when there is none. -/
def wakeFirst (s : MqState T) (e : MqEvent) : MqState T :=
  if s.nwait e > 0 then
    match (s.waiting e).find? s.msgwaitq with
    | some btcb => s.restart e btcb
    | none => s
  else s

def setWait (s : MqState T) (t : T) (w : MqWait) : MqState T :=
  { s with wait := Function.update s.wait t w }

end MqState

/-- `mq_dosend` of `m`: into the list behind the messages of priority not below its own, and
the first task waiting for a message restarted. -/
def mqDosend (s : MqState T) (m : MqSend) : MqState T :=
  ({ s with
    msglist := mqInsert ⟨m.prio,m.mail,s.clock⟩ s.msglist
    nmsgs := s.nmsgs + 1
    clock := s.clock + 1 }).wakeFirst .notEmpty

/-- The `while` of `mq_waitsend`, once the queue is known to be full or the task restarted: block
while the queue is full, else go on to `mq_dosend`. -/
def mqWaitsendLoop (s : MqState T) (rtcb : T) : MqState T :=
  if s.nmsgs ≥ s.maxmsgs then s.block rtcb .notFull else s.setWait rtcb .sending

/-- `mq_send` or `mq_timedsend` by the task `rtcb`, up to its block or to `mq_msgalloc`: `some ret`
when it returns, `none` when it blocks or goes on. -/
def mqSend (s : MqState T) (rtcb : T) (oflags : Nat) (mail : List UInt8) (prio : Int) :
    Option Int × MqState T :=
  let ret := mqVerifysend oflags s.maxmsgsize mail.length prio
  if ret ≠ OK then (some ERROR,{ s with pterrno := Function.update s.pterrno rtcb ret })
  else
    let s := { s with pending := Function.update s.pending rtcb ⟨mail,prio.toNat⟩ }
    if s.nmsgs < s.maxmsgs then (none,s.setWait rtcb .sending)
    else if oflags &&& O_NONBLOCK ≠ 0 then (some ERROR,{ s with pterrno := Function.update s.pterrno rtcb EAGAIN })
    else (none,mqWaitsendLoop s rtcb)

/-- A `mq_send` restarted in `mq_waitsend`: a signal or a timeout ends it, else it tests the queue
again. -/
def mqSendResume (s : MqState T) (rtcb : T) : Option Int × MqState T :=
  if s.pterrno rtcb ≠ OK then (some ERROR,s.setWait rtcb .idle)
  else (none,mqWaitsendLoop s rtcb)

/-- `mq_msgalloc` and `mq_dosend` of the message a `mq_send` holds. -/
def mqSendDo (s : MqState T) (rtcb : T) : Int × MqState T :=
  (OK,mqDosend (s.setWait rtcb .idle) (s.pending rtcb))

/-- `mq_send` from an interrupt handler: no wait, whether the queue is full or not; `alloc` says
whether g_msgfree or g_msgfreeirq had a message left. -/
def mqSendIsr (s : MqState T) (oflags : Nat) (mail : List UInt8) (prio : Int) (alloc : Bool) :
    Int × MqState T :=
  if mqVerifysend oflags s.maxmsgsize mail.length prio ≠ OK then (ERROR,s)
  else if alloc then (OK,mqDosend s ⟨mail,prio.toNat⟩)
  else (ERROR,s)

/-- One pass of the loop of `mq_waitreceive`: the head message, or the wait for one. -/
def mqWaitreceive (s : MqState T) (rtcb : T) (nonblock : Bool) : Option Int × MqState T :=
  match s.msglist with
  | msg :: rest => (none,{ s with msglist := rest, nmsgs := s.nmsgs - 1 }.setWait rtcb (.received msg))
  | [] =>
    if nonblock then (some ERROR,{ s with pterrno := Function.update s.pterrno rtcb EAGAIN })
    else (none,s.block rtcb .notEmpty)

/-- `mq_receive` or `mq_timedreceive` by `rtcb`, up to its block or to `mq_doreceive`. -/
def mqReceive (s : MqState T) (rtcb : T) (oflags msglen : Nat) : Option Int × MqState T :=
  let ret := mqVerifyreceive oflags s.maxmsgsize msglen
  if ret ≠ OK then (some ERROR,{ s with pterrno := Function.update s.pterrno rtcb ret })
  else mqWaitreceive s rtcb (oflags &&& O_NONBLOCK ≠ 0)

/-- A `mq_receive` restarted in `mq_waitreceive`; it blocked, so its descriptor blocks. -/
def mqReceiveResume (s : MqState T) (rtcb : T) : Option Int × MqState T :=
  if s.pterrno rtcb ≠ OK then (some ERROR,s.setWait rtcb .idle)
  else mqWaitreceive s rtcb false

/-- `mq_doreceive` of `msg`: its length, its bytes and its priority, then the first task waiting
for room restarted. -/
def mqDoreceive (s : MqState T) (rtcb : T) (msg : MqMsg) : (Int × List UInt8 × Nat) × MqState T :=
  ((msg.mail.length,msg.mail,msg.priority),(s.setWait rtcb .idle).wakeFirst .notFull)

/-- `mq_waitirq`: a signal or a timeout ends the wait of `wtcb`, if it still waits. -/
def mqWaitirq (s : MqState T) (wtcb : T) (errcode : Int) : MqState T :=
  match s.wait wtcb with
  | .blocked e => { s.restart e wtcb with pterrno := Function.update s.pterrno wtcb errcode }
  | _ => s

end TizenRT.Mqueue
