import TizenRT.Mqueue.Model

set_option autoImplicit false

/-!
The queue over whole runs: `nmsgs` is the length of the list, each waiter count is the number of
tasks blocked on the queue for its event, every one of them with its `msgwaitq` on the queue, so
that the searches of `mq_dosend` and `mq_doreceive` find a task whenever the count is positive;
and the list is ordered by priority and, within a priority, by the order of the sends, so that
the head a receive takes is a message of the highest priority present, sent first among those,
with the bytes it was sent with.
-/

namespace TizenRT.Mqueue

open TizenRT.Sched TizenRT.Sem StableInsert
open TizenRT.Wdog (OK ERROR)

def msgKey (m : MqMsg) : ℕᵒᵈ := OrderDual.toDual m.priority

theorem mqInsert_eq (msg : MqMsg) (l : List MqMsg) : mqInsert msg l = insertByKey msgKey msg l := by
  induction l with
  | nil => rfl
  | cons next rest ih =>
    by_cases h : msg.priority ≤ next.priority
    · have hk : msgKey next ≤ msgKey msg := OrderDual.toDual_le_toDual.mpr h
      rw [insertByKey_cons_of_le _ hk,← ih]
      simp [mqInsert,h]
    · have hk : msgKey msg < msgKey next := OrderDual.toDual_lt_toDual.mpr (Nat.lt_of_not_le h)
      rw [insertByKey_cons_of_lt _ hk]
      simp [mqInsert,h]

variable {T : Type}

/-- `mq_send` holds its arguments from the call up to `mq_dosend`. -/
def MqWait.Sending (w : MqWait) : Prop := w = .sending ∨ w = .blocked .notFull ∨ w = .restarted .notFull

/-- A message queued with the arguments `L` records under its stamp. -/
def Logged (L : List MqSend) (m : MqMsg) : Prop := L[m.stamp]? = some ⟨m.mail,m.priority⟩

/-- The invariant of a queue whose `mq_dosend` calls queued, in order, the arguments `L`, and
whose tasks made their last `mq_send` with the arguments `args`. -/
structure MqInv (s : MqState T) (L : List MqSend) (args : T → MqSend) : Prop where
  nmsgs : s.nmsgs = s.msglist.length
  fifo : FifoSorted msgKey MqMsg.stamp s.msglist
  clock : s.clock = L.length
  logged : ∀ m ∈ s.msglist, Logged L m
  received : ∀ t msg, s.wait t = .received msg → Logged L msg
  pending : ∀ t, (s.wait t).Sending → s.pending t = args t
  mem_iff : ∀ e t, t ∈ s.waiting e ↔ s.wait t = .blocked e
  nodup : ∀ e, (s.waiting e).Nodup
  msgwaitq_iff : ∀ t, s.msgwaitq t = true ↔ ∃ e, s.wait t = .blocked e
  nwait : ∀ e, s.nwait e = (s.waiting e).length

theorem MqInv.init (maxmsgs maxmsgsize : Nat) (sched_priority : T → Nat) (args : T → MqSend)
    [DecidableEq T] : MqInv (mqInit maxmsgs maxmsgsize sched_priority) [] args := by
  refine ⟨rfl,List.Pairwise.nil,rfl,fun m hm => ?_,fun t msg ht => ?_,fun t ht => ?_,fun e t => ?_,
    fun e => List.nodup_nil,fun t => ?_,fun e => rfl⟩ <;> simp_all [mqInit,MqWait.Sending]

theorem Logged.stamp_lt {L : List MqSend} {m : MqMsg} (hl : Logged L m) : m.stamp < L.length := by
  by_contra hge
  rw [Logged,List.getElem?_eq_none (not_lt.mp hge)] at hl
  cases hl

theorem Logged.append {L : List MqSend} {m : MqMsg} (hl : Logged L m) (x : MqSend) :
    Logged (L ++ [x]) m := by
  rw [Logged,List.getElem?_append_left hl.stamp_lt]
  exact hl

namespace MqInv

variable [DecidableEq T] {s : MqState T} {L : List MqSend} {args : T → MqSend} (h : MqInv s L args)
include h

theorem setWait {t : T} {w : MqWait} (hold : ∀ e, s.wait t ≠ .blocked e) (hnew : ∀ e, w ≠ .blocked e)
    (hrcv : ∀ msg, w = .received msg → Logged L msg) (hsnd : w.Sending → s.pending t = args t) :
    MqInv (s.setWait t w) L args := by
  have hout : ∀ e, t ∉ s.waiting e := fun e ht => hold e ((h.mem_iff e t).mp ht)
  refine ⟨h.nmsgs,h.fifo,h.clock,h.logged,fun u msg hu => ?_,fun u hu => ?_,fun e u => ?_,h.nodup,
    fun u => ?_,h.nwait⟩
  · by_cases hut : u = t
    · subst hut
      exact hrcv msg (by simpa [MqState.setWait] using hu)
    · exact h.received u msg (by simpa [MqState.setWait,hut] using hu)
  · by_cases hut : u = t
    · subst hut
      exact hsnd (by simpa [MqState.setWait] using hu)
    · exact h.pending u (by simpa [MqState.setWait,hut] using hu)
  · by_cases hut : u = t
    · subst hut
      simp [MqState.setWait,hout e,hnew e]
    · simp [MqState.setWait,hut,h.mem_iff e u]
  · by_cases hut : u = t
    · subst hut
      simp only [MqState.setWait,Function.update_self]
      rw [h.msgwaitq_iff]
      simp [hold,hnew]
    · simp [MqState.setWait,hut,h.msgwaitq_iff u]

theorem block {rtcb : T} (hold : ∀ e, s.wait rtcb ≠ .blocked e) (e : MqEvent)
    (hsnd : e = .notFull → s.pending rtcb = args rtcb) : MqInv (s.block rtcb e) L args := by
  have hout : ∀ e, rtcb ∉ s.waiting e := fun e ht => hold e ((h.mem_iff e rtcb).mp ht)
  have hins : addPrioritized s.sched_priority rtcb (s.waiting e) =
      insertByKey (prioKey s.sched_priority) rtcb (s.waiting e) := addPrioritized_eq _ _ _
  refine ⟨h.nmsgs,h.fifo,h.clock,h.logged,fun u msg hu => ?_,fun u hu => ?_,fun e' u => ?_,
    fun e' => ?_,fun u => ?_,fun e' => ?_⟩
  · have hut : u ≠ rtcb := by
      rintro rfl
      simp [MqState.block] at hu
    exact h.received u msg (by simpa [MqState.block,hut] using hu)
  · by_cases hut : u = rtcb
    · subst hut
      exact hsnd (by simpa [MqState.block,MqWait.Sending] using hu)
    · exact h.pending u (by simpa [MqState.block,hut] using hu)
  · by_cases he : e' = e
    · subst he
      by_cases hut : u = rtcb
      · subst hut
        simp [MqState.block,hins]
      · simp [MqState.block,hins,hut,h.mem_iff e' u]
    · by_cases hut : u = rtcb
      · subst hut
        simp [MqState.block,he,hout e',Ne.symm he]
      · simp [MqState.block,he,hut,h.mem_iff e' u]
  · by_cases he : e' = e
    · subst he
      simp only [MqState.block,Function.update_self,hins]
      exact (insertByKey_perm rtcb _).nodup_iff.mpr (List.nodup_cons.mpr ⟨hout e',h.nodup e'⟩)
    · simpa [MqState.block,he] using h.nodup e'
  · by_cases hut : u = rtcb
    · subst hut
      simp [MqState.block]
    · simp [MqState.block,hut,h.msgwaitq_iff u]
  · by_cases he : e' = e
    · subst he
      simp [MqState.block,hins,(insertByKey_perm rtcb _).length_eq,h.nwait e']
    · simpa [MqState.block,he] using h.nwait e'

theorem restart {t : T} {e : MqEvent} (hb : s.wait t = .blocked e) : MqInv (s.restart e t) L args := by
  have hmem : t ∈ s.waiting e := (h.mem_iff e t).mpr hb
  refine ⟨h.nmsgs,h.fifo,h.clock,h.logged,fun u msg hu => ?_,fun u hu => ?_,fun e' u => ?_,
    fun e' => ?_,fun u => ?_,fun e' => ?_⟩
  · have hut : u ≠ t := by
      rintro rfl
      simp [MqState.restart] at hu
    exact h.received u msg (by simpa [MqState.restart,hut] using hu)
  · by_cases hut : u = t
    · subst hut
      have he : e = .notFull := by simpa [MqState.restart,MqWait.Sending] using hu
      exact h.pending u (by simp [MqWait.Sending,hb,he])
    · exact h.pending u (by simpa [MqState.restart,hut] using hu)
  · by_cases hut : u = t
    · subst hut
      by_cases he : e' = e
      · subst he
        simp [MqState.restart,(h.nodup e').not_mem_erase]
      · have : u ∉ s.waiting e' := fun hu => he (by
          have := (h.mem_iff e' u).mp hu
          rw [hb] at this
          exact (MqWait.blocked.inj this).symm)
        simp [MqState.restart,he,this]
    · by_cases he : e' = e
      · subst he
        simp [MqState.restart,hut,List.mem_erase_of_ne hut,h.mem_iff e' u]
      · simp [MqState.restart,hut,he,h.mem_iff e' u]
  · by_cases he : e' = e
    · subst he
      simpa [MqState.restart] using (h.nodup e').erase t
    · simpa [MqState.restart,he] using h.nodup e'
  · by_cases hut : u = t
    · subst hut
      simp [MqState.restart]
    · simp [MqState.restart,hut,h.msgwaitq_iff u]
  · by_cases he : e' = e
    · subst he
      simp [MqState.restart,List.length_erase_of_mem hmem,h.nwait e']
    · simpa [MqState.restart,he] using h.nwait e'

theorem wakeFirst (e : MqEvent) : MqInv (s.wakeFirst e) L args := by
  unfold MqState.wakeFirst
  split_ifs
  · split
    · rename_i btcb hfind
      exact h.restart ((h.mem_iff e btcb).mp (List.mem_of_find?_eq_some hfind))
    · exact h
  · exact h

omit [DecidableEq T] in
theorem setPterrno (f : T → Int) : MqInv { s with pterrno := f } L args :=
  ⟨h.nmsgs,h.fifo,h.clock,h.logged,h.received,h.pending,h.mem_iff,h.nodup,h.msgwaitq_iff,h.nwait⟩

omit [DecidableEq T] in
theorem insert (m : MqSend) :
    MqInv { s with
      msglist := mqInsert ⟨m.prio,m.mail,s.clock⟩ s.msglist
      nmsgs := s.nmsgs + 1
      clock := s.clock + 1 } (L ++ [m]) args := by
  refine ⟨?_,?_,by simp [h.clock],fun msg hmsg => ?_,fun t msg ht => (h.received t msg ht).append m,
    h.pending,h.mem_iff,h.nodup,h.msgwaitq_iff,h.nwait⟩
  · simp [mqInsert_eq,(insertByKey_perm _ _).length_eq,h.nmsgs]
  · rw [mqInsert_eq]
    exact fifoSorted_insertByKey h.fifo fun a ha => h.clock ▸ (h.logged a ha).stamp_lt
  · rw [mqInsert_eq] at hmsg
    rcases mem_insertByKey.mp hmsg with rfl | hmsg
    · simp [Logged,h.clock]
    · exact (h.logged msg hmsg).append m

theorem dosend (m : MqSend) : MqInv (mqDosend s m) (L ++ [m]) args :=
  (h.insert m).wakeFirst .notEmpty

omit [DecidableEq T] in
theorem pop {msg : MqMsg} {rest : List MqMsg} (hl : s.msglist = msg :: rest) :
    MqInv { s with msglist := rest, nmsgs := s.nmsgs - 1 } L args := by
  have hsub : List.Sublist rest s.msglist := hl ▸ List.sublist_cons_self msg rest
  refine ⟨?_,h.fifo.sublist hsub,h.clock,fun m hm => h.logged m (hsub.subset hm),h.received,
    h.pending,h.mem_iff,h.nodup,h.msgwaitq_iff,h.nwait⟩
  simp [h.nmsgs,hl]

theorem waitsendLoop {rtcb : T} (hold : ∀ e, s.wait rtcb ≠ .blocked e)
    (hsnd : s.pending rtcb = args rtcb) : MqInv (mqWaitsendLoop s rtcb) L args := by
  unfold mqWaitsendLoop
  split_ifs
  · exact h.block hold .notFull fun _ => hsnd
  · exact h.setWait hold (by simp) (by simp) fun _ => hsnd

theorem send {rtcb : T} (hidle : s.wait rtcb = .idle) (oflags : Nat) (mail : List UInt8) (prio : Int) :
    MqInv (mqSend s rtcb oflags mail prio).2 L (Function.update args rtcb ⟨mail,prio.toNat⟩) := by
  have hargs : MqInv s L (Function.update args rtcb ⟨mail,prio.toNat⟩) := by
    refine ⟨h.nmsgs,h.fifo,h.clock,h.logged,h.received,fun t ht => ?_,h.mem_iff,h.nodup,
      h.msgwaitq_iff,h.nwait⟩
    have htr : t ≠ rtcb := by
      rintro rfl
      simp [hidle,MqWait.Sending] at ht
    rw [Function.update_of_ne htr]
    exact h.pending t ht
  dsimp only [mqSend]
  by_cases hv : mqVerifysend oflags s.maxmsgsize mail.length prio = OK
  swap
  · rw [if_pos hv]
    exact hargs.setPterrno _
  rw [if_neg (not_not.mpr hv)]
  have hp : MqInv { s with pending := Function.update s.pending rtcb ⟨mail,prio.toNat⟩ } L
      (Function.update args rtcb ⟨mail,prio.toNat⟩) := by
    refine ⟨h.nmsgs,h.fifo,h.clock,h.logged,h.received,fun t ht => ?_,h.mem_iff,h.nodup,
      h.msgwaitq_iff,h.nwait⟩
    by_cases htr : t = rtcb
    · subst htr
      simp
    · simpa [htr] using hargs.pending t ht
  have hold : ∀ e, s.wait rtcb ≠ .blocked e := by simp [hidle]
  split_ifs
  · exact hp.setWait hold (by simp) (by simp) fun _ => by simp
  · exact hp.setPterrno _
  · exact hp.waitsendLoop hold (by simp)

theorem sendResume {rtcb : T} (hrs : s.wait rtcb = .restarted .notFull) :
    MqInv (mqSendResume s rtcb).2 L args := by
  have hold : ∀ e, s.wait rtcb ≠ .blocked e := by simp [hrs]
  have hsnd : s.pending rtcb = args rtcb := h.pending rtcb (by simp [hrs,MqWait.Sending])
  unfold mqSendResume
  split_ifs
  · exact h.setWait hold (by simp) (by simp) (by simp [MqWait.Sending])
  · exact h.waitsendLoop hold hsnd

theorem sendDo {rtcb : T} (hsnd : s.wait rtcb = .sending) :
    MqInv (mqSendDo s rtcb).2 (L ++ [args rtcb]) args := by
  have hp : s.pending rtcb = args rtcb := h.pending rtcb (by simp [hsnd,MqWait.Sending])
  have := (h.setWait (t := rtcb) (w := .idle) (by simp [hsnd]) (by simp) (by simp)
    (by simp [MqWait.Sending])).dosend (args rtcb)
  rw [mqSendDo,hp]
  exact this

theorem sendIsr (oflags : Nat) (mail : List UInt8) (prio : Int) (alloc : Bool) :
    MqInv (mqSendIsr s oflags mail prio alloc).2
      (if (mqSendIsr s oflags mail prio alloc).1 = OK then L ++ [⟨mail,prio.toNat⟩] else L) args := by
  by_cases hv : mqVerifysend oflags s.maxmsgsize mail.length prio = OK
  · cases alloc
    · have e : mqSendIsr s oflags mail prio false = (ERROR,s) := by simp [mqSendIsr,hv]
      rw [e,if_neg (show ERROR ≠ OK by decide)]
      exact h
    · have e : mqSendIsr s oflags mail prio true = (OK,mqDosend s ⟨mail,prio.toNat⟩) := by
        simp [mqSendIsr,hv]
      rw [e,if_pos rfl]
      exact h.dosend _
  · have e : mqSendIsr s oflags mail prio alloc = (ERROR,s) := by simp [mqSendIsr,hv]
    rw [e,if_neg (show ERROR ≠ OK by decide)]
    exact h

theorem waitreceive {rtcb : T} (hold : ∀ e, s.wait rtcb ≠ .blocked e) (nonblock : Bool) :
    MqInv (mqWaitreceive s rtcb nonblock).2 L args := by
  unfold mqWaitreceive
  split
  · rename_i msg rest hl
    refine (h.pop hl).setWait hold (by simp) (fun m hm => ?_) (by simp [MqWait.Sending])
    cases hm
    exact h.logged msg (by simp [hl])
  · split_ifs
    · exact h.setPterrno _
    · exact h.block hold .notEmpty (by simp)

theorem receive {rtcb : T} (hidle : s.wait rtcb = .idle) (oflags msglen : Nat) :
    MqInv (mqReceive s rtcb oflags msglen).2 L args := by
  dsimp only [mqReceive]
  split_ifs
  · exact h.setPterrno _
  · exact h.waitreceive (by simp [hidle]) _

theorem receiveResume {rtcb : T} (hrs : s.wait rtcb = .restarted .notEmpty) :
    MqInv (mqReceiveResume s rtcb).2 L args := by
  have hold : ∀ e, s.wait rtcb ≠ .blocked e := by simp [hrs]
  unfold mqReceiveResume
  split_ifs
  · exact h.setWait hold (by simp) (by simp) (by simp [MqWait.Sending])
  · exact h.waitreceive hold false

theorem doreceive {rtcb : T} {msg : MqMsg} (hrcv : s.wait rtcb = .received msg) :
    MqInv (mqDoreceive s rtcb msg).2 L args :=
  (h.setWait (by simp [hrcv]) (by simp) (by simp) (by simp [MqWait.Sending])).wakeFirst .notFull

theorem waitirq (wtcb : T) (errcode : Int) : MqInv (mqWaitirq s wtcb errcode) L args := by
  unfold mqWaitirq
  split
  · rename_i e hb
    exact (h.restart hb).setPterrno _
  · exact h

end MqInv

variable [DecidableEq T]

/-- The states of one queue that the calls of its tasks and of interrupt handlers reach, each task
making one call at a time, with the arguments of every task's last `mq_send` and the log of the
arguments whose message `mq_dosend` queued, in the order it queued them. -/
inductive Reachable : MqState T → List MqSend → (T → MqSend) → Prop
  | init (maxmsgs maxmsgsize : Nat) (sched_priority : T → Nat) :
      Reachable (mqInit maxmsgs maxmsgsize sched_priority) [] fun _ => ⟨[],0⟩
  | send {s : MqState T} {L : List MqSend} {args : T → MqSend} (rtcb : T) (oflags : Nat)
      (mail : List UInt8) (prio : Int) : Reachable s L args → s.wait rtcb = .idle →
      Reachable (mqSend s rtcb oflags mail prio).2 L (Function.update args rtcb ⟨mail,prio.toNat⟩)
  | sendResume {s : MqState T} {L : List MqSend} {args : T → MqSend} (rtcb : T) :
      Reachable s L args → s.wait rtcb = .restarted .notFull → Reachable (mqSendResume s rtcb).2 L args
  | sendDo {s : MqState T} {L : List MqSend} {args : T → MqSend} (rtcb : T) : Reachable s L args →
      s.wait rtcb = .sending → Reachable (mqSendDo s rtcb).2 (L ++ [args rtcb]) args
  | sendIsr {s : MqState T} {L : List MqSend} {args : T → MqSend} (oflags : Nat) (mail : List UInt8)
      (prio : Int) (alloc : Bool) : Reachable s L args →
      Reachable (mqSendIsr s oflags mail prio alloc).2
        (if (mqSendIsr s oflags mail prio alloc).1 = OK then L ++ [⟨mail,prio.toNat⟩] else L) args
  | receive {s : MqState T} {L : List MqSend} {args : T → MqSend} (rtcb : T) (oflags msglen : Nat) :
      Reachable s L args → s.wait rtcb = .idle → Reachable (mqReceive s rtcb oflags msglen).2 L args
  | receiveResume {s : MqState T} {L : List MqSend} {args : T → MqSend} (rtcb : T) :
      Reachable s L args → s.wait rtcb = .restarted .notEmpty →
      Reachable (mqReceiveResume s rtcb).2 L args
  | doreceive {s : MqState T} {L : List MqSend} {args : T → MqSend} (rtcb : T) (msg : MqMsg) :
      Reachable s L args → s.wait rtcb = .received msg → Reachable (mqDoreceive s rtcb msg).2 L args
  | waitirq {s : MqState T} {L : List MqSend} {args : T → MqSend} (wtcb : T) (errcode : Int) :
      Reachable s L args → errcode = EINTR ∨ errcode = ETIMEDOUT →
      Reachable (mqWaitirq s wtcb errcode) L args

end TizenRT.Mqueue
