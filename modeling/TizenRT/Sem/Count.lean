import Mathlib.Algebra.BigOperators.Group.Finset.Piecewise
import Mathlib.Data.Fintype.Basic
import TizenRT.Sem.Model

set_option autoImplicit false

/-!
The count of a semaphore over whole runs. A run carries the log of its calls, each with what it
returned. The count is the initial count plus the posts, minus the calls that returned OK, minus
the waiters restarted with the count whose `sem_wait` is still to return OK, minus the tasks
blocked. It is negative exactly when tasks wait, and then by as many. A post that leaves it
non-positive restarts the waiter of highest priority that blocked first in the log, whose
`sem_wait` then returns OK.
-/

namespace TizenRT.Sem

open TizenRT.Sched TizenRT.Wdog StableInsert

variable {T : Type}

structure WaitInv (s : SemState T) : Prop where
  mem_iff : ∀ t, t ∈ s.waiters ↔ s.wait t = .blocked
  nodup : s.waiters.Nodup
  cleared : ∀ t, s.wait t = .blocked → s.pterrno t = 0
  length : (s.waiters.length : Int) = max 0 (-s.semcount)

theorem WaitInv.init {value : Int} (sched_priority : T → Nat) (h0 : 0 ≤ value) :
    WaitInv (semInit value sched_priority) := by
  refine ⟨fun t => ?_,List.nodup_nil,fun t ht => ?_,by simp [semInit]; omega⟩
  · simp [semInit]
  · simp [semInit] at ht

namespace WaitInv

variable {s : SemState T} (h : WaitInv s)
include h

theorem not_mem_of_idle {t : T} (ht : s.wait t = .idle) : t ∉ s.waiters := by
  rw [h.mem_iff,ht]
  simp

theorem waiters_ne_nil (hc : s.semcount + 1 ≤ 0) : s.waiters ≠ [] := by
  intro hnil
  have := h.length
  rw [hnil] at this
  simp at this
  omega

variable [DecidableEq T]

theorem semWait {rtcb : T} (hidle : s.wait rtcb = .idle) : WaitInv (semWait s rtcb).2 := by
  have hout := h.not_mem_of_idle hidle
  have hlen := h.length
  by_cases hc : 0 < s.semcount
  · rw [semWait_of_pos hc]
    exact ⟨h.mem_iff,h.nodup,h.cleared,by simp; omega⟩
  rw [semWait_of_nonpos (not_lt.mp hc),addPrioritized_eq]
  refine ⟨fun t => ?_,?_,fun t ht => ?_,?_⟩
  · by_cases htr : t = rtcb
    · subst htr
      simp
    · simp [htr,h.mem_iff]
  · exact (insertByKey_perm rtcb _).nodup_iff.mpr (List.nodup_cons.mpr ⟨hout,h.nodup⟩)
  · by_cases htr : t = rtcb
    · subst htr
      simp
    · simp only [Function.update_of_ne htr] at ht ⊢
      exact h.cleared t ht
  · rw [(insertByKey_perm rtcb _).length_eq,List.length_cons]
    push_cast
    omega

theorem semWaitReturn {rtcb : T} (hr : s.wait rtcb = .restarted) :
    WaitInv (semWaitReturn s rtcb).2 := by
  have hout : rtcb ∉ s.waiters := by
    rw [h.mem_iff,hr]
    simp
  rw [semWaitReturn_snd]
  refine ⟨fun t => ?_,h.nodup,fun t ht => ?_,h.length⟩
  · by_cases htr : t = rtcb
    · subst htr
      simp [hout]
    · simp [Function.update_of_ne htr,h.mem_iff]
  · by_cases htr : t = rtcb
    · subst htr
      simp at ht
    · simp only [Function.update_of_ne htr] at ht
      exact h.cleared t ht

theorem semTrywait {rtcb : T} (hidle : s.wait rtcb = .idle) :
    WaitInv (semTrywait s rtcb).2 := by
  have hlen := h.length
  by_cases hc : 0 < s.semcount
  · rw [semTrywait_of_pos hc]
    exact ⟨h.mem_iff,h.nodup,h.cleared,by simp; omega⟩
  rw [semTrywait_of_nonpos (not_lt.mp hc)]
  refine ⟨h.mem_iff,h.nodup,fun t ht => ?_,h.length⟩
  have htr : t ≠ rtcb := by
    rintro rfl
    rw [hidle] at ht
    exact absurd ht (by decide)
  simpa [Function.update_of_ne htr] using h.cleared t ht

theorem semPost : WaitInv (semPost s) := by
  have hlen := h.length
  by_cases hc : s.semcount + 1 ≤ 0
  · obtain ⟨stcb,rest,hw⟩ := List.exists_cons_of_ne_nil (h.waiters_ne_nil hc)
    have hnd := h.nodup
    rw [hw] at hnd hlen
    have hout : stcb ∉ rest := (List.nodup_cons.mp hnd).1
    rw [semPost_of_wake hc hw]
    refine ⟨fun t => ?_,(List.nodup_cons.mp hnd).2,fun t ht => ?_,?_⟩
    · by_cases hts : t = stcb
      · subst hts
        simp [hout]
      · have := h.mem_iff t
        rw [hw] at this
        simp [← this,hts]
    · by_cases hts : t = stcb
      · subst hts
        simp at ht
      · simp only [Function.update_of_ne hts] at ht
        exact h.cleared t ht
    · simp only [List.length_cons] at hlen
      push_cast at hlen ⊢
      omega
  · rw [semPost_of_pos (by omega)]
    exact ⟨h.mem_iff,h.nodup,h.cleared,by simp; omega⟩

theorem semWaitirq {wtcb : T} (errcode : Int) : WaitInv (semWaitirq s wtcb errcode) := by
  have hlen := h.length
  unfold TizenRT.Sem.semWaitirq
  split_ifs with hb
  · have hmem : wtcb ∈ s.waiters := (h.mem_iff wtcb).mpr hb
    have hpos := List.length_pos_of_mem hmem
    refine ⟨fun t => ?_,h.nodup.erase wtcb,fun t ht => ?_,?_⟩
    · by_cases htw : t = wtcb
      · subst htw
        simp [h.nodup.not_mem_erase]
      · simp [Function.update_of_ne htw,List.mem_erase_of_ne htw,h.mem_iff]
    · by_cases htw : t = wtcb
      · subst htw
        simp at ht
      · simp only [Function.update_of_ne htw] at ht ⊢
        exact h.cleared t ht
    · dsimp only
      rw [List.length_erase_of_mem hmem]
      omega
  · exact h

theorem semPost_wakes_head (hc : s.semcount + 1 ≤ 0) : ∃ w rest, s.waiters = w :: rest ∧
    (TizenRT.Sem.semPost s).wait w = .restarted ∧
    (TizenRT.Sem.semWaitReturn (TizenRT.Sem.semPost s) w).1 = OK := by
  obtain ⟨w,rest,hw⟩ := List.exists_cons_of_ne_nil (h.waiters_ne_nil hc)
  have hblocked : s.wait w = .blocked := (h.mem_iff w).mp (by simp [hw])
  have herr : s.pterrno w = 0 := h.cleared w hblocked
  refine ⟨w,rest,hw,?_,?_⟩
  · simp [semPost_of_wake hc hw]
  · simp [semWaitReturn_fst,semPost_of_wake hc hw,herr,EINTR,ETIMEDOUT]

end WaitInv

inductive SemCall (T : Type) where
  | wait (rtcb : T) (ret : Option Int)
  | waitReturn (rtcb : T) (ret : Int)
  | trywait (rtcb : T) (ret : Int)
  /-- `sem_post` or `sem_post_from_isr` -/
  | post
  | waitirq (wtcb : T) (errcode : Int)
  deriving DecidableEq

def SemCall.acquires : SemCall T → Bool
  | .wait _ ret => ret = some OK
  | .waitReturn _ ret => ret = OK
  | .trywait _ ret => ret = OK
  | _ => false

def SemCall.isPost : SemCall T → Bool
  | .post => true
  | _ => false

abbrev SemLog (T : Type) := List (SemCall T)

def posts (g : SemLog T) : Nat := g.countP SemCall.isPost

def acquired (g : SemLog T) : Nat := g.countP SemCall.acquires

@[simp] theorem posts_cons (c : SemCall T) (g : SemLog T) :
    posts (c :: g) = posts g + if c.isPost then 1 else 0 := by
  simp [posts,List.countP_cons]

@[simp] theorem acquired_cons (c : SemCall T) (g : SemLog T) :
    acquired (c :: g) = acquired g + if c.acquires then 1 else 0 := by
  simp [acquired,List.countP_cons]

variable [DecidableEq T]

/-- The place in the log, counted from its start, of the last `sem_wait` of `t` that blocked. -/
def blockTime : SemLog T → T → Nat
  | [], _ => 0
  | c :: g, t => if c = .wait t none then g.length + 1 else blockTime g t

theorem blockTime_le_length (g : SemLog T) (t : T) : blockTime g t ≤ g.length := by
  induction g with
  | nil => rfl
  | cons c g ih =>
    simp only [blockTime,List.length_cons]
    split_ifs <;> omega

theorem blockTime_cons_of_ne {c : SemCall T} (hc : ∀ t, c ≠ .wait t none) (g : SemLog T) :
    blockTime (c :: g) = blockTime g := by
  funext t
  simp [blockTime,hc t]

theorem blockTime_wait_none (rtcb : T) (g : SemLog T) :
    blockTime (.wait rtcb none :: g) = Function.update (blockTime g) rtcb (g.length + 1) := by
  funext t
  by_cases ht : t = rtcb
  · subst ht
    simp [blockTime]
  · simp [blockTime,Function.update_of_ne ht,Ne.symm ht]

/-- Restarted holding the count: the task's `sem_wait` is still to return, and returns OK. -/
def Handed (s : SemState T) (t : T) : Prop := s.wait t = .restarted ∧ (semWaitReturn s t).1 = OK

instance (s : SemState T) : DecidablePred (Handed s) :=
  fun _ => inferInstanceAs (Decidable (_ ∧ _))

theorem handed_iff_of_eq {s s' : SemState T} {t : T} (hw : s'.wait t = s.wait t)
    (he : s'.pterrno t = s.pterrno t) : Handed s' t ↔ Handed s t := by
  simp [Handed,semWaitReturn_fst,hw,he]

theorem not_handed_of_ne {s : SemState T} {t : T} (ht : s.wait t ≠ .restarted) : ¬ Handed s t :=
  fun h => ht h.1

theorem card_filter_add_of_eq_off {α : Type} [Fintype α] [DecidableEq α] {p q : α → Prop}
    [DecidablePred p] [DecidablePred q] (a : α) (h : ∀ x, x ≠ a → (q x ↔ p x)) :
    (Finset.univ.filter q).card + (if p a then 1 else 0) =
      (Finset.univ.filter p).card + (if q a then 1 else 0) := by
  have hsplit : ∀ (r : α → Prop) [DecidablePred r],
      (Finset.univ.filter r).card = (if r a then 1 else 0) + ((Finset.univ.erase a).filter r).card := by
    intro r _
    rw [Finset.card_filter,Finset.card_filter,← Finset.add_sum_erase _ _ (Finset.mem_univ a)]
  have hrest : (Finset.univ.erase a).filter q = (Finset.univ.erase a).filter p :=
    Finset.filter_congr fun x hx => h x (Finset.ne_of_mem_erase hx)
  rw [hsplit q,hsplit p,hrest]
  omega

variable [Fintype T]

def handed (s : SemState T) : Nat := (Finset.univ.filter (Handed s)).card

theorem handed_congr {s s' : SemState T} (hw : s'.wait = s.wait) (he : s'.pterrno = s.pterrno) :
    handed s' = handed s := by
  unfold handed
  congr 1
  exact Finset.filter_congr fun t _ => handed_iff_of_eq (congrFun hw t) (congrFun he t)

@[simp] theorem handed_semcount (s : SemState T) (c : Int) :
    handed { s with semcount := c } = handed s :=
  handed_congr rfl rfl

theorem handed_add_of_eq_off {s s' : SemState T} (a : T)
    (hw : ∀ t, t ≠ a → s'.wait t = s.wait t) (he : ∀ t, t ≠ a → s'.pterrno t = s.pterrno t) :
    handed s' + (if Handed s a then 1 else 0) = handed s + (if Handed s' a then 1 else 0) :=
  card_filter_add_of_eq_off a fun t ht => handed_iff_of_eq (hw t ht) (he t ht)

theorem handed_eq_of_eq_off {s s' : SemState T} (a : T)
    (hw : ∀ t, t ≠ a → s'.wait t = s.wait t) (he : ∀ t, t ≠ a → s'.pterrno t = s.pterrno t)
    (ha : ¬ Handed s a) (ha' : ¬ Handed s' a) : handed s' = handed s := by
  have := handed_add_of_eq_off a hw he
  rwa [if_neg ha,if_neg ha',add_zero,add_zero] at this

structure SemInv (value : Int) (s : SemState T) (g : SemLog T) : Prop where
  wait : WaitInv s
  fifo : FifoSorted (prioKey s.sched_priority) (blockTime g) s.waiters
  count : s.semcount = value + posts g - acquired g - handed s - s.waiters.length

theorem SemInv.init {value : Int} (sched_priority : T → Nat) (h0 : 0 ≤ value) :
    SemInv value (semInit value sched_priority) [] := by
  refine ⟨WaitInv.init sched_priority h0,List.Pairwise.nil,?_⟩
  have hh : handed (semInit value sched_priority) = 0 := by
    rw [handed,Finset.card_eq_zero,Finset.filter_eq_empty_iff]
    exact fun t _ => not_handed_of_ne (by simp [semInit])
  rw [hh]
  simp [posts,acquired,semInit]

namespace SemInv

variable {value : Int} {s : SemState T} {g : SemLog T} (h : SemInv value s g)
include h

theorem semWait {rtcb : T} (hidle : s.wait rtcb = .idle) :
    SemInv value (semWait s rtcb).2 (.wait rtcb (semWait s rtcb).1 :: g) := by
  have hw := h.wait.semWait hidle
  have hcount := h.count
  by_cases hc : 0 < s.semcount
  · rw [semWait_of_pos hc] at hw ⊢
    refine ⟨hw,?_,?_⟩
    · rw [blockTime_cons_of_ne (by simp)]
      exact h.fifo
    · simp [SemCall.acquires,SemCall.isPost]
      omega
  have hout := h.wait.not_mem_of_idle hidle
  rw [semWait_of_nonpos (not_lt.mp hc)] at hw ⊢
  refine ⟨hw,?_,?_⟩
  · have hstamps : ∀ a ∈ s.waiters, Function.update (blockTime g) rtcb (g.length + 1) a =
        blockTime g a := fun a ha => Function.update_of_ne (by rintro rfl; exact hout ha) _ _
    rw [blockTime_wait_none,addPrioritized_eq]
    apply fifoSorted_insertByKey ((fifoSorted_congr fun a ha => ⟨rfl,hstamps a ha⟩).mpr h.fifo)
    intro a ha
    rw [hstamps a ha,Function.update_self]
    exact Nat.lt_succ_of_le (blockTime_le_length g a)
  · rw [handed_eq_of_eq_off rtcb (fun t ht => Function.update_of_ne ht _ _)
      (fun t ht => Function.update_of_ne ht _ _) (not_handed_of_ne (by rw [hidle]; decide))
      (not_handed_of_ne (by simp)),addPrioritized_eq,(insertByKey_perm rtcb _).length_eq,
      List.length_cons]
    simp [SemCall.acquires,SemCall.isPost]
    omega

theorem semWaitReturn {rtcb : T} (hr : s.wait rtcb = .restarted) :
    SemInv value (semWaitReturn s rtcb).2 (.waitReturn rtcb (semWaitReturn s rtcb).1 :: g) := by
  have hcount := h.count
  have hhanded : handed (TizenRT.Sem.semWaitReturn s rtcb).2 + (if Handed s rtcb then 1 else 0) =
      handed s + (if Handed (TizenRT.Sem.semWaitReturn s rtcb).2 rtcb then 1 else 0) :=
    handed_add_of_eq_off rtcb (fun t ht => by simp [Function.update_of_ne ht]) (fun t ht => by simp)
  rw [if_neg (show ¬ Handed (TizenRT.Sem.semWaitReturn s rtcb).2 rtcb from
    not_handed_of_ne (by simp)),add_zero] at hhanded
  have hiff : Handed s rtcb ↔ (TizenRT.Sem.semWaitReturn s rtcb).1 = OK := and_iff_right hr
  refine ⟨h.wait.semWaitReturn hr,?_,?_⟩
  · rw [blockTime_cons_of_ne (by simp),semWaitReturn_snd]
    exact h.fifo
  · rw [semWaitReturn_snd] at hhanded ⊢
    simp only [posts_cons,acquired_cons,SemCall.isPost,SemCall.acquires,decide_eq_true_eq]
    by_cases hok : (TizenRT.Sem.semWaitReturn s rtcb).1 = OK
    · rw [if_pos (hiff.mpr hok)] at hhanded
      rw [if_pos hok]
      push_cast
      omega
    · rw [if_neg (mt hiff.mp hok)] at hhanded
      rw [if_neg hok]
      push_cast
      omega

theorem semTrywait {rtcb : T} (hidle : s.wait rtcb = .idle) :
    SemInv value (semTrywait s rtcb).2 (.trywait rtcb (semTrywait s rtcb).1 :: g) := by
  have hw := h.wait.semTrywait hidle
  have hcount := h.count
  have hfifo : FifoSorted (prioKey s.sched_priority)
      (blockTime (.trywait rtcb (TizenRT.Sem.semTrywait s rtcb).1 :: g)) s.waiters := by
    rw [blockTime_cons_of_ne (by simp)]
    exact h.fifo
  by_cases hc : 0 < s.semcount
  · rw [semTrywait_of_pos hc] at hw hfifo ⊢
    refine ⟨hw,hfifo,?_⟩
    simp [SemCall.acquires,SemCall.isPost]
    omega
  · rw [semTrywait_of_nonpos (not_lt.mp hc)] at hw hfifo ⊢
    have hh : handed { s with pterrno := Function.update s.pterrno rtcb EAGAIN } = handed s :=
      handed_eq_of_eq_off rtcb (fun _ _ => rfl) (fun t ht => Function.update_of_ne ht _ _)
        (not_handed_of_ne (by rw [hidle]; decide)) (not_handed_of_ne (by simp [hidle]))
    refine ⟨hw,hfifo,?_⟩
    simp [hh,SemCall.acquires,SemCall.isPost,ERROR,OK]
    exact hcount

theorem semPost : SemInv value (semPost s) (.post :: g) := by
  have hcount := h.count
  have hw := h.wait.semPost
  have hfifo : ∀ l : List T, FifoSorted (prioKey s.sched_priority) (blockTime g) l →
      FifoSorted (prioKey s.sched_priority) (blockTime (.post :: g)) l := fun l hl => by
    rwa [blockTime_cons_of_ne (by simp)]
  by_cases hc : s.semcount + 1 ≤ 0
  · obtain ⟨stcb,rest,hws⟩ := List.exists_cons_of_ne_nil (h.wait.waiters_ne_nil hc)
    have hb : s.wait stcb = .blocked := (h.wait.mem_iff stcb).mp (by simp [hws])
    have hto : Handed (TizenRT.Sem.semPost s) stcb := by
      refine ⟨by simp [semPost_of_wake hc hws],?_⟩
      simp [semWaitReturn_fst,semPost_of_wake hc hws,h.wait.cleared stcb hb,EINTR,ETIMEDOUT]
    have hhanded : handed (TizenRT.Sem.semPost s) + (if Handed s stcb then 1 else 0) =
        handed s + (if Handed (TizenRT.Sem.semPost s) stcb then 1 else 0) :=
      handed_add_of_eq_off stcb (fun t ht => by simp [semPost_of_wake hc hws,Function.update_of_ne ht])
        (fun t ht => by simp [semPost_of_wake hc hws])
    rw [if_neg (not_handed_of_ne (by rw [hb]; decide)),if_pos hto,add_zero] at hhanded
    have hf := h.fifo
    rw [hws] at hf hcount
    rw [semPost_of_wake hc hws] at hw hhanded ⊢
    refine ⟨hw,hfifo _ (List.pairwise_cons.mp hf).2,?_⟩
    simp only [posts_cons,acquired_cons,SemCall.isPost,SemCall.acquires,List.length_cons] at hcount ⊢
    push_cast at hcount ⊢
    omega
  · rw [semPost_of_pos (by omega)] at hw ⊢
    refine ⟨hw,hfifo _ h.fifo,?_⟩
    simp [SemCall.acquires,SemCall.isPost]
    omega

theorem semWaitirq {wtcb : T} {errcode : Int} (herr : errcode = EINTR ∨ errcode = ETIMEDOUT) :
    SemInv value (semWaitirq s wtcb errcode) (.waitirq wtcb errcode :: g) := by
  have hcount := h.count
  have hw : WaitInv (TizenRT.Sem.semWaitirq s wtcb errcode) := h.wait.semWaitirq errcode
  have hfifo : ∀ l : List T, FifoSorted (prioKey s.sched_priority) (blockTime g) l →
      FifoSorted (prioKey s.sched_priority) (blockTime (.waitirq wtcb errcode :: g)) l :=
    fun l hl => by rwa [blockTime_cons_of_ne (by simp)]
  unfold TizenRT.Sem.semWaitirq at hw ⊢
  split_ifs at hw ⊢ with hb
  · have hmem : wtcb ∈ s.waiters := (h.wait.mem_iff wtcb).mpr hb
    have hpos := List.length_pos_of_mem hmem
    have hnot : ¬ (TizenRT.Sem.semWaitReturn { s with
        semcount := s.semcount + 1
        waiters := s.waiters.erase wtcb
        wait := Function.update s.wait wtcb .restarted
        pterrno := Function.update s.pterrno wtcb errcode } wtcb).1 = OK := by
      rcases herr with rfl | rfl <;> simp [semWaitReturn_fst,EINTR,ETIMEDOUT,OK,ERROR]
    refine ⟨hw,hfifo _ (h.fifo.sublist List.erase_sublist),?_⟩
    rw [handed_eq_of_eq_off wtcb (fun t ht => Function.update_of_ne ht _ _)
      (fun t ht => Function.update_of_ne ht _ _) (not_handed_of_ne (by rw [hb]; decide))
      (fun hh => hnot hh.2),List.length_erase_of_mem hmem]
    simp [SemCall.acquires,SemCall.isPost]
    omega
  · exact ⟨hw,hfifo _ h.fifo,by simpa [SemCall.acquires,SemCall.isPost] using hcount⟩

end SemInv

variable (value : Int) in
/-- The states one semaphore reaches from `sem_init`, with the log of the calls made, each call
made by a task that is not already in `sem_wait` on it, and each `sem_waitirq` with the errno of
a signal or a timeout. -/
inductive Reachable : SemState T → SemLog T → Prop
  | init (sched_priority : T → Nat) : 0 ≤ value → value ≤ SEM_VALUE_MAX →
      Reachable (semInit value sched_priority) []
  | wait {s : SemState T} {g : SemLog T} (rtcb : T) : Reachable s g → s.wait rtcb = .idle →
      Reachable (semWait s rtcb).2 (.wait rtcb (semWait s rtcb).1 :: g)
  | waitReturn {s : SemState T} {g : SemLog T} (rtcb : T) : Reachable s g →
      s.wait rtcb = .restarted →
      Reachable (semWaitReturn s rtcb).2 (.waitReturn rtcb (semWaitReturn s rtcb).1 :: g)
  | trywait {s : SemState T} {g : SemLog T} (rtcb : T) : Reachable s g → s.wait rtcb = .idle →
      Reachable (semTrywait s rtcb).2 (.trywait rtcb (semTrywait s rtcb).1 :: g)
  | post {s : SemState T} {g : SemLog T} : Reachable s g → s.semcount < SEM_VALUE_MAX →
      Reachable (semPost s) (.post :: g)
  | postFromIsr {s : SemState T} {g : SemLog T} : Reachable s g → s.semcount < SEM_VALUE_MAX →
      Reachable (semPostFromIsr s) (.post :: g)
  | waitirq {s : SemState T} {g : SemLog T} (wtcb : T) (errcode : Int) : Reachable s g →
      errcode = EINTR ∨ errcode = ETIMEDOUT →
      Reachable (semWaitirq s wtcb errcode) (.waitirq wtcb errcode :: g)

theorem Reachable.semInv {value : Int} {s : SemState T} {g : SemLog T}
    (hr : Reachable value s g) : SemInv value s g := by
  induction hr with
  | init sched_priority h0 _ => exact SemInv.init sched_priority h0
  | wait rtcb _ hidle ih => exact ih.semWait hidle
  | waitReturn rtcb _ hrs ih => exact ih.semWaitReturn hrs
  | trywait rtcb _ hidle ih => exact ih.semTrywait hidle
  | post _ _ ih => exact ih.semPost
  | postFromIsr _ _ ih => exact ih.semPost
  | waitirq wtcb errcode _ herr ih => exact ih.semWaitirq herr

theorem sem_count_invariant {value : Int} {s : SemState T} {g : SemLog T}
    (hr : Reachable value s g) :
    s.semcount = value + posts g - acquired g - handed s - s.waiters.length ∧
    (∀ t, t ∈ s.waiters ↔ s.wait t = .blocked) ∧ s.waiters.Nodup ∧
    (s.semcount < 0 → (s.waiters.length : Int) = -s.semcount) ∧
    (0 ≤ s.semcount → ∀ t, s.wait t ≠ .blocked) ∧
    (s.semcount + 1 ≤ 0 → ∃ w, s.waiters.head? = some w ∧ (semPost s).wait w = .restarted ∧
      (∀ u, s.wait u = .blocked → u ≠ w → s.sched_priority u < s.sched_priority w ∨
        s.sched_priority u = s.sched_priority w ∧ blockTime g w < blockTime g u) ∧
      (semWaitReturn (semPost s) w).1 = OK) := by
  have h := hr.semInv
  have hlen := h.wait.length
  refine ⟨h.count,h.wait.mem_iff,h.wait.nodup,fun hneg => by omega,fun hnn t ht => ?_,
    fun hc => ?_⟩
  · have hpos := List.length_pos_of_mem ((h.wait.mem_iff t).mpr ht)
    omega
  · obtain ⟨w,rest,hw,hrs,hok⟩ := h.wait.semPost_wakes_head hc
    refine ⟨w,by simp [hw],hrs,fun u hu huw => ?_,hok⟩
    have hf := h.fifo
    rw [hw] at hf
    have hurest : u ∈ rest := by
      have := (h.wait.mem_iff u).mpr hu
      rw [hw] at this
      exact (List.mem_cons.mp this).resolve_left huw
    have := (List.pairwise_cons.mp hf).1 u hurest
    simp only [prioKey,OrderDual.toDual_lt_toDual,OrderDual.toDual_inj] at this
    rcases this with h1 | ⟨h1,h2⟩
    · exact Or.inl h1
    · exact Or.inr ⟨h1.symm,h2⟩

theorem sem_count_invariant_one_waiter :
    let s := (semWait (semInit 0 fun _ : Fin 2 => 1) 0).2
    let g : SemLog (Fin 2) := [.wait 0 (semWait (semInit 0 fun _ : Fin 2 => 1) 0).1]
    s.semcount = 0 + posts g - acquired g - handed s - s.waiters.length ∧
    (∀ t, t ∈ s.waiters ↔ s.wait t = .blocked) ∧ s.waiters.Nodup ∧
    (s.semcount < 0 → (s.waiters.length : Int) = -s.semcount) ∧
    (0 ≤ s.semcount → ∀ t, s.wait t ≠ .blocked) ∧
    (s.semcount + 1 ≤ 0 → ∃ w, s.waiters.head? = some w ∧ (semPost s).wait w = .restarted ∧
      (∀ u, s.wait u = .blocked → u ≠ w → s.sched_priority u < s.sched_priority w ∨
        s.sched_priority u = s.sched_priority w ∧ blockTime g w < blockTime g u) ∧
      (semWaitReturn (semPost s) w).1 = OK) :=
  sem_count_invariant (.wait 0 (.init _ le_rfl (by decide)) rfl)

end TizenRT.Sem
