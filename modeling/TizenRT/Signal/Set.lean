import TizenRT.Wdog.Model

set_option autoImplicit false

/-!
Signal sets (include/signal.h, libc/signal/): `sigset_t` is a `uint32_t` with bit `signo` for
each signal, and `sig_lowest` scans it from MIN_SIGNO up. Everything about a set is read off
`BitVec.getLsbD`.
-/

namespace TizenRT.Signal

open TizenRT.Wdog

def MIN_SIGNO : Nat := 0
def MAX_SIGNO : Nat := 31

/-- `GOOD_SIGNO` casts to unsigned; signal numbers here are `uint8_t`, so only the upper bound
is left. -/
def GOOD_SIGNO (s : Nat) : Bool := s ≤ MAX_SIGNO

def NULL_SIGNAL_SET : BitVec 32 := 0

def SIGNO2SET (s : Nat) : BitVec 32 := (1 : BitVec 32) <<< s

def sigismember (set : BitVec 32) (signo : Nat) : Int :=
  if GOOD_SIGNO signo then (if set &&& SIGNO2SET signo ≠ 0 then 1 else 0) else ERROR

def sigaddset (set : BitVec 32) (signo : Nat) : BitVec 32 :=
  if GOOD_SIGNO signo then set ||| SIGNO2SET signo else set

def sigdelset (set : BitVec 32) (signo : Nat) : BitVec 32 :=
  if GOOD_SIGNO signo then set &&& ~~~SIGNO2SET signo else set

def sigLowest (set : BitVec 32) : Int :=
  match (List.range (MAX_SIGNO + 1)).find? (fun signo => sigismember set signo ≠ 0) with
  | some signo => signo
  | none => ERROR

theorem getLsbD_SIGNO2SET (s n : Nat) :
    (SIGNO2SET s).getLsbD n = (decide (n < 32) && n == s) := by
  simp only [SIGNO2SET,BitVec.getLsbD_shiftLeft]
  rw [Bool.eq_iff_iff]
  simp
  omega

theorem and_SIGNO2SET_ne_zero (set : BitVec 32) (s : Nat) :
    set &&& SIGNO2SET s ≠ 0 ↔ set.getLsbD s = true := by
  constructor
  · intro h
    by_contra hb
    apply h
    apply BitVec.eq_of_getLsbD_eq
    intro i _
    rw [BitVec.getLsbD_and,getLsbD_SIGNO2SET]
    by_cases his : i = s
    · subst his
      simp only [Bool.not_eq_true] at hb
      simp [hb]
    · simp [his]
  · intro h he
    have := congrArg (fun x => x.getLsbD s) he
    have hs : s < 32 := BitVec.lt_of_getLsbD h
    simp only [BitVec.getLsbD_and,getLsbD_SIGNO2SET,h] at this
    simp [hs] at this

theorem sigismember_ne_zero {set : BitVec 32} {n : Nat} (hn : n ≤ MAX_SIGNO) :
    sigismember set n ≠ 0 ↔ set.getLsbD n = true := by
  have hg : GOOD_SIGNO n = true := by simpa [GOOD_SIGNO] using hn
  rw [← and_SIGNO2SET_ne_zero]
  unfold sigismember
  rw [if_pos hg]
  by_cases h : set &&& SIGNO2SET n = 0 <;> simp [h]

theorem getLsbD_sigaddset (set : BitVec 32) {n : Nat} (hn : n ≤ MAX_SIGNO) (m : Nat) :
    (sigaddset set n).getLsbD m = (set.getLsbD m || m == n) := by
  have hg : GOOD_SIGNO n = true := by simpa [GOOD_SIGNO] using hn
  simp only [sigaddset,hg,if_true,BitVec.getLsbD_or,getLsbD_SIGNO2SET]
  by_cases hm : m < 32
  · simp [hm]
  · simp only [BitVec.getLsbD_of_ge set m (by omega),hm,decide_false,Bool.false_and,
      Bool.false_or]
    simp only [MAX_SIGNO] at hn
    simp only [Bool.false_eq,beq_eq_false_iff_ne]
    omega

theorem getLsbD_sigdelset (set : BitVec 32) {n : Nat} (hn : n ≤ MAX_SIGNO) (m : Nat) :
    (sigdelset set n).getLsbD m = (set.getLsbD m && !(m == n)) := by
  have hg : GOOD_SIGNO n = true := by simpa [GOOD_SIGNO] using hn
  simp only [sigdelset,hg,if_true,BitVec.getLsbD_and,BitVec.getLsbD_not,getLsbD_SIGNO2SET]
  by_cases hm : m < 32
  · simp [hm]
  · simp [BitVec.getLsbD_of_ge set m (by omega)]

theorem sigLowest_eq {set : BitVec 32} {n : Nat} (h : set.getLsbD n = true)
    (hmin : ∀ m < n, set.getLsbD m = false) : sigLowest set = n := by
  have hn : n ≤ MAX_SIGNO := by
    have := BitVec.lt_of_getLsbD h
    simp only [MAX_SIGNO]
    omega
  have hfind : (List.range (MAX_SIGNO + 1)).find? (fun signo => sigismember set signo ≠ 0) =
      some n := by
    rw [List.find?_eq_some_iff_getElem]
    refine ⟨by simpa [sigismember_ne_zero hn] using h,n,by simp; omega,by simp,?_⟩
    intro j hj
    have hjn : j ≤ MAX_SIGNO := by omega
    simp [sigismember_ne_zero hjn,hmin j hj]
  rw [sigLowest,hfind]

theorem exists_sigLowest {set : BitVec 32} (h : set ≠ NULL_SIGNAL_SET) :
    ∃ n : Nat, sigLowest set = n ∧ set.getLsbD n = true ∧ ∀ m < n, set.getLsbD m = false := by
  have hex : ∃ n, set.getLsbD n = true := by
    by_contra hno
    simp only [not_exists,Bool.not_eq_true] at hno
    apply h
    apply BitVec.eq_of_getLsbD_eq
    intro i _
    simp [NULL_SIGNAL_SET,hno i]
  classical
  let n := Nat.find hex
  have hn : set.getLsbD n = true := Nat.find_spec hex
  have hmin : ∀ m < n, set.getLsbD m = false := fun m hm => by
    simpa using Nat.find_min hex hm
  exact ⟨n,sigLowest_eq hn hmin,hn,hmin⟩

theorem sigLowest_ne_ERROR {set : BitVec 32} (h : set ≠ NULL_SIGNAL_SET) : sigLowest set ≠ ERROR := by
  obtain ⟨n,hn,-⟩ := exists_sigLowest h
  rw [hn]
  simp [ERROR]

theorem sigdelset_lt {set : BitVec 32} {n : Nat} (h : set.getLsbD n = true) :
    (sigdelset set n).toNat < set.toNat := by
  have hn : n ≤ MAX_SIGNO := by
    have := BitVec.lt_of_getLsbD h
    simp only [MAX_SIGNO]
    omega
  have hle : (sigdelset set n).toNat ≤ set.toNat := by
    simp only [sigdelset,GOOD_SIGNO,hn,decide_true,if_true,BitVec.toNat_and]
    exact Nat.and_le_left
  have hne : sigdelset set n ≠ set := by
    intro he
    have := congrArg (fun x => x.getLsbD n) he
    simp [getLsbD_sigdelset set hn,h] at this
  have hne' : (sigdelset set n).toNat ≠ set.toNat := fun e => hne (BitVec.eq_of_toNat_eq e)
  omega

theorem filter_range_of_lowest {p : Nat → Bool} {n : Nat} (hn : n < 32) (hp : p n = true)
    (hmin : ∀ m < n, p m = false) :
    (List.range 32).filter p = n :: (List.range 32).filter (fun m => p m && !(m == n)) := by
  have hsplit : List.range 32 = List.range' 0 n ++ n :: List.range' (n + 1) (31 - n) := by
    have h := @List.range'_append 0 n (31 - n + 1) 1
    rw [List.range'_succ] at h
    simp only [Nat.zero_add,Nat.one_mul] at h
    rw [List.range_eq_range',h]
    congr 1
    omega
  have hlow : ∀ q : Nat → Bool, (∀ m < n, q m = false) → (List.range' 0 n).filter q = [] := by
    intro q hq
    refine List.filter_eq_nil_iff.mpr fun m hm => ?_
    rw [List.mem_range'_1] at hm
    simp [hq m (by omega)]
  have hhigh : (List.range' (n + 1) (31 - n)).filter p =
      (List.range' (n + 1) (31 - n)).filter (fun m => p m && !(m == n)) := by
    refine List.filter_congr fun m hm => ?_
    rw [List.mem_range'_1] at hm
    have : m ≠ n := by omega
    simp [this]
  rw [hsplit,List.filter_append,List.filter_append,List.filter_cons,List.filter_cons,hlow p hmin,
    hlow _ (fun m hm => by simp [hmin m hm]),hhigh]
  simp [hp]

end TizenRT.Signal
