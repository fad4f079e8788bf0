import TizenRT.Signal.Model
import TizenRT.Lib.KeyedList

set_option autoImplicit false

/-!
What the pending list stands for: the set of pending signals with the info of each, `pending`.
Over whole runs every record is in exactly one of the two free lists, the pending list and the
heap, and the pending list keeps one record per signal number (`SigInv`). A masked dispatch
updates `pending` at its number or wakes a wait for it; taking a signal in `sigtimedwait`
removes the lowest pending number of the set.
-/

namespace TizenRT.Signal

open TizenRT.Wdog TizenRT.Sem KeyedList

variable {R : Type}

def SigState.records (s : SigState R) : List R :=
  s.g_sigpendingsignal ++ s.g_sigpendingirqsignal ++ s.sigpendingq ++ s.heap

def SigState.signo (s : SigState R) (r : R) : Nat := (s.info r).si_signo

def pendingOf (info : R → SigInfo) (q : List R) (n : Nat) : Option SigInfo :=
  (lookup (fun r => (info r).si_signo) q n).map info

def pending (s : SigState R) (n : Nat) : Option SigInfo := (sigFindpendingsignal s n).map s.info

theorem pending_eq_pendingOf (s : SigState R) : pending s = pendingOf s.info s.sigpendingq := rfl

theorem sigFindpendingsignal_eq_lookup (s : SigState R) :
    sigFindpendingsignal s = lookup s.signo s.sigpendingq := rfl

structure SigInv (s : SigState R) : Prop where
  nodup : s.records.Nodup
  fixed : ∀ r ∈ s.g_sigpendingsignal, s.type r = .fixed
  irq : ∀ r ∈ s.g_sigpendingirqsignal, s.type r = .irq
  dyn : ∀ r ∈ s.heap, s.type r = .dyn
  signo_nodup : (s.sigpendingq.map s.signo).Nodup
  good : ∀ r ∈ s.sigpendingq, s.signo r ≤ MAX_SIGNO
  waitmask : ∀ set timed, s.pc = .waiting set timed → s.sigwaitmask = set

theorem getLsbD_foldl_sigaddset (f : R → Nat) (l : List R) (hl : ∀ r ∈ l, f r ≤ MAX_SIGNO)
    (set : BitVec 32) (n : Nat) :
    (l.foldl (fun set r => sigaddset set (f r)) set).getLsbD n =
      (set.getLsbD n || l.any (fun r => n == f r)) := by
  induction l generalizing set with
  | nil => simp
  | cons r l ih =>
    rw [List.foldl_cons,ih (fun r' hr' => hl r' (List.mem_cons_of_mem r hr')),
      getLsbD_sigaddset set (hl r List.mem_cons_self) n,List.any_cons,Bool.or_assoc]

theorem getLsbD_sigPendingset {s : SigState R} (h : SigInv s) (n : Nat) :
    (sigPendingset s).getLsbD n = (sigFindpendingsignal s n).isSome := by
  have hfold := getLsbD_foldl_sigaddset s.signo s.sigpendingq h.good NULL_SIGNAL_SET n
  rw [sigPendingset]
  simp only [SigState.signo] at hfold
  rw [hfold,Bool.eq_iff_iff,sigFindpendingsignal_eq_lookup,isSome_lookup]
  have h0 : NULL_SIGNAL_SET.getLsbD n = false := by simp [NULL_SIGNAL_SET]
  rw [h0,Bool.false_or,List.any_eq_true]
  simp only [beq_iff_eq,SigState.signo]
  exact exists_congr fun a => and_congr_right fun _ => eq_comm

variable [DecidableEq R]

theorem sigRemovependingsignal_of_find {s : SigState R} {n : Nat} {r : R}
    (hf : sigFindpendingsignal s n = some r) :
    sigRemovependingsignal s n = (some r,{ s with sigpendingq := s.sigpendingq.erase r }) := by
  have hp : (fun currsig => decide (((s.info currsig).si_signo : Int) = (n : Int))) =
      fun currsig => decide ((s.info currsig).si_signo = n) := by
    funext r
    simp
  simp only [sigRemovependingsignal,hp]
  rw [show s.sigpendingq.find? _ = some r from hf]

theorem sigAllocatependingsignal_eq_some {s s' : SigState R} {intr : Bool} {r : R}
    (h : sigAllocatependingsignal s intr = (some r,s')) :
    (∃ rest, s.g_sigpendingsignal = r :: rest ∧ s' = { s with g_sigpendingsignal := rest }) ∨
    (intr = true ∧ s.g_sigpendingsignal = [] ∧
      ∃ rest, s.g_sigpendingirqsignal = r :: rest ∧ s' = { s with g_sigpendingirqsignal := rest }) ∨
    (intr = false ∧ s.g_sigpendingsignal = [] ∧
      ∃ rest, s.heap = r :: rest ∧
        s' = { s with heap := rest, type := Function.update s.type r .dyn }) := by
  unfold sigAllocatependingsignal at h
  split at h
  · rename_i sigpend rest hg
    simp only [Prod.mk.injEq,Option.some.injEq] at h
    obtain ⟨rfl,rfl⟩ := h
    exact .inl ⟨rest,hg,rfl⟩
  · rename_i hg
    split_ifs at h with hi
    · split at h
      · rename_i sigpend rest hirq
        simp only [Prod.mk.injEq,Option.some.injEq] at h
        obtain ⟨rfl,rfl⟩ := h
        exact .inr (.inl ⟨hi,hg,rest,hirq,rfl⟩)
      · simp at h
    · split at h
      · rename_i sigpend rest hheap
        simp only [Prod.mk.injEq,Option.some.injEq] at h
        obtain ⟨rfl,rfl⟩ := h
        exact .inr (.inr ⟨by simpa using hi,hg,rest,hheap,rfl⟩)
      · simp at h

section PendingOf

variable {info : R → SigInfo} {q : List R} {r : R} {i : SigInfo}

theorem si_signo_update {x : R} (h : x ≠ r ∨ i.si_signo = (info r).si_signo) :
    (Function.update info r i x).si_signo = (info x).si_signo := by
  by_cases hx : x = r
  · subst hx
    simpa using h.resolve_left (not_not.mpr rfl)
  · simp [Function.update_of_ne hx]

theorem pendingOf_update_mem (hnd : (q.map fun x => (info x).si_signo).Nodup) (hr : r ∈ q)
    (hi : i.si_signo = (info r).si_signo) :
    pendingOf (Function.update info r i) q =
      Function.update (pendingOf info q) (info r).si_signo (some i) := by
  have hkeys : ∀ x ∈ q, (Function.update info r i x).si_signo = (info x).si_signo :=
    fun _ _ => si_signo_update (.inr hi)
  funext n
  simp only [pendingOf]
  rw [lookup_congr hkeys]
  by_cases hn : n = (info r).si_signo
  · subst hn
    rw [(lookup_eq_some hnd).mpr ⟨hr,rfl⟩]
    simp
  · rw [Function.update_of_ne hn,pendingOf]
    cases hl : lookup (fun x => (info x).si_signo) q n with
    | none => rfl
    | some x =>
      have hkx := ((lookup_eq_some hnd).mp hl).2
      have hxr : x ≠ r := fun e => hn (e ▸ hkx.symm)
      simp [Function.update_of_ne hxr]

theorem pendingOf_append_new (hr : r ∉ q) (hnew : ∀ x ∈ q, (info x).si_signo ≠ i.si_signo) :
    pendingOf (Function.update info r i) (q ++ [r]) =
      Function.update (pendingOf info q) i.si_signo (some i) := by
  have hkeys : ∀ x ∈ q, (Function.update info r i x).si_signo = (info x).si_signo :=
    fun x hx => si_signo_update (.inl fun e => hr (e ▸ hx))
  funext n
  simp only [pendingOf]
  rw [lookup_append_singleton,lookup_congr hkeys]
  by_cases hn : n = i.si_signo
  · subst hn
    rw [lookup_eq_none.mpr hnew]
    simp
  · rw [Function.update_of_ne hn,pendingOf]
    have hrn : ¬(Function.update info r i r).si_signo = n := by simpa using Ne.symm hn
    rw [if_neg hrn,Option.or_none]
    cases hl : lookup (fun x => (info x).si_signo) q n with
    | none => rfl
    | some x =>
      have hxr : x ≠ r := fun e => hr (e ▸ List.mem_of_find?_eq_some hl)
      simp [Function.update_of_ne hxr]

theorem pendingOf_erase (hnd : (q.map fun x => (info x).si_signo).Nodup) (hr : r ∈ q) :
    pendingOf info (q.erase r) = Function.update (pendingOf info q) (info r).si_signo none := by
  funext n
  simp only [pendingOf]
  rw [lookup_erase hnd hr]
  by_cases hn : n = (info r).si_signo
  · subst hn
    simp
  · rw [if_neg (Ne.symm hn),Function.update_of_ne hn,pendingOf]

end PendingOf

theorem sigAddpendingsignal_eq_some {s s' : SigState R} {info : SigInfo} {intr : Bool} {r : R}
    (h : sigAddpendingsignal s info intr = (some r,s')) :
    (sigFindpendingsignal s info.si_signo = some r ∧
      s' = { s with info := Function.update s.info r info }) ∨
    (sigFindpendingsignal s info.si_signo = none ∧ ∃ s₁, sigAllocatependingsignal s intr = (some r,s₁) ∧
      s' = { s₁ with
        info := Function.update s₁.info r info
        sigpendingq := s₁.sigpendingq ++ [r] }) := by
  unfold sigAddpendingsignal at h
  split at h
  · rename_i sigpend hf
    simp only [Prod.mk.injEq,Option.some.injEq] at h
    obtain ⟨rfl,rfl⟩ := h
    exact .inl ⟨hf,rfl⟩
  · rename_i hf
    split at h
    · rename_i sigpend s₁ ha
      simp only [Prod.mk.injEq,Option.some.injEq] at h
      obtain ⟨rfl,rfl⟩ := h
      exact .inr ⟨hf,s₁,ha,rfl⟩
    · simp at h

structure SameTask (s s' : SigState R) : Prop where
  sigprocmask : s'.sigprocmask = s.sigprocmask
  sigwaitmask : s'.sigwaitmask = s.sigwaitmask
  sigunbinfo : s'.sigunbinfo = s.sigunbinfo
  pc : s'.pc = s.pc
  errno : s'.errno = s.errno
  delivered : s'.delivered = s.delivered

theorem sigAddpendingsignal_sameTask {s s' : SigState R} {info : SigInfo} {intr : Bool} {r : R}
    (h : sigAddpendingsignal s info intr = (some r,s')) : SameTask s s' := by
  rcases sigAddpendingsignal_eq_some h with ⟨-,rfl⟩ | ⟨-,s₁,ha,rfl⟩
  · exact ⟨rfl,rfl,rfl,rfl,rfl,rfl⟩
  · rcases sigAllocatependingsignal_eq_some ha with ⟨-,-,rfl⟩ | ⟨-,-,-,-,rfl⟩ | ⟨-,-,-,-,rfl⟩ <;>
      exact ⟨rfl,rfl,rfl,rfl,rfl,rfl⟩

theorem SigInv.append_fresh {s : SigState R} (h : SigInv s) {r : R} {info : SigInfo}
    (hr : r ∉ s.sigpendingq) (hf : sigFindpendingsignal s info.si_signo = none)
    (hgood : info.si_signo ≤ MAX_SIGNO) :
    ((s.sigpendingq ++ [r]).map fun x => (Function.update s.info r info x).si_signo).Nodup ∧
      ∀ x ∈ s.sigpendingq ++ [r], (Function.update s.info r info x).si_signo ≤ MAX_SIGNO := by
  have hkeys : ∀ x ∈ s.sigpendingq,
      (Function.update s.info r info x).si_signo = (s.info x).si_signo :=
    fun x hx => si_signo_update (.inl fun e => hr (e ▸ hx))
  have hnew := lookup_eq_none.mp hf
  constructor
  · rw [List.map_append,List.map_congr_left hkeys,List.nodup_append]
    refine ⟨h.signo_nodup,List.nodup_singleton _,?_⟩
    intro a ha b hb
    simp only [List.map_cons,List.map_nil,List.mem_singleton,Function.update_self] at hb
    obtain ⟨x,hx,rfl⟩ := List.mem_map.mp ha
    exact hb ▸ hnew x hx
  · intro x hx
    rcases List.mem_append.mp hx with hx | hx
    · rw [hkeys x hx]
      exact h.good x hx
    · rw [List.mem_singleton.mp hx,Function.update_self]
      exact hgood

theorem SigInv.not_mem_sigpendingq {s : SigState R} (h : SigInv s) {r : R}
    (hr : r ∈ s.g_sigpendingsignal ∨ r ∈ s.g_sigpendingirqsignal ∨ r ∈ s.heap) :
    r ∉ s.sigpendingq := by
  intro hq
  have h1 := List.nodup_iff_count_le_one.mp h.nodup r
  have hq1 := List.count_pos_iff.mpr hq
  simp only [SigState.records,List.count_append] at h1
  rcases hr with hr | hr | hr <;>
  · have := List.count_pos_iff.mpr hr
    omega

theorem SigInv.sigAddpendingsignal {s s' : SigState R} (h : SigInv s) {info : SigInfo}
    {intr : Bool} {r : R} (hgood : info.si_signo ≤ MAX_SIGNO)
    (he : sigAddpendingsignal s info intr = (some r,s')) :
    SigInv s' ∧ s'.records.Perm s.records ∧ s'.type = s.type ∧
      pending s' = Function.update (pending s) info.si_signo (some info) := by
  rcases sigAddpendingsignal_eq_some he with ⟨hf,rfl⟩ | ⟨hf,s₁,ha,rfl⟩
  · obtain ⟨hr,hkr⟩ := (lookup_eq_some h.signo_nodup).mp hf
    have hi : info.si_signo = (s.info r).si_signo := hkr.symm
    have hkeys : ∀ x ∈ s.sigpendingq,
        (Function.update s.info r info x).si_signo = (s.info x).si_signo :=
      fun _ _ => si_signo_update (.inr hi)
    refine ⟨⟨h.nodup,h.fixed,h.irq,h.dyn,?_,?_,h.waitmask⟩,List.Perm.refl _,rfl,?_⟩
    · show (s.sigpendingq.map fun x => (Function.update s.info r info x).si_signo).Nodup
      rw [List.map_congr_left hkeys]
      exact h.signo_nodup
    · intro x hx
      show (Function.update s.info r info x).si_signo ≤ MAX_SIGNO
      rw [hkeys x hx]
      exact h.good x hx
    · rw [pending_eq_pendingOf,pending_eq_pendingOf,hi]
      exact pendingOf_update_mem h.signo_nodup hr hi
  · have hnew := lookup_eq_none.mp hf
    rcases sigAllocatependingsignal_eq_some ha with
      ⟨rest,hg,rfl⟩ | ⟨-,hg0,rest,hirq,rfl⟩ | ⟨-,hg0,rest,hheap,rfl⟩
    · have hr := h.not_mem_sigpendingq (.inl (hg ▸ List.mem_cons_self))
      obtain ⟨hnd,hgd⟩ := h.append_fresh hr hf hgood
      have hperm : (rest ++ s.g_sigpendingirqsignal ++ (s.sigpendingq ++ [r]) ++ s.heap).Perm
          s.records := by
        rw [SigState.records,hg]
        simpa using @List.perm_middle _ r (rest ++ s.g_sigpendingirqsignal ++ s.sigpendingq) s.heap
      refine ⟨⟨hperm.nodup_iff.mpr h.nodup,fun x hx => h.fixed x (hg ▸ List.mem_cons_of_mem r hx),
        h.irq,h.dyn,hnd,hgd,h.waitmask⟩,hperm,rfl,pendingOf_append_new hr hnew⟩
    · have hr := h.not_mem_sigpendingq (.inr (.inl (hirq ▸ List.mem_cons_self)))
      obtain ⟨hnd,hgd⟩ := h.append_fresh hr hf hgood
      have hperm : (s.g_sigpendingsignal ++ rest ++ (s.sigpendingq ++ [r]) ++ s.heap).Perm
          s.records := by
        rw [SigState.records,hirq,hg0]
        simpa using @List.perm_middle _ r (rest ++ s.sigpendingq) s.heap
      refine ⟨⟨hperm.nodup_iff.mpr h.nodup,h.fixed,fun x hx => h.irq x (hirq ▸ List.mem_cons_of_mem r hx),
        h.dyn,hnd,hgd,h.waitmask⟩,hperm,rfl,pendingOf_append_new hr hnew⟩
    · have hr := h.not_mem_sigpendingq (.inr (.inr (hheap ▸ List.mem_cons_self)))
      obtain ⟨hnd,hgd⟩ := h.append_fresh hr hf hgood
      have htype : Function.update s.type r .dyn = s.type :=
        Function.update_eq_self_iff.mpr (h.dyn r (hheap ▸ List.mem_cons_self)).symm
      have hrec : s.g_sigpendingsignal ++ s.g_sigpendingirqsignal ++ (s.sigpendingq ++ [r]) ++ rest =
          s.records := by
        simp [SigState.records,hheap]
      have hperm := List.Perm.of_eq hrec
      rw [htype]
      refine ⟨⟨hperm.nodup_iff.mpr h.nodup,h.fixed,h.irq,
        fun x hx => h.dyn x (hheap ▸ List.mem_cons_of_mem r hx),hnd,hgd,h.waitmask⟩,hperm,rfl,
        pendingOf_append_new hr hnew⟩

omit [DecidableEq R] in
theorem Pc.wake_ne_waiting (pc : Pc R) (set : BitVec 32) (timed : Bool) :
    pc.wake ≠ .waiting set timed := by
  cases pc <;> simp [Pc.wake]

omit [DecidableEq R] in
theorem SigInv.sigUnblock {s : SigState R} (h : SigInv s) (info : SigInfo) :
    SigInv (sigUnblock s info) :=
  ⟨h.nodup,h.fixed,h.irq,h.dyn,h.signo_nodup,h.good,
    fun set timed hp => absurd hp (Pc.wake_ne_waiting s.pc set timed)⟩

theorem SigInv.sigTcbdispatch {s s' : SigState R} (h : SigInv s) {info : SigInfo} {intr : Bool}
    (hgood : info.si_signo ≤ MAX_SIGNO) (he : sigTcbdispatch s info intr = some s') :
    SigInv s' ∧ s'.records.Perm s.records ∧ s'.type = s.type := by
  unfold TizenRT.Signal.sigTcbdispatch at he
  split_ifs at he with hm hw
  · cases he
    exact ⟨h.sigUnblock info,List.Perm.refl _,rfl⟩
  · split at he
    · rename_i r s₁ ha
      cases he
      obtain ⟨hinv,hperm,htype,-⟩ := h.sigAddpendingsignal hgood ha
      exact ⟨hinv,hperm,htype⟩
    · cases he
  · have h' : SigInv { s with delivered := s.delivered ++ [info] } :=
      ⟨h.nodup,h.fixed,h.irq,h.dyn,h.signo_nodup,h.good,h.waitmask⟩
    dsimp only at he
    split_ifs at he
    · cases he
      exact ⟨h'.sigUnblock info,List.Perm.refl _,rfl⟩
    · cases he
      exact ⟨h',List.Perm.refl _,rfl⟩

theorem SigInv.takePending {s : SigState R} (h : SigInv s) {r : R} (hr : r ∈ s.sigpendingq) :
    SigInv (sigReleasependingsignal { s with sigpendingq := s.sigpendingq.erase r } r) ∧
      (sigReleasependingsignal { s with sigpendingq := s.sigpendingq.erase r } r).records.Perm
        s.records := by
  have hsig : (s.sigpendingq.erase r).map s.signo |>.Nodup := nodup_map_erase h.signo_nodup r
  have hgood : ∀ x ∈ s.sigpendingq.erase r, s.signo x ≤ MAX_SIGNO :=
    fun x hx => h.good x (List.mem_of_mem_erase hx)
  have hcount : ∀ a, (s.sigpendingq.erase r).count a + [r].count a = s.sigpendingq.count a := by
    intro a
    rw [List.count_erase,List.count_singleton]
    have hq := List.count_pos_iff.mpr hr
    by_cases ha : r = a
    · subst ha
      simp
      omega
    · simp [ha]
  unfold sigReleasependingsignal
  split
  · rename_i ht
    have hperm : (s.g_sigpendingsignal ++ [r] ++ s.g_sigpendingirqsignal ++ s.sigpendingq.erase r ++
        s.heap).Perm s.records := by
      refine List.perm_iff_count.mpr fun a => ?_
      simp only [SigState.records,List.count_append]
      have := hcount a
      omega
    refine ⟨⟨hperm.nodup_iff.mpr h.nodup,?_,h.irq,h.dyn,hsig,hgood,h.waitmask⟩,hperm⟩
    intro x hx
    rcases List.mem_append.mp hx with hx | hx
    · exact h.fixed x hx
    · exact List.mem_singleton.mp hx ▸ ht
  · rename_i ht
    have hperm : (s.g_sigpendingsignal ++ (s.g_sigpendingirqsignal ++ [r]) ++ s.sigpendingq.erase r ++
        s.heap).Perm s.records := by
      refine List.perm_iff_count.mpr fun a => ?_
      simp only [SigState.records,List.count_append]
      have := hcount a
      omega
    refine ⟨⟨hperm.nodup_iff.mpr h.nodup,h.fixed,?_,h.dyn,hsig,hgood,h.waitmask⟩,hperm⟩
    intro x hx
    rcases List.mem_append.mp hx with hx | hx
    · exact h.irq x hx
    · exact List.mem_singleton.mp hx ▸ ht
  · rename_i ht
    have hperm : (s.g_sigpendingsignal ++ s.g_sigpendingirqsignal ++ s.sigpendingq.erase r ++
        ([r] ++ s.heap)).Perm s.records := by
      refine List.perm_iff_count.mpr fun a => ?_
      simp only [SigState.records,List.count_append]
      have := hcount a
      omega
    refine ⟨⟨hperm.nodup_iff.mpr h.nodup,h.fixed,h.irq,?_,hsig,hgood,h.waitmask⟩,hperm⟩
    intro x hx
    rcases List.mem_cons.mp hx with hx | hx
    · exact hx ▸ ht
    · exact h.dyn x hx

omit [DecidableEq R] in
theorem sigReleasependingsignal_eq (s : SigState R) (r : R) :
    ∃ g irq heap, sigReleasependingsignal s r = { s with
      g_sigpendingsignal := g
      g_sigpendingirqsignal := irq
      heap := heap } := by
  unfold sigReleasependingsignal
  split
  · exact ⟨_,_,_,rfl⟩
  · exact ⟨_,_,_,rfl⟩
  · exact ⟨_,_,_,rfl⟩

theorem sigtimedwait_of_pending {s : SigState R} (h : SigInv s) {set : BitVec 32} (timed : Bool)
    (hne : set &&& sigPendingset s ≠ NULL_SIGNAL_SET) :
    ∃ (n : Nat) (r : R), sigLowest (set &&& sigPendingset s) = n ∧ set.getLsbD n = true ∧
      sigFindpendingsignal s n = some r ∧
      sigtimedwait s set timed = some { sigReleasependingsignal
        { s with sigpendingq := s.sigpendingq.erase r } r with pc := .released r (s.info r) } := by
  obtain ⟨n,hn,hmem,-⟩ := exists_sigLowest hne
  rw [BitVec.getLsbD_and,Bool.and_eq_true,getLsbD_sigPendingset h] at hmem
  obtain ⟨r,hf⟩ := Option.isSome_iff_exists.mp hmem.2
  refine ⟨n,r,hn,hmem.1,hf,?_⟩
  simp only [sigtimedwait,ne_eq]
  rw [if_pos hne,hn,sigRemovependingsignal_of_find hf]

theorem sigtimedwait_of_empty {s : SigState R} {set : BitVec 32} (timed : Bool)
    (he : set &&& sigPendingset s = NULL_SIGNAL_SET) :
    sigtimedwait s set timed = some { s with sigwaitmask := set, pc := .waiting set timed } := by
  simp only [sigtimedwait,ne_eq]
  rw [if_neg (not_not.mpr he)]

theorem SigInv.sigtimedwait {s s' : SigState R} (h : SigInv s) {set : BitVec 32} {timed : Bool}
    (he : TizenRT.Signal.sigtimedwait s set timed = some s') :
    SigInv s' ∧ s'.records.Perm s.records ∧ s'.type = s.type := by
  by_cases hne : set &&& sigPendingset s = NULL_SIGNAL_SET
  · rw [sigtimedwait_of_empty timed hne,Option.some.injEq] at he
    subst he
    refine ⟨⟨h.nodup,h.fixed,h.irq,h.dyn,h.signo_nodup,h.good,?_⟩,List.Perm.refl _,rfl⟩
    intro set' timed' hp
    cases hp
    rfl
  · obtain ⟨n,r,-,-,hf,hw⟩ := sigtimedwait_of_pending h timed hne
    rw [hw,Option.some.injEq] at he
    subst he
    have hr := ((lookup_eq_some h.signo_nodup).mp hf).1
    obtain ⟨hinv,hperm⟩ := h.takePending hr
    obtain ⟨g,irq,heap,hrel⟩ := sigReleasependingsignal_eq { s with sigpendingq := s.sigpendingq.erase r } r
    refine ⟨⟨hinv.nodup,hinv.fixed,hinv.irq,hinv.dyn,hinv.signo_nodup,hinv.good,?_⟩,hperm,?_⟩
    · intro set' timed' hp
      cases hp
    · rw [hrel]

theorem sigRemovependingsignal_of_find_none {s : SigState R} {n : Nat}
    (hf : sigFindpendingsignal s n = none) : sigRemovependingsignal s n = (none,s) := by
  have hp : (fun currsig => decide (((s.info currsig).si_signo : Int) = (n : Int))) =
      fun currsig => decide ((s.info currsig).si_signo = n) := by
    funext r
    simp
  simp only [sigRemovependingsignal,hp]
  rw [show s.sigpendingq.find? _ = none from hf]

omit [DecidableEq R] in
theorem pending_sigReleasependingsignal (s : SigState R) (r : R) :
    pending (sigReleasependingsignal s r) = pending s := by
  obtain ⟨g,irq,heap,he⟩ := sigReleasependingsignal_eq s r
  rw [he]
  rfl

theorem sigTcbdispatch_of_unmasked {s : SigState R} {info : SigInfo} (intr : Bool)
    (hg : info.si_signo ≤ MAX_SIGNO) (hm : s.sigprocmask.getLsbD info.si_signo = false)
    (hnw : s.pc.isWaiting = false) :
    sigTcbdispatch s info intr = some { s with delivered := s.delivered ++ [info] } := by
  have hm' : ¬sigismember s.sigprocmask info.si_signo ≠ 0 := by
    rw [sigismember_ne_zero hg,hm]
    simp
  simp only [TizenRT.Signal.sigTcbdispatch,hm',if_false,hnw]
  rfl

/-- The pending infos of the numbers in `U`, lowest number first. -/
def unmaskedInfos (s : SigState R) (U : BitVec 32) : List SigInfo :=
  ((List.range 32).filter (U.getLsbD ·)).filterMap (pending s)

omit [DecidableEq R] in
theorem unmaskedInfos_of_lowest (s : SigState R) {U : BitVec 32} {n : Nat} (hU : U.getLsbD n = true)
    (hmin : ∀ m < n, U.getLsbD m = false) :
    unmaskedInfos s U = (pending s n).toList ++ unmaskedInfos s (sigdelset U n) := by
  have hn : n < 32 := BitVec.lt_of_getLsbD hU
  have hdel : (fun m => (sigdelset U n).getLsbD m) = fun m => U.getLsbD m && !(m == n) :=
    funext (getLsbD_sigdelset U (by simp only [MAX_SIGNO]; omega))
  rw [unmaskedInfos,filter_range_of_lowest hn hU hmin,unmaskedInfos,hdel]
  cases hp : pending s n <;> simp [hp]

omit [DecidableEq R] in
theorem unmaskedInfos_congr {s s' : SigState R} {U : BitVec 32}
    (h : ∀ m, U.getLsbD m = true → pending s' m = pending s m) :
    unmaskedInfos s' U = unmaskedInfos s U := by
  refine List.filterMap_congr fun m hm => ?_
  exact h m (List.of_mem_filter hm)

theorem sigUnmaskLoop_spec {s : SigState R} {U : BitVec 32} (h : SigInv s)
    (hnw : s.pc.isWaiting = false)
    (hunm : ∀ n, U.getLsbD n = true → s.sigprocmask.getLsbD n = false) :
    ∃ s', sigUnmaskLoop s U = some s' ∧ SigInv s' ∧ s'.records.Perm s.records ∧
      s'.type = s.type ∧ s'.sigprocmask = s.sigprocmask ∧ s'.pc = s.pc ∧
      pending s' = (fun n => if U.getLsbD n then none else pending s n) ∧
      s'.delivered = s.delivered ++ unmaskedInfos s U := by
  fun_induction sigUnmaskLoop s U with
  | case1 s U hU signo hs r₀ s₁ hrem ih =>
    obtain ⟨n,hn,hmem,hmin⟩ := exists_sigLowest hU
    have hn32 : n ≤ MAX_SIGNO := by
      have := BitVec.lt_of_getLsbD hmem
      simp only [MAX_SIGNO]
      omega
    simp only [signo,hn,Int.toNat_natCast] at hrem ih ⊢
    cases hf : sigFindpendingsignal s n with
    | none =>
      rw [sigRemovependingsignal_of_find_none hf] at hrem
      simp at hrem
    | some r =>
      rw [sigRemovependingsignal_of_find hf,Prod.mk.injEq,Option.some.injEq] at hrem
      obtain ⟨rfl,rfl⟩ := hrem
      obtain ⟨hr,hkr⟩ := (lookup_eq_some h.signo_nodup).mp hf
      have hkr' : (s.info r).si_signo = n := hkr
      have hdisp := sigTcbdispatch_of_unmasked (s := { s with sigpendingq := s.sigpendingq.erase r })
        false (hkr' ▸ hn32) (by simpa [hkr'] using hunm n hmem) hnw
      rw [hdisp]
      simp only [Option.bind_eq_bind,Option.bind_some]
      have hd : SigInv { s with delivered := s.delivered ++ [s.info r] } :=
        ⟨h.nodup,h.fixed,h.irq,h.dyn,h.signo_nodup,h.good,h.waitmask⟩
      obtain ⟨hinv,hperm⟩ := hd.takePending hr
      obtain ⟨g,irq,heap,hrel⟩ := sigReleasependingsignal_eq
        { { s with sigpendingq := s.sigpendingq.erase r } with delivered := s.delivered ++ [s.info r] } r
      have hpend : pending (sigReleasependingsignal
          { { s with sigpendingq := s.sigpendingq.erase r } with
            delivered := s.delivered ++ [s.info r] } r) = Function.update (pending s) n none := by
        rw [pending_sigReleasependingsignal,← hkr']
        exact pendingOf_erase h.signo_nodup hr
      obtain ⟨s',hloop,hinv',hperm',htype',hmask',hpc',hpend',hdel'⟩ := ih _ hinv
        (by rw [hrel]; exact hnw)
        (fun m hm => by
          rw [hrel]
          exact hunm m (by rw [getLsbD_sigdelset U hn32] at hm; simp at hm; exact hm.1))
      refine ⟨s',hloop,hinv',hperm'.trans hperm,by rw [htype',hrel],by rw [hmask',hrel],
        by rw [hpc',hrel],?_,?_⟩
      · rw [hpend',hpend]
        funext m
        rw [getLsbD_sigdelset U hn32]
        by_cases hm : m = n
        · subst hm
          simp [hmem]
        · simp [hm]
      · rw [hdel',hrel,unmaskedInfos_of_lowest s hmem hmin,pending,hf]
        simp only [Option.map_some,Option.toList_some,List.append_assoc,List.singleton_append]
        rw [← hrel,unmaskedInfos_congr (fun m hm => ?_)]
        rw [hpend,Function.update_of_ne]
        rw [getLsbD_sigdelset U hn32] at hm
        simp only [Bool.and_eq_true,Bool.not_eq_true',beq_eq_false_iff_ne] at hm
        exact hm.2
  | case2 s U hU signo hs s₁ hrem ih =>
    obtain ⟨n,hn,hmem,hmin⟩ := exists_sigLowest hU
    have hn32 : n ≤ MAX_SIGNO := by
      have := BitVec.lt_of_getLsbD hmem
      simp only [MAX_SIGNO]
      omega
    simp only [signo,hn,Int.toNat_natCast] at hrem ih ⊢
    cases hf : sigFindpendingsignal s n with
    | some r =>
      rw [sigRemovependingsignal_of_find hf] at hrem
      simp at hrem
    | none =>
      rw [sigRemovependingsignal_of_find_none hf,Prod.mk.injEq] at hrem
      obtain ⟨-,rfl⟩ := hrem
      obtain ⟨s',hloop,hinv',hperm',htype',hmask',hpc',hpend',hdel'⟩ := ih h hnw
        (fun m hm => hunm m (by rw [getLsbD_sigdelset U hn32] at hm; simp at hm; exact hm.1))
      have hpn : pending s n = none := by simp [pending,hf]
      refine ⟨s',hloop,hinv',hperm',htype',hmask',hpc',?_,?_⟩
      · rw [hpend']
        funext m
        rw [getLsbD_sigdelset U hn32]
        by_cases hm : m = n
        · subst hm
          simp [hmem,hpn]
        · simp [hm]
      · rw [hdel',unmaskedInfos_of_lowest s hmem hmin,hpn]
        simp
  | case3 s U hU signo hs =>
    exact absurd (sigLowest_ne_ERROR hU) hs
  | case4 s U hU =>
    have h0 : ∀ m, U.getLsbD m = false := by
      intro m
      simp only [ne_eq,not_not] at hU
      simp [hU,NULL_SIGNAL_SET]
    refine ⟨s,rfl,h,List.Perm.refl _,rfl,rfl,rfl,by simp [h0],?_⟩
    simp [unmaskedInfos,h0]

theorem sigprocmask_spec {s : SigState R} (h : SigInv s) (hrun : s.pc = .running) (how : Int)
    (set : BitVec 32) :
    ∃ ret s', sigprocmask s how (some set) = some (ret,s') ∧ SigInv s' ∧
      s'.records.Perm s.records ∧ s'.type = s.type ∧ s'.pc = .running ∧
      s'.sigprocmask = (if how = SIG_BLOCK then s.sigprocmask ||| set
        else if how = SIG_UNBLOCK then s.sigprocmask &&& ~~~set
        else if how = SIG_SETMASK then set else s.sigprocmask) ∧
      pending s' = (fun n => if s'.sigprocmask.getLsbD n then pending s n else none) ∧
      s'.delivered = s.delivered ++
        ((List.range 32).filter (fun n => !s'.sigprocmask.getLsbD n)).filterMap (pending s) := by
  set mask := (if how = SIG_BLOCK then s.sigprocmask ||| set
    else if how = SIG_UNBLOCK then s.sigprocmask &&& ~~~set
    else if how = SIG_SETMASK then set else s.sigprocmask) with hmask
  have hret : ∃ ret : Int, (if how = SIG_BLOCK then (OK,s.sigprocmask ||| set)
      else if how = SIG_UNBLOCK then (OK,s.sigprocmask &&& ~~~set)
      else if how = SIG_SETMASK then (OK,set) else (ERROR,s.sigprocmask)) = (ret,mask) := by
    rw [hmask]
    split_ifs <;> exact ⟨_,rfl⟩
  obtain ⟨ret,hr⟩ := hret
  let s₀ : SigState R := { s with sigprocmask := mask }
  have h₀ : SigInv s₀ := ⟨h.nodup,h.fixed,h.irq,h.dyn,h.signo_nodup,h.good,h.waitmask⟩
  have hpend₀ : pending s₀ = pending s := rfl
  have hmask₀ : s₀.sigprocmask = mask := rfl
  have hU : ∀ n, (~~~mask &&& sigPendingset s₀).getLsbD n = true → s₀.sigprocmask.getLsbD n = false := by
    intro n hn
    simp only [BitVec.getLsbD_and,BitVec.getLsbD_not,Bool.and_eq_true,Bool.not_eq_true'] at hn
    exact hn.1.2
  obtain ⟨s',hloop,hinv,hperm,htype,hmask',hpc,hpend,hdel⟩ :=
    sigUnmaskLoop_spec h₀ (by simp [s₀,hrun,Pc.isWaiting]) hU
  have hbit : ∀ n, (~~~mask &&& sigPendingset s₀).getLsbD n =
      (!mask.getLsbD n && (pending s n).isSome) := by
    intro n
    have hf₀ : sigFindpendingsignal s₀ = sigFindpendingsignal s := rfl
    rw [BitVec.getLsbD_and,getLsbD_sigPendingset h₀,BitVec.getLsbD_not,hf₀]
    by_cases hn : n < 32
    · simp [hn,pending]
    · have := BitVec.getLsbD_of_ge mask n (by omega)
      have hp : (sigFindpendingsignal s n).isSome = false := by
        rw [← getLsbD_sigPendingset h]
        exact BitVec.getLsbD_of_ge _ n (by omega)
      simp [hn,pending,hp]
  refine ⟨ret,s',?_,hinv,hperm,htype,by rw [hpc]; exact hrun,by rw [hmask'],?_,?_⟩
  · simp only [sigprocmask,hr,sigUnmaskpendingsignal]
    rw [hloop]
    rfl
  · rw [hpend,hmask',hpend₀,hmask₀]
    funext n
    rw [hbit]
    cases pending s n <;> by_cases hm : mask.getLsbD n <;> simp [hm]
  · rw [hdel,hmask',unmaskedInfos,List.filterMap_filter,List.filterMap_filter,hpend₀,hmask₀]
    congr 2
    funext n
    rw [hbit]
    cases pending s n <;> by_cases hm : mask.getLsbD n <;> simp [hm]

theorem sigTcbdispatch_of_masked {s s' : SigState R} (h : SigInv s) {info : SigInfo} {intr : Bool}
    (hgood : info.si_signo ≤ MAX_SIGNO) (hm : s.sigprocmask.getLsbD info.si_signo = true)
    (he : sigTcbdispatch s info intr = some s') :
    (s.pc.isWaiting = true ∧ s.sigwaitmask.getLsbD info.si_signo = true ∧ s' = sigUnblock s info) ∨
    (¬(s.pc.isWaiting = true ∧ s.sigwaitmask.getLsbD info.si_signo = true) ∧ SameTask s s' ∧
      pending s' = Function.update (pending s) info.si_signo (some info)) := by
  have hm' : sigismember s.sigprocmask info.si_signo ≠ 0 := (sigismember_ne_zero hgood).mpr hm
  have hiff : (s.pc.isWaiting = true ∧ sigismember s.sigwaitmask info.si_signo ≠ 0) ↔
      (s.pc.isWaiting = true ∧ s.sigwaitmask.getLsbD info.si_signo = true) := by
    rw [sigismember_ne_zero hgood]
  unfold TizenRT.Signal.sigTcbdispatch at he
  rw [if_pos hm'] at he
  by_cases hw : s.pc.isWaiting = true ∧ s.sigwaitmask.getLsbD info.si_signo = true
  · rw [if_pos (hiff.mpr hw)] at he
    cases he
    exact .inl ⟨hw.1,hw.2,rfl⟩
  · rw [if_neg (mt hiff.mp hw)] at he
    split at he
    · rename_i r s₁ ha
      cases he
      exact .inr ⟨hw,sigAddpendingsignal_sameTask ha,(h.sigAddpendingsignal hgood ha).2.2.2⟩
    · cases he

omit [DecidableEq R] in
theorem SigInv.sigtimedwaitReleased {s : SigState R} (h : SigInv s) (r : R) :
    SigInv (sigtimedwaitReleased s r).2 :=
  ⟨h.nodup,h.fixed,h.irq,h.dyn,h.signo_nodup,h.good,fun _ _ hp => by cases hp⟩

omit [DecidableEq R] in
theorem SigInv.sigtimedwaitWoken {s : SigState R} (h : SigInv s) (set : BitVec 32) :
    SigInv (sigtimedwaitWoken s set).2.2 := by
  have h' : SigInv { s with sigwaitmask := NULL_SIGNAL_SET, pc := .running } :=
    ⟨h.nodup,h.fixed,h.irq,h.dyn,h.signo_nodup,h.good,fun _ _ hp => by cases hp⟩
  unfold TizenRT.Signal.sigtimedwaitWoken
  dsimp only
  split_ifs
  · exact h'
  · exact ⟨h'.nodup,h'.fixed,h'.irq,h'.dyn,h'.signo_nodup,h'.good,h'.waitmask⟩
  · exact ⟨h'.nodup,h'.fixed,h'.irq,h'.dyn,h'.signo_nodup,h'.good,h'.waitmask⟩

omit [DecidableEq R] in
theorem SigInv.sigTimeout {s : SigState R} (h : SigInv s) : SigInv (sigTimeout s) := by
  unfold TizenRT.Signal.sigTimeout
  split_ifs
  · exact ⟨h.nodup,h.fixed,h.irq,h.dyn,h.signo_nodup,h.good,
      fun set timed hp => absurd hp (Pc.wake_ne_waiting s.pc set timed)⟩
  · exact h

theorem sigprocmask_block_of_nil {s : SigState R} (hq : s.sigpendingq = []) (set : BitVec 32) :
    sigprocmask s SIG_BLOCK (some set) =
      some (OK,{ s with sigprocmask := s.sigprocmask ||| set }) := by
  have hnull : ~~~(s.sigprocmask ||| set) &&&
      sigPendingset { s with sigprocmask := s.sigprocmask ||| set } = NULL_SIGNAL_SET := by
    simp [sigPendingset,hq,NULL_SIGNAL_SET]
  simp only [sigprocmask,if_true,sigUnmaskpendingsignal]
  rw [hnull,sigUnmaskLoop]
  simp

/-- The states reached from `sig_initialize` with its two blocks of records: dispatches from
task or interrupt context at any point, and the task's own calls, the task waiting only in
`sigtimedwait`. -/
inductive Reachable (fixed irq heap : List R) : SigState R → Prop
  | init : fixed.length = NUM_SIGNALS_PENDING → irq.length = NUM_INT_SIGNALS_PENDING →
      (fixed ++ irq ++ heap).Nodup → Reachable fixed irq heap (sigInitialize fixed irq heap)
  | dispatch {s s' : SigState R} (info : SigInfo) (intr : Bool) : Reachable fixed irq heap s →
      info.si_signo ≤ MAX_SIGNO → sigTcbdispatch s info intr = some s' → Reachable fixed irq heap s'
  | procmask {s s' : SigState R} (how : Int) (set : Option (BitVec 32)) (ret : Int) :
      Reachable fixed irq heap s → s.pc = .running → sigprocmask s how set = some (ret,s') →
      Reachable fixed irq heap s'
  | timedwait {s s' : SigState R} (set : BitVec 32) (timed : Bool) : Reachable fixed irq heap s →
      s.pc = .running → sigtimedwait s set timed = some s' → Reachable fixed irq heap s'
  | released {s : SigState R} {r : R} {uinfo : SigInfo} : Reachable fixed irq heap s →
      s.pc = .released r uinfo → Reachable fixed irq heap (sigtimedwaitReleased s r).2
  | woken {s : SigState R} {set : BitVec 32} : Reachable fixed irq heap s → s.pc = .woken set →
      Reachable fixed irq heap (sigtimedwaitWoken s set).2.2
  | timeout {s : SigState R} {set : BitVec 32} : Reachable fixed irq heap s →
      s.pc = .waiting set true → Reachable fixed irq heap (sigTimeout s)

theorem sigInv_sigInitialize {fixed irq heap : List R} (hnd : (fixed ++ irq ++ heap).Nodup) :
    SigInv (sigInitialize fixed irq heap) := by
  have hdisj := List.nodup_append.mp hnd
  have hfi := List.nodup_append.mp hdisj.1
  refine ⟨?_,fun r hr => ?_,fun r hr => ?_,fun r hr => ?_,List.nodup_nil,
    fun _ h => (List.not_mem_nil h).elim,fun _ _ hp => nomatch hp⟩
  · show (fixed ++ irq ++ [] ++ heap).Nodup
    simpa using hnd
  · simp [sigInitialize,show r ∈ fixed from hr]
  · have hrf : r ∉ fixed := fun hf => hfi.2.2 r hf r hr rfl
    simp [sigInitialize,hrf,show r ∈ irq from hr]
  · have hrf : r ∉ fixed := fun hf => hdisj.2.2 r (List.mem_append_left irq hf) r hr rfl
    have hri : r ∉ irq := fun hi => hdisj.2.2 r (List.mem_append_right fixed hi) r hr rfl
    simp [sigInitialize,hrf,hri]

theorem Reachable.sigInv {fixed irq heap : List R} {s : SigState R}
    (hr : Reachable fixed irq heap s) :
    SigInv s ∧ s.records.Perm (fixed ++ irq ++ heap) ∧
      s.type = (sigInitialize fixed irq heap).type := by
  induction hr with
  | init _ _ hnd =>
    exact ⟨sigInv_sigInitialize hnd,by simp [SigState.records,sigInitialize],rfl⟩
  | dispatch info intr _ hgood he ih =>
    obtain ⟨h,hp,ht⟩ := ih
    obtain ⟨h',hp',ht'⟩ := h.sigTcbdispatch hgood he
    exact ⟨h',hp'.trans hp,ht'.trans ht⟩
  | procmask how set ret _ hrun he ih =>
    obtain ⟨h,hp,ht⟩ := ih
    cases set with
    | none =>
      simp only [sigprocmask,Option.some.injEq,Prod.mk.injEq] at he
      obtain ⟨-,rfl⟩ := he
      exact ⟨h,hp,ht⟩
    | some set =>
      obtain ⟨ret',s',he',h',hp',ht',-⟩ := sigprocmask_spec h hrun how set
      rw [he,Option.some.injEq,Prod.mk.injEq] at he'
      obtain ⟨-,rfl⟩ := he'
      exact ⟨h',hp'.trans hp,ht'.trans ht⟩
  | timedwait set timed _ _ he ih =>
    obtain ⟨h,hp,ht⟩ := ih
    obtain ⟨h',hp',ht'⟩ := h.sigtimedwait he
    exact ⟨h',hp'.trans hp,ht'.trans ht⟩
  | released _ _ ih =>
    obtain ⟨h,hp,ht⟩ := ih
    exact ⟨h.sigtimedwaitReleased _,hp,ht⟩
  | @woken s set _ _ ih =>
    obtain ⟨h,hp,ht⟩ := ih
    refine ⟨h.sigtimedwaitWoken set,?_,?_⟩
    · unfold sigtimedwaitWoken
      dsimp only
      split_ifs <;> exact hp
    · unfold sigtimedwaitWoken
      dsimp only
      split_ifs <;> exact ht
  | @timeout s set _ _ ih =>
    obtain ⟨h,hp,ht⟩ := ih
    refine ⟨h.sigTimeout,?_,?_⟩
    · unfold sigTimeout
      split_ifs <;> exact hp
    · unfold sigTimeout
      split_ifs <;> exact ht

/-- Over every run no record is lost or duplicated and none changes pool: each record of the two
blocks and of the heap is in exactly one place (a free list, the pending list or the heap) and no
other record is anywhere; the free lists and the heap hold only records of their own kind, as
`sig_releasependingsignal` sends each back by its type; and at most one record is pending for each
signal number. -/
theorem Reachable.records_conserved {fixed irq heap : List R} {s : SigState R}
    (hr : Reachable fixed irq heap s) :
    (∀ r, s.records.count r = if r ∈ fixed ++ irq ++ heap then 1 else 0) ∧
      (∀ r ∈ s.g_sigpendingsignal, r ∈ fixed) ∧ (∀ r ∈ s.g_sigpendingirqsignal, r ∈ irq) ∧
      (∀ r ∈ s.heap, r ∈ heap) ∧ (s.sigpendingq.map s.signo).Nodup := by
  obtain ⟨h, hp, ht⟩ := hr.sigInv
  have htype : ∀ r, s.type r = if r ∈ fixed then .fixed else if r ∈ irq then .irq else .dyn :=
    fun r => congrFun ht r
  refine ⟨fun r => ?_, fun r hr => ?_, fun r hr => ?_, fun r hr => ?_, h.signo_nodup⟩
  · split_ifs with hmem
    · exact List.count_eq_one_of_mem h.nodup (hp.mem_iff.mpr hmem)
    · exact List.count_eq_zero_of_not_mem fun hs => hmem (hp.mem_iff.mp hs)
  · have := h.fixed r hr
    rw [htype] at this
    split_ifs at this with hf
    exact hf
  · have := h.irq r hr
    rw [htype] at this
    split_ifs at this with hf hi
    exact hi
  · have hrec : r ∈ fixed ++ irq ++ heap := hp.mem_iff.mp (by simp [SigState.records, hr])
    have := h.dyn r hr
    rw [htype] at this
    split_ifs at this with hf hi
    simpa [hf, hi] using hrec

theorem records_conserved_init :
    let fixed := (List.finRange 24).take NUM_SIGNALS_PENDING
    let irq := (List.finRange 24).drop NUM_SIGNALS_PENDING
    let s := (sigTcbdispatch (sigInitialize fixed irq []) ⟨3, 0, 0⟩ false).getD (sigInitialize fixed irq [])
    Reachable fixed irq [] s ∧
      (∀ r, s.records.count r = if r ∈ fixed ++ irq ++ [] then 1 else 0) ∧
      (∀ r ∈ s.g_sigpendingsignal, r ∈ fixed) ∧ (∀ r ∈ s.g_sigpendingirqsignal, r ∈ irq) ∧
      (∀ r ∈ s.heap, r ∈ []) ∧ (s.sigpendingq.map s.signo).Nodup := by
  intro fixed irq s
  have hr : Reachable fixed irq [] s :=
    .dispatch ⟨3, 0, 0⟩ false (.init (by decide) (by decide) (by decide)) (by decide)
      (Option.getD_of_ne_none (by decide) _).symm
  exact ⟨hr, Reachable.records_conserved hr⟩

theorem Reachable.foldlM_dispatch {fixed irq heap : List R} (intr : Bool) :
    ∀ {s s' : SigState R} {infos : List SigInfo}, Reachable fixed irq heap s →
      (∀ info ∈ infos, info.si_signo ≤ MAX_SIGNO) →
      infos.foldlM (fun s info => sigTcbdispatch s info intr) s = some s' →
      Reachable fixed irq heap s'
  | s, s', [], hr, _, he => by
    rw [List.foldlM_nil,Option.pure_def,Option.some.injEq] at he
    exact he ▸ hr
  | s, s', info :: infos, hr, hg, he => by
    rw [List.foldlM_cons] at he
    cases hd : sigTcbdispatch s info intr with
    | none => rw [hd] at he; cases he
    | some s₁ =>
      rw [hd,Option.bind_eq_bind,Option.bind_some] at he
      exact Reachable.foldlM_dispatch intr (.dispatch info intr hr (hg info List.mem_cons_self) hd)
        (fun i hi => hg i (List.mem_cons_of_mem info hi)) he

omit [DecidableEq R] in
theorem sigReleasependingsignal_of_fixed {s : SigState R} {r : R} (ht : s.type r = .fixed) :
    sigReleasependingsignal s r = { s with g_sigpendingsignal := s.g_sigpendingsignal ++ [r] } := by
  simp only [sigReleasependingsignal,ht]

theorem sigTcbdispatch_of_free {s : SigState R} {info : SigInfo} (intr : Bool) {r : R}
    {rest : List R} (hgood : info.si_signo ≤ MAX_SIGNO)
    (hm : s.sigprocmask.getLsbD info.si_signo = true) (hnw : s.pc.isWaiting = false)
    (hnp : pending s info.si_signo = none) (hg : s.g_sigpendingsignal = r :: rest) :
    sigTcbdispatch s info intr = some { s with
      g_sigpendingsignal := rest
      info := Function.update s.info r info
      sigpendingq := s.sigpendingq ++ [r] } := by
  have hm' : sigismember s.sigprocmask info.si_signo ≠ 0 := (sigismember_ne_zero hgood).mpr hm
  have hw : ¬(s.pc.isWaiting = true ∧ sigismember s.sigwaitmask info.si_signo ≠ 0) := by
    simp [hnw]
  have hf : sigFindpendingsignal s info.si_signo = none := Option.map_eq_none_iff.mp hnp
  unfold TizenRT.Signal.sigTcbdispatch sigAddpendingsignal
  rw [if_pos hm',if_neg hw,hf]
  simp only [sigAllocatependingsignal,hg]

/-- `sigtimedwait` takes a pending signal held in a preallocated record while no other such
record is free, releases the record and lets interrupts in before it reads
`sigpend->info.si_signo`. An interrupt that dispatches a masked signal then takes that same
record for its own signal, and `sigtimedwait` returns the interrupt's number, which stays
pending, while the signal it took is no longer pending and its number is lost. -/
theorem sigtimedwait_returns_reused_record_signo {fixed irq heap : List R} {s s₁ : SigState R}
    (hr : Reachable fixed irq heap s) (hrun : s.pc = .running) {set : BitVec 32} {timed : Bool}
    (hw : sigtimedwait s set timed = some s₁) {r : R} {uinfo : SigInfo}
    (hrel : s₁.pc = .released r uinfo) (hfixed : r ∈ fixed) (hempty : s.g_sigpendingsignal = [])
    {info : SigInfo} (hgood : info.si_signo ≤ MAX_SIGNO)
    (hmask : s.sigprocmask.getLsbD info.si_signo = true) (hnp : pending s₁ info.si_signo = none) :
    pending s uinfo.si_signo = some uinfo ∧ pending s₁ uinfo.si_signo = none ∧
      ∃ s₂, sigTcbdispatch s₁ info true = some s₂ ∧ Reachable fixed irq heap s₂ ∧
        s₂.pc = .released r uinfo ∧ (sigtimedwaitReleased s₂ r).1 = info.si_signo ∧
        pending s₂ info.si_signo = some info := by
  have hr₁ := Reachable.timedwait set timed hr hrun hw
  obtain ⟨h,-,ht⟩ := hr.sigInv
  have hne : set &&& sigPendingset s ≠ NULL_SIGNAL_SET := by
    intro he
    rw [sigtimedwait_of_empty timed he,Option.some.injEq] at hw
    subst hw
    cases hrel
  obtain ⟨n,r',-,-,hf,hw'⟩ := sigtimedwait_of_pending h timed hne
  rw [hw,Option.some.injEq] at hw'
  subst hw'
  simp only [Pc.released.injEq] at hrel
  obtain ⟨rfl,rfl⟩ := hrel
  obtain ⟨hq,hn⟩ := (lookup_eq_some h.signo_nodup).mp hf
  have htype : s.type r' = .fixed := by
    rw [ht]
    simp [sigInitialize,hfixed]
  rw [sigReleasependingsignal_of_fixed (s := { s with sigpendingq := s.sigpendingq.erase r' }) htype,
    hempty,List.nil_append] at hr₁ hnp ⊢
  have hpend₁ : pending { s with sigpendingq := s.sigpendingq.erase r' } =
      Function.update (pending s) (s.info r').si_signo none :=
    pendingOf_erase h.signo_nodup hq
  have hd := sigTcbdispatch_of_free (s := { { s with
      sigpendingq := s.sigpendingq.erase r'
      g_sigpendingsignal := [r'] } with pc := .released r' (s.info r') }) true hgood hmask rfl hnp rfl
  have hsame := sigTcbdispatch_of_masked hr₁.sigInv.1 hgood hmask hd
  rcases hsame with ⟨hwait,-⟩ | ⟨-,-,hpend₂⟩
  · cases hwait
  refine ⟨?_,?_,_,hd,.dispatch info true hr₁ hgood hd,rfl,?_,?_⟩
  · show (sigFindpendingsignal s (s.info r').si_signo).map s.info = _
    rw [show (s.info r').si_signo = n from hn,hf]
    rfl
  · show pending { s with sigpendingq := s.sigpendingq.erase r' } _ = none
    rw [hpend₁,Function.update_self]
  · simp [sigtimedwaitReleased]
  · rw [hpend₂,Function.update_self]

theorem sigtimedwait_returns_reused_record_signo_run :
    let fixed := (List.finRange 24).take NUM_SIGNALS_PENDING
    let irq := (List.finRange 24).drop NUM_SIGNALS_PENDING
    let s₀ := { sigInitialize fixed irq [] with sigprocmask := NULL_SIGNAL_SET ||| 0x3fffe }
    let infos := (List.range' 1 16).map fun n => (⟨n,0,0⟩ : SigInfo)
    let s := (infos.foldlM (fun s info => sigTcbdispatch s info false) s₀).getD s₀
    let s₁ := (sigtimedwait s (SIGNO2SET 1) false).getD s
    pending s 1 = some ⟨1,0,0⟩ ∧ pending s₁ 1 = none ∧
      ∃ s₂, sigTcbdispatch s₁ ⟨17,0,0⟩ true = some s₂ ∧ Reachable fixed irq [] s₂ ∧
        s₂.pc = .released 0 ⟨1,0,0⟩ ∧ (sigtimedwaitReleased s₂ 0).1 = 17 ∧
        pending s₂ 17 = some ⟨17,0,0⟩ := by
  intro fixed irq s₀ infos s s₁
  have hr₀ : Reachable fixed irq [] s₀ :=
    .procmask SIG_BLOCK (some 0x3fffe) OK (.init (by decide) (by decide) (by decide)) rfl
      (sigprocmask_block_of_nil rfl _)
  have hr : Reachable fixed irq [] s :=
    Reachable.foldlM_dispatch false hr₀
      (by decide : ∀ info ∈ infos, info.si_signo ≤ MAX_SIGNO)
      (Option.getD_of_ne_none (by decide) s₀).symm
  have hw : sigtimedwait s (SIGNO2SET 1) false = some s₁ :=
    (Option.getD_of_ne_none (by decide) s).symm
  have hrel : s₁.pc = .released 0 ⟨1,0,0⟩ := by decide
  have hgood : (⟨17,0,0⟩ : SigInfo).si_signo ≤ MAX_SIGNO := by decide
  have hmask : s.sigprocmask.getLsbD (⟨17,0,0⟩ : SigInfo).si_signo = true := by decide
  have hnp : pending s₁ (⟨17,0,0⟩ : SigInfo).si_signo = none := by decide
  exact sigtimedwait_returns_reused_record_signo hr (by decide) hw hrel (by decide) (by decide)
    hgood hmask hnp

end TizenRT.Signal
