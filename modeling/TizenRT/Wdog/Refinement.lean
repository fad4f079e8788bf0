import TizenRT.Wdog.Model

set_option autoImplicit false

/-!
What the watchdog queue is for: a map from every active watchdog to the ticks it has
left, kept in the order in which the watchdogs were last started. The delta list of
`g_wdactivelist` represents such a map when the running sums of its lags, taken block by
block of equal expiry, are the map's entries in start order.
-/

namespace TizenRT.Wdog

open DeltaList StableInsert

@[ext] structure TimerMap (W : Type) where
  /-- Each active watchdog with its remaining ticks, in the order of the starts. -/
  entries : List (W × Int)
  nodup : (entries.map Prod.fst).Nodup
  pos : ∀ e ∈ entries, 0 < e.2
  le_max : ∀ e ∈ entries, e.2 ≤ INT_MAX

namespace TimerMap

variable {W : Type} [DecidableEq W]

def empty : TimerMap W := ⟨[],by simp,by simp,by simp⟩

def remaining (m : TimerMap W) (w : W) : Int :=
  ((m.entries.find? (fun e => e.1 = w)).map Prod.snd).getD 0

def cancel (m : TimerMap W) (w : W) : TimerMap W where
  entries := m.entries.filter (fun e => e.1 ≠ w)
  nodup := m.nodup.sublist (List.filter_sublist.map _)
  pos e he := m.pos e (List.mem_of_mem_filter he)
  le_max e he := m.le_max e (List.mem_of_mem_filter he)

theorem not_mem_cancel (m : TimerMap W) (w : W) : w ∉ (m.cancel w).entries.map Prod.fst := by
  simp [cancel]

theorem cancel_of_not_mem {m : TimerMap W} {w : W} (h : w ∉ m.entries.map Prod.fst) :
    m.cancel w = m := by
  ext1
  simp only [cancel]
  rw [List.filter_eq_self]
  intro e he
  have : e.1 ≠ w := fun hew => h (hew ▸ List.mem_map_of_mem he)
  simpa using this

theorem mem_cancel_iff (m : TimerMap W) {v w : W} (hv : v ≠ w) :
    v ∈ (m.cancel w).entries.map Prod.fst ↔ v ∈ m.entries.map Prod.fst := by
  simp only [cancel,List.mem_map,List.mem_filter]
  constructor
  · rintro ⟨e,⟨he,-⟩,rfl⟩
    exact ⟨e,he,rfl⟩
  · rintro ⟨e,he,rfl⟩
    exact ⟨e,⟨he,by simpa using hv⟩,rfl⟩

theorem nodup_cancel_append (m : TimerMap W) (w : W) (d : Int) :
    (((m.cancel w).entries ++ [(w,d)]).map Prod.fst).Nodup := by
  rw [List.map_append,List.nodup_append]
  refine ⟨(m.cancel w).nodup,List.nodup_singleton w,?_⟩
  intro a ha b hb
  simp only [List.map_cons,List.map_nil,List.mem_singleton] at hb
  exact hb ▸ fun h => m.not_mem_cancel w (h ▸ ha)

theorem forall_cancel_append (m : TimerMap W) (w : W) {d : Int} (p : Int → Prop)
    (hm : ∀ e ∈ m.entries, p e.2) (hd : p d) : ∀ e ∈ (m.cancel w).entries ++ [(w,d)], p e.2 := by
  intro e he
  rcases List.mem_append.mp he with he | he
  · exact hm e (List.mem_of_mem_filter he)
  · simp only [List.mem_singleton] at he
    exact he ▸ hd

theorem clamp_pos {delay : Int32} (h : ¬delay < 0) : 0 < min (delay.toInt + 1) INT_MAX := by
  have h0 : 0 ≤ delay.toInt := by
    have := mt Int32.lt_iff_toInt_lt.mpr h
    simpa using this
  simp only [INT_MAX,lt_min_iff]
  omega

/-- A start with `delay ≥ 0` replaces any earlier activation by `delay+1` ticks, clamped to
`INT_MAX`; a negative delay is refused and changes nothing. -/
def start (m : TimerMap W) (w : W) (delay : Int32) : TimerMap W :=
  if h : delay < 0 then m
  else
    { entries := (m.cancel w).entries ++ [(w,min (delay.toInt + 1) INT_MAX)]
      nodup := m.nodup_cancel_append w _
      pos := m.forall_cancel_append w (0 < ·) m.pos (clamp_pos h)
      le_max := m.forall_cancel_append w (· ≤ INT_MAX) m.le_max (min_le_right _ _) }

/-- A tick takes one off every entry; the entries that reach `0` are fired and removed. -/
def tick (m : TimerMap W) : List W × TimerMap W :=
  ((m.entries.filter (fun e => e.2 = 1)).map Prod.fst,
    { entries := (m.entries.filter (fun e => e.2 ≠ 1)).map (fun e => (e.1,e.2 - 1))
      nodup := by
        rw [List.map_map]
        exact m.nodup.sublist (List.filter_sublist.map _)
      pos := by
        intro e he
        obtain ⟨f,hf,rfl⟩ := List.mem_map.mp he
        have h1 := m.pos f (List.mem_of_mem_filter hf)
        have h2 : f.2 ≠ 1 := by simpa using (List.mem_filter.mp hf).2
        simp only
        omega
      le_max := by
        intro e he
        obtain ⟨f,hf,rfl⟩ := List.mem_map.mp he
        have := m.le_max f (List.mem_of_mem_filter hf)
        simp only
        omega })

def step (m : TimerMap W) : WdOp W → TimerMap W × List W
  | .start w delay => (m.start w delay,[])
  | .cancel w => (m.cancel w,[])
  | .timer => ((m.tick).2,(m.tick).1)

def run (m : TimerMap W) : List (WdOp W) → TimerMap W × List (List W)
  | [] => (m,[])
  | op :: ops =>
    let r := m.step op
    let rest := run r.1 ops
    (rest.1,r.2 :: rest.2)

theorem remaining_of_mem {m : TimerMap W} {e : W × Int} (he : e ∈ m.entries) :
    m.remaining e.1 = e.2 := by
  have hfind : m.entries.find? (fun f => f.1 = e.1) = some e := by
    rw [List.find?_eq_some_iff_append]
    refine ⟨by simp,?_⟩
    obtain ⟨pre,post,hsplit⟩ := List.append_of_mem he
    refine ⟨pre,post,hsplit,fun f hf => ?_⟩
    have hnd := m.nodup
    rw [hsplit] at hnd
    simp only [List.map_append,List.map_cons,List.nodup_append,List.nodup_cons] at hnd
    have : f.1 ≠ e.1 := fun hfe => hnd.2.2 f.1 (List.mem_map_of_mem hf) e.1 (by simp) hfe
    simpa using this
  simp [remaining,hfind]

theorem remaining_of_not_mem {m : TimerMap W} {w : W} (hw : w ∉ m.entries.map Prod.fst) :
    m.remaining w = 0 := by
  have hfind : m.entries.find? (fun f => f.1 = w) = none := by
    rw [List.find?_eq_none]
    intro f hf hfw
    exact hw (List.mem_map.mpr ⟨f,hf,by simpa using hfw⟩)
  simp [remaining,hfind]

theorem remaining_cases (m : TimerMap W) (w : W) :
    (w,m.remaining w) ∈ m.entries ∨ (w ∉ m.entries.map Prod.fst ∧ m.remaining w = 0) := by
  by_cases hw : w ∈ m.entries.map Prod.fst
  · obtain ⟨e,he,rfl⟩ := List.mem_map.mp hw
    exact .inl (by rw [remaining_of_mem he]; exact he)
  · exact .inr ⟨hw,remaining_of_not_mem hw⟩

theorem remaining_cancel_self (m : TimerMap W) (w : W) : (m.cancel w).remaining w = 0 :=
  remaining_of_not_mem (m.not_mem_cancel w)

theorem remaining_cancel_of_ne (m : TimerMap W) {v w : W} (hv : v ≠ w) :
    (m.cancel v).remaining w = m.remaining w := by
  rcases m.remaining_cases w with he | ⟨hw,h0⟩
  · have hc : (w,m.remaining w) ∈ (m.cancel v).entries :=
      List.mem_filter.mpr ⟨he,by simpa using hv.symm⟩
    exact remaining_of_mem hc
  · rw [h0]
    exact remaining_of_not_mem (fun h => hw ((m.mem_cancel_iff hv.symm).mp h))

theorem remaining_start_self (m : TimerMap W) (w : W) (delay : Int32) :
    (m.start w delay).remaining w =
      if delay < 0 then m.remaining w else min (delay.toInt + 1) INT_MAX := by
  by_cases hd : delay < 0
  · simp [start,hd]
  · rw [if_neg hd]
    exact remaining_of_mem (e := (w,min (delay.toInt + 1) INT_MAX)) (by simp [start,hd])

theorem remaining_start_of_ne (m : TimerMap W) {v w : W} (hv : v ≠ w) (delay : Int32) :
    (m.start v delay).remaining w = m.remaining w := by
  by_cases hd : delay < 0
  · simp [start,hd]
  rcases m.remaining_cases w with he | ⟨hw,h0⟩
  · have hc : (w,m.remaining w) ∈ (m.cancel v).entries :=
      List.mem_filter.mpr ⟨he,by simpa using hv.symm⟩
    exact remaining_of_mem (m := m.start v delay) (e := (w,m.remaining w)) (by simp [start,hd,hc])
  · rw [h0]
    apply remaining_of_not_mem
    simp only [start,hd,dite_false,List.map_append,List.mem_append,List.map_cons,List.map_nil,
      List.mem_singleton,not_or]
    exact ⟨fun h => hw ((m.mem_cancel_iff hv.symm).mp h),hv.symm⟩

theorem remaining_tick (m : TimerMap W) (w : W) :
    m.tick.2.remaining w = if m.remaining w ≤ 1 then 0 else m.remaining w - 1 := by
  rcases m.remaining_cases w with he | ⟨hw,h0⟩
  · have hpos := m.pos _ he
    by_cases h1 : m.remaining w ≤ 1
    · rw [if_pos h1]
      apply remaining_of_not_mem
      simp only [tick,List.map_map,List.mem_map,List.mem_filter,Function.comp_apply,not_exists,
        not_and]
      rintro e ⟨he',hne⟩ hew
      have := remaining_of_mem he'
      rw [hew] at this
      simp only [decide_eq_true_eq] at hne
      omega
    · rw [if_neg h1]
      exact remaining_of_mem (e := (w,m.remaining w - 1))
        (List.mem_map.mpr ⟨_,List.mem_filter.mpr ⟨he,by simp; omega⟩,rfl⟩)
  · rw [h0,if_pos (by decide)]
    apply remaining_of_not_mem
    simp only [tick,List.map_map,List.mem_map,List.mem_filter,Function.comp_apply,not_exists,
      not_and]
    exact fun e he' hew => hw (List.mem_map.mpr ⟨e,he'.1,hew⟩)

theorem count_tick (m : TimerMap W) (w : W) :
    m.tick.1.count w = if m.remaining w = 1 then 1 else 0 := by
  have hnd : m.tick.1.Nodup := m.nodup.sublist (List.filter_sublist.map _)
  rw [hnd.count]
  congr 1
  apply propext
  simp only [tick,List.mem_map,List.mem_filter,decide_eq_true_eq]
  constructor
  · rintro ⟨e,⟨he,h1⟩,rfl⟩
    rw [remaining_of_mem he,h1]
  · intro h1
    rcases m.remaining_cases w with he | ⟨-,h0⟩
    · exact ⟨_,⟨he,h1⟩,rfl⟩
    · omega

theorem run_only {m : TimerMap W} {u : TimerMap Unit} (w : W) (h : m.remaining w = u.remaining ())
    (ops : List (WdOp W)) :
    (m.run ops).1.remaining w = (u.run (ops.filterMap (WdOp.only w))).1.remaining () ∧
      (m.run ops).2.flatten.count w = (u.run (ops.filterMap (WdOp.only w))).2.flatten.count () := by
  induction ops generalizing m u with
  | nil => exact ⟨h,rfl⟩
  | cons op ops ih =>
    cases op with
    | start v delay =>
      by_cases hv : v = w
      · subst hv
        have hs : (m.start v delay).remaining v = (u.start () delay).remaining () := by
          rw [remaining_start_self,remaining_start_self,h]
        simpa [run,step,WdOp.only] using ih hs
      · simpa [run,step,WdOp.only,hv] using ih (by rw [remaining_start_of_ne m hv,h])
    | cancel v =>
      by_cases hv : v = w
      · subst hv
        have hs : (m.cancel v).remaining v = (u.cancel ()).remaining () := by
          rw [remaining_cancel_self,remaining_cancel_self]
        simpa [run,step,WdOp.only] using ih hs
      · simpa [run,step,WdOp.only,hv] using ih (by rw [remaining_cancel_of_ne m hv,h])
    | timer =>
      have ht : m.tick.2.remaining w = u.tick.2.remaining () := by
        rw [remaining_tick,remaining_tick,h]
      obtain ⟨hr,hc⟩ := ih ht
      refine ⟨by simpa [run,step,WdOp.only] using hr,?_⟩
      simp only [run,step,WdOp.only,List.filterMap_cons,List.flatten_cons,List.count_append]
      rw [hc,count_tick,count_tick,h]

end TimerMap

end TizenRT.Wdog

namespace TizenRT.Wdog

open DeltaList StableInsert

variable {W : Type} [DecidableEq W]

theorem filter_comm {γ : Type} (p q : γ → Bool) (l : List γ) :
    (l.filter p).filter q = (l.filter q).filter p := by
  simp [List.filter_filter,Bool.and_comm]

/-- The queue represents the map: it holds each active watchdog once, its absolute times
never decrease, and for every number of ticks the watchdogs due after exactly that many
are, in queue order, the map's entries for it in start order. -/
structure Represents (s : WdState W) (m : TimerMap W) : Prop where
  nodup : (s.activelist.map Prod.fst).Nodup
  active_iff : ∀ w, s.active w = true ↔ w ∈ m.entries.map Prod.fst
  sorted : Sorted Prod.snd (times 0 s.activelist)
  blocks : ∀ t, (times 0 s.activelist).filter (fun e => e.2 = t) =
    m.entries.filter (fun e => e.2 = t)

namespace Represents

variable {s : WdState W} {m : TimerMap W}

omit [DecidableEq W] in
theorem mem_iff (h : Represents s m) (e : W × Int) :
    e ∈ times 0 s.activelist ↔ e ∈ m.entries := by
  have hb := h.blocks e.2
  constructor
  · intro he
    have : e ∈ (times 0 s.activelist).filter (fun f => f.2 = e.2) :=
      List.mem_filter.mpr ⟨he,by simp⟩
    rw [hb] at this
    exact List.mem_of_mem_filter this
  · intro he
    have : e ∈ m.entries.filter (fun f => f.2 = e.2) := List.mem_filter.mpr ⟨he,by simp⟩
    rw [← hb] at this
    exact List.mem_of_mem_filter this

omit [DecidableEq W] in
theorem fst_mem_iff (h : Represents s m) (w : W) :
    w ∈ s.activelist.map Prod.fst ↔ w ∈ m.entries.map Prod.fst := by
  rw [← map_fst_times 0]
  simp only [List.mem_map]
  exact ⟨fun ⟨e,he,hw⟩ => ⟨e,(h.mem_iff e).mp he,hw⟩,
    fun ⟨e,he,hw⟩ => ⟨e,(h.mem_iff e).mpr he,hw⟩⟩

omit [DecidableEq W] in
theorem pos (h : Represents s m) : ∀ e ∈ times 0 s.activelist, 0 < e.2 :=
  fun e he => m.pos e ((h.mem_iff e).mp he)

theorem gettime (h : Represents s m) (w : W) : wdGettime s w = m.remaining w := by
  unfold wdGettime
  by_cases ha : s.active w
  · obtain ⟨e,he,rfl⟩ := List.mem_map.mp ((h.active_iff _).mp ha)
    have hmem : (e.1,e.2) ∈ times 0 s.activelist := (h.mem_iff e).mpr he
    rw [if_pos ha,gettimeFrom_eq e.1 0 h.nodup hmem,TimerMap.remaining_of_mem he]
  · rw [if_neg ha,TimerMap.remaining_of_not_mem (fun hw => ha ((h.active_iff w).mpr hw))]

end Represents

omit [DecidableEq W] in
theorem represents_init : Represents (⟨[],fun _ => false⟩ : WdState W) TimerMap.empty where
  nodup := by simp
  active_iff := by simp [TimerMap.empty]
  sorted := by simp [Sorted]
  blocks := by simp [TimerMap.empty]

theorem represents_cancel {s : WdState W} {m : TimerMap W} (h : Represents s m) (w : W) :
    Represents (wdCancel s w).2 (m.cancel w) := by
  unfold wdCancel
  by_cases hw : s.active w
  · simp only [hw,ite_true]
    have ht : times 0 (wdRemove w s.activelist) =
        (times 0 s.activelist).filter (fun e => e.1 ≠ w) := times_wdRemove w 0 h.nodup
    constructor
    · have hk : (wdRemove w s.activelist).map Prod.fst =
          ((times 0 s.activelist).filter (fun e => e.1 ≠ w)).map Prod.fst := by
        rw [← ht,map_fst_times]
      have hnd := h.nodup
      rw [← map_fst_times 0] at hnd
      rw [hk]
      exact hnd.sublist (List.filter_sublist.map _)
    · intro v
      by_cases hv : v = w
      · subst hv
        simp [TimerMap.not_mem_cancel]
      · simp only [Function.update_of_ne hv]
        rw [TimerMap.mem_cancel_iff m hv]
        exact h.active_iff v
    · rw [ht]
      exact h.sorted.filter _
    · intro t
      rw [ht,filter_comm,h.blocks t,filter_comm]
      rfl
  · simp only [hw]
    rw [TimerMap.cancel_of_not_mem (fun hm => hw ((h.active_iff w).mpr hm))]
    exact h

theorem represents_prestart {s : WdState W} {m : TimerMap W} (h : Represents s m) (w : W) :
    Represents (if s.active w then (wdCancel s w).2 else s) (m.cancel w) := by
  by_cases hw : s.active w
  · simpa [hw] using represents_cancel h w
  · simp only [hw]
    rw [TimerMap.cancel_of_not_mem (fun hm => hw ((h.active_iff w).mpr hm))]
    exact h

theorem represents_start {s : WdState W} {m : TimerMap W} (h : Represents s m) (w : W)
    (delay : Int32) : Represents (wdStart s w delay).2 (m.start w delay) := by
  by_cases hd : delay < 0
  · have hc : wdStart s w delay = (ERROR,s) := by simp [wdStart,hd]
    have ha : m.start w delay = m := by simp [TimerMap.start,hd]
    rw [hc,ha]
    exact h
  · have h0 : 0 ≤ delay := by
      have := mt Int32.lt_iff_toInt_lt.mpr hd
      exact Int32.le_iff_toInt_le.mpr (by simpa using this)
    have hE : (m.start w delay).entries =
        (m.cancel w).entries ++ [(w,(wdDelay delay).toInt)] := by
      simp [TimerMap.start,hd,wdDelay_toInt delay h0]
    have hA : (wdStart s w delay).2.active =
        Function.update (if s.active w then (wdCancel s w).2 else s).active w true := by
      simp [wdStart,hd]
    have hL₀ : (if s.active w then (wdCancel s w).2 else s).activelist = [] →
        (wdStart s w delay).2.activelist = [(w,(wdDelay delay).toInt)] := by
      intro hl
      simp only [wdStart,hd,ite_false,hl]
    have hL : ∀ head rest, (if s.active w then (wdCancel s w).2 else s).activelist = head :: rest →
        (wdStart s w delay).2.activelist = wdInsert w (wdDelay delay).toInt head rest := by
      intro head rest hl
      simp only [wdStart,hd,ite_false,hl]
    have h₁ := represents_prestart h w
    generalize (if s.active w then (wdCancel s w).2 else s) = s₁ at h₁ hA hL₀ hL
    generalize (wdDelay delay).toInt = D at hE hL₀ hL
    have hw₁ : w ∉ s₁.activelist.map Prod.fst :=
      fun hm => TimerMap.not_mem_cancel m w ((h₁.fst_mem_iff w).mp hm)
    have ht : times 0 (wdStart s w delay).2.activelist =
        insertByKey Prod.snd (w,D) (times 0 s₁.activelist) := by
      cases hl : s₁.activelist with
      | nil => simp [hL₀ hl]
      | cons head rest =>
        have hpos := h₁.pos (head.1,0 + head.2) (by obtain ⟨k,d⟩ := head; simp [hl])
        rw [hL head rest hl]
        exact times_wdInsert w D head rest (by simpa using hpos.le)
    constructor
    · rw [← map_fst_times 0,ht]
      refine ((insertByKey_perm _ _).map Prod.fst).nodup_iff.mpr ?_
      rw [List.map_cons,List.nodup_cons,map_fst_times]
      exact ⟨hw₁,h₁.nodup⟩
    · intro v
      rw [hA,hE]
      by_cases hv : v = w
      · subst hv
        simp
      · simp only [Function.update_of_ne hv,List.map_append,List.mem_append]
        rw [h₁.active_iff v]
        simp [hv]
    · rw [ht]
      exact sorted_insertByKey h₁.sorted
    · intro t
      rw [ht,hE,filter_insertByKey h₁.sorted,h₁.blocks t,List.filter_append]
      by_cases hD : D = t <;> simp [hD]

omit [DecidableEq W] in
theorem filter_after_tick {l : List (W × Int)} (hl : ∀ e ∈ l, 1 ≤ e.2) (p : Int → Prop)
    [DecidablePred p] (hp : ∀ x, 1 ≤ x → (p x ↔ x ≠ 1)) (t : Int) :
    l.filter (fun e => p e.2 ∧ e.2 - 1 = t) =
      if 0 < t then l.filter (fun e => e.2 = t + 1) else [] := by
  split_ifs with ht
  · refine List.filter_congr (fun e he => ?_)
    have := hl e he
    have := hp e.2 this
    simp only [decide_eq_decide]
    constructor
    · rintro ⟨-,h⟩
      omega
    · intro h
      exact ⟨this.mpr (by omega),by omega⟩
  · rw [List.filter_eq_nil_iff]
    intro e he
    have := hl e he
    have := hp e.2 this
    simp only [decide_eq_true_eq,not_and]
    intro h
    have := this.mp h
    omega

theorem represents_timer {s : WdState W} {m : TimerMap W} (h : Represents s m) :
    Represents (wdTimer s).2 m.tick.2 ∧ (wdTimer s).1 = m.tick.1 := by
  cases hl : s.activelist with
  | nil =>
    have hm : m.entries = [] := by
      rw [List.eq_nil_iff_forall_not_mem]
      intro e he
      have := (h.mem_iff e).mpr he
      simp [hl] at this
    have hw : wdTimer s = ([],s) := by simp [wdTimer,hl]
    rw [hw]
    refine ⟨⟨h.nodup,?_,h.sorted,?_⟩,by simp [TimerMap.tick,hm]⟩
    · intro v
      rw [h.active_iff v]
      simp [TimerMap.tick,hm]
    · intro t
      simp [TimerMap.tick,hm,hl]
  | cons head rest =>
    obtain ⟨k,d⟩ := head
    have hpos : ∀ e ∈ times 0 s.activelist, 1 ≤ e.2 := fun e he => h.pos e he
    rw [hl] at hpos
    have hT : times 0 ((k,d - 1) :: rest) =
        (times 0 ((k,d) :: rest)).map (fun e => (e.1,e.2 - 1)) := by
      rw [times_shift_sub,times_sub_base]
    have hsorted : Sorted Prod.snd (times 0 ((k,d) :: rest)) := hl ▸ h.sorted
    have hsort' : Sorted Prod.snd (times 0 ((k,d - 1) :: rest)) := by
      rw [hT,Sorted,List.pairwise_map]
      exact hsorted.imp (fun hab => by simpa using hab)
    obtain ⟨hfired,hrem⟩ := wdExpiration_spec 0 ((k,d - 1) :: rest) hsort'
    have hw : wdTimer s = ((wdExpiration 0 ((k,d - 1) :: rest)).1,
        { activelist := (wdExpiration 0 ((k,d - 1) :: rest)).2,
          active := fun v => s.active v &&
            !((wdExpiration 0 ((k,d - 1) :: rest)).1.contains v) }) := by
      simp [wdTimer,hl]
    rw [hw]
    generalize wdExpiration 0 ((k,d - 1) :: rest) = r at hfired hrem
    rw [hT,List.filter_map,List.map_map] at hfired
    rw [hT,List.filter_map] at hrem
    generalize hTdef : times 0 ((k,d) :: rest) = T at hpos hsorted hfired hrem
    have hblocks : ∀ t, T.filter (fun e => e.2 = t) = m.entries.filter (fun e => e.2 = t) := by
      rw [← hTdef,← hl]
      exact h.blocks
    have hf : r.1 = (m.entries.filter (fun e => e.2 = 1)).map Prod.fst := by
      rw [hfired,← hblocks 1]
      have : T.filter ((fun e => decide (e.2 ≤ 0)) ∘ fun e => (e.1,e.2 - 1)) =
          T.filter (fun e => e.2 = 1) := by
        refine List.filter_congr (fun e he => ?_)
        have := hpos e he
        simp only [Function.comp_apply,decide_eq_decide]
        omega
      rw [this]
      rfl
    have hkeys : r.2.map Prod.fst =
        (T.filter ((fun e => decide (0 < e.2)) ∘ fun e => (e.1,e.2 - 1))).map Prod.fst := by
      rw [← map_fst_times 0 r.2,hrem,List.map_map]
      rfl
    have hTkeys : T.map Prod.fst = s.activelist.map Prod.fst := by
      rw [← hTdef,map_fst_times,hl]
    refine ⟨⟨?_,?_,?_,?_⟩,hf⟩
    · rw [hkeys]
      exact (hTkeys ▸ h.nodup).sublist (List.filter_sublist.map _)
    · intro v
      simp only [Bool.and_eq_true,Bool.not_eq_eq_eq_not,Bool.not_true,List.contains_eq_mem,
        decide_eq_false_iff_not,hf,TimerMap.tick,List.map_map]
      rw [h.active_iff v]
      constructor
      · rintro ⟨hv,hv1⟩
        obtain ⟨e,he,rfl⟩ := List.mem_map.mp hv
        have he1 : e.2 ≠ 1 := fun he1 => hv1 (List.mem_map.mpr ⟨e,List.mem_filter.mpr
          ⟨he,by simpa using he1⟩,rfl⟩)
        exact List.mem_map.mpr ⟨e,List.mem_filter.mpr ⟨he,by simpa using he1⟩,rfl⟩
      · intro hv
        obtain ⟨e,he,rfl⟩ := List.mem_map.mp hv
        have he' := List.mem_filter.mp he
        refine ⟨List.mem_map.mpr ⟨e,he'.1,rfl⟩,fun hv1 => ?_⟩
        obtain ⟨f,hf',hfe⟩ := List.mem_map.mp hv1
        have hf'' := List.mem_filter.mp hf'
        have := List.inj_on_of_nodup_map m.nodup hf''.1 he'.1 hfe
        subst this
        simp_all
    · rw [hrem,Sorted,List.pairwise_map]
      exact (hsorted.filter _).imp (fun hab => by simpa using hab)
    · intro t
      simp only [hrem,TimerMap.tick,List.filter_map,List.filter_filter]
      congr 1
      have hmpos : ∀ e ∈ m.entries, 1 ≤ e.2 := fun e he => m.pos e he
      have h₁ := filter_after_tick hpos (fun x => 0 < x - 1) (fun x hx => by omega) t
      have h₂ := filter_after_tick hmpos (fun x => x ≠ 1) (fun x hx => Iff.rfl) t
      have e₁ : T.filter (fun a => ((fun e => decide (e.2 = t)) ∘ fun e => (e.1,e.2 - 1)) a &&
          ((fun e => decide (0 < e.2)) ∘ fun e => (e.1,e.2 - 1)) a) =
          T.filter (fun e => decide (0 < e.2 - 1 ∧ e.2 - 1 = t)) :=
        List.filter_congr (fun e _ => by simp [Bool.and_comm])
      have e₂ : m.entries.filter (fun a => ((fun e => decide (e.2 = t)) ∘
          fun e => (e.1,e.2 - 1)) a && decide (a.2 ≠ 1)) =
          m.entries.filter (fun e => decide (e.2 ≠ 1 ∧ e.2 - 1 = t)) :=
        List.filter_congr (fun e _ => by simp [Bool.and_comm])
      rw [e₁,e₂,h₁,h₂]
      split_ifs
      · exact hblocks (t + 1)
      · rfl

theorem represents_step {s : WdState W} {m : TimerMap W} (h : Represents s m)
    (op : WdOp W) : Represents (wdStep s op).1 (m.step op).1 ∧ (wdStep s op).2 = (m.step op).2 := by
  cases op with
  | start w delay => exact ⟨represents_start h w delay,rfl⟩
  | cancel w => exact ⟨represents_cancel h w,rfl⟩
  | timer => exact represents_timer h

theorem represents_run {s : WdState W} {m : TimerMap W} (h : Represents s m)
    (ops : List (WdOp W)) :
    Represents (wdRun s ops).1 (m.run ops).1 ∧ (wdRun s ops).2 = (m.run ops).2 := by
  induction ops generalizing s m with
  | nil => exact ⟨h,rfl⟩
  | cons op ops ih =>
    obtain ⟨hstep,hfired⟩ := represents_step h op
    obtain ⟨hrun,hrest⟩ := ih hstep
    simp only [wdRun,TimerMap.run]
    exact ⟨hrun,by rw [hfired,hrest]⟩

/-- The watchdog queue refines the timer map over every sequence of `wd_start`,
`wd_cancel` and `wd_timer` from an empty queue: the queue holds exactly the active
watchdogs, each once; `wd_gettime` reads the ticks the map has left; the lags after the
head are non-negative; and every tick fires exactly the watchdogs whose time runs out,
in the order in which they were started. -/
theorem wdog_queue_refines_timer_map (ops : List (WdOp W)) :
    let c := wdRun (⟨[],fun _ => false⟩ : WdState W) ops
    let a := TimerMap.run TimerMap.empty ops
    ((c.1.activelist.map Prod.fst).Nodup ∧
      ∀ w, c.1.active w = true ↔ w ∈ c.1.activelist.map Prod.fst) ∧
    (∀ w, c.1.active w = true ↔ w ∈ a.1.entries.map Prod.fst) ∧
    (∀ w, wdGettime c.1 w = a.1.remaining w) ∧
    (∀ e ∈ c.1.activelist.tail, 0 ≤ e.2) ∧
    c.2 = a.2 := by
  obtain ⟨h,hfired⟩ := represents_run represents_init ops
  refine ⟨⟨h.nodup,fun w => (h.active_iff w).trans (h.fst_mem_iff w).symm⟩,h.active_iff,
    h.gettime,lag_nonneg_of_sorted h.sorted,hfired⟩

theorem wdRun_only (w : W) (ops : List (WdOp W)) :
    let c := wdRun (⟨[],fun _ => false⟩ : WdState W) ops
    let u := wdRun (⟨[],fun _ => false⟩ : WdState Unit) (ops.filterMap (WdOp.only w))
    wdGettime c.1 w = wdGettime u.1 () ∧ c.2.flatten.count w = u.2.flatten.count () := by
  obtain ⟨hc,hcf⟩ := represents_run (represents_init (W := W)) ops
  obtain ⟨hu,huf⟩ := represents_run (represents_init (W := Unit)) (ops.filterMap (WdOp.only w))
  obtain ⟨hr,hn⟩ := TimerMap.run_only (m := TimerMap.empty) (u := TimerMap.empty) w rfl ops
  simp only [hc.gettime,hu.gettime,hcf,huf]
  exact ⟨hr,hn⟩

end TizenRT.Wdog
