import Mathlib.Data.List.Nodup
import Mathlib.Logic.Function.Basic

set_option autoImplicit false

/-!
Doubly linked lists held in a memory through its `next` and `prev` fields. `Seg next prev back s L e`
says that following `next` from `s` visits the cells `L` and then reaches `e`, each cell's `prev`
being the cell before it (`back` for the first). A list ending at `none` is determined by its start
and has no repeated cell. Unlinking a cell that has a predecessor, and linking a new cell after a
listed one, act on the list as erasure and insertion; a walk that stops at the first cell failing
a test finds that cell within as many steps as the list is long.
-/

namespace DList

variable {P : Type}

inductive Seg (next prev : P → Option P) : Option P → Option P → List P → Option P → Prop
  | nil (back s : Option P) : Seg next prev back s [] s
  | cons (back : Option P) (p : P) (L : List P) (e : Option P) :
      prev p = back → Seg next prev (some p) (next p) L e → Seg next prev back (some p) (p :: L) e

variable {next prev : P → Option P}

theorem Seg.nil_iff {back s e : Option P} : Seg next prev back s [] e ↔ s = e := by
  constructor
  · intro h
    cases h
    rfl
  · rintro rfl
    exact .nil back s

theorem Seg.cons_iff {back s e : Option P} {p : P} {L : List P} :
    Seg next prev back s (p :: L) e ↔ s = some p ∧ prev p = back ∧ Seg next prev (some p) (next p) L e := by
  constructor
  · intro h
    cases h with
    | cons _ _ _ _ hp hs => exact ⟨rfl,hp,hs⟩
  · rintro ⟨rfl,hp,hs⟩
    exact .cons back p L e hp hs

theorem getLast?_or_cons_cons (p q : P) (L : List P) (b b' : Option P) :
    (p :: q :: L).getLast?.or b = (q :: L).getLast?.or b' := by
  rw [List.getLast?_cons_cons]
  cases h : (q :: L).getLast? with
  | none => simp at h
  | some a => rfl

theorem Seg.append {back s m e : Option P} {l₁ l₂ : List P} (h₁ : Seg next prev back s l₁ m)
    (h₂ : Seg next prev (l₁.getLast?.or back) m l₂ e) : Seg next prev back s (l₁ ++ l₂) e := by
  induction h₁ with
  | nil back s => exact h₂
  | cons back p L m hp hs ih =>
    refine .cons back p (L ++ l₂) e hp (ih ?_)
    cases L with
    | nil => exact h₂
    | cons q L => rwa [← getLast?_or_cons_cons p q L back]

theorem Seg.split {back s e : Option P} {l₁ l₂ : List P} (h : Seg next prev back s (l₁ ++ l₂) e) :
    ∃ m, Seg next prev back s l₁ m ∧ Seg next prev (l₁.getLast?.or back) m l₂ e := by
  induction l₁ generalizing back s with
  | nil => exact ⟨s,.nil back s,h⟩
  | cons p l₁ ih =>
    obtain ⟨rfl,hp,hs⟩ := Seg.cons_iff.mp h
    obtain ⟨m,h₁,h₂⟩ := ih hs
    refine ⟨m,.cons back p l₁ m hp h₁,?_⟩
    cases l₁ with
    | nil => exact h₂
    | cons q l₁ => rwa [getLast?_or_cons_cons p q l₁ back (some p)]

theorem Seg.eq_of_start {back back' s : Option P} {L L' : List P} (h : Seg next prev back s L none)
    (h' : Seg next prev back' s L' none) : L = L' := by
  induction L generalizing back back' s L' with
  | nil =>
    cases h
    cases L' with
    | nil => rfl
    | cons q L' => exact absurd (Seg.cons_iff.mp h').1 (by simp)
  | cons p L ih =>
    obtain ⟨rfl,-,hs⟩ := Seg.cons_iff.mp h
    cases L' with
    | nil => cases h'
    | cons q L' =>
      obtain ⟨hq,-,hs'⟩ := Seg.cons_iff.mp h'
      cases hq
      rw [ih hs hs']

theorem Seg.nodup {back s : Option P} {L : List P} (h : Seg next prev back s L none) : L.Nodup := by
  induction L generalizing back s with
  | nil => exact List.nodup_nil
  | cons p L ih =>
    obtain ⟨rfl,hp,hs⟩ := Seg.cons_iff.mp h
    refine List.nodup_cons.mpr ⟨fun hmem => ?_,ih hs⟩
    obtain ⟨l₁,l₂,rfl⟩ := List.append_of_mem hmem
    obtain ⟨m,-,hsuf⟩ := hs.split
    obtain ⟨rfl,-,-⟩ := Seg.cons_iff.mp hsuf
    have hl := (Seg.cons_iff.mpr ⟨rfl,hp,hs⟩).eq_of_start hsuf
    have := congrArg List.length hl
    simp only [List.length_cons,List.length_append] at this
    omega

theorem Seg.frame {next' prev' : P → Option P} {back s e : Option P} {L : List P}
    (h : Seg next prev back s L e) (hn : ∀ p ∈ L, next' p = next p)
    (hp : ∀ p ∈ L, prev' p = prev p) : Seg next' prev' back s L e := by
  induction h with
  | nil back s => exact .nil back s
  | cons back p L e hprev _ ih =>
    refine .cons back p L e (by rw [hp p (by simp),hprev]) ?_
    rw [hn p (by simp)]
    exact ih (fun q hq => hn q (by simp [hq])) (fun q hq => hp q (by simp [hq]))

theorem Seg.mem_of_ne_none {back s : Option P} {L : List P} (h : Seg next prev back s L none)
    {p : P} (hs : s = some p) : p ∈ L := by
  cases h with
  | nil => cases hs
  | cons _ q _ _ _ _ =>
    cases hs
    exact List.mem_cons_self

theorem Seg.start_eq_head? {back s : Option P} {L : List P} (h : Seg next prev back s L none) :
    s = L.head? := by
  cases h with
  | nil => rfl
  | cons => rfl

theorem Seg.next_eq {back s : Option P} {l₁ l₂ : List P} {p : P} (h : Seg next prev back s (l₁ ++ p :: l₂) none) :
    next p = l₂.head? := by
  obtain ⟨m,-,h₂⟩ := h.split
  exact (Seg.cons_iff.mp h₂).2.2.start_eq_head?

/-- Follow `next` from `s` while `cont` holds, for at most `fuel` cells: the cell where it stops,
`none` at the end of the list; `none` outside when the fuel runs out. -/
def walkUntil (next : P → Option P) (cont : P → Bool) : Nat → Option P → Option (Option P)
  | _, none => some none
  | 0, some _ => none
  | n + 1, some p => if cont p then walkUntil next cont n (next p) else some (some p)

/-- The same walk keeping the cell before the one it stops at, starting after `prev`. -/
def walkUntilPrev (next : P → Option P) (cont : P → Bool) : Nat → P → Option P → Option (P × Option P)
  | _, prev, none => some (prev,none)
  | 0, _, some _ => none
  | n + 1, prev, some p => if cont p then walkUntilPrev next cont n p (next p) else some (prev,some p)

theorem Seg.walkUntil {back s : Option P} {L : List P} (h : Seg next prev back s L none)
    (cont : P → Bool) {fuel : Nat} (hf : L.length ≤ fuel) :
    walkUntil next cont fuel s = some (L.find? fun p => !cont p) := by
  induction L generalizing back s fuel with
  | nil =>
    cases h
    cases fuel <;> rfl
  | cons p L ih =>
    obtain ⟨rfl,-,hs⟩ := Seg.cons_iff.mp h
    obtain ⟨n,rfl⟩ : ∃ n, fuel = n + 1 := ⟨fuel - 1,by simp at hf; omega⟩
    by_cases hc : cont p
    · simp only [DList.walkUntil,hc,if_true,List.find?_cons,Bool.not_true]
      exact ih hs (by simp at hf; omega)
    · simp [DList.walkUntil,hc]

theorem Seg.walkUntilPrev {back s : Option P} {L : List P} (h : Seg next prev back s L none)
    (cont : P → Bool) (p₀ : P) {fuel : Nat} (hf : L.length ≤ fuel) :
    walkUntilPrev next cont fuel p₀ s =
      some (((p₀ :: L.takeWhile cont).getLast (List.cons_ne_nil _ _)),(L.dropWhile cont).head?) := by
  induction L generalizing back s fuel p₀ with
  | nil =>
    cases h
    cases fuel <;> rfl
  | cons p L ih =>
    obtain ⟨rfl,-,hs⟩ := Seg.cons_iff.mp h
    obtain ⟨n,rfl⟩ : ∃ n, fuel = n + 1 := ⟨fuel - 1,by simp at hf; omega⟩
    by_cases hc : cont p
    · simp only [DList.walkUntilPrev,hc,if_true,List.takeWhile_cons_of_pos hc,
        List.dropWhile_cons_of_pos hc]
      rw [ih hs p (by simp at hf; omega),List.getLast_cons_cons]
    · simp [DList.walkUntilPrev,hc]

variable [DecidableEq P]

def unlinkNext (next prev : P → Option P) (x : P) : P → Option P :=
  match prev x with
  | some y => Function.update next y (next x)
  | none => next

/-- The `prev` fields after `if (x->next) x->next->prev = x->prev`. -/
def unlinkPrev (next prev : P → Option P) (x : P) : P → Option P :=
  match next x with
  | some z => Function.update prev z (prev x)
  | none => prev

theorem Seg.unlink {back s : Option P} {l₁ l₂ : List P} {y x : P}
    (h : Seg next prev back s (l₁ ++ y :: x :: l₂) none) :
    Seg (unlinkNext next prev x) (unlinkPrev next prev x) back s (l₁ ++ y :: l₂) none := by
  have hnd := h.nodup
  have hd := List.disjoint_of_nodup_append hnd
  obtain ⟨hyxl,hxl⟩ := List.nodup_cons.mp hnd.of_append_right
  obtain ⟨hxl₂,hl₂⟩ := List.nodup_cons.mp hxl
  have hyl₂ : y ∉ l₂ := fun hm => hyxl (List.mem_cons_of_mem x hm)
  obtain ⟨m,h₁,h₂⟩ := h.split
  obtain ⟨rfl,hy,hs⟩ := Seg.cons_iff.mp h₂
  obtain ⟨hx,hpx,hs'⟩ := Seg.cons_iff.mp hs
  have hun : ∀ q, q ≠ y → unlinkNext next prev x q = next q := fun q hq => by
    simp only [unlinkNext,hpx,Function.update_of_ne hq]
  have hup : ∀ q, (∀ z, next x = some z → q ≠ z) → unlinkPrev next prev x q = prev q :=
    fun q hq => by
      simp only [unlinkPrev]
      cases hnx : next x with
      | none => rfl
      | some z => exact Function.update_of_ne (hq z hnx) _ _
  have hl₁z : ∀ q ∈ l₁, ∀ z, next x = some z → q ≠ z := fun q hq z hz he =>
    hd hq (List.mem_cons_of_mem y (List.mem_cons_of_mem x (he ▸ hs'.mem_of_ne_none hz)))
  have hyz : ∀ z, next x = some z → y ≠ z := fun z hz he => hyl₂ (he ▸ hs'.mem_of_ne_none hz)
  refine Seg.append (h₁.frame (fun q hq => hun q fun he => hd hq (he ▸ List.mem_cons_self))
    (fun q hq => hup q (hl₁z q hq))) ?_
  refine .cons _ y l₂ none (by rw [hup y hyz,hy]) ?_
  have hny : unlinkNext next prev x y = next x := by simp [unlinkNext,hpx]
  rw [hny]
  cases l₂ with
  | nil =>
    rw [Seg.nil_iff.mp hs']
    exact .nil _ none
  | cons z l₃ =>
    obtain ⟨hz,hpz,hs''⟩ := Seg.cons_iff.mp hs'
    rw [hz]
    have hzy : z ≠ y := fun he => hyl₂ (he ▸ List.mem_cons_self)
    refine .cons _ z l₃ none (by simp [unlinkPrev,hz,hpx]) ?_
    rw [hun z hzy]
    have hzl₃ : z ∉ l₃ := (List.nodup_cons.mp hl₂).1
    refine hs''.frame (fun q hq => hun q fun he => hyl₂ (he ▸ List.mem_cons_of_mem z hq))
      (fun q hq => ?_)
    simp only [unlinkPrev,hz]
    exact Function.update_of_ne (by rintro rfl; exact hzl₃ hq) _ _

theorem Seg.unlink_first {s : Option P} {x : P} {L : List P} (h : Seg next prev none s (x :: L) none) :
    Seg (unlinkNext next prev x) (unlinkPrev next prev x) none (next x) L none := by
  obtain ⟨rfl,hx,hs⟩ := Seg.cons_iff.mp h
  have hun : unlinkNext next prev x = next := by simp [unlinkNext,hx]
  rw [hun]
  cases L with
  | nil =>
    rw [Seg.nil_iff.mp hs]
    exact .nil none none
  | cons z L =>
    obtain ⟨hz,-,hs'⟩ := Seg.cons_iff.mp hs
    have hzL : z ∉ L := (List.nodup_cons.mp hs.nodup).1
    rw [hz]
    refine .cons none z L none (by simp [unlinkPrev,hz,hx]) ?_
    refine hs'.frame (fun q _ => rfl) (fun q hq => ?_)
    simp only [unlinkPrev,hz]
    exact Function.update_of_ne (ne_of_mem_of_not_mem hq hzL) _ _

/-- The `next` fields after `p->next = x; x->next = n` with `n` the old `p->next`. -/
def linkNext (next : P → Option P) (p x : P) : P → Option P :=
  Function.update (Function.update next p (some x)) x (next p)

def linkPrev (next prev : P → Option P) (p x : P) : P → Option P :=
  match next p with
  | some z => Function.update (Function.update prev x (some p)) z (some x)
  | none => Function.update prev x (some p)

theorem Seg.link {back s : Option P} {l₁ l₂ : List P} {p x : P}
    (h : Seg next prev back s (l₁ ++ p :: l₂) none) (hx : x ∉ l₁ ++ p :: l₂) :
    Seg (linkNext next p x) (linkPrev next prev p x) back s (l₁ ++ p :: x :: l₂) none := by
  have hnd := h.nodup
  have hd := List.disjoint_of_nodup_append hnd
  obtain ⟨hpl₂,hl₂⟩ := List.nodup_cons.mp hnd.of_append_right
  obtain ⟨m,h₁,h₂⟩ := h.split
  obtain ⟨rfl,hp,hs⟩ := Seg.cons_iff.mp h₂
  have hxp : x ≠ p := fun he => hx (by simp [he])
  have hxl₁ : x ∉ l₁ := fun hm => hx (by simp [hm])
  have hxl₂ : x ∉ l₂ := fun hm => hx (by simp [hm])
  have hln : ∀ q, q ≠ p → q ≠ x → linkNext next p x q = next q := fun q hp hx => by
    simp only [linkNext,Function.update_of_ne hx,Function.update_of_ne hp]
  have hlp : ∀ q, q ≠ x → (∀ z, next p = some z → q ≠ z) → linkPrev next prev p x q = prev q :=
    fun q hqx hqz => by
      simp only [linkPrev]
      cases hnp : next p with
      | none => exact Function.update_of_ne hqx _ _
      | some z => simp only [Function.update_of_ne (hqz z hnp),Function.update_of_ne hqx]
  have hl₁z : ∀ q ∈ l₁, ∀ z, next p = some z → q ≠ z := fun q hq z hz he =>
    hd hq (List.mem_cons_of_mem p (he ▸ hs.mem_of_ne_none hz))
  have hpz : ∀ z, next p = some z → p ≠ z := fun z hz he => hpl₂ (he ▸ hs.mem_of_ne_none hz)
  refine Seg.append (h₁.frame (fun q hq => hln q (fun he => hd hq (he ▸ List.mem_cons_self))
    (fun he => hxl₁ (he ▸ hq))) (fun q hq => hlp q (fun he => hxl₁ (he ▸ hq)) (hl₁z q hq))) ?_
  refine .cons _ p (x :: l₂) none (by rw [hlp p hxp.symm hpz,hp]) ?_
  have hnp : linkNext next p x p = some x := by
    simp [linkNext,Function.update_of_ne hxp.symm]
  rw [hnp]
  refine .cons _ x l₂ none ?_ ?_
  · cases hn : next p with
    | none => simp [linkPrev,hn]
    | some z =>
      have hzx : x ≠ z := fun he => hxl₂ (he ▸ hs.mem_of_ne_none hn)
      simp [linkPrev,hn,Function.update_of_ne hzx]
  · have hxx : linkNext next p x x = next p := by simp [linkNext]
    rw [hxx]
    cases l₂ with
    | nil =>
      rw [Seg.nil_iff.mp hs]
      exact .nil _ none
    | cons z l₃ =>
      obtain ⟨hz,hpz,hs'⟩ := Seg.cons_iff.mp hs
      have hzp : z ≠ p := fun he => hpl₂ (he ▸ List.mem_cons_self)
      have hzx : z ≠ x := fun he => hxl₂ (he ▸ List.mem_cons_self)
      rw [hz]
      refine .cons _ z l₃ none (by simp [linkPrev,hz]) ?_
      rw [hln z hzp hzx]
      have hzl₃ : z ∉ l₃ := (List.nodup_cons.mp hl₂).1
      refine hs'.frame (fun q hq => hln q (fun he => hpl₂ (he ▸ List.mem_cons_of_mem z hq))
        (fun he => hxl₂ (he ▸ List.mem_cons_of_mem z hq))) (fun q hq => ?_)
      refine hlp q (fun he => hxl₂ (he ▸ List.mem_cons_of_mem z hq)) fun z' hz' he => ?_
      rw [hz] at hz'
      cases hz'
      exact hzl₃ (he ▸ hq)

end DList
