import Mathlib

set_option autoImplicit false

/-!
Boundary-tag heaps: memory cut into blocks that follow one another, each header holding the size of
its block and a tag computed from the size of the block before it and whether the block is free.
`Tiles size tag enc a ps bs e pe` says that from address `a` on the headers describe the blocks `bs`
one after another up to `e`, `ps` being the size of the block before `a` and `pe` that of the last.
-/

namespace BoundaryTag

/-- A block: its header address, its size and whether it is free. -/
structure Block where
  addr : Nat
  size : Nat
  free : Bool
  deriving DecidableEq, Repr

section

variable (size tag : Nat → Nat) (enc : Nat → Bool → Nat)

inductive Tiles : Nat → Nat → List Block → Nat → Nat → Prop
  | nil (a ps : Nat) : Tiles a ps [] a ps
  | cons {a ps e pe : Nat} {b : Block} {bs : List Block} : b.addr = a → size a = b.size →
      tag a = enc ps b.free → 0 < b.size → Tiles (a + b.size) b.size bs e pe → Tiles a ps (b :: bs) e pe

end

variable {size tag : Nat → Nat} {enc : Nat → Bool → Nat}

theorem Tiles.nil_iff {a ps e pe : Nat} : Tiles size tag enc a ps [] e pe ↔ e = a ∧ pe = ps := by
  constructor
  · intro h
    cases h
    exact ⟨rfl,rfl⟩
  · rintro ⟨rfl,rfl⟩
    exact .nil _ _

theorem Tiles.cons_iff {a ps e pe : Nat} {b : Block} {bs : List Block} :
    Tiles size tag enc a ps (b :: bs) e pe ↔ b.addr = a ∧ size a = b.size ∧ tag a = enc ps b.free ∧
      0 < b.size ∧ Tiles size tag enc (a + b.size) b.size bs e pe := by
  constructor
  · intro h
    cases h with
    | cons ha hs ht hpos h => exact ⟨ha,hs,ht,hpos,h⟩
  · rintro ⟨ha,hs,ht,hpos,h⟩
    exact .cons ha hs ht hpos h

theorem Tiles.append {a ps m pm e pe : Nat} {l₁ l₂ : List Block}
    (h₁ : Tiles size tag enc a ps l₁ m pm) (h₂ : Tiles size tag enc m pm l₂ e pe) :
    Tiles size tag enc a ps (l₁ ++ l₂) e pe := by
  induction h₁ with
  | nil => exact h₂
  | cons ha hs ht hpos _ ih => exact .cons ha hs ht hpos (ih h₂)

theorem Tiles.split {a ps e pe : Nat} {l₁ l₂ : List Block}
    (h : Tiles size tag enc a ps (l₁ ++ l₂) e pe) :
    ∃ m pm, Tiles size tag enc a ps l₁ m pm ∧ Tiles size tag enc m pm l₂ e pe := by
  induction l₁ generalizing a ps with
  | nil => exact ⟨a,ps,.nil a ps,h⟩
  | cons b l₁ ih =>
    obtain ⟨ha,hs,ht,hpos,h⟩ := Tiles.cons_iff.mp h
    obtain ⟨m,pm,h₁,h₂⟩ := ih h
    exact ⟨m,pm,.cons ha hs ht hpos h₁,h₂⟩

theorem Tiles.single_iff {a ps e pe : Nat} {b : Block} :
    Tiles size tag enc a ps [b] e pe ↔
      b.addr = a ∧ size a = b.size ∧ tag a = enc ps b.free ∧ 0 < b.size ∧ e = a + b.size ∧ pe = b.size := by
  rw [Tiles.cons_iff,Tiles.nil_iff]

theorem Tiles.frame {size' tag' : Nat → Nat} {a ps e pe : Nat} {bs : List Block}
    (h : Tiles size tag enc a ps bs e pe) (hs : ∀ b ∈ bs, size' b.addr = size b.addr)
    (ht : ∀ b ∈ bs, tag' b.addr = tag b.addr) : Tiles size' tag' enc a ps bs e pe := by
  induction h with
  | nil a ps => exact .nil a ps
  | @cons _ _ _ _ b _ ha hsz htg hpos _ ih =>
    subst ha
    refine .cons rfl ?_ ?_ hpos (ih (fun c hc => hs c (by simp [hc])) (fun c hc => ht c (by simp [hc])))
    · rw [hs b (by simp),hsz]
    · rw [ht b (by simp),htg]

theorem Tiles.le {a ps e pe : Nat} {bs : List Block} (h : Tiles size tag enc a ps bs e pe) : a ≤ e := by
  induction h with
  | nil => exact Nat.le_refl _
  | cons _ _ _ _ _ ih => omega

theorem Tiles.bounds {a ps e pe : Nat} {bs : List Block} (h : Tiles size tag enc a ps bs e pe) :
    ∀ b ∈ bs, a ≤ b.addr ∧ b.addr + b.size ≤ e := by
  induction h with
  | nil => simp
  | cons ha _ _ hpos h ih =>
    intro c hc
    rcases List.mem_cons.mp hc with rfl | hc
    · have := h.le
      omega
    · have := ih c hc
      omega

theorem Tiles.end_eq {a ps e pe : Nat} {bs : List Block} (h : Tiles size tag enc a ps bs e pe) :
    e = a + (bs.map Block.size).sum := by
  induction h with
  | nil => simp
  | cons _ _ _ _ _ ih =>
    simp only [List.map_cons,List.sum_cons]
    omega

theorem Tiles.pairwise {a ps e pe : Nat} {bs : List Block} (h : Tiles size tag enc a ps bs e pe) :
    bs.Pairwise fun b c => b.addr + b.size ≤ c.addr := by
  induction h with
  | nil => exact .nil
  | cons ha _ _ _ h ih =>
    refine List.Pairwise.cons (fun c hc => ?_) ih
    have := (h.bounds c hc).1
    omega

theorem Tiles.size_eq {a ps e pe : Nat} {bs : List Block} (h : Tiles size tag enc a ps bs e pe)
    {b : Block} (hb : b ∈ bs) : size b.addr = b.size := by
  induction h with
  | nil => simp at hb
  | cons ha hs _ _ _ ih =>
    rcases List.mem_cons.mp hb with rfl | hb
    · rw [ha,hs]
    · exact ih hb

theorem Tiles.pos {a ps e pe : Nat} {bs : List Block} (h : Tiles size tag enc a ps bs e pe)
    {b : Block} (hb : b ∈ bs) : 0 < b.size := by
  induction h with
  | nil => simp at hb
  | cons _ _ _ hpos _ ih =>
    rcases List.mem_cons.mp hb with rfl | hb
    · exact hpos
    · exact ih hb

theorem Tiles.addr_nodup {a ps e pe : Nat} {bs : List Block} (h : Tiles size tag enc a ps bs e pe) :
    (bs.map Block.addr).Nodup := by
  refine List.pairwise_map.mpr (h.pairwise.imp_of_mem fun hb _ hbc => ?_)
  have := h.pos hb
  omega

theorem Tiles.disjoint {a ps e pe : Nat} {bs : List Block} (h : Tiles size tag enc a ps bs e pe)
    {b c : Block} (hb : b ∈ bs) (hc : c ∈ bs) (hne : b ≠ c) :
    b.addr + b.size ≤ c.addr ∨ c.addr + c.size ≤ b.addr :=
  @List.Pairwise.forall _ _ _ ⟨fun _ _ => Or.symm⟩ (h.pairwise.imp Or.inl) _ hb _ hc hne

theorem Tiles.addr_ne {a ps e pe : Nat} {l₁ l₂ : List Block} {b : Block}
    (h : Tiles size tag enc a ps (l₁ ++ b :: l₂) e pe) : ∀ y ∈ l₁ ++ l₂, y.addr ≠ b.addr := by
  have hnd := h.addr_nodup
  simp only [List.map_append,List.map_cons,List.nodup_middle,List.nodup_cons,List.mem_append,List.mem_map,
    not_or] at hnd
  intro y hy he
  rcases List.mem_append.mp hy with hy | hy
  · exact hnd.1.1 ⟨y,hy,he⟩
  · exact hnd.1.2 ⟨y,hy,he⟩

theorem Tiles.next {a ps e pe : Nat} {l₁ l₂ : List Block} {b d : Block}
    (h : Tiles size tag enc a ps (l₁ ++ b :: d :: l₂) e pe) :
    d.addr = b.addr + b.size ∧ tag d.addr = enc b.size d.free := by
  obtain ⟨m,pm,-,h₂⟩ := h.split
  obtain ⟨hb,-,-,-,h₂⟩ := Tiles.cons_iff.mp h₂
  obtain ⟨hd,-,ht,-,-⟩ := Tiles.cons_iff.mp h₂
  subst hb
  exact ⟨hd,hd ▸ ht⟩

section Rewrite

variable {size' tag' : Nat → Nat}

theorem Tiles.last {a ps e pe : Nat} {bs : List Block} (h : Tiles size tag enc a ps bs e pe) :
    pe = (bs.getLast?.map Block.size).getD ps := by
  induction h with
  | nil => rfl
  | @cons _ _ _ _ b bs _ _ _ _ h ih =>
    cases bs with
    | nil => exact (Tiles.nil_iff.mp h).2
    | cons c bs =>
      rw [List.getLast?_cons_cons]
      cases hz : (c :: bs).getLast? with
      | none => simp at hz
      | some z => simpa [hz] using ih

theorem Tiles.tag_eq {a ps e pe : Nat} {l₁ l₂ : List Block} {b : Block}
    (h : Tiles size tag enc a ps (l₁ ++ b :: l₂) e pe) :
    tag b.addr = enc ((l₁.getLast?.map Block.size).getD ps) b.free := by
  obtain ⟨m,pm,h₁,h₂⟩ := h.split
  obtain ⟨hb,-,ht,-,-⟩ := Tiles.cons_iff.mp h₂
  rw [hb,ht,h₁.last]

theorem Tiles.in_context {a ps e pe e' pe' : Nat} {l₁ l₂ l₂' : List Block} {b : Block}
    (h : Tiles size tag enc a ps (l₁ ++ b :: l₂) e pe) (hs : ∀ x < b.addr, size' x = size x)
    (ht : ∀ x < b.addr, tag' x = tag x)
    (hmid : Tiles size tag enc b.addr ((l₁.getLast?.map Block.size).getD ps) (b :: l₂) e pe →
      Tiles size' tag' enc b.addr ((l₁.getLast?.map Block.size).getD ps) l₂' e' pe') :
    Tiles size' tag' enc a ps (l₁ ++ l₂') e' pe' := by
  obtain ⟨m,pm,h₁,h₂⟩ := h.split
  obtain rfl : b.addr = m := (Tiles.cons_iff.mp h₂).1
  obtain rfl := h₁.last
  have hlt : ∀ x ∈ l₁, x.addr < b.addr := fun x hx => by
    have := h₁.bounds x hx
    have := h₁.pos hx
    omega
  exact (h₁.frame (fun x hx => hs _ (hlt x hx)) (fun x hx => ht _ (hlt x hx))).append (hmid h₂)

theorem Tiles.retag {a ps ps' e pe : Nat} {bs : List Block} {b : Block} {f : Bool}
    (h : Tiles size tag enc a ps (b :: bs) e pe) (hta : tag' a = enc ps' f)
    (ht : ∀ x, x ≠ a → tag' x = tag x) : Tiles size tag' enc a ps' ({ b with free := f } :: bs) e pe := by
  obtain ⟨hb,hs,-,hpos,h⟩ := Tiles.cons_iff.mp h
  refine .cons hb hs hta hpos (h.frame (fun _ _ => rfl) fun x hx => ht _ ?_)
  have := (h.bounds x hx).1
  omega

theorem Tiles.merge {a ps e pe : Nat} {bs : List Block} {b c d : Block}
    (h : Tiles size tag enc a ps (b :: c :: d :: bs) e pe) (hsa : size' a = b.size + c.size)
    (hs : ∀ x, x ≠ a → x ≠ c.addr → size' x = size x) (htd : tag' d.addr = enc (b.size + c.size) d.free)
    (ht : ∀ x, x ≠ c.addr → x ≠ d.addr → tag' x = tag x) :
    Tiles size' tag' enc a ps ({ b with size := b.size + c.size } :: d :: bs) e pe := by
  obtain ⟨hb,-,htb,hposb,h⟩ := Tiles.cons_iff.mp h
  obtain ⟨hc,-,-,hposc,h⟩ := Tiles.cons_iff.mp h
  obtain ⟨hd,hsd,-,hposd,h⟩ := Tiles.cons_iff.mp h
  have hlt : ∀ x ∈ bs, d.addr < x.addr := fun x hx => by
    have := (h.bounds x hx).1
    omega
  have hd' : d.addr = a + (b.size + c.size) := by omega
  refine .cons hb hsa (by rw [ht a (by omega) (by omega),htb]) (by show 0 < b.size + c.size; omega) ?_
  show Tiles size' tag' enc (a + (b.size + c.size)) (b.size + c.size) (d :: bs) e pe
  refine .cons hd' (by rw [hs _ (by omega) (by omega),← Nat.add_assoc,hsd]) (by rw [← hd']; exact htd)
    hposd ?_
  rw [← Nat.add_assoc]
  refine h.frame (fun x hx => hs _ ?_ ?_) (fun x hx => ht _ ?_ ?_) <;>
  · have := hlt x hx
    omega

theorem Tiles.split_block {a ps e pe s : Nat} {bs : List Block} {b d : Block} {f : Bool}
    (h : Tiles size tag enc a ps (b :: d :: bs) e pe) (hs0 : 0 < s) (hlt : s < b.size)
    (hsa : size' a = s) (hsr : size' (a + s) = b.size - s) (hs : ∀ x, x ≠ a → x ≠ a + s → size' x = size x)
    (htr : tag' (a + s) = enc s f) (htd : tag' d.addr = enc (b.size - s) d.free)
    (ht : ∀ x, x ≠ a + s → x ≠ d.addr → tag' x = tag x) :
    Tiles size' tag' enc a ps (⟨a,s,b.free⟩ :: ⟨a + s,b.size - s,f⟩ :: d :: bs) e pe := by
  obtain ⟨hb,-,htb,-,h⟩ := Tiles.cons_iff.mp h
  obtain ⟨hd,hsd,-,hposd,h⟩ := Tiles.cons_iff.mp h
  have hlt' : ∀ x ∈ bs, d.addr < x.addr := fun x hx => by
    have := (h.bounds x hx).1
    omega
  have hd' : d.addr = a + s + (b.size - s) := by omega
  refine .cons rfl hsa (by rw [ht a (by omega) (by omega),htb]) hs0 ?_
  refine .cons rfl hsr htr (by show 0 < b.size - s; omega) ?_
  show Tiles size' tag' enc (a + s + (b.size - s)) (b.size - s) (d :: bs) e pe
  rw [← hd']
  refine .cons rfl (by rw [hs _ (by omega) (by omega),hd,hsd]) htd hposd ?_
  refine (by rwa [hd] : Tiles size tag enc (d.addr + d.size) d.size bs e pe).frame
    (fun x hx => hs _ ?_ ?_) (fun x hx => ht _ ?_ ?_) <;>
  · have := hlt' x hx
    omega

theorem Tiles.shift {a ps e pe s : Nat} {bs : List Block} {b c d : Block} {f : Bool}
    (h : Tiles size tag enc a ps (b :: c :: d :: bs) e pe) (hs0 : 0 < s) (hlt : s < b.size + c.size)
    (hsa : size' a = s) (hsr : size' (a + s) = b.size + c.size - s)
    (hs : ∀ x, x ≠ a → x ≠ a + s → x ≠ c.addr → size' x = size x) (htr : tag' (a + s) = enc s f)
    (htd : tag' d.addr = enc (b.size + c.size - s) d.free)
    (ht : ∀ x, x ≠ a + s → x ≠ c.addr → x ≠ d.addr → tag' x = tag x) :
    Tiles size' tag' enc a ps (⟨a,s,b.free⟩ :: ⟨a + s,b.size + c.size - s,f⟩ :: d :: bs) e pe := by
  obtain ⟨hb,-,htb,hposb,h⟩ := Tiles.cons_iff.mp h
  obtain ⟨hc,-,-,hposc,h⟩ := Tiles.cons_iff.mp h
  obtain ⟨hd,hsd,-,hposd,h⟩ := Tiles.cons_iff.mp h
  have hlt' : ∀ x ∈ bs, d.addr < x.addr := fun x hx => by
    have := (h.bounds x hx).1
    omega
  have hd' : d.addr = a + s + (b.size + c.size - s) := by omega
  refine .cons rfl hsa (by rw [ht a (by omega) (by omega) (by omega),htb]) hs0 ?_
  refine .cons rfl hsr htr (by show 0 < b.size + c.size - s; omega) ?_
  show Tiles size' tag' enc (a + s + (b.size + c.size - s)) (b.size + c.size - s) (d :: bs) e pe
  rw [← hd']
  refine .cons rfl (by rw [hs _ (by omega) (by omega) (by omega),hd,hsd]) htd hposd ?_
  refine (by rwa [hd] : Tiles size tag enc (d.addr + d.size) d.size bs e pe).frame
    (fun x hx => hs _ ?_ ?_ ?_) (fun x hx => ht _ ?_ ?_ ?_) <;>
  · have := hlt' x hx
    omega

theorem Tiles.grow {a ps e pe s n : Nat} {l : List Block} {t : Block} {f : Bool}
    (h : Tiles size tag enc a ps (l ++ [t]) e pe) (hs0 : 0 < s) (hn0 : 0 < n) (hst : size' t.addr = s)
    (hsn : size' (t.addr + s) = n) (hs : ∀ x < t.addr, size' x = size x) (htn : tag' (t.addr + s) = enc s f)
    (ht : ∀ x ≤ t.addr, tag' x = tag x) :
    Tiles size' tag' enc a ps (l ++ [{ t with size := s },⟨t.addr + s,n,f⟩]) (t.addr + s + n) n := by
  refine h.in_context hs (fun x hx => ht x (by omega)) fun ht' => ?_
  obtain ⟨-,-,htt,-,-⟩ := Tiles.cons_iff.mp ht'
  refine .cons rfl hst (by rw [ht _ (Nat.le_refl _),htt]) hs0 (.cons rfl hsn htn hn0 (.nil _ _))

end Rewrite

end BoundaryTag
