import Mathlib.Data.List.Nodup
import Mathlib.Data.List.Find

set_option autoImplicit false

/-!
A list of items looked up by a key function: `lookup k l x` is the first item of key `x`. While
the keys along the list are distinct, appending an item of a new key, erasing an item, and
replacing an item by one of the same key act on `lookup` as on a finite map.
-/

namespace KeyedList

variable {α K : Type} [DecidableEq K]

def lookup (k : α → K) (l : List α) (x : K) : Option α := l.find? (fun a => k a = x)

theorem lookup_eq_none {k : α → K} {l : List α} {x : K} :
    lookup k l x = none ↔ ∀ a ∈ l, k a ≠ x := by
  simp [lookup,List.find?_eq_none]

theorem lookup_eq_some {k : α → K} {l : List α} {x : K} {a : α} (hnd : (l.map k).Nodup) :
    lookup k l x = some a ↔ a ∈ l ∧ k a = x := by
  constructor
  · intro h
    exact ⟨List.mem_of_find?_eq_some h,by simpa using List.find?_some h⟩
  · rintro ⟨ha,hk⟩
    obtain ⟨b,hb⟩ : ∃ b, lookup k l x = some b := by
      refine Option.ne_none_iff_exists'.mp fun hn => ?_
      exact lookup_eq_none.mp hn a ha hk
    have hbl : b ∈ l := List.mem_of_find?_eq_some hb
    have hkb : k b = x := by simpa using List.find?_some hb
    rw [hb,List.inj_on_of_nodup_map hnd hbl ha (hkb.trans hk.symm)]

theorem isSome_lookup {k : α → K} {l : List α} {x : K} :
    (lookup k l x).isSome ↔ ∃ a ∈ l, k a = x := by
  simp [lookup,List.find?_isSome]

theorem lookup_append_singleton (k : α → K) (l : List α) (b : α) (x : K) :
    lookup k (l ++ [b]) x = (lookup k l x).or (if k b = x then some b else none) := by
  simp only [lookup,List.find?_append,List.find?_singleton]
  by_cases h : k b = x <;> simp [h]

theorem lookup_filter_ne (k : α → K) (l : List α) (y x : K) :
    lookup k (l.filter fun a => k a ≠ y) x = if x = y then none else lookup k l x := by
  simp only [lookup, List.find?_filter]
  split_ifs with hxy
  · subst hxy
    rw [List.find?_eq_none]
    simp
  · congr
    funext a
    by_cases hax : k a = x
    · simp [hax, hxy]
    · simp [hax]

theorem lookup_congr {k k' : α → K} {l : List α} (h : ∀ a ∈ l, k a = k' a) :
    lookup k l = lookup k' l := by
  funext x
  simp only [lookup]
  exact List.find?_congr fun a ha => by rw [h a ha]

variable [DecidableEq α]

omit [DecidableEq K] in
theorem nodup_map_erase {k : α → K} {l : List α} (hnd : (l.map k).Nodup) (a : α) :
    ((l.erase a).map k).Nodup :=
  hnd.sublist ((List.erase_sublist).map k)

theorem lookup_erase {k : α → K} {l : List α} {a : α} (hnd : (l.map k).Nodup) (ha : a ∈ l)
    (x : K) : lookup k (l.erase a) x = if k a = x then none else lookup k l x := by
  have hnd' := nodup_map_erase hnd a
  split_ifs with hx
  · rw [lookup_eq_none]
    intro b hb hkb
    have hbl : b ∈ l := List.mem_of_mem_erase hb
    have hba : b = a := List.inj_on_of_nodup_map hnd hbl ha (hkb.trans hx.symm)
    have hnd_l : l.Nodup := List.Nodup.of_map k hnd
    exact (hnd_l.mem_erase_iff.mp (hba ▸ hb)).1 rfl
  · cases hl : lookup k l x with
    | none =>
      rw [lookup_eq_none] at hl ⊢
      exact fun b hb => hl b (List.mem_of_mem_erase hb)
    | some b =>
      obtain ⟨hbl,hkb⟩ := (lookup_eq_some hnd).mp hl
      have hba : b ≠ a := fun e => hx (e ▸ hkb)
      exact (lookup_eq_some hnd').mpr ⟨(List.mem_erase_of_ne hba).mpr hbl,hkb⟩

end KeyedList
