import TizenRT.Environ.Model
import TizenRT.Lib.KeyedList

set_option autoImplicit false

/-!
The environment as a finite map: the first `tg_envsize` bytes of the block are one
"name=value\0" string per variable, in the order the variables were last set, with distinct
names. `env_findvar` finds a variable's string, `getenv` reads its value, and `unsetenv` and a
successful `setenv` act on the map as removal and update. A `setenv` that replaces a variable
removes the old string before it asks for the larger block; when the heap refuses, the variable
is gone.
-/

namespace TizenRT.Environ

open TizenRT.Wdog KeyedList

abbrev Vars := List (List Char × List Char)

def envEntry (p : List Char × List Char) : List Char := p.1 ++ '=' :: p.2 ++ [NUL]

def envEncode (L : Vars) : List Char := L.flatMap envEntry

def GoodName (name : List Char) : Prop := name ≠ [] ∧ '=' ∉ name ∧ NUL ∉ name

instance (name : List Char) : Decidable (GoodName name) :=
  inferInstanceAs (Decidable (_ ∧ _ ∧ _))

def envGet (L : Vars) (name : List Char) : Option (List Char) :=
  (lookup Prod.fst L name).map Prod.snd

def envUnset (L : Vars) (name : List Char) : Vars := L.filter fun p => p.1 ≠ name

def envSet (L : Vars) (name value : List Char) : Vars := envUnset L name ++ [(name,value)]

/-- The block holds the strings of `L`, and `tg_envsize` counts them. -/
structure EnvInv (g : TaskGroup) (L : Vars) : Prop where
  good : ∀ p ∈ L, GoodName p.1 ∧ NUL ∉ p.2
  nodup : (L.map Prod.fst).Nodup
  size : g.tg_envsize = (envEncode L).length
  buf : ∃ junk, g.tg_envp.getD [] = envEncode L ++ junk

theorem NUL_ne_eq : NUL ≠ '=' := by decide

@[simp] theorem envEncode_nil : envEncode [] = [] := rfl

@[simp] theorem envEncode_cons (p : List Char × List Char) (L : Vars) :
    envEncode (p :: L) = envEntry p ++ envEncode L := rfl

@[simp] theorem envEncode_append (L₁ L₂ : Vars) :
    envEncode (L₁ ++ L₂) = envEncode L₁ ++ envEncode L₂ := List.flatMap_append

@[simp] theorem length_envEntry (p : List Char × List Char) :
    (envEntry p).length = p.1.length + p.2.length + 2 := by
  simp [envEntry]
  omega

theorem envEncode_eq_nil {L : Vars} : envEncode L = [] ↔ L = [] := by
  cases L with
  | nil => simp
  | cons p L => simp [envEntry]

section Scan

variable {name : List Char}

theorem takeWhile_ne_NUL {l : List Char} (h : NUL ∉ l) (w : List Char) :
    (l ++ NUL :: w).takeWhile (· ≠ NUL) = l := by
  induction l with
  | nil => simp
  | cons a l ih =>
    have ha : a ≠ NUL := fun e => h (e ▸ List.mem_cons_self)
    rw [List.cons_append,List.takeWhile_cons_of_pos (by simpa using ha),
      ih fun hl => h (List.mem_cons_of_mem a hl)]

theorem strlen_envEntry {p : List Char × List Char} (hp : NUL ∉ p.1 ∧ NUL ∉ p.2) (w : List Char) :
    strlen (envEntry p ++ w) + 1 = (envEntry p).length := by
  have hnul : NUL ∉ p.1 ++ '=' :: p.2 := by
    simp only [List.mem_append,List.mem_cons,not_or]
    exact ⟨hp.1,NUL_ne_eq,hp.2⟩
  have he : envEntry p ++ w = (p.1 ++ '=' :: p.2) ++ NUL :: w := by simp [envEntry]
  rw [strlen,he,takeWhile_ne_NUL hnul]
  simp
  omega

theorem envCmpname_name {n : List Char} (hname : '=' ∉ name ∧ NUL ∉ name)
    (hn : '=' ∉ n ∧ NUL ∉ n) (w : List Char) :
    envCmpname (name ++ [NUL]) (n ++ '=' :: w) = decide (name = n) := by
  induction name generalizing n with
  | nil =>
    cases n with
    | nil => simp [envCmpname,NUL_ne_eq]
    | cons c n =>
      have hc : c ≠ NUL := fun e => hn.2 (e ▸ List.mem_cons_self)
      have hc' : c ≠ '=' := fun e => hn.1 (e ▸ List.mem_cons_self)
      simp [envCmpname,Ne.symm hc,hc']
  | cons a name ih =>
    have ha : a ≠ NUL := fun e => hname.2 (e ▸ List.mem_cons_self)
    have ha' : a ≠ '=' := fun e => hname.1 (e ▸ List.mem_cons_self)
    have hrest : '=' ∉ name ∧ NUL ∉ name :=
      ⟨fun m => hname.1 (List.mem_cons_of_mem a m),fun m => hname.2 (List.mem_cons_of_mem a m)⟩
    cases n with
    | nil => simp [envCmpname,ha,ha']
    | cons c n =>
      have hn' : '=' ∉ n ∧ NUL ∉ n :=
        ⟨fun m => hn.1 (List.mem_cons_of_mem c m),fun m => hn.2 (List.mem_cons_of_mem c m)⟩
      by_cases hac : a = c
      · subst hac
        simp [envCmpname,ih hrest hn']
      · simp [envCmpname,hac,ha]

theorem envFindvarFrom_entry {envp w : List Char} {endp ptr : Nat} {q : List Char × List Char}
    (hname : GoodName name) (hq : GoodName q.1 ∧ NUL ∉ q.2) (hbuf : envp.drop ptr = envEntry q ++ w)
    (hlt : ptr < endp) :
    envFindvarFrom envp name endp ptr =
      if name = q.1 then some ptr else envFindvarFrom envp name endp (ptr + (envEntry q).length) := by
  have hcmp : envCmpname (name ++ [NUL]) (envEntry q ++ w) = decide (name = q.1) := by
    have he : envEntry q ++ w = q.1 ++ '=' :: (q.2 ++ NUL :: w) := by simp [envEntry]
    rw [he]
    exact envCmpname_name hname.2 hq.1.2 (q.2 ++ NUL :: w)
  rw [envFindvarFrom,if_pos hlt,hbuf,hcmp,← strlen_envEntry ⟨hq.1.2.2,hq.2⟩ w,Nat.add_assoc]
  by_cases hn : name = q.1 <;> simp [hn]

theorem envFindvarFrom_encode {envp w : List Char} {endp : Nat} (hname : GoodName name) :
    ∀ (L : Vars) (ptr : Nat), (∀ p ∈ L, GoodName p.1 ∧ NUL ∉ p.2) →
      envp.drop ptr = envEncode L ++ w → endp = ptr + (envEncode L).length →
      envFindvarFrom envp name endp ptr =
        if name ∈ L.map Prod.fst then
          some (ptr + (envEncode (L.takeWhile fun p => p.1 ≠ name)).length)
        else none
  | [],ptr,_,_,hend => by
    rw [envFindvarFrom,if_neg (by simp [hend])]
    simp
  | q :: L,ptr,hgood,hbuf,hend => by
    have hq := hgood q List.mem_cons_self
    have hlt : ptr < endp := by
      rw [hend]
      simp
    rw [envFindvarFrom_entry (w := envEncode L ++ w) hname hq (by rw [hbuf]; simp) hlt]
    by_cases hn : name = q.1
    · simp [hn]
    · have hbuf' : envp.drop (ptr + (envEntry q).length) = envEncode L ++ w := by
        rw [← List.drop_drop,hbuf]
        simp
      rw [if_neg hn,envFindvarFrom_encode hname L _ (fun p hp => hgood p (List.mem_cons_of_mem q hp))
        hbuf' (by rw [hend]; simp; omega)]
      have hne : q.1 ≠ name := Ne.symm hn
      simp only [List.map_cons,List.mem_cons,hn,false_or]
      simp [hne,Nat.add_assoc]

theorem envFindvar_eq {g : TaskGroup} {L : Vars} (h : EnvInv g L) (hname : GoodName name) :
    envFindvar g name =
      if name ∈ L.map Prod.fst then some (envEncode (L.takeWhile fun p => p.1 ≠ name)).length
      else none := by
  obtain ⟨junk,hb⟩ := h.buf
  rw [envFindvar,envFindvarFrom_encode hname L 0 h.good (by rw [hb]; rfl) (by rw [h.size]; simp)]
  simp

end Scan

section Split

variable {L : Vars} {name : List Char}

theorem split_of_mem (hnd : (L.map Prod.fst).Nodup) (hmem : name ∈ L.map Prod.fst) :
    ∃ L₁ v L₂, L = L₁ ++ (name,v) :: L₂ ∧ L.takeWhile (fun p => p.1 ≠ name) = L₁ ∧
      envUnset L name = L₁ ++ L₂ ∧ envGet L name = some v := by
  obtain ⟨⟨n,v⟩,hpL,rfl⟩ := List.mem_map.mp hmem
  obtain ⟨L₁,L₂,rfl⟩ := List.append_of_mem hpL
  have hnd' := hnd
  simp only [List.map_append,List.map_cons,List.nodup_append,List.nodup_cons] at hnd'
  have hL₁ : ∀ q ∈ L₁, q.1 ≠ n := fun q hq e => hnd'.2.2 _ (List.mem_map_of_mem hq) _
    List.mem_cons_self e
  have hL₂ : ∀ q ∈ L₂, q.1 ≠ n := fun q hq e => hnd'.2.1.1 (e ▸ List.mem_map_of_mem hq)
  have htake : (L₁ ++ (n,v) :: L₂).takeWhile (fun p => p.1 ≠ n) = L₁ := by
    rw [List.takeWhile_append_of_pos (by simpa using hL₁),List.takeWhile_cons_of_neg (by simp)]
    simp
  refine ⟨L₁,v,L₂,rfl,htake,?_,?_⟩
  · rw [envUnset,List.filter_append,List.filter_cons]
    rw [List.filter_eq_self.mpr (by simpa using hL₁),List.filter_eq_self.mpr (by simpa using hL₂)]
    simp
  · have hlook : lookup Prod.fst (L₁ ++ (n,v) :: L₂) n = some (n,v) :=
      (lookup_eq_some hnd).mpr ⟨List.mem_append_right _ List.mem_cons_self,rfl⟩
    simp [envGet,hlook]

theorem envUnset_of_not_mem (hn : name ∉ L.map Prod.fst) : envUnset L name = L := by
  refine List.filter_eq_self.mpr fun p hp => ?_
  have : p.1 ≠ name := fun e => hn (by rw [← e]; exact List.mem_map_of_mem hp)
  simpa using this

theorem envGet_of_not_mem (hn : name ∉ L.map Prod.fst) : envGet L name = none := by
  rw [envGet,lookup_eq_none.mpr fun p hp e => hn (by rw [← e]; exact List.mem_map_of_mem hp)]
  rfl

end Split

section Heap

variable {avail : Bool} {b b' : List Char} {size : Nat}

theorem kummRealloc_some (h : kummRealloc avail (some b) size = some b') :
    b'.length = size ∧ ∃ junk, b' = b.take size ++ junk := by
  simp only [kummRealloc] at h
  split_ifs at h with h1 h2 h3
  · cases h
    exact ⟨by simp; omega,[],by simp⟩
  · cases h
    exact ⟨by simp; omega,_,by rw [List.take_of_length_le (by omega)]⟩

theorem kummRealloc_of_le (h1 : 1 ≤ size) (hle : size ≤ b.length) :
    kummRealloc avail (some b) size = some (b.take size) := by
  simp [kummRealloc,show ¬size < 1 by omega,hle]

theorem kummRealloc_of_lt (hlt : b.length < size) : kummRealloc false (some b) size = none := by
  simp [kummRealloc,show ¬size < 1 by omega,show ¬size ≤ b.length by omega]

end Heap

section Ops

variable {g : TaskGroup} {L : Vars} {name value : List Char} (avail : Bool)

theorem envRemovevar_entry {b : List Char} {L₁ L₂ : Vars} {p : List Char × List Char} {junk : List Char}
    (hg : g.tg_envp = some b) (hb : b = envEncode L₁ ++ envEntry p ++ envEncode L₂ ++ junk)
    (hsize : g.tg_envsize = (envEncode L₁ ++ envEntry p ++ envEncode L₂).length)
    (hp : NUL ∉ p.1 ∧ NUL ∉ p.2) :
    ∃ junk', (envRemovevar g (envEncode L₁).length).2 =
      { tg_envp := some (envEncode L₁ ++ envEncode L₂ ++ junk')
        tg_envsize := (envEncode L₁ ++ envEncode L₂).length } ∧
      (envEncode L₁ ++ envEncode L₂ ++ junk').length = b.length := by
  have hlt : (envEncode L₁).length < g.tg_envsize := by
    rw [hsize]
    simp
  have hdrop : b.drop (envEncode L₁).length = envEntry p ++ (envEncode L₂ ++ junk) := by
    rw [hb]
    simp
  have hlen := strlen_envEntry hp (envEncode L₂ ++ junk)
  have hsrc : b.drop ((envEncode L₁).length + (envEntry p).length) = envEncode L₂ ++ junk := by
    rw [← List.drop_drop,hdrop]
    simp
  have hcount : g.tg_envsize - ((envEncode L₁).length + (envEntry p).length) =
      (envEncode L₂).length := by
    rw [hsize]
    simp
    omega
  have hblen : b.length = (envEncode L₁).length + (envEntry p).length + (envEncode L₂).length +
      junk.length := by
    rw [hb]
    simp only [List.length_append]
  refine ⟨b.drop ((envEncode L₁).length + (envEncode L₂).length),?_,by simp; omega⟩
  simp only [envRemovevar,if_pos hlt,hg,Option.getD_some,Option.map_some,hdrop,hlen,hsrc,hcount,
    List.take_left',memWrite]
  rw [hb]
  simp only [List.append_assoc,List.take_left',hsize,List.length_append]
  congr 1
  omega

theorem mem_of_envGet {v : List Char} (hold : envGet L name = some v) : name ∈ L.map Prod.fst := by
  obtain ⟨p,hp,-⟩ := Option.map_eq_some_iff.mp hold
  exact List.mem_map.mpr ⟨p,List.mem_of_find?_eq_some hp,by simpa using List.find?_some hp⟩

theorem not_mem_of_envGet (hnone : envGet L name = none) : name ∉ L.map Prod.fst := by
  intro hmem
  obtain ⟨p,hp,hpn⟩ := List.mem_map.mp hmem
  rw [envGet,Option.map_eq_none_iff,lookup_eq_none] at hnone
  exact hnone p hp hpn

theorem EnvInv.of_encode {U : Vars} (hgood : ∀ p ∈ U, GoodName p.1 ∧ NUL ∉ p.2)
    (hnd : (U.map Prod.fst).Nodup) (junk : List Char) :
    EnvInv ⟨some (envEncode U ++ junk),(envEncode U).length⟩ U :=
  ⟨hgood,hnd,rfl,⟨junk,rfl⟩⟩

theorem EnvInv.unset (h : EnvInv g L) (name : List Char) :
    (∀ p ∈ envUnset L name, GoodName p.1 ∧ NUL ∉ p.2) ∧ ((envUnset L name).map Prod.fst).Nodup :=
  ⟨fun p hp => h.good p (List.mem_of_mem_filter hp),
    h.nodup.sublist ((List.filter_sublist).map Prod.fst)⟩

theorem removevar_of_get {old : List Char} (h : EnvInv g L) (hname : GoodName name)
    (hold : envGet L name = some old) :
    ∃ pvar junk, envFindvar g name = some pvar ∧
      (envRemovevar g pvar).2 = ⟨some (envEncode (envUnset L name) ++ junk),
        (envEncode (envUnset L name)).length⟩ ∧
      (envEncode (envUnset L name) ++ junk).length = (g.tg_envp.getD []).length ∧
      (envEncode L).length = (envEncode (envUnset L name)).length + (name.length + old.length + 2) := by
  have hmem := mem_of_envGet hold
  obtain ⟨L₁,v,L₂,hsplit,htake,hunset,hget⟩ := split_of_mem h.nodup hmem
  have hv : v = old := Option.some.inj (hget.symm.trans hold)
  subst hv
  have hfind : envFindvar g name = some (envEncode L₁).length := by
    rw [envFindvar_eq h hname,if_pos hmem,htake]
  rw [hunset]
  subst hsplit
  obtain ⟨junk,hb⟩ := h.buf
  have hp := h.good (name,v) (List.mem_append_right _ List.mem_cons_self)
  have hsize : g.tg_envsize = (envEncode L₁ ++ envEntry (name,v) ++ envEncode L₂).length := by
    rw [h.size]
    simp
  obtain ⟨b,hg⟩ : ∃ b, g.tg_envp = some b := by
    cases hg : g.tg_envp with
    | some b => exact ⟨b,rfl⟩
    | none =>
      rw [hg] at hb
      have := congrArg List.length hb
      simp at this
      omega
  rw [hg,Option.getD_some] at hb
  have hb' : b = envEncode L₁ ++ envEntry (name,v) ++ envEncode L₂ ++ junk := by
    rw [hb]
    simp
  obtain ⟨junk',hrem,hlen⟩ := envRemovevar_entry hg hb' hsize ⟨hp.1.2.2,hp.2⟩
  refine ⟨_,junk',hfind,by rw [hrem]; simp,by rw [hg,Option.getD_some,← hlen]; simp,by simp; omega⟩

theorem setenvAppend_spec (h : EnvInv g L) (hname : GoodName name) (hval : NUL ∉ value)
    (hnew : name ∉ L.map Prod.fst) :
    setenvAppend avail g name value = (ERROR,some ENOMEM,g) ∨
      ∃ g', setenvAppend avail g name value = (OK,none,g') ∧ EnvInv g' (L ++ [(name,value)]) := by
  obtain ⟨junk,hb⟩ := h.buf
  have hgood : ∀ p ∈ L ++ [(name,value)], GoodName p.1 ∧ NUL ∉ p.2 := by
    intro p hp
    rcases List.mem_append.mp hp with hp | hp
    · exact h.good p hp
    · rw [List.mem_singleton.mp hp]
      exact ⟨hname,hval⟩
  have hnd : ((L ++ [(name,value)]).map Prod.fst).Nodup := by
    rw [List.map_append,List.map_singleton]
    refine List.nodup_append.mpr ⟨h.nodup,List.nodup_singleton _,fun a ha b hb e => hnew ?_⟩
    rw [List.mem_singleton.mp hb] at e
    exact (show a = name from e) ▸ ha
  have hentry : (name ++ '=' :: value ++ [NUL]) = envEntry (name,value) := rfl
  cases hg : g.tg_envp with
  | some envp =>
    rw [hg,Option.getD_some] at hb
    simp only [setenvAppend,hg]
    cases hr : kummRealloc avail (some envp) (g.tg_envsize + (name.length + value.length + 2)) with
    | none => exact .inl rfl
    | some newenvp =>
      obtain ⟨hlen,junk',hnew'⟩ := kummRealloc_some hr
      refine .inr ⟨_,rfl,hgood,hnd,by rw [h.size]; simp,?_⟩
      refine ⟨newenvp.drop (g.tg_envsize + (envEntry (name,value)).length),?_⟩
      have htake : newenvp.take g.tg_envsize = envEncode L := by
        rw [hnew',hb,h.size,List.take_append_of_le_length (by simp),List.take_take,
          Nat.min_eq_left (by omega),List.take_left' rfl]
      simp only [Option.getD_some,memWrite,hentry,htake,envEncode_append,envEncode_cons,
        envEncode_nil,List.append_nil,List.append_assoc]
  | none =>
    rw [hg] at hb
    have hL : L = [] := envEncode_eq_nil.mp (List.append_eq_nil_iff.mp hb.symm).1
    subst hL
    simp only [setenvAppend,hg]
    cases hm : kummMalloc avail (name.length + value.length + 2) with
    | none => exact .inl rfl
    | some newenvp =>
      refine .inr ⟨_,rfl,hgood,hnd,by simp,?_⟩
      refine ⟨newenvp.drop (envEntry (name,value)).length,?_⟩
      simp [memWrite,hentry]

theorem setenvAppend_of_refused {b : List Char} (hg : g.tg_envp = some b)
    (hlt : b.length < g.tg_envsize + (name.length + value.length + 2)) :
    setenvAppend false g name value = (ERROR,some ENOMEM,g) := by
  simp only [setenvAppend,hg,kummRealloc_of_lt hlt]

theorem unsetenv_spec (h : EnvInv g L) (hname : GoodName name) :
    ∃ g', unsetenv avail g name = (OK,none,g') ∧ EnvInv g' (envUnset L name) := by
  cases hold : envGet L name with
  | some old =>
    obtain ⟨pvar,junk,hfind,hrem,-,-⟩ := removevar_of_get h hname hold
    obtain ⟨hgood,hnd⟩ := h.unset name
    simp only [unsetenv,hfind,hrem]
    by_cases h0 : (envEncode (envUnset L name)).length = 0
    · have hnil : envUnset L name = [] := envEncode_eq_nil.mp (List.eq_nil_of_length_eq_zero h0)
      rw [show kummRealloc avail (some (envEncode (envUnset L name) ++ junk))
        (envEncode (envUnset L name)).length = none by simp [kummRealloc,h0]]
      rw [hnil] at hgood hnd h0 ⊢
      exact ⟨⟨none,0⟩,by simp,hgood,hnd,rfl,⟨[],rfl⟩⟩
    · rw [kummRealloc_of_le (by omega) (by simp)]
      refine ⟨_,rfl,hgood,hnd,rfl,⟨[],?_⟩⟩
      rw [Option.getD_some,List.append_nil,List.take_left' rfl]
  | none =>
    have hmem := not_mem_of_envGet hold
    refine ⟨g,?_,by rw [envUnset_of_not_mem hmem]; exact h⟩
    simp only [unsetenv,envFindvar_eq h hname,if_neg hmem]

theorem getenv_spec (h : EnvInv g L) (hname : GoodName name) : (getenv g name).1 = envGet L name := by
  by_cases hmem : name ∈ L.map Prod.fst
  · obtain ⟨L₁,v,L₂,hsplit,htake,-,hget⟩ := split_of_mem h.nodup hmem
    have hfind : envFindvar g name = some (envEncode L₁).length := by
      rw [envFindvar_eq h hname,if_pos hmem,htake]
    rw [hget]
    subst hsplit
    obtain ⟨junk,hb⟩ := h.buf
    have hp := h.good (name,v) (List.mem_append_right _ List.mem_cons_self)
    have hdrop : (g.tg_envp.getD []).drop (envEncode L₁).length =
        (name ++ '=' :: v) ++ NUL :: (envEncode L₂ ++ junk) := by
      rw [hb]
      simp [envEntry]
    have hnul : NUL ∉ name ++ '=' :: v := by
      simp only [List.mem_append,List.mem_cons,not_or]
      exact ⟨hp.1.2.2,NUL_ne_eq,hp.2⟩
    have hval : (name ++ '=' :: v).dropWhile (· ≠ '=') = '=' :: v := by
      have hne : ∀ c ∈ name, c ≠ '=' := fun c hc e => hp.1.2.1 (e ▸ hc)
      rw [List.dropWhile_append_of_pos (by simpa using hne)]
      simp
    simp only [getenv,hfind,hdrop,takeWhile_ne_NUL hnul,hval]
    simp
  · simp only [getenv,envFindvar_eq h hname,if_neg hmem,envGet_of_not_mem hmem]

end Ops

end TizenRT.Environ
