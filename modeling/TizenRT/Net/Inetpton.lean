import TizenRT.Lib.CScan
import Mathlib.Tactic.SplitIfs

set_option autoImplicit false

/-!
The text-to-address parsers of libc/net/lib_inetpton.c, `inet_ipv4_pton` and `inet_ipv6_pton`, as
`CScan` loops over the string. The stores into the address bytes (`ip[ndots]` for IPv4, the local
`ip` and `rip` arrays for IPv6) are kept as the list of the indices and bytes written, in order, so
that a store past the end of an array is a store like any other.

Both loops store a group when its terminator is read, and check the number of groups only at a
separator: at the NUL the group is stored before the count is looked at. A fifth IPv4 group is stored
at `ip[4]`, past the four bytes of the `in_addr`, and a ninth IPv6 group at `ip[16]` and `ip[17]`.
-/

namespace TizenRT.Net

open CScan

/-- `atoi` of a string of decimal digits, which is all `numstr` ever holds here. -/
def atoi (numstr : List Char) : Nat :=
  numstr.foldl (fun value ch => 10 * value + (ch.toNat - '0'.toNat)) 0

/-- The locals of `inet_ipv4_pton`: the digits of the group being read (`numoffset` is their
number), the dots seen, and the stores made into the address so far. -/
structure Ipv4Pton where
  numstr : List Char
  ndots : Nat
  ip : List (Nat × UInt8)

/-- One pass of the loop of `inet_ipv4_pton`, for the character `ch`; it leaves with the value
returned and the stores made. -/
def inetIpv4PtonPass (ch : Char) (st : Ipv4Pton) : Pass Ipv4Pton (Int × List (Nat × UInt8)) :=
  if ch = '.' ∨ ch = NUL then
    if ch = '.' ∧ st.ndots ≥ 4 then .done (0,st.ip)
    else if st.numstr.length < 1 then .done (0,st.ip)
    else
      let value := atoi st.numstr
      if value > 255 then .done (0,st.ip)
      else
        let ip := st.ip ++ [(st.ndots,value.toUInt8)]
        if ch = NUL then
          if st.ndots ≠ 3 then .done (0,ip) else .done (1,ip)
        else .next { numstr := [], ndots := st.ndots + 1, ip := ip }
  else if ch.isDigit then
    let numstr := st.numstr ++ [ch]
    if numstr.length ≥ 4 then .done (0,st.ip) else .next { st with numstr := numstr }
  else .done (0,st.ip)

/-- `inet_ipv4_pton`: the value returned and the stores into the `in_addr`, after its `memset`. -/
def inetIpv4Pton (src : List Char) : Int × List (Nat × UInt8) :=
  run inetIpv4PtonPass (fun st => (0,st.ip)) src { numstr := [], ndots := 0, ip := [] }

def Ipv4Group (g : List Char) : Prop := (∀ c ∈ g, c.isDigit) ∧ 1 ≤ g.length ∧ g.length ≤ 3 ∧ atoi g ≤ 255

instance (g : List Char) : Decidable (Ipv4Group g) := inferInstanceAs (Decidable (_ ∧ _))

def dottedQuad (g₀ g₁ g₂ g₃ : List Char) : List Char := g₀ ++ '.' :: (g₁ ++ '.' :: (g₂ ++ '.' :: g₃))

theorem ne_dot_of_isDigit {c : Char} (hc : c.isDigit) : c ≠ '.' ∧ c ≠ NUL := by
  constructor <;> rintro rfl <;> revert hc <;> decide

theorem steps_inetIpv4PtonPass_digits {g : List Char} (hg : ∀ c ∈ g, c.isDigit) {n : List Char}
    (hlen : (n ++ g).length < 4) (ndots : Nat) (ip : List (Nat × UInt8)) :
    steps inetIpv4PtonPass g ⟨n,ndots,ip⟩ = some ⟨n ++ g,ndots,ip⟩ := by
  induction g generalizing n with
  | nil => simp [steps]
  | cons c g ih =>
    have hc := hg c List.mem_cons_self
    have hpass : inetIpv4PtonPass c ⟨n,ndots,ip⟩ = .next ⟨n ++ [c],ndots,ip⟩ := by
      have hn : n.length < 3 := by simp at hlen; omega
      simp [inetIpv4PtonPass,(ne_dot_of_isDigit hc).1,(ne_dot_of_isDigit hc).2,hc,hn]
    rw [steps_cons_next hpass,ih (fun d hd => hg d (List.mem_cons_of_mem c hd)) (by simpa using hlen)]
    simp

theorem run_inetIpv4PtonPass_group {g : List Char} (hg : Ipv4Group g) {ndots : Nat} (hk : ndots < 4)
    (eos : Ipv4Pton → Int × List (Nat × UInt8)) (ip : List (Nat × UInt8)) (rest : List Char) :
    run inetIpv4PtonPass eos (g ++ '.' :: rest) ⟨[],ndots,ip⟩ =
      run inetIpv4PtonPass eos rest ⟨[],ndots + 1,ip ++ [(ndots,(atoi g).toUInt8)]⟩ := by
  obtain ⟨hd,h1,h3,h255⟩ := hg
  rw [run_append (steps_inetIpv4PtonPass_digits hd (by simp; omega) ndots ip)]
  apply run_cons_next
  have hlen : ¬g.length < 1 := by omega
  simp [inetIpv4PtonPass,show ¬(4 ≤ ndots) by omega,hlen,show ¬(255 < atoi g) by omega,
    show ('.' : Char) ≠ NUL by decide]

theorem run_inetIpv4PtonPass_last {g : List Char} (hg : Ipv4Group g)
    (eos : Ipv4Pton → Int × List (Nat × UInt8)) (ip : List (Nat × UInt8)) :
    run inetIpv4PtonPass eos g ⟨[],3,ip⟩ = (1,ip ++ [(3,(atoi g).toUInt8)]) := by
  obtain ⟨hd,h1,h3,h255⟩ := hg
  rw [← List.append_nil g,run_append (steps_inetIpv4PtonPass_digits hd (by simp; omega) 3 ip),
    run]
  have hlen : ¬g.length < 1 := by omega
  simp [inetIpv4PtonPass,hlen,show ¬(255 < atoi g) by omega,show NUL ≠ '.' by decide]

theorem inetIpv4Pton_dottedQuad {g₀ g₁ g₂ g₃ : List Char} (h₀ : Ipv4Group g₀) (h₁ : Ipv4Group g₁)
    (h₂ : Ipv4Group g₂) (h₃ : Ipv4Group g₃) :
    inetIpv4Pton (dottedQuad g₀ g₁ g₂ g₃) =
      (1,[(0,(atoi g₀).toUInt8),(1,(atoi g₁).toUInt8),(2,(atoi g₂).toUInt8),(3,(atoi g₃).toUInt8)]) := by
  unfold inetIpv4Pton dottedQuad
  rw [run_inetIpv4PtonPass_group h₀ (by decide),run_inetIpv4PtonPass_group h₁ (by decide),
    run_inetIpv4PtonPass_group h₂ (by decide),run_inetIpv4PtonPass_last h₃]
  rfl

theorem inetIpv4PtonPass_eq_next {c : Char} {s s' : Ipv4Pton} (h : inetIpv4PtonPass c s = .next s') :
    (s.ndots < 4 ∧ s'.ndots = s.ndots + 1 ∧ s'.ip = s.ip ++ [(s.ndots,(atoi s.numstr).toUInt8)]) ∨
      (s'.ndots = s.ndots ∧ s'.ip = s.ip) := by
  unfold inetIpv4PtonPass at h
  dsimp only at h
  split_ifs at h with h₁ h₂ <;> cases h
  · left
    have hdot : c = '.' := h₁.resolve_right (by assumption)
    simp only [hdot,true_and] at h₂
    exact ⟨Nat.lt_of_not_le h₂,rfl,rfl⟩
  · exact Or.inr ⟨rfl,rfl⟩

theorem inetIpv4PtonPass_eq_done {c : Char} {s : Ipv4Pton} {r : Int × List (Nat × UInt8)}
    (h : inetIpv4PtonPass c s = .done r) :
    r.2 = s.ip ∨ r.2 = s.ip ++ [(s.ndots,(atoi s.numstr).toUInt8)] := by
  unfold inetIpv4PtonPass at h
  dsimp only at h
  split_ifs at h <;> cases h <;> simp

/-- `inet_ipv4_pton` stores at `ip[ndots]` with `ndots` at most 4: no further than one byte past the
`in_addr`. -/
theorem inetIpv4Pton_store_le_four (src : List Char) : ∀ p ∈ (inetIpv4Pton src).2, p.1 ≤ 4 := by
  refine run_of_inv (fun st : Ipv4Pton => st.ndots ≤ 4 ∧ ∀ p ∈ st.ip, p.1 ≤ 4)
    (fun r : Int × List (Nat × UInt8) => ∀ p ∈ r.2, p.1 ≤ 4)
    (fun c s s' hs h => ?_) (fun c s r hs h => ?_) (fun s hs => hs.2) src ⟨Nat.zero_le _,by simp⟩
  · rcases inetIpv4PtonPass_eq_next h with ⟨h4,hn,hip⟩ | ⟨hn,hip⟩
    · refine ⟨by omega,?_⟩
      simp only [hip,List.mem_append,List.mem_singleton]
      rintro p (hp | rfl)
      exacts [hs.2 p hp,hs.1]
    · exact ⟨hn ▸ hs.1,hip ▸ hs.2⟩
  · rcases inetIpv4PtonPass_eq_done h with hip | hip
    · exact hip ▸ hs.2
    · simp only [hip,List.mem_append,List.mem_singleton]
      rintro p (hp | rfl)
      exacts [hs.2 p hp,hs.1]

theorem inetIpv4Pton_store_le_four_five_groups :
    ((4 : Nat),(5 : UInt8)) ∈ (inetIpv4Pton ['1','.','2','.','3','.','4','.','5']).2 ∧
      ((4 : Nat),(5 : UInt8)).1 ≤ 4 := by
  have h : ((4 : Nat),(5 : UInt8)) ∈ (inetIpv4Pton ['1','.','2','.','3','.','4','.','5']).2 := by decide
  exact ⟨h,inetIpv4Pton_store_le_four _ _ h⟩

/-- "1.2.3.4.5": the fifth group is stored at `ip[4]`, past the `in_addr`, before the count of dots
is found wrong and 0 returned. -/
theorem inetIpv4Pton_stores_past_in_addr :
    inetIpv4Pton ['1','.','2','.','3','.','4','.','5'] = (0,[(0,1),(1,2),(2,3),(3,4),(4,5)]) := by
  decide

/-- `(ch >= '0' && ch <= '9') || (ch >= 'a' && ch <= 'f') || (ch >= 'A' && ch <= 'F')`. -/
def isHexDigit (ch : Char) : Bool :=
  ch.isDigit || ('a' ≤ ch && ch ≤ 'f') || ('A' ≤ ch && ch ≤ 'F')

def hexDigitValue (ch : Char) : Nat :=
  if ch.isDigit then ch.toNat - '0'.toNat
  else if 'a' ≤ ch ∧ ch ≤ 'f' then ch.toNat - 'a'.toNat + 10
  else ch.toNat - 'A'.toNat + 10

/-- `strtol(numstr, NULL, 16)` of a string of hexadecimal digits, which is all `numstr` ever holds
here: no sign, no space and no `0x`, since `x` is not a digit. -/
def strtol16 (numstr : List Char) : Nat :=
  numstr.foldl (fun value ch => 16 * value + hexDigitValue ch) 0

/-- The locals of `inet_ipv6_pton`: the digits of the group being read, the groups stored before
and after the `::` (`nsep`, `nrsep`), whether the `::` has been seen (`rtime`), and the stores into
the local arrays `ip` and `rip`. -/
structure Ipv6Pton where
  numstr : List Char
  nsep : Nat
  nrsep : Nat
  rtime : Bool
  ip : List (Nat × UInt8)
  rip : List (Nat × UInt8)

def groupBytes (i : Nat) (value : Nat) : List (Nat × UInt8) :=
  [(i,((value >>> 8) &&& 0xff).toUInt8),(i + 1,(value &&& 0xff).toUInt8)]

/-- The store of a group's value: into `ip` before the `::`, into `rip` after it. -/
def inetIpv6PtonStore (st : Ipv6Pton) (value : Nat) : Ipv6Pton :=
  if !st.rtime then { st with numstr := [], ip := st.ip ++ groupBytes (st.nsep <<< 1) value, nsep := st.nsep + 1 }
  else { st with numstr := [], rip := st.rip ++ groupBytes (st.nrsep <<< 1) value, nrsep := st.nrsep + 1 }

/-- One pass of the loop of `inet_ipv6_pton`, for the character `ch`; it leaves with the value
returned and the locals, whose stores are those made. -/
def inetIpv6PtonPass (ch : Char) (st : Ipv6Pton) : Pass Ipv6Pton (Int × Ipv6Pton) :=
  if ch = ':' ∨ ch = NUL then
    if ch = ':' ∧ st.nsep + st.nrsep ≥ 8 then .done (0,st)
    else if ch ≠ NUL ∧ st.numstr.length < 1 then
      if st.rtime ∧ st.nrsep > 1 then .done (0,st)
      else .next { st with numstr := [], rtime := true }
    else
      let value := strtol16 st.numstr
      if value > 0xffff then .done (0,st)
      else
        let st := inetIpv6PtonStore st value
        if ch = NUL then
          if (st.nsep ≤ 1 ∧ st.nrsep ≤ 0) ∨ st.nsep + st.nrsep < 1 ∨ st.nsep + st.nrsep > 8 then .done (0,st)
          else .done (1,st)
        else .next st
  else if isHexDigit ch then
    let numstr := st.numstr ++ [ch]
    if numstr.length ≥ 5 then .done (0,st) else .next { st with numstr := numstr }
  else .done (0,st)

/-- `inet_ipv6_pton` up to its return: the value returned and its locals. -/
def inetIpv6PtonRun (src : List Char) : Int × Ipv6Pton :=
  run inetIpv6PtonPass (fun st => (0,st)) src
    { numstr := [], nsep := 0, nrsep := 0, rtime := false, ip := [], rip := [] }

def storedAt (stores : List (Nat × UInt8)) (i : Nat) : UInt8 :=
  ((stores.reverse.find? fun p => p.1 = i).map Prod.snd).getD 0

/-- The 16 bytes of the `in6_addr` after the `memset` and, on success, the two `memcpy`s: the
groups before the `::` at the start and those after it at the end. -/
def ipv6Dest (st : Ipv6Pton) : List UInt8 :=
  (List.range 16).map fun i =>
    if 16 - (st.nrsep <<< 1) ≤ i then storedAt st.rip (i - (16 - (st.nrsep <<< 1)))
    else if i < st.nsep <<< 1 then storedAt st.ip i
    else 0

/-- `inet_ipv6_pton`: the value returned, and the address when it is 1. -/
def inetIpv6Pton (src : List Char) : Int × List UInt8 :=
  let (ret,st) := inetIpv6PtonRun src
  (ret,if ret = 1 then ipv6Dest st else List.replicate 16 0)

/-- The stores into `ip` are below `2 * nsep`, those into `rip` below `2 * nrsep`. -/
def Ipv6Pton.StoresBelow (st : Ipv6Pton) : Prop :=
  (∀ p ∈ st.ip, p.1 < 2 * st.nsep) ∧ ∀ p ∈ st.rip, p.1 < 2 * st.nrsep

theorem mem_groupBytes {i value : Nat} {p : Nat × UInt8} (hp : p ∈ groupBytes i value) : p.1 = i ∨ p.1 = i + 1 := by
  simp only [groupBytes,List.mem_cons,List.not_mem_nil,or_false] at hp
  rcases hp with rfl | rfl <;> simp

theorem inetIpv6PtonStore_spec {st : Ipv6Pton} (h : st.StoresBelow) (value : Nat) :
    (inetIpv6PtonStore st value).StoresBelow ∧
      (inetIpv6PtonStore st value).nsep + (inetIpv6PtonStore st value).nrsep = st.nsep + st.nrsep + 1 := by
  have hbytes : ∀ n p, p ∈ groupBytes (n <<< 1) value → p.1 < 2 * (n + 1) := fun n p hp => by
    rcases mem_groupBytes hp with h' | h' <;> rw [h',Nat.shiftLeft_eq] <;> omega
  unfold inetIpv6PtonStore
  split
  · refine ⟨⟨fun p hp => ?_,h.2⟩,by simp only; omega⟩
    rcases List.mem_append.mp hp with hp | hp
    · have := h.1 p hp; dsimp only; omega
    · exact hbytes _ p hp
  · refine ⟨⟨h.1,fun p hp => ?_⟩,by simp only; omega⟩
    rcases List.mem_append.mp hp with hp | hp
    · have := h.2 p hp; dsimp only; omega
    · exact hbytes _ p hp

theorem inetIpv6PtonPass_eq_next {c : Char} {s t : Ipv6Pton} (hs : s.StoresBelow) (h8 : s.nsep + s.nrsep ≤ 8)
    (h : inetIpv6PtonPass c s = .next t) : t.StoresBelow ∧ t.nsep + t.nrsep ≤ 8 := by
  unfold inetIpv6PtonPass at h
  dsimp only at h
  split_ifs at h with h₁ h₂ h₃ h₄ h₅ h₆ <;> cases h
  · exact ⟨hs,h8⟩
  · have hc : c = ':' := h₁.resolve_right h₆
    simp only [hc,true_and] at h₂
    have := inetIpv6PtonStore_spec hs (strtol16 s.numstr)
    exact ⟨this.1,by omega⟩
  · exact ⟨hs,h8⟩

theorem inetIpv6PtonPass_eq_done {c : Char} {s : Ipv6Pton} {r : Int × Ipv6Pton} (hs : s.StoresBelow)
    (h8 : s.nsep + s.nrsep ≤ 8) (h : inetIpv6PtonPass c s = .done r) :
    r.2.StoresBelow ∧ r.2.nsep + r.2.nrsep ≤ 9 := by
  have hstore := inetIpv6PtonStore_spec hs (strtol16 s.numstr)
  unfold inetIpv6PtonPass at h
  dsimp only at h
  split_ifs at h <;> cases h <;> dsimp only <;> first | exact ⟨hs,by omega⟩ | exact ⟨hstore.1,by omega⟩

/-- `inet_ipv6_pton` stores into `ip` and `rip` no further than their bytes 16 and 17: at most one
group, the one ended by the NUL, past their 16 bytes. -/
theorem inetIpv6PtonRun_store_le (src : List Char) :
    ∀ p ∈ (inetIpv6PtonRun src).2.ip ++ (inetIpv6PtonRun src).2.rip, p.1 ≤ 17 := by
  have h : (inetIpv6PtonRun src).2.StoresBelow ∧ (inetIpv6PtonRun src).2.nsep + (inetIpv6PtonRun src).2.nrsep ≤ 9 :=
    run_of_inv (fun st : Ipv6Pton => st.StoresBelow ∧ st.nsep + st.nrsep ≤ 8)
      (fun r : Int × Ipv6Pton => r.2.StoresBelow ∧ r.2.nsep + r.2.nrsep ≤ 9)
      (fun c s t hs h => inetIpv6PtonPass_eq_next hs.1 hs.2 h) (fun c s r hs h => inetIpv6PtonPass_eq_done hs.1 hs.2 h)
      (fun s hs => ⟨hs.1,by dsimp only; omega⟩) src ⟨⟨by simp,by simp⟩,by simp⟩
  obtain ⟨⟨hip,hrip⟩,h9⟩ := h
  intro p hp
  rcases List.mem_append.mp hp with hp | hp
  · have := hip p hp; omega
  · have := hrip p hp; omega

theorem inetIpv6PtonRun_store_le_nine_groups :
    ((17 : Nat),(9 : UInt8)) ∈ (inetIpv6PtonRun ['1',':','2',':','3',':','4',':','5',':','6',':','7',':','8',':','9']).2.ip ++
        (inetIpv6PtonRun ['1',':','2',':','3',':','4',':','5',':','6',':','7',':','8',':','9']).2.rip ∧
      ((17 : Nat),(9 : UInt8)).1 ≤ 17 := by
  have h : ((17 : Nat),(9 : UInt8)) ∈
      (inetIpv6PtonRun ['1',':','2',':','3',':','4',':','5',':','6',':','7',':','8',':','9']).2.ip ++
        (inetIpv6PtonRun ['1',':','2',':','3',':','4',':','5',':','6',':','7',':','8',':','9']).2.rip := by
    decide
  exact ⟨h,inetIpv6PtonRun_store_le _ _ h⟩

/- Nine groups: the ninth is stored at `ip[16]` and `ip[17]`, past the local array. -/
example : ((inetIpv6PtonRun ['1',':','2',':','3',':','4',':','5',':','6',':','7',':','8',':','9']).2.ip.map
    Prod.fst).drop 16 = [16,17] := by
  decide

/- Two groups and no `::`, and a second `::`, are taken as addresses. -/
example : inetIpv6Pton ['1',':','2'] = (1,[0,1,0,2,0,0,0,0,0,0,0,0,0,0,0,0]) := by
  decide

example : (inetIpv6Pton ['1',':',':','2',':',':','3']).1 = 1 := by
  decide

end TizenRT.Net
