import Mathlib.Data.List.TakeWhile
import TizenRT.Sem.Model
import TizenRT.Environ.Model
import TizenRT.Lib.ExceptBind

set_option autoImplicit false

/-!
The DNS client of lib/libc/netdb (lib_dnsquery.c, lib_dnsforeach.c), built with IPv4 and IPv6,
CONFIG_NETDB_RESOLVCONF and no answer cache. A buffer is the list of its bytes from offset 0.
The receive buffer holds the datagram `recv` returned; a read of `buffer[i]` at or past its end
is where the model stops, with `.error i`. `sendto` always succeeds.
-/

namespace TizenRT.Netdb

open TizenRT.Wdog TizenRT.Sem TizenRT.Environ

def SEND_BUFFER_SIZE : Nat := 64
def CONFIG_NETDB_DNSCLIENT_MAXRESPONSE : Nat := 512
def RECV_BUFFER_SIZE : Nat := CONFIG_NETDB_DNSCLIENT_MAXRESPONSE

def DNS_FLAG1_RD : UInt8 := 0x01
def DNS_FLAG2_ERR_MASK : UInt8 := 0x0f
def DNS_CLASS_IN : Nat := 1
def DNS_RECTYPE_A : Nat := 1
def DNS_RECTYPE_AAAA : Nat := 28

def AF_INET : Nat := 2
def AF_INET6 : Nat := 3
def SIZEOF_SOCKADDR_IN : Nat := 16
def SIZEOF_SOCKADDR_IN6 : Nat := 24

def ERANGE : Int := 34
def EPROTO : Int := 71
def EADDRNOTAVAIL : Int := 99

def dot : UInt8 := 0x2e

/-- The fields of a `sockaddr_in` or `sockaddr_in6` that the resolver writes. -/
structure SockAddr where
  family : Nat
  port : Nat
  addr : List UInt8
  deriving DecidableEq, Repr

/-- The label loop of `dns_send_query` over the hostname's bytes `src`: the bytes of the current
label wait in `label` for its length byte `*nptr = n`, stored as `uint8_t`. -/
def dnsEncodeLabels (label : List UInt8) : List UInt8 → List UInt8
  | [] => label.length.toUInt8 :: label
  | c :: src =>
    if c = 0 then label.length.toUInt8 :: label
    else if c = dot then (label.length.toUInt8 :: label) ++ dnsEncodeLabels [] src
    else dnsEncodeLabels (label ++ [c]) src

/-- The bytes `dns_send_query` writes from `buffer` on: the header with id `htons(seqno)`, RD set
and one question, then the question's name, NUL, type and class. -/
def dnsQueryPacket (seqno : UInt8) (name : List UInt8) (rectype : Nat) : List UInt8 :=
  [0, seqno, DNS_FLAG1_RD, 0, 0, 1, 0, 0, 0, 0, 0, 0] ++ dnsEncodeLabels [] name ++
    [0, (rectype / 256).toUInt8, rectype.toUInt8, (DNS_CLASS_IN / 256).toUInt8,
      DNS_CLASS_IN.toUInt8]

theorem length_dnsEncodeLabels (label src : List UInt8) :
    (dnsEncodeLabels label src).length = label.length + 1 + (src.takeWhile (· ≠ 0)).length := by
  induction src generalizing label with
  | nil => simp [dnsEncodeLabels]
  | cons c src ih =>
    by_cases h0 : c = 0
    · simp [dnsEncodeLabels, h0]
    · have htw : (c :: src).takeWhile (· ≠ 0) = c :: src.takeWhile (· ≠ 0) := by
        simp [h0]
      rw [htw, dnsEncodeLabels, if_neg h0]
      split
      · simp [ih]
        omega
      · simp [ih]
        omega

theorem length_dnsQueryPacket (seqno : UInt8) (name : List UInt8) (rectype : Nat)
    (h0 : ∀ c ∈ name, c ≠ 0) : (dnsQueryPacket seqno name rectype).length = name.length + 18 := by
  have htw : name.takeWhile (· ≠ 0) = name := List.takeWhile_eq_self_iff.mpr (by simpa using h0)
  rw [dnsQueryPacket, List.length_append, List.length_append, length_dnsEncodeLabels, htw]
  simp
  omega

def wireName (labels : List (List UInt8)) : List UInt8 :=
  labels.flatMap (fun l => l.length.toUInt8 :: l) ++ [0]

theorem length_wireName (labels : List (List UInt8)) (hne : labels ≠ []) :
    (wireName labels).length = ((labels.intersperse [dot]).flatten).length + 2 := by
  induction labels with
  | nil => exact absurd rfl hne
  | cons l ls ih =>
    cases ls with
    | nil => simp [wireName]
    | cons l' ls =>
      have ih' := ih (List.cons_ne_nil _ _)
      unfold wireName at ih' ⊢
      rw [List.intersperse_cons_cons,List.flatten_cons,List.flatten_cons,List.flatMap_cons,
        List.append_assoc,List.length_append,ih']
      simp only [List.length_append,List.length_cons,List.length_nil]
      omega

theorem length_dnsQueryPacket_le (seqno : UInt8) (name : List UInt8) (rectype : Nat) :
    (dnsQueryPacket seqno name rectype).length ≤ name.length + 18 := by
  have htw : (name.takeWhile (· ≠ 0)).length ≤ name.length := (List.takeWhile_sublist _).length_le
  rw [dnsQueryPacket,List.length_append,List.length_append,length_dnsEncodeLabels]
  simp only [List.length_nil,List.length_cons]
  omega

def ValidLabels (labels : List (List UInt8)) : Prop :=
  labels ≠ [] ∧ ∀ l ∈ labels, 0 < l.length ∧ l.length < 256

instance (labels : List (List UInt8)) : Decidable (ValidLabels labels) :=
  inferInstanceAs (Decidable (_ ∧ _))

theorem dnsEncodeLabels_label (acc l src : List UInt8) (hl : ∀ c ∈ l, c ≠ 0 ∧ c ≠ dot) :
    dnsEncodeLabels acc (l ++ src) = dnsEncodeLabels (acc ++ l) src := by
  induction l generalizing acc with
  | nil => simp
  | cons c l ih =>
    have hc := hl c List.mem_cons_self
    rw [List.cons_append, dnsEncodeLabels, if_neg hc.1, if_neg hc.2,
      ih _ fun d hd => hl d (List.mem_cons_of_mem c hd), List.append_assoc, List.singleton_append]

theorem dnsEncodeLabels_wireName (labels : List (List UInt8)) (hne : labels ≠ [])
    (hl : ∀ l ∈ labels, ∀ c ∈ l, c ≠ 0 ∧ c ≠ dot) :
    dnsEncodeLabels [] (labels.intersperse [dot]).flatten ++ [0] = wireName labels := by
  induction labels with
  | nil => exact absurd rfl hne
  | cons l ls ih =>
    have hl₁ := hl l List.mem_cons_self
    cases ls with
    | nil =>
      have h := dnsEncodeLabels_label [] l [] hl₁
      simp only [List.append_nil, List.nil_append] at h
      simp [wireName, h, dnsEncodeLabels]
    | cons l' ls =>
      have ih' := ih (List.cons_ne_nil l' ls) fun m hm => hl m (List.mem_cons_of_mem l hm)
      have hdot : dnsEncodeLabels l (dot :: ((l' :: ls).intersperse [dot]).flatten) =
          (l.length.toUInt8 :: l) ++ dnsEncodeLabels [] ((l' :: ls).intersperse [dot]).flatten := by
        rw [dnsEncodeLabels, if_neg (by decide), if_pos rfl]
      simp only [List.intersperse_cons_cons, List.flatten_cons, List.singleton_append] at ih' ⊢
      rw [dnsEncodeLabels_label [] l _ hl₁, List.nil_append, hdot, List.append_assoc, ih']
      simp [wireName]

def rdByte (buf : List UInt8) (i : Nat) : Except Nat UInt8 :=
  if h : i < buf.length then .ok buf[i] else .error i

def rdWord (buf : List UInt8) (i : Nat) : Except Nat Nat :=
  rdByte buf i >>= fun hi => rdByte buf (i + 1) >>= fun lo => pure (hi.toNat * 256 + lo.toNat)

/-- The `k` bytes from `i` on, in the order `memcpy` reads them. -/
def rdBytes (buf : List UInt8) (i : Nat) : Nat → Except Nat (List UInt8)
  | 0 => pure []
  | k + 1 => rdByte buf i >>= fun b => rdBytes buf (i + 1) k >>= fun bs => pure (b :: bs)

/-- The loop of `dns_parse_name` from `query`, for at most `fuel` labels: `n = *query++`, skip `n`
bytes, and go on while `*query != 0`; the result is the offset after that zero. -/
def dnsParseNameLoop (buf : List UInt8) : Nat → Nat → Except Nat Nat
  | 0, query => .error query
  | fuel + 1, query =>
    rdByte buf query >>= fun n =>
    rdByte buf (query + 1 + n.toNat) >>= fun c =>
    if c ≠ 0 then dnsParseNameLoop buf fuel (query + 1 + n.toNat)
    else pure (query + 1 + n.toNat + 1)

/-- `dns_parse_name`: every pass of its loop starts further on, so `buf.length` passes are
enough (`dnsParseNameLoop_fuel`). -/
def dnsParseName (buf : List UInt8) (query : Nat) : Except Nat Nat :=
  dnsParseNameLoop buf buf.length query

/-- `ans->type == HTONS(rectype) && ans->class == HTONS(DNS_CLASS_IN) && ans->len == HTONS(len)`
for the record at `p`, its fields read as far as `&&` evaluates them. -/
def dnsRecordIs (buf : List UInt8) (p rectype len : Nat) : Except Nat Bool :=
  rdWord buf p >>= fun t =>
  if t ≠ rectype then pure false else
  rdWord buf (p + 2) >>= fun c =>
  if c ≠ DNS_CLASS_IN then pure false else
  rdWord buf (p + 8) >>= fun l => pure (decide (l = len))

/-- The end of the name of the answer record at `nameptr`: a compressed name is a two-byte
pointer. -/
def dnsSkipAnswerName (buf : List UInt8) (nameptr : Nat) : Except Nat Nat :=
  rdByte buf nameptr >>= fun c =>
  if c &&& 0xc0 ≠ 0 then pure (nameptr + 2) else dnsParseName buf nameptr

/-- The answers loop of `dns_recv_response`, `nanswers` records left from `nameptr`, with the
caller's `addr` and `addrlen`. The AAAA branch sets `sin6_family` to `AF_INET`, as the source
does; its `memcpy` into the record is taken as a copy of the record's data. -/
def dnsRecvAnswers (buf : List UInt8) (addr : SockAddr) (addrlen : Nat) :
    Nat → Nat → Except Nat (Int × SockAddr × Nat)
  | 0, _ => pure (-EADDRNOTAVAIL, addr, addrlen)
  | nanswers + 1, nameptr =>
    dnsSkipAnswerName buf nameptr >>= fun nameptr =>
    dnsRecordIs buf nameptr DNS_RECTYPE_A 4 >>= fun isA =>
    if isA then
      rdBytes buf (nameptr + 10) 4 >>= fun a =>
      pure (if addrlen ≥ SIZEOF_SOCKADDR_IN then (OK, ⟨AF_INET, 0, a⟩, SIZEOF_SOCKADDR_IN)
        else (-ERANGE, addr, addrlen))
    else
    dnsRecordIs buf nameptr DNS_RECTYPE_AAAA 16 >>= fun isAAAA =>
    if isAAAA then
      rdBytes buf (nameptr + 10) 16 >>= fun a =>
      pure (if addrlen ≥ SIZEOF_SOCKADDR_IN6 then (OK, ⟨AF_INET, 0, a⟩, SIZEOF_SOCKADDR_IN6)
        else (-ERANGE, addr, addrlen))
    else
    rdWord buf (nameptr + 8) >>= fun len =>
    dnsRecvAnswers buf addr addrlen nanswers (nameptr + 10 + len)

/-- `dns_recv_response` after its `recv`: the error bits of flags2, `nanswers` as the low byte of
the answer count, the question skipped unchecked, then the answers. -/
def dnsParseResponse (buf : List UInt8) (addr : SockAddr) (addrlen : Nat) :
    Except Nat (Int × SockAddr × Nat) :=
  rdByte buf 3 >>= fun flags2 =>
  if flags2 &&& DNS_FLAG2_ERR_MASK ≠ 0 then pure (-EPROTO, addr, addrlen) else
  rdWord buf 6 >>= fun nanswers =>
  dnsParseName buf 12 >>= fun nameptr =>
  dnsRecvAnswers buf addr addrlen (nanswers % 256) (nameptr + 4)

theorem rdByte_of_lt {buf : List UInt8} {i : Nat} (h : i < buf.length) :
    rdByte buf i = .ok buf[i] := by
  simp [rdByte,h]

theorem rdByte_of_le {buf : List UInt8} {i : Nat} (h : buf.length ≤ i) : rdByte buf i = .error i := by
  simp [rdByte,Nat.not_lt.mpr h]

theorem rdByte_eq_ok (pre rest : List UInt8) {buf : List UInt8} {x : UInt8} {i : Nat}
    (h : buf = pre ++ x :: rest) (hi : i = pre.length) : rdByte buf i = .ok x := by
  subst h hi
  simp [rdByte]

theorem rdByte_at (pre mid post : List UInt8) {i j : Nat} {v : UInt8} (hj : j = pre.length + i)
    (hv : mid[i]? = some v) : rdByte (pre ++ mid ++ post) j = .ok v := by
  obtain ⟨hi,rfl⟩ := List.getElem?_eq_some_iff.mp hv
  subst hj
  rw [rdByte_of_lt (by simp; omega)]
  simp [List.getElem_append_left,List.getElem_append_right,hi]

theorem rdWord_eq_ok {buf : List UInt8} {i : Nat} {hi lo : UInt8} (h₁ : rdByte buf i = .ok hi)
    (h₂ : rdByte buf (i + 1) = .ok lo) : rdWord buf i = .ok (hi.toNat * 256 + lo.toNat) := by
  rw [rdWord,h₁,Except.ok_bind,h₂,Except.ok_bind]
  rfl

theorem dnsParseNameLoop_succ (buf : List UInt8) (fuel query : Nat) (h : buf.length ≤ query + fuel) :
    dnsParseNameLoop buf (fuel + 1) query = dnsParseNameLoop buf fuel query := by
  induction fuel generalizing query with
  | zero => simp [dnsParseNameLoop,rdByte_of_le (show buf.length ≤ query by omega)]
  | succ fuel ih =>
    simp only [dnsParseNameLoop]
    refine Except.bind_congr_ok fun n _ => Except.bind_congr_ok fun c _ => ?_
    split
    · exact ih _ (by omega)
    · rfl

theorem dnsParseNameLoop_fuel (buf : List UInt8) (query fuel : Nat) (h : buf.length ≤ fuel) :
    dnsParseNameLoop buf fuel query = dnsParseName buf query := by
  obtain ⟨k,rfl⟩ := Nat.exists_eq_add_of_le h
  induction k with
  | zero => rfl
  | succ k ih => rw [← Nat.add_assoc,dnsParseNameLoop_succ _ _ _ (by omega),ih (by omega)]

theorem dnsParseNameLoop_fuel_name_x :
    [(1 : UInt8), 0x78, 0].length ≤ 10 ∧ dnsParseNameLoop [1, 0x78, 0] 10 0 = dnsParseName [1, 0x78, 0] 0 :=
  ⟨by decide,dnsParseNameLoop_fuel [1, 0x78, 0] 0 10 (by decide)⟩

theorem wireName_cons (l : List UInt8) (ls : List (List UInt8)) :
    wireName (l :: ls) = l.length.toUInt8 :: l ++ wireName ls := by
  simp [wireName]

theorem length_le_wireName (labels : List (List UInt8)) : labels.length ≤ (wireName labels).length := by
  induction labels with
  | nil => simp
  | cons l ls ih =>
    rw [wireName_cons]
    simp only [List.length_cons,List.length_append]
    omega

theorem toNat_toUInt8_length {l : List UInt8} (h : l.length < 256) :
    l.length.toUInt8.toNat = l.length := by
  simp [Nat.mod_eq_of_lt h]

theorem toUInt8_length_ne_zero {l : List UInt8} (h₀ : 0 < l.length) (h : l.length < 256) :
    l.length.toUInt8 ≠ 0 := by
  intro h'
  have := toNat_toUInt8_length h
  rw [h'] at this
  simp at this
  omega

theorem dnsParseNameLoop_label (pre l rest : List UInt8) (c : UInt8) (fuel : Nat)
    (hl : l.length < 256) :
    dnsParseNameLoop (pre ++ l.length.toUInt8 :: l ++ c :: rest) (fuel + 1) pre.length =
      if c ≠ 0 then
        dnsParseNameLoop (pre ++ l.length.toUInt8 :: l ++ c :: rest) fuel
          (pre ++ l.length.toUInt8 :: l).length
      else .ok ((pre ++ l.length.toUInt8 :: l).length + 1) := by
  have hq : pre.length + 1 + l.length = (pre ++ l.length.toUInt8 :: l).length := by
    simp
    omega
  rw [dnsParseNameLoop,rdByte_eq_ok pre (l ++ c :: rest) (x := l.length.toUInt8) (by simp) rfl,Except.ok_bind,
    toNat_toUInt8_length hl,hq,rdByte_eq_ok (pre ++ l.length.toUInt8 :: l) rest rfl rfl,
    Except.ok_bind]
  rfl

theorem dnsParseNameLoop_wireName (l : List UInt8) (ls : List (List UInt8))
    (hl : ∀ m ∈ l :: ls, 0 < m.length ∧ m.length < 256) (pre post : List UInt8) (fuel : Nat)
    (hf : ls.length < fuel) :
    dnsParseNameLoop (pre ++ wireName (l :: ls) ++ post) fuel pre.length =
      .ok (pre.length + (wireName (l :: ls)).length) := by
  obtain ⟨f,rfl⟩ : ∃ f, fuel = f + 1 := ⟨fuel - 1,by omega⟩
  have hl₁ := (hl l List.mem_cons_self).2
  induction ls generalizing l pre f with
  | nil =>
    have hB : pre ++ wireName [l] ++ post = pre ++ l.length.toUInt8 :: l ++ 0 :: post := by
      simp [wireName]
    rw [hB,dnsParseNameLoop_label _ _ _ _ _ hl₁,if_neg (by decide)]
    simp [wireName]
    omega
  | cons l' ls ih =>
    have hl' := hl l' (by simp)
    have hB : pre ++ wireName (l :: l' :: ls) ++ post =
        pre ++ l.length.toUInt8 :: l ++ l'.length.toUInt8 :: (l' ++ wireName ls ++ post) := by
      simp [wireName_cons]
    have hB' : pre ++ l.length.toUInt8 :: l ++ l'.length.toUInt8 :: (l' ++ wireName ls ++ post) =
        (pre ++ l.length.toUInt8 :: l) ++ wireName (l' :: ls) ++ post := by
      simp [wireName_cons]
    obtain ⟨f,rfl⟩ : ∃ f', f = f' + 1 := ⟨f - 1,by simp only [List.length_cons] at hf; omega⟩
    rw [hB,dnsParseNameLoop_label _ _ _ _ _ hl₁,if_pos (toUInt8_length_ne_zero hl'.1 hl'.2),hB',
      ih l' (fun m hm => hl m (List.mem_cons_of_mem l hm)) _ f
        (by simp only [List.length_cons] at hf; omega) hl'.2]
    simp [wireName_cons]
    omega

theorem dnsParseName_wireName (labels : List (List UInt8)) (hl : ValidLabels labels)
    (pre post : List UInt8) :
    dnsParseName (pre ++ wireName labels ++ post) pre.length =
      .ok (pre.length + (wireName labels).length) := by
  obtain ⟨hne,hlen⟩ := hl
  obtain ⟨l,ls,rfl⟩ := List.exists_cons_of_ne_nil hne
  have hw := length_le_wireName (l :: ls)
  refine dnsParseNameLoop_wireName l ls hlen pre post _ ?_
  simp only [List.length_append,List.length_cons] at hw ⊢
  omega

theorem dnsParseNameLoop_lt {buf : List UInt8} {fuel query r : Nat}
    (h : dnsParseNameLoop buf fuel query = .ok r) : query < r := by
  induction fuel generalizing query with
  | zero => simp [dnsParseNameLoop] at h
  | succ fuel ih =>
    simp only [dnsParseNameLoop] at h
    obtain ⟨n,-,h⟩ := Except.bind_eq_ok.mp h
    obtain ⟨c,-,h⟩ := Except.bind_eq_ok.mp h
    split at h
    · have := ih h
      omega
    · simp only [Except.pure_eq_ok,Except.ok.injEq] at h
      omega

/-- Two receive buffers of one length with the same bytes from offset `k` on. -/
def AgreeFrom (k : Nat) (b b' : List UInt8) : Prop :=
  b.length = b'.length ∧ ∀ i, k ≤ i → b[i]? = b'[i]?

section AgreeFrom

variable {k : Nat} {b b' : List UInt8}

theorem AgreeFrom.rdByte_eq (h : AgreeFrom k b b') {i : Nat} (hi : k ≤ i) :
    rdByte b i = rdByte b' i := by
  have he := h.2 i hi
  unfold rdByte
  by_cases hl : i < b.length
  · have hl' : i < b'.length := h.1 ▸ hl
    rw [List.getElem?_eq_getElem hl,List.getElem?_eq_getElem hl'] at he
    rw [dif_pos hl,dif_pos hl',Option.some.inj he]
  · rw [dif_neg hl,dif_neg (h.1 ▸ hl)]

theorem AgreeFrom.rdWord_eq (h : AgreeFrom k b b') {i : Nat} (hi : k ≤ i) :
    rdWord b i = rdWord b' i := by
  simp only [rdWord,h.rdByte_eq hi,h.rdByte_eq (show k ≤ i + 1 by omega)]

theorem AgreeFrom.rdBytes_eq (h : AgreeFrom k b b') (n : Nat) {i : Nat} (hi : k ≤ i) :
    rdBytes b i n = rdBytes b' i n := by
  induction n generalizing i with
  | zero => rfl
  | succ n ih => simp only [rdBytes,h.rdByte_eq hi,ih (show k ≤ i + 1 by omega)]

theorem AgreeFrom.dnsParseNameLoop_eq (h : AgreeFrom k b b') (fuel : Nat) {query : Nat}
    (hq : k ≤ query) : dnsParseNameLoop b fuel query = dnsParseNameLoop b' fuel query := by
  induction fuel generalizing query with
  | zero => rfl
  | succ fuel ih =>
    simp only [dnsParseNameLoop,h.rdByte_eq hq]
    refine Except.bind_congr_ok fun n _ => ?_
    rw [h.rdByte_eq (show k ≤ query + 1 + n.toNat by omega)]
    refine Except.bind_congr_ok fun c _ => ?_
    split
    · exact ih (by omega)
    · rfl

theorem AgreeFrom.dnsParseName_eq (h : AgreeFrom k b b') {query : Nat} (hq : k ≤ query) :
    dnsParseName b query = dnsParseName b' query := by
  rw [dnsParseName,dnsParseName,h.1,h.dnsParseNameLoop_eq _ hq]

theorem AgreeFrom.dnsRecordIs_eq (h : AgreeFrom k b b') {p : Nat} (hp : k ≤ p) (rectype len : Nat) :
    dnsRecordIs b p rectype len = dnsRecordIs b' p rectype len := by
  simp only [dnsRecordIs,h.rdWord_eq hp,h.rdWord_eq (show k ≤ p + 2 by omega),
    h.rdWord_eq (show k ≤ p + 8 by omega)]

theorem dnsSkipAnswerName_lt {buf : List UInt8} {nameptr r : Nat}
    (h : dnsSkipAnswerName buf nameptr = .ok r) : nameptr < r := by
  obtain ⟨c,-,h⟩ := Except.bind_eq_ok.mp h
  split at h
  · simp only [Except.pure_eq_ok,Except.ok.injEq] at h
    omega
  · exact dnsParseNameLoop_lt h

theorem AgreeFrom.dnsSkipAnswerName_eq (h : AgreeFrom k b b') {nameptr : Nat} (hp : k ≤ nameptr) :
    dnsSkipAnswerName b nameptr = dnsSkipAnswerName b' nameptr := by
  simp only [dnsSkipAnswerName,h.rdByte_eq hp,h.dnsParseName_eq hp]

theorem AgreeFrom.dnsRecvAnswers_eq (h : AgreeFrom k b b') (addr : SockAddr) (addrlen n : Nat)
    {nameptr : Nat} (hp : k ≤ nameptr) :
    dnsRecvAnswers b addr addrlen n nameptr = dnsRecvAnswers b' addr addrlen n nameptr := by
  induction n generalizing nameptr with
  | zero => rfl
  | succ n ih =>
    simp only [dnsRecvAnswers]
    rw [h.dnsSkipAnswerName_eq hp]
    refine Except.bind_congr_ok fun p hp' => ?_
    have hkp : k ≤ p := by
      have := dnsSkipAnswerName_lt hp'
      omega
    rw [h.dnsRecordIs_eq hkp]
    refine Except.bind_congr_ok fun isA _ => ?_
    split
    · rw [h.rdBytes_eq _ (show k ≤ p + 10 by omega)]
    · rw [h.dnsRecordIs_eq hkp]
      refine Except.bind_congr_ok fun isAAAA _ => ?_
      split
      · rw [h.rdBytes_eq _ (show k ≤ p + 10 by omega)]
      · rw [h.rdWord_eq (show k ≤ p + 8 by omega)]
        exact Except.bind_congr_ok fun len _ => ih (by omega)

theorem AgreeFrom.dnsParseResponse_eq (h : AgreeFrom 3 b b') (addr : SockAddr) (addrlen : Nat) :
    dnsParseResponse b addr addrlen = dnsParseResponse b' addr addrlen := by
  simp only [dnsParseResponse,h.rdByte_eq (le_refl 3),h.rdWord_eq (show 3 ≤ 6 by omega),
    h.dnsParseName_eq (show 3 ≤ 12 by omega)]
  refine Except.bind_congr_ok fun _ _ => ?_
  split
  · rfl
  · refine Except.bind_congr_ok fun _ _ => Except.bind_congr_ok fun p hp => ?_
    have := dnsParseNameLoop_lt hp
    exact h.dnsRecvAnswers_eq _ _ _ (by omega)

end AgreeFrom

/-- `dns_recv_response` never reads the ID or the first flags byte, where QR is: a response is
taken or refused whatever they hold. -/
theorem dnsParseResponse_id_flags1 (id₀ id₁ flags1 id₀' id₁' flags1' : UInt8) (rest : List UInt8)
    (addr : SockAddr) (addrlen : Nat) :
    dnsParseResponse (id₀ :: id₁ :: flags1 :: rest) addr addrlen =
      dnsParseResponse (id₀' :: id₁' :: flags1' :: rest) addr addrlen := by
  refine AgreeFrom.dnsParseResponse_eq ⟨by simp,fun i hi => ?_⟩ addr addrlen
  obtain ⟨j,rfl⟩ := Nat.exists_eq_add_of_le hi
  simp [Nat.add_comm 3 j]

/-- `dns_recv_response` reads the question's name at `buffer[12]` whatever `recv` returned: a
datagram that ends with its header is read past its end. -/
theorem dnsParseResponse_header_only (hdr : List UInt8) (hlen : hdr.length = 12)
    (hflags : hdr[3]? = some 0) (addr : SockAddr) (addrlen : Nat) :
    dnsParseResponse hdr addr addrlen = .error 12 := by
  have h3 : rdByte hdr 3 = .ok 0 := by
    rw [rdByte_of_lt (by omega)]
    rw [List.getElem?_eq_getElem (by omega)] at hflags
    rw [Option.some.inj hflags]
  have h6 : ∃ w, rdWord hdr 6 = .ok w := by
    simp [rdWord,rdByte_of_lt (show 6 < hdr.length by omega),rdByte_of_lt (show 7 < hdr.length by omega)]
  obtain ⟨w,hw⟩ := h6
  have h12 : dnsParseName hdr 12 = .error 12 := by
    rw [dnsParseName,hlen,dnsParseNameLoop,rdByte_of_le (by omega),Except.error_bind]
  rw [dnsParseResponse,h3,Except.ok_bind,if_neg (by decide),hw,Except.ok_bind,h12,Except.error_bind]

theorem dnsParseResponse_header_only_one_answer :
    [(0 : UInt8), 5, 0x80, 0, 0, 1, 0, 1, 0, 0, 0, 0].length = 12 ∧
      [(0 : UInt8), 5, 0x80, 0, 0, 1, 0, 1, 0, 0, 0, 0][3]? = some 0 ∧
      dnsParseResponse [0, 5, 0x80, 0, 0, 1, 0, 1, 0, 0, 0, 0] ⟨0, 0, []⟩ 16 = .error 12 :=
  ⟨rfl,rfl,dnsParseResponse_header_only _ rfl rfl ⟨0, 0, []⟩ 16⟩

/-- An answer record of type A and class IN with the address `a.b.c.d`, its name the compressed
pointer `0xc0 x`, its TTL `t₀ t₁ t₂ t₃`. -/
def aRecord (x t₀ t₁ t₂ t₃ a b c d : UInt8) : List UInt8 :=
  [0xc0, x, 0, 1, 0, 1, t₀, t₁, t₂, t₃, 0, 4, a, b, c, d]

theorem dnsRecvAnswers_aRecord (pre post : List UInt8) (x t₀ t₁ t₂ t₃ a b c d : UInt8)
    (addr : SockAddr) (addrlen n : Nat) (haddrlen : SIZEOF_SOCKADDR_IN ≤ addrlen) :
    dnsRecvAnswers (pre ++ aRecord x t₀ t₁ t₂ t₃ a b c d ++ post) addr addrlen (n + 1) pre.length =
      .ok (OK, ⟨AF_INET, 0, [a, b, c, d]⟩, SIZEOF_SOCKADDR_IN) := by
  have hrd := fun {i j : Nat} {v : UInt8} (hj : j = pre.length + i)
      (hv : (aRecord x t₀ t₁ t₂ t₃ a b c d)[i]? = some v) => rdByte_at pre _ post hj hv
  generalize pre ++ aRecord x t₀ t₁ t₂ t₃ a b c d ++ post = B at hrd ⊢
  set p := pre.length
  have hskip : dnsSkipAnswerName B p = .ok (p + 2) := by
    rw [dnsSkipAnswerName,show rdByte B p = .ok 0xc0 from hrd (i := 0) rfl rfl,Except.ok_bind,
      if_pos (by decide)]
    rfl
  have hA : dnsRecordIs B (p + 2) DNS_RECTYPE_A 4 = .ok true := by
    rw [dnsRecordIs,rdWord_eq_ok (hrd (i := 2) rfl rfl) (hrd (i := 3) rfl rfl),Except.ok_bind,
      if_neg (by decide),rdWord_eq_ok (hrd (i := 4) rfl rfl) (hrd (i := 5) rfl rfl),Except.ok_bind,
      if_neg (by decide),rdWord_eq_ok (hrd (i := 10) rfl rfl) (hrd (i := 11) rfl rfl),Except.ok_bind]
    simp
  have hbytes : rdBytes B (p + 2 + 10) 4 = .ok [a, b, c, d] := by
    simp only [rdBytes,hrd (i := 12) rfl rfl,hrd (i := 13) (j := p + 2 + 10 + 1) rfl rfl,
      hrd (i := 14) (j := p + 2 + 10 + 1 + 1) rfl rfl,
      hrd (i := 15) (j := p + 2 + 10 + 1 + 1 + 1) rfl rfl,Except.pure_eq_ok,Except.ok_bind]
  rw [dnsRecvAnswers,hskip,Except.ok_bind,hA,Except.ok_bind,if_pos rfl,hbytes,Except.ok_bind,
    if_pos haddrlen]
  rfl

/-- A datagram with the header bytes `id₀ id₁ flags1`, no error, one question `qname` of type A
and class IN, and one answer: an A record for `a.b.c.d` whose name points at the question. -/
def dnsAnswerDatagram (id₀ id₁ flags1 : UInt8) (qname : List UInt8) (a b c d : UInt8) :
    List UInt8 :=
  [id₀, id₁, flags1, 0, 0, 1, 0, 1, 0, 0, 0, 0] ++ qname ++ [0, 1, 0, 1] ++
    aRecord 0x0c 0 0 0 0 a b c d

theorem dnsParseResponse_question_aRecord (id₀ id₁ flags1 flags2 a b c d : UInt8)
    (hrcode : flags2 &&& DNS_FLAG2_ERR_MASK = 0) (labels : List (List UInt8)) (hl : ValidLabels labels)
    (addr : SockAddr) (addrlen : Nat) (haddrlen : SIZEOF_SOCKADDR_IN ≤ addrlen) :
    dnsParseResponse ([id₀, id₁, flags1, flags2, 0, 1, 0, 1, 0, 0, 0, 0] ++ wireName labels ++
        [0, 1, 0, 1] ++ aRecord 0x0c 0 0 0 0 a b c d) addr addrlen =
      .ok (OK, ⟨AF_INET, 0, [a, b, c, d]⟩, SIZEOF_SOCKADDR_IN) := by
  set hdr : List UInt8 := [id₀, id₁, flags1, flags2, 0, 1, 0, 1, 0, 0, 0, 0]
  have hB : hdr ++ wireName labels ++ [0, 1, 0, 1] ++ aRecord 0x0c 0 0 0 0 a b c d =
      [] ++ hdr ++ (wireName labels ++ [0, 1, 0, 1] ++ aRecord 0x0c 0 0 0 0 a b c d) := by
    simp
  have hrd := fun {i j : Nat} {v : UInt8} (hj : j = i) (hv : hdr[i]? = some v) =>
    hB ▸ rdByte_at [] _ (wireName labels ++ [0, 1, 0, 1] ++ aRecord 0x0c 0 0 0 0 a b c d)
      (by simpa using hj) hv
  have hname : dnsParseName (hdr ++ wireName labels ++ [0, 1, 0, 1] ++ aRecord 0x0c 0 0 0 0 a b c d) 12 =
      .ok (12 + (wireName labels).length) := by
    rw [show hdr ++ wireName labels ++ [0, 1, 0, 1] ++ aRecord 0x0c 0 0 0 0 a b c d =
        hdr ++ wireName labels ++ ([0, 1, 0, 1] ++ aRecord 0x0c 0 0 0 0 a b c d) by simp]
    exact dnsParseName_wireName labels hl _ _
  have hpos : 12 + (wireName labels).length + 4 = (hdr ++ wireName labels ++ [0, 1, 0, 1]).length := by
    simp [hdr]
    omega
  rw [dnsParseResponse,hrd (i := 3) rfl rfl,Except.ok_bind,if_neg (not_not.mpr hrcode),
    rdWord_eq_ok (hrd (i := 6) rfl rfl) (hrd (i := 7) rfl rfl),Except.ok_bind,hname,Except.ok_bind,
    hpos,show hdr ++ wireName labels ++ [0, 1, 0, 1] ++ aRecord 0x0c 0 0 0 0 a b c d =
      hdr ++ wireName labels ++ [0, 1, 0, 1] ++ aRecord 0x0c 0 0 0 0 a b c d ++ [] by simp]
  exact dnsRecvAnswers_aRecord _ [] 0x0c 0 0 0 0 a b c d addr addrlen 0 haddrlen

theorem dnsParseResponse_answerDatagram (id₀ id₁ flags1 a b c d : UInt8)
    (labels : List (List UInt8)) (hl : ValidLabels labels) (addr : SockAddr) (addrlen : Nat)
    (haddrlen : SIZEOF_SOCKADDR_IN ≤ addrlen) :
    dnsParseResponse (dnsAnswerDatagram id₀ id₁ flags1 (wireName labels) a b c d) addr addrlen =
      .ok (OK, ⟨AF_INET, 0, [a, b, c, d]⟩, SIZEOF_SOCKADDR_IN) :=
  dnsParseResponse_question_aRecord id₀ id₁ flags1 0 a b c d rfl labels hl addr addrlen haddrlen

end TizenRT.Netdb
