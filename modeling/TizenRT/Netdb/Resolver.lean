import TizenRT.Netdb.DnsQuery

set_option autoImplicit false

/-!
`dns_query` (lib_dnsquery.c) over the nameservers of resolv.conf (lib_dnsforeach.c). The state
is `struct dns_query_s` with `g_seqno` and the resolver socket: what `sendto` has sent, and what
each `recv` will return in turn. A `recv` with nothing left times out with `EAGAIN`.
-/

namespace TizenRT.Netdb

open TizenRT.Wdog TizenRT.Sem TizenRT.Environ

inductive Recv where
  | datagram (bytes : List UInt8)
  | fail (errno : Int)
  deriving DecidableEq, Repr

structure DnsQuery where
  result : Int
  hostname : List UInt8
  addr : SockAddr
  addrlen : Nat
  seqno : UInt8
  sent : List (List UInt8)
  inbox : List Recv

/-- `dns_send_query`: `seqno = g_seqno++`, the query written into the SEND_BUFFER_SIZE-byte
`buffer` from offset 0, and `sendto` of the `dest - buffer` bytes written. A query longer than the
buffer is written past its end: the model stops at the first such write, `buffer[SEND_BUFFER_SIZE]`. -/
def dnsSendQuery (rectype : Nat) (q : DnsQuery) : Except Nat (Int × DnsQuery) :=
  let pkt := dnsQueryPacket q.seqno q.hostname rectype
  if SEND_BUFFER_SIZE < pkt.length then .error SEND_BUFFER_SIZE
  else pure (OK, { q with seqno := q.seqno + 1, sent := q.sent ++ [pkt] })

/-- `dns_recv_response`: `recv` into the RECV_BUFFER_SIZE-byte buffer, then the parse, which
writes the caller's address only when it returns OK. -/
def dnsRecvResponse (q : DnsQuery) : Except Nat (Int × DnsQuery) :=
  match q.inbox with
  | [] => pure (-EAGAIN, q)
  | .fail e :: rest => pure (-e, { q with inbox := rest })
  | .datagram d :: rest =>
    dnsParseResponse (d.take RECV_BUFFER_SIZE) q.addr q.addrlen >>= fun r =>
    pure (r.1, { q with inbox := rest, addr := r.2.1, addrlen := r.2.2 })

/-- One block of the loop of `dns_query_callback`, for the record type `rectype` whose address
needs `need` bytes of the nameserver's `addrlen`: `some 1` found, `some 0` go on with the next
nameserver, `none` a receive timeout. -/
def dnsQueryTry (rectype need addrlen : Nat) (q : DnsQuery) : Except Nat (Option Int × DnsQuery) :=
  if addrlen < need then pure (some 0, { q with result := -EINVAL }) else
  dnsSendQuery rectype q >>= fun (ret, q) =>
  if ret < 0 then pure (some 0, { q with result := ret }) else
  dnsRecvResponse q >>= fun (ret, q) =>
  pure (if ret ≥ 0 then (some 1, q)
    else if ret = -EADDRNOTAVAIL then (some 0, { q with result := -EADDRNOTAVAIL })
    else if ret ≠ -EAGAIN then (some 0, { q with result := ret })
    else (none, q))

/-- The loop of `dns_query_callback` for the nameserver `(family, addrlen)`, `retries` passes
left. Built with IPv4 and IPv6, a nameserver that is not IPv4 is skipped, and after an IPv4
timeout the IPv6 block looks at the family of the caller's address buffer. -/
def dnsQueryCallbackLoop (family addrlen : Nat) : Nat → DnsQuery → Except Nat (Int × DnsQuery)
  | 0, q => pure (0, { q with result := -ETIMEDOUT })
  | retries + 1, q =>
    if family ≠ AF_INET then pure (0, q) else
    dnsQueryTry DNS_RECTYPE_A SIZEOF_SOCKADDR_IN addrlen q >>= fun (r, q) =>
    match r with
    | some ret => pure (ret, q)
    | none =>
      if q.addr.family ≠ AF_INET6 then pure (0, q) else
      dnsQueryTry DNS_RECTYPE_AAAA SIZEOF_SOCKADDR_IN6 addrlen q >>= fun (r, q) =>
      match r with
      | some ret => pure (ret, q)
      | none => dnsQueryCallbackLoop family addrlen retries q

def dnsQueryCallback (family addrlen : Nat) (q : DnsQuery) : Except Nat (Int × DnsQuery) :=
  dnsQueryCallbackLoop family addrlen 3 q

/-- `dns_foreach_nameserver` over the records of resolv.conf that `inet_pton` took, as
`(family, addrlen)`: the callback runs on each until one returns non-zero. -/
def dnsForeachNameserver (servers : List (Nat × Nat)) (q : DnsQuery) : Except Nat (Int × DnsQuery) :=
  match servers with
  | [] => pure (OK, q)
  | (family, addrlen) :: servers =>
    dnsQueryCallback family addrlen q >>= fun (ret, q) =>
    if ret ≠ OK then pure (ret, q) else dnsForeachNameserver servers q

def dnsQuery (servers : List (Nat × Nat)) (q : DnsQuery) : Except Nat (Int × DnsQuery) :=
  dnsForeachNameserver servers { q with result := -EADDRNOTAVAIL } >>= fun (ret, q) =>
  pure (if ret > 0 then OK else if ret = 0 then q.result else ret, q)

theorem dnsRecvResponse_datagram {q : DnsQuery} {d : List UInt8} {rest : List Recv}
    (hin : q.inbox = .datagram d :: rest) (hd : d.length ≤ RECV_BUFFER_SIZE)
    {r : Int × SockAddr × Nat} (h : dnsParseResponse d q.addr q.addrlen = .ok r) :
    dnsRecvResponse q = .ok (r.1, { q with inbox := rest, addr := r.2.1, addrlen := r.2.2 }) := by
  rw [dnsRecvResponse,hin]
  simp only [List.take_of_length_le hd,h,Except.ok_bind]
  rfl

theorem dnsSendQuery_of_fits (rectype : Nat) {q : DnsQuery}
    (hfit : q.hostname.length ≤ SEND_BUFFER_SIZE - 18) :
    dnsSendQuery rectype q = .ok (OK, { q with
      seqno := q.seqno + 1, sent := q.sent ++ [dnsQueryPacket q.seqno q.hostname rectype] }) := by
  have hle := length_dnsQueryPacket_le q.seqno q.hostname rectype
  rw [dnsSendQuery,if_neg (by simp only [SEND_BUFFER_SIZE] at hfit ⊢; omega)]
  rfl

theorem dnsQueryTry_found {rectype need addrlen : Nat} {q q₁ q' : DnsQuery} {ret : Int}
    (hneed : need ≤ addrlen) (hsend : dnsSendQuery rectype q = .ok (OK, q₁))
    (hrecv : dnsRecvResponse q₁ = .ok (ret, q')) (hret : 0 ≤ ret) :
    dnsQueryTry rectype need addrlen q = .ok (some 1, q') := by
  rw [dnsQueryTry,if_neg (by omega),hsend,Except.ok_bind]
  simp only [show ¬OK < 0 by decide,if_false]
  rw [hrecv,Except.ok_bind,if_pos hret]
  rfl

theorem dnsQueryCallback_found {addrlen : Nat} {q q₁ q' : DnsQuery} {ret : Int}
    (haddrlen : SIZEOF_SOCKADDR_IN ≤ addrlen) (hsend : dnsSendQuery DNS_RECTYPE_A q = .ok (OK, q₁))
    (hrecv : dnsRecvResponse q₁ = .ok (ret, q')) (hret : 0 ≤ ret) :
    dnsQueryCallback AF_INET addrlen q = .ok (1, q') := by
  rw [dnsQueryCallback,dnsQueryCallbackLoop,if_neg (show ¬AF_INET ≠ AF_INET by decide),
    dnsQueryTry_found haddrlen hsend hrecv hret,Except.ok_bind]
  rfl

theorem dnsQuery_found {servers : List (Nat × Nat)} {family addrlen : Nat} {q q' : DnsQuery}
    (h : dnsQueryCallback family addrlen { q with result := -EADDRNOTAVAIL } = .ok (1, q')) :
    dnsQuery ((family, addrlen) :: servers) q = .ok (OK, q') := by
  simp [dnsQuery,dnsForeachNameserver,h,OK]

/-- For a hostname whose query fits the send buffer, `dns_query` returns OK on any datagram that
carries an A answer after a question: its ID need not be the one the query was sent with, nor its
QR bit set, nor its question the hostname. -/
theorem dnsQuery_accepts_unmatched (servers : List (Nat × Nat)) (q : DnsQuery) (rest : List Recv)
    (id₀ id₁ flags1 a b c d : UInt8) (labels : List (List UInt8)) (hl : ValidLabels labels)
    (hlen : (wireName labels).length ≤ 480) (hfit : q.hostname.length ≤ 46)
    (haddrlen : SIZEOF_SOCKADDR_IN ≤ q.addrlen)
    (hin : q.inbox = .datagram (dnsAnswerDatagram id₀ id₁ flags1 (wireName labels) a b c d) :: rest) :
    dnsQuery ((AF_INET, SIZEOF_SOCKADDR_IN) :: servers) q =
      .ok (OK, { q with
        result := -EADDRNOTAVAIL, seqno := q.seqno + 1,
        sent := q.sent ++ [dnsQueryPacket q.seqno q.hostname DNS_RECTYPE_A], inbox := rest,
        addr := ⟨AF_INET, 0, [a, b, c, d]⟩, addrlen := SIZEOF_SOCKADDR_IN }) := by
  have hd : (dnsAnswerDatagram id₀ id₁ flags1 (wireName labels) a b c d).length ≤
      RECV_BUFFER_SIZE := by
    simp [dnsAnswerDatagram,aRecord,RECV_BUFFER_SIZE,CONFIG_NETDB_DNSCLIENT_MAXRESPONSE]
    omega
  have hparse := dnsParseResponse_answerDatagram id₀ id₁ flags1 a b c d labels hl q.addr q.addrlen
    haddrlen
  have hsend := dnsSendQuery_of_fits DNS_RECTYPE_A (q := { q with result := -EADDRNOTAVAIL }) hfit
  have hrecv := dnsRecvResponse_datagram (q := { q with
    result := -EADDRNOTAVAIL, seqno := q.seqno + 1,
    sent := q.sent ++ [dnsQueryPacket q.seqno q.hostname DNS_RECTYPE_A] }) hin hd hparse
  exact dnsQuery_found (dnsQueryCallback_found (le_refl _) hsend hrecv
    (show (0 : Int) ≤ OK by decide))

theorem dnsQuery_accepts_unmatched_forged :
    ValidLabels [[0x78]] ∧ (wireName [[0x78]]).length ≤ 480 ∧ [(0x78 : UInt8)].length ≤ 46 ∧
      dnsQuery [(AF_INET, SIZEOF_SOCKADDR_IN)]
        ⟨0, [0x78], ⟨0, 0, []⟩, SIZEOF_SOCKADDR_IN, 5, [],
          [.datagram (dnsAnswerDatagram 0 6 0 (wireName [[0x78]]) 10 0 0 1)]⟩ =
      .ok (OK, ⟨-EADDRNOTAVAIL, [0x78], ⟨AF_INET, 0, [10, 0, 0, 1]⟩, SIZEOF_SOCKADDR_IN, 6,
        [dnsQueryPacket 5 [0x78] DNS_RECTYPE_A], []⟩) :=
  ⟨by decide,by decide,by decide,dnsQuery_accepts_unmatched [] _ [] 0 6 0 10 0 0 1 [[0x78]]
    (by decide) (by decide) (by decide) (le_refl _) rfl⟩

/-- What a nameserver sends back for the question of `query`: the query's ID, the flags it
answers with, one question and one answer, then the question as the query has it and the answer
record. -/
def dnsReply (query : List UInt8) (flags1 flags2 : UInt8) (answer : List UInt8) : List UInt8 :=
  query.take 2 ++ [flags1, flags2, 0, 1, 0, 1, 0, 0, 0, 0] ++ query.drop 12 ++ answer

theorem dnsQueryPacket_wireName (seqno : UInt8) (labels : List (List UInt8)) (hne : labels ≠ [])
    (hl : ∀ l ∈ labels, ∀ c ∈ l, c ≠ 0 ∧ c ≠ dot) (rectype : Nat) :
    dnsQueryPacket seqno (labels.intersperse [dot]).flatten rectype =
      [0, seqno, DNS_FLAG1_RD, 0, 0, 1, 0, 0, 0, 0, 0, 0] ++ wireName labels ++
        [(rectype / 256).toUInt8, rectype.toUInt8, 0, 1] := by
  rw [dnsQueryPacket, ← dnsEncodeLabels_wireName labels hne hl]
  simp [DNS_CLASS_IN]

/-- The nameserver's reply to the query `dns_query` sends for a hostname of labels whose query fits
the send buffer, with an A record for `a.b.c.d` that points at the question, is taken: `dns_query`
returns OK with that address, the query sent and the reply consumed. -/
theorem dnsQuery_reply (servers : List (Nat × Nat)) (q : DnsQuery) (rest : List Recv)
    (labels : List (List UInt8)) (hl : ValidLabels labels) (hc : ∀ l ∈ labels, ∀ c ∈ l, c ≠ 0 ∧ c ≠ dot)
    (hname : q.hostname = (labels.intersperse [dot]).flatten) (hfit : q.hostname.length ≤ 46)
    (haddrlen : SIZEOF_SOCKADDR_IN ≤ q.addrlen) (flags1 flags2 a b c d : UInt8)
    (hrcode : flags2 &&& DNS_FLAG2_ERR_MASK = 0)
    (hin : q.inbox = .datagram (dnsReply (dnsQueryPacket q.seqno q.hostname DNS_RECTYPE_A) flags1 flags2
      (aRecord 0x0c 0 0 0 0 a b c d)) :: rest) :
    dnsQuery ((AF_INET, SIZEOF_SOCKADDR_IN) :: servers) q =
      .ok (OK, { q with
        result := -EADDRNOTAVAIL, seqno := q.seqno + 1,
        sent := q.sent ++ [dnsQueryPacket q.seqno q.hostname DNS_RECTYPE_A], inbox := rest,
        addr := ⟨AF_INET, 0, [a, b, c, d]⟩, addrlen := SIZEOF_SOCKADDR_IN }) := by
  have hreply : dnsReply (dnsQueryPacket q.seqno q.hostname DNS_RECTYPE_A) flags1 flags2
      (aRecord 0x0c 0 0 0 0 a b c d) = [0, q.seqno, flags1, flags2, 0, 1, 0, 1, 0, 0, 0, 0] ++
        wireName labels ++ [0, 1, 0, 1] ++ aRecord 0x0c 0 0 0 0 a b c d := by
    rw [dnsReply, hname, dnsQueryPacket_wireName q.seqno labels hl.1 hc]
    simp [DNS_RECTYPE_A]
  rw [hreply] at hin
  have hwire : (wireName labels).length = q.hostname.length + 2 := by
    rw [length_wireName labels hl.1,hname]
  have hd : ([0, q.seqno, flags1, flags2, 0, 1, 0, 1, 0, 0, 0, 0] ++ wireName labels ++ [0, 1, 0, 1] ++
      aRecord 0x0c 0 0 0 0 a b c d).length ≤ RECV_BUFFER_SIZE := by
    simp [aRecord, RECV_BUFFER_SIZE, CONFIG_NETDB_DNSCLIENT_MAXRESPONSE]
    omega
  have hparse := dnsParseResponse_question_aRecord 0 q.seqno flags1 flags2 a b c d hrcode labels hl
    q.addr q.addrlen haddrlen
  have hsend := dnsSendQuery_of_fits DNS_RECTYPE_A (q := { q with result := -EADDRNOTAVAIL }) hfit
  have hrecv := dnsRecvResponse_datagram (q := { q with
    result := -EADDRNOTAVAIL, seqno := q.seqno + 1,
    sent := q.sent ++ [dnsQueryPacket q.seqno q.hostname DNS_RECTYPE_A] }) hin hd hparse
  exact dnsQuery_found (dnsQueryCallback_found (le_refl _) hsend hrecv
    (show (0 : Int) ≤ OK by decide))

theorem dnsQuery_reply_example :
    let labels : List (List UInt8) := [[0x77, 0x77, 0x77], [0x65, 0x78, 0x61, 0x6d, 0x70, 0x6c, 0x65],
      [0x63, 0x6f, 0x6d]]
    let q : DnsQuery := ⟨0, (labels.intersperse [dot]).flatten, ⟨0, 0, []⟩, SIZEOF_SOCKADDR_IN, 7, [],
      [.datagram (dnsReply (dnsQueryPacket 7 (labels.intersperse [dot]).flatten DNS_RECTYPE_A) 0x81 0x80
        (aRecord 0x0c 0 0 0 0 93 184 215 14))]⟩
    (ValidLabels labels ∧ (∀ l ∈ labels, ∀ c ∈ l, c ≠ 0 ∧ c ≠ dot) ∧ q.hostname.length ≤ 46 ∧
      (0x80 : UInt8) &&& DNS_FLAG2_ERR_MASK = 0) ∧
      dnsQuery [(AF_INET, SIZEOF_SOCKADDR_IN)] q =
        .ok (OK, { q with
          result := -EADDRNOTAVAIL, seqno := 8,
          sent := [dnsQueryPacket 7 q.hostname DNS_RECTYPE_A], inbox := [],
          addr := ⟨AF_INET, 0, [93, 184, 215, 14]⟩, addrlen := SIZEOF_SOCKADDR_IN }) := by
  intro labels q
  have hl : ValidLabels labels := by decide
  have hc : ∀ l ∈ labels, ∀ c ∈ l, c ≠ 0 ∧ c ≠ dot := by simp [labels, dot]
  have hfit : q.hostname.length ≤ 46 := by decide
  have hrcode : (0x80 : UInt8) &&& DNS_FLAG2_ERR_MASK = 0 := by decide
  exact ⟨⟨hl, hc, hfit, hrcode⟩,
    dnsQuery_reply [] q [] labels hl hc rfl hfit (le_refl _) 0x81 0x80 93 184 215 14 hrcode rfl⟩

/-- `dns_send_query` takes every hostname of 47 bytes or more and writes its question past the
end of the SEND_BUFFER_SIZE-byte buffer. -/
theorem dnsSendQuery_overflow (rectype : Nat) (q : DnsQuery) (h0 : ∀ c ∈ q.hostname, c ≠ 0)
    (hlen : SEND_BUFFER_SIZE - 17 ≤ q.hostname.length) :
    SEND_BUFFER_SIZE < (dnsQueryPacket q.seqno q.hostname rectype).length ∧
      dnsSendQuery rectype q = .error SEND_BUFFER_SIZE := by
  have hlong : SEND_BUFFER_SIZE < (dnsQueryPacket q.seqno q.hostname rectype).length := by
    rw [length_dnsQueryPacket _ _ _ h0]
    simp only [SEND_BUFFER_SIZE] at hlen ⊢
    omega
  exact ⟨hlong,if_pos hlong⟩

theorem dnsSendQuery_overflow_long_name :
    (∀ c ∈ List.replicate 47 (0x61 : UInt8), c ≠ 0) ∧
      SEND_BUFFER_SIZE - 17 ≤ (List.replicate 47 (0x61 : UInt8)).length ∧
      SEND_BUFFER_SIZE < (dnsQueryPacket 0 (List.replicate 47 0x61) DNS_RECTYPE_A).length ∧
      dnsSendQuery DNS_RECTYPE_A ⟨0, List.replicate 47 0x61, ⟨0, 0, []⟩, SIZEOF_SOCKADDR_IN, 0, [], []⟩ =
        .error SEND_BUFFER_SIZE := by
  have hname : ∀ c ∈ List.replicate 47 (0x61 : UInt8), c ≠ 0 := by
    intro c hc
    rw [List.eq_of_mem_replicate hc]
    decide
  exact ⟨hname,by decide,dnsSendQuery_overflow DNS_RECTYPE_A
    ⟨0, List.replicate 47 0x61, ⟨0, 0, []⟩, SIZEOF_SOCKADDR_IN, 0, [], []⟩ hname (by decide)⟩

end TizenRT.Netdb
