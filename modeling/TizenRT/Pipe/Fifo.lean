import TizenRT.Pipe.Model

set_option autoImplicit false

/-!
The pipe as a bounded FIFO. The bytes from d_rdndx up to d_wrndx are a queue of at most
CONFIG_DEV_PIPE_SIZE - 1 bytes; a write appends as much of its buffer as fits, and a read takes
bytes from the front. Over every sequence of non-blocking calls, the bytes the reads returned,
followed by the bytes still buffered, are the bytes the writes accepted.
-/

namespace TizenRT.Pipe

open TizenRT.Wdog TizenRT.Sem RingBuffer

variable {α : Type}

/-- A queue of at most `cap` items, written without waiting: as much of `buffer` as fits. -/
def fifoWrite (cap : Nat) (q buffer : List α) : Nat × List α :=
  let n := min buffer.length (cap - q.length)
  (n,q ++ buffer.take n)

def fifoRead (q : List α) (len : Nat) : List α × List α := (q.take len,q.drop len)

def PipeDev.items (N : Nat) (dev : PipeDev α) : List α :=
  RingBuffer.items dev.d_buffer dev.d_rdndx dev.d_wrndx N

def PipeDev.free (N : Nat) (dev : PipeDev α) : Nat := N - 1 - (dev.items N).length

structure PipeInv (N : Nat) (dev : PipeDev α) : Prop where
  rd_lt : dev.d_rdndx < N
  wr_lt : dev.d_wrndx < N

variable {N : Nat} {dev : PipeDev α}

theorem PipeInv.length_items_lt (h : PipeInv N dev) : (dev.items N).length < N := by
  simp only [PipeDev.items,length_items]
  exact count_lt h.rd_lt h.wr_lt

theorem lt_two_pow_pipeNdxBits (hN : N < 2 ^ 32) : N < 2 ^ pipeNdxBits N := by
  unfold pipeNdxBits
  split
  · exact hN
  · split <;> omega

theorem ndx_incr (hN : N < 2 ^ 32) {i : Nat} (hi : i < N) : (i + 1) % 2 ^ pipeNdxBits N = i + 1 :=
  Nat.mod_eq_of_lt (Nat.lt_of_le_of_lt hi (lt_two_pow_pipeNdxBits hN))

section Read

theorem pipeReadLoop_succ (hN : N < 2 ^ 32) (h : PipeInv N dev)
    (hne : dev.d_wrndx ≠ dev.d_rdndx) (k : Nat) :
    pipeReadLoop N dev (k + 1) =
      (dev.d_buffer dev.d_rdndx ::
        (pipeReadLoop N { dev with d_rdndx := nextIndex dev.d_rdndx N } k).1,
        (pipeReadLoop N { dev with d_rdndx := nextIndex dev.d_rdndx N } k).2) := by
  rw [pipeReadLoop,if_pos hne,ndx_incr hN h.rd_lt]
  rfl

theorem items_eq_nil_iff (h : PipeInv N dev) : dev.items N = [] ↔ dev.d_wrndx = dev.d_rdndx := by
  rw [← List.length_eq_zero_iff,PipeDev.items,length_items,count_eq_zero_iff h.rd_lt]
  exact eq_comm

theorem pipeReadLoop_spec (hN : N < 2 ^ 32) (k : Nat) :
    ∀ dev : PipeDev α, PipeInv N dev → ∃ rd' < N,
      pipeReadLoop N dev k = ((dev.items N).take k,{ dev with d_rdndx := rd' }) ∧
      ({ dev with d_rdndx := rd' } : PipeDev α).items N = (dev.items N).drop k := by
  induction k with
  | zero =>
    intro dev h
    exact ⟨dev.d_rdndx,h.rd_lt,rfl,rfl⟩
  | succ k ih =>
    intro dev h
    by_cases hne : dev.d_wrndx = dev.d_rdndx
    · have hnil := (items_eq_nil_iff h).mpr hne
      refine ⟨dev.d_rdndx,h.rd_lt,?_,by rw [hnil]; rfl⟩
      rw [hnil,pipeReadLoop,if_neg (not_not.mpr hne)]
      rfl
    · have hpop : dev.items N = dev.d_buffer dev.d_rdndx ::
          ({ dev with d_rdndx := nextIndex dev.d_rdndx N } : PipeDev α).items N :=
        items_pop dev.d_buffer h.rd_lt h.wr_lt (Ne.symm hne)
      obtain ⟨rd',hrd',hloop,hitems⟩ :=
        ih { dev with d_rdndx := nextIndex dev.d_rdndx N } ⟨nextIndex_lt h.rd_lt,h.wr_lt⟩
      refine ⟨rd',hrd',?_,?_⟩
      · rw [pipeReadLoop_succ hN h hne,hloop,hpop]
        rfl
      · rw [hpop]
        exact hitems

theorem pipecommonRead_refines (hN : N < 2 ^ 32) (h : PipeInv N dev) {f_oflags : Nat}
    (hnb : f_oflags &&& O_NONBLOCK ≠ 0) (len : Nat) :
    ∃ dev', PipeInv N dev' ∧ dev'.d_wrndx = dev.d_wrndx ∧ dev'.d_nwriters = dev.d_nwriters ∧
      dev'.items N = (fifoRead (dev.items N) len).2 ∧
      pipecommonRead N f_oflags dev len =
        .done (if 0 < len ∧ dev.items N = [] then -EAGAIN else (min len (dev.items N).length : Nat))
          (fifoRead (dev.items N) len).1 dev' := by
  by_cases hlen : len = 0
  · subst hlen
    refine ⟨dev,h,rfl,rfl,by simp [fifoRead],?_⟩
    simp [pipecommonRead,fifoRead]
  by_cases hne : dev.d_wrndx = dev.d_rdndx
  · have hnil := (items_eq_nil_iff h).mpr hne
    refine ⟨dev,h,rfl,rfl,by simp [fifoRead,hnil],?_⟩
    simp [pipecommonRead,fifoRead,hlen,hne,hnb,hnil]
  · obtain ⟨rd',hrd',hloop,hitems⟩ := pipeReadLoop_spec hN len dev h
    have hne' : dev.items N ≠ [] := fun hn => hne ((items_eq_nil_iff h).mp hn)
    refine ⟨{ dev with d_rdndx := rd' },⟨hrd',h.wr_lt⟩,rfl,rfl,hitems,?_⟩
    simp only [pipecommonRead,hlen,if_false,hne,hloop,fifoRead,hne',and_false,List.length_take]

end Read

section Write

variable {f_oflags len : Nat}

theorem free_def : N - 1 - (dev.items N).length = dev.free N := rfl

theorem free_eq_zero_of_full (h : PipeInv N dev) (hfull : nextIndex dev.d_wrndx N = dev.d_rdndx) :
    dev.free N = 0 := by
  have hc := (nextIndex_eq_iff h.rd_lt h.wr_lt).mp hfull
  simp only [PipeDev.free,PipeDev.items,length_items]
  omega

theorem items_put (h : PipeInv N dev) (hfull : nextIndex dev.d_wrndx N ≠ dev.d_rdndx) (b : α) :
    PipeInv N { dev with
      d_buffer := Function.update dev.d_buffer dev.d_wrndx b
      d_wrndx := nextIndex dev.d_wrndx N } ∧
    ({ dev with
      d_buffer := Function.update dev.d_buffer dev.d_wrndx b
      d_wrndx := nextIndex dev.d_wrndx N } : PipeDev α).items N = dev.items N ++ [b] ∧
    dev.free N = ({ dev with
      d_buffer := Function.update dev.d_buffer dev.d_wrndx b
      d_wrndx := nextIndex dev.d_wrndx N } : PipeDev α).free N + 1 := by
  have hpush := items_push dev.d_buffer b h.rd_lt h.wr_lt hfull
  have hc := count_nextIndex_wr h.rd_lt h.wr_lt hfull
  have hlt := count_lt h.rd_lt (nextIndex_lt h.wr_lt)
  refine ⟨⟨h.rd_lt,nextIndex_lt h.wr_lt⟩,hpush,?_⟩
  simp only [PipeDev.free,PipeDev.items,length_items]
  omega

theorem pipeWriteLoop_spec : ∀ (buffer : List α) (dev : PipeDev α) (nwritten : Nat),
    PipeInv N dev → buffer ≠ [] → nwritten + buffer.length = len →
    ∃ dev', PipeInv N dev' ∧ dev'.d_rdndx = dev.d_rdndx ∧ dev'.d_nwriters = dev.d_nwriters ∧
      dev'.items N = dev.items N ++ buffer.take (dev.free N) ∧
      pipeWriteLoop N f_oflags len dev nwritten buffer =
        if buffer.length ≤ dev.free N then .done len dev'
        else if f_oflags &&& O_NONBLOCK ≠ 0 then
          .done (if nwritten + dev.free N = 0 then -EAGAIN else (nwritten + dev.free N : Nat)) dev'
        else .wait (nwritten + dev.free N) (buffer.drop (dev.free N)) dev'
  | [],_,_,_,hb,_ => absurd rfl hb
  | b :: rest,dev,nwritten,h,_,hlen => by
    by_cases hfull : nextIndex dev.d_wrndx N = dev.d_rdndx
    · have hfree := free_eq_zero_of_full h hfull
      refine ⟨dev,h,rfl,rfl,by simp [hfree],?_⟩
      simp [pipeWriteLoop,hfull,hfree]
    obtain ⟨h₁,hitems₁,hfree₁⟩ := items_put h hfull b
    have hstep : pipeWriteLoop N f_oflags len dev nwritten (b :: rest) =
        if nwritten + 1 ≥ len then .done len { dev with
          d_buffer := Function.update dev.d_buffer dev.d_wrndx b
          d_wrndx := nextIndex dev.d_wrndx N }
        else pipeWriteLoop N f_oflags len { dev with
          d_buffer := Function.update dev.d_buffer dev.d_wrndx b
          d_wrndx := nextIndex dev.d_wrndx N } (nwritten + 1) rest := by
      rw [pipeWriteLoop]
      exact if_pos hfull
    by_cases hlast : nwritten + 1 ≥ len
    · have hrest : rest = [] := List.eq_nil_of_length_eq_zero (by simp at hlen; omega)
      subst hrest
      refine ⟨_,h₁,rfl,rfl,?_,?_⟩
      · rw [hitems₁,hfree₁,List.take_succ_cons,List.take_nil]
      · rw [hstep,if_pos hlast,if_pos (by simp; omega)]
    · have hrest : rest ≠ [] := by
        intro hr
        subst hr
        simp at hlen
        omega
      obtain ⟨dev',h',hrd,hnw,hitems',hloop⟩ :=
        pipeWriteLoop_spec rest _ (nwritten + 1) h₁ hrest (by simp at hlen; omega)
      refine ⟨dev',h',hrd,hnw,?_,?_⟩
      · rw [hitems',hitems₁,hfree₁,List.take_succ_cons,List.append_assoc]
        rfl
      · rw [hstep,if_neg hlast,hloop,hfree₁]
        simp only [List.length_cons,Nat.add_le_add_iff_right,List.drop_succ_cons,
          show nwritten + 1 + _ = nwritten + (_ + 1) from Nat.add_right_comm _ _ _]

theorem pipecommonWrite_spec (h : PipeInv N dev) (buffer : List α) :
    ∃ dev', PipeInv N dev' ∧ dev'.d_rdndx = dev.d_rdndx ∧ dev'.d_nwriters = dev.d_nwriters ∧
      dev'.items N = dev.items N ++ buffer.take (dev.free N) ∧
      pipecommonWrite N f_oflags dev buffer =
        if buffer = [] then .done 0 dev'
        else if buffer.length ≤ dev.free N then .done buffer.length dev'
        else if f_oflags &&& O_NONBLOCK ≠ 0 then
          .done (if dev.free N = 0 then -EAGAIN else (dev.free N : Nat)) dev'
        else .wait (dev.free N) (buffer.drop (dev.free N)) dev' := by
  cases buffer with
  | nil => exact ⟨dev,h,rfl,rfl,by simp,rfl⟩
  | cons b rest =>
    obtain ⟨dev',h',hrd,hnw,hitems,hloop⟩ :=
      @pipeWriteLoop_spec α N f_oflags _ (b :: rest) dev 0 h (List.cons_ne_nil b rest) rfl
    refine ⟨dev',h',hrd,hnw,hitems,?_⟩
    simp only [Nat.zero_add,List.length_cons] at hloop
    simp only [pipecommonWrite,List.length_cons,Nat.add_one_ne_zero,if_false,reduceCtorEq]
    exact hloop

theorem pipecommonWrite_refines (h : PipeInv N dev) (hnb : f_oflags &&& O_NONBLOCK ≠ 0)
    (buffer : List α) :
    ∃ dev', PipeInv N dev' ∧ dev'.d_rdndx = dev.d_rdndx ∧ dev'.d_nwriters = dev.d_nwriters ∧
      dev'.items N = (fifoWrite (N - 1) (dev.items N) buffer).2 ∧
      pipecommonWrite N f_oflags dev buffer =
        .done (if buffer ≠ [] ∧ (fifoWrite (N - 1) (dev.items N) buffer).1 = 0 then -EAGAIN
          else ((fifoWrite (N - 1) (dev.items N) buffer).1 : Nat)) dev' := by
  obtain ⟨dev',h',hrd,hnw,hitems,hw⟩ := @pipecommonWrite_spec α N dev f_oflags h buffer
  have htake : buffer.take (min buffer.length (dev.free N)) = buffer.take (dev.free N) := by
    by_cases hle : buffer.length ≤ dev.free N
    · rw [Nat.min_eq_left hle,List.take_length,List.take_of_length_le hle]
    · rw [Nat.min_eq_right (by omega)]
  refine ⟨dev',h',hrd,hnw,?_,?_⟩
  · simp only [fifoWrite,hitems]
    exact congrArg _ htake.symm
  · rw [hw]
    simp only [fifoWrite,free_def]
    by_cases hb : buffer = []
    · simp [hb]
    by_cases hle : buffer.length ≤ dev.free N
    · have hpos : buffer.length ≠ 0 := fun hz => hb (List.eq_nil_of_length_eq_zero hz)
      simp [hb,hle,hpos]
    · simp [hb,hle,hnb,Nat.min_eq_right (Nat.le_of_not_le hle)]

end Write

theorem toNat_writeResult {c : Prop} [Decidable c] {n : Nat} (hc : c → n = 0) :
    (if c then -EAGAIN else (n : Int)).toNat = n := by
  by_cases h : c
  · rw [if_pos h,hc h]
    rfl
  · rw [if_neg h,Int.toNat_natCast]

/-- Runs of non-blocking reads and writes on a pipe just opened (both indices 0), with the bytes
the writes accepted and the bytes the reads returned. -/
inductive PipeRun (N : Nat) : PipeDev α → List α → List α → Prop
  | init (d_nwriters : Nat) (d_buffer : Nat → α) : PipeRun N ⟨0,0,d_nwriters,d_buffer⟩ [] []
  | write {dev dev' : PipeDev α} {acc ret : List α} (f_oflags : Nat) (buffer : List α) (n : Int) :
      PipeRun N dev acc ret → f_oflags &&& O_NONBLOCK ≠ 0 →
      pipecommonWrite N f_oflags dev buffer = .done n dev' →
      PipeRun N dev' (acc ++ buffer.take n.toNat) ret
  | read {dev dev' : PipeDev α} {acc ret : List α} (f_oflags len : Nat) (n : Int) (bytes : List α) :
      PipeRun N dev acc ret → f_oflags &&& O_NONBLOCK ≠ 0 →
      pipecommonRead N f_oflags dev len = .done n bytes dev' →
      PipeRun N dev' acc (ret ++ bytes)

theorem PipeRun.inv (hpos : 0 < N) (hN : N < 2 ^ 32) {acc ret : List α}
    (hr : PipeRun N dev acc ret) : PipeInv N dev ∧ ret ++ dev.items N = acc := by
  induction hr with
  | init d_nwriters d_buffer => exact ⟨⟨hpos,hpos⟩,rfl⟩
  | @write dev dev' acc ret f_oflags buffer n _ hnb he ih =>
    obtain ⟨h,hacc⟩ := ih
    obtain ⟨dev'',h',-,-,hitems,hw⟩ := pipecommonWrite_refines h hnb buffer
    rw [he,PipeWrite.done.injEq] at hw
    obtain ⟨rfl,rfl⟩ := hw
    refine ⟨h',?_⟩
    rw [hitems,← hacc]
    simp only [fifoWrite,List.append_assoc]
    congr 3
    exact (toNat_writeResult fun hc => hc.2).symm
  | @read dev dev' acc ret f_oflags len n bytes _ hnb he ih =>
    obtain ⟨h,hacc⟩ := ih
    obtain ⟨dev'',h',-,-,hitems,hrd⟩ := pipecommonRead_refines hN h hnb len
    rw [he,PipeRead.done.injEq] at hrd
    obtain ⟨-,rfl,rfl⟩ := hrd
    refine ⟨h',?_⟩
    rw [hitems,← hacc,List.append_assoc]
    simp [fifoRead]

/-- Over every run of non-blocking calls: the reads returned a prefix of what the writes
accepted, the rest is buffered and fits in CONFIG_DEV_PIPE_SIZE - 1 bytes; the next write
accepts `min len` of the free space and returns it (0 for an empty write, -EAGAIN for a full
pipe), and the next read returns `min len` of the buffered bytes (-EAGAIN for an empty pipe). -/
theorem pipe_fifo_nonblock (hpos : 0 < N) (hN : N < 2 ^ 32) {acc ret : List α}
    (hr : PipeRun N dev acc ret) :
    ret ++ dev.items N = acc ∧ (dev.items N).length ≤ N - 1 ∧
    (∀ f_oflags (buffer : List α), f_oflags &&& O_NONBLOCK ≠ 0 →
      ∃ dev', PipeRun N dev' (acc ++ buffer.take (min buffer.length (dev.free N))) ret ∧
        pipecommonWrite N f_oflags dev buffer =
          .done (if buffer ≠ [] ∧ min buffer.length (dev.free N) = 0 then -EAGAIN
            else (min buffer.length (dev.free N) : Nat)) dev') ∧
    (∀ f_oflags len, f_oflags &&& O_NONBLOCK ≠ 0 →
      ∃ dev', PipeRun N dev' acc (ret ++ (dev.items N).take len) ∧
        dev'.items N = (dev.items N).drop len ∧
        pipecommonRead N f_oflags dev len =
          .done (if 0 < len ∧ dev.items N = [] then -EAGAIN else (min len (dev.items N).length : Nat))
            ((dev.items N).take len) dev') := by
  obtain ⟨h,hacc⟩ := hr.inv hpos hN
  refine ⟨hacc,by have := h.length_items_lt; omega,?_,?_⟩
  · intro f_oflags buffer hnb
    obtain ⟨dev',-,-,-,-,hw⟩ := pipecommonWrite_refines h hnb buffer
    refine ⟨dev',?_,hw⟩
    have hrun := PipeRun.write f_oflags buffer _ hr hnb hw
    convert hrun using 3
    exact (toNat_writeResult fun hc => hc.2).symm
  · intro f_oflags len hnb
    obtain ⟨dev',-,-,-,hitems,hrd⟩ := pipecommonRead_refines hN h hnb len
    exact ⟨dev',PipeRun.read f_oflags len _ _ hr hnb hrd,hitems,hrd⟩

theorem pipe_fifo_nonblock_partial_write :
    ∃ dev' : PipeDev UInt8, PipeRun 4 dev' [1,2,3] [] ∧
      pipecommonWrite 4 O_NONBLOCK ⟨0,0,1,fun _ => 0⟩ [1,2,3,4] = .done 3 dev' := by
  obtain ⟨-,-,hw,-⟩ := pipe_fifo_nonblock (N := 4) (by decide) (by decide)
    (PipeRun.init 1 fun _ => (0 : UInt8))
  obtain ⟨dev',hrun,he⟩ := hw O_NONBLOCK [1,2,3,4] (by decide)
  have hfree : (⟨0,0,1,fun _ => 0⟩ : PipeDev UInt8).free 4 = 3 := by decide
  rw [hfree] at hrun he
  exact ⟨dev',by simpa using hrun,by simpa using he⟩

theorem pipecommon_write_empty_returns_zero :
    let dev : PipeDev UInt8 := ⟨0,0,1,fun _ => 0⟩
    min ([] : List UInt8).length (dev.free 1024) = 0 ∧
      pipecommonWrite 1024 O_NONBLOCK dev [] = .done 0 dev ∧ (0 : Int) ≠ -EAGAIN :=
  ⟨Nat.zero_min _,rfl,by decide⟩

section Poll

theorem pipecommonPollNbytes_eq (hN : N < 2 ^ 32) (h : PipeInv N dev) :
    pipecommonPollNbytes N dev =
      if dev.d_rdndx ≤ dev.d_wrndx then (dev.items N).length else (dev.items N).length - 1 := by
  have hpow := lt_two_pow_pipeNdxBits hN
  have hr := h.rd_lt
  have hw := h.wr_lt
  have hlt : (if dev.d_wrndx ≥ dev.d_rdndx then dev.d_wrndx - dev.d_rdndx
      else (N - 1) + dev.d_wrndx - dev.d_rdndx) < 2 ^ pipeNdxBits N := by
    split <;> omega
  rw [pipecommonPollNbytes,Nat.mod_eq_of_lt hlt]
  simp only [PipeDev.items,length_items,count]
  split <;> omega

theorem pipecommonPollEvents_no_pollin (hN : N < 2 ^ 32) (h : PipeInv N dev)
    (hwrap : dev.d_wrndx < dev.d_rdndx) (hone : (dev.items N).length = 1) :
    pipecommonPollEvents N dev &&& POLLIN = 0 := by
  have hn : pipecommonPollNbytes N dev = 0 := by
    rw [pipecommonPollNbytes_eq hN h,if_neg (by omega),hone]
  simp only [pipecommonPollEvents,hn,Nat.lt_irrefl,if_false,Nat.or_zero]
  split <;> rfl

theorem pipecommonPollEvents_pollout_of_wrap (hN : N < 2 ^ 32) (h : PipeInv N dev)
    (hwrap : dev.d_wrndx < dev.d_rdndx) : pipecommonPollEvents N dev &&& POLLOUT ≠ 0 := by
  have hlt := h.length_items_lt
  have hn : pipecommonPollNbytes N dev < N - 1 := by
    rw [pipecommonPollNbytes_eq hN h,if_neg (by omega)]
    have := h.rd_lt
    omega
  simp only [pipecommonPollEvents,hn,if_true]
  split <;> decide

/-- In every state a run of non-blocking calls reaches with the bytes wrapped round the end of the
ring, a non-blocking read of any length up from the ring's size returns every buffered byte, one
more than the count `pipecommon_poll` computes. -/
theorem pipe_poll_undercounts_wrapped (hpos : 0 < N) (hN : N < 2 ^ 32) {acc ret : List α}
    (hr : PipeRun N dev acc ret) (hwrap : dev.d_wrndx < dev.d_rdndx) {f_oflags : Nat}
    (hnb : f_oflags &&& O_NONBLOCK ≠ 0) {len : Nat} (hlen : N ≤ len) :
    ∃ dev', pipecommonRead N f_oflags dev len =
      .done (pipecommonPollNbytes N dev + 1 : Nat) (dev.items N) dev' := by
  obtain ⟨h,-⟩ := hr.inv hpos hN
  have hne : dev.items N ≠ [] := fun hn => Nat.ne_of_lt hwrap ((items_eq_nil_iff h).mp hn)
  have hcount : pipecommonPollNbytes N dev + 1 = (dev.items N).length := by
    rw [pipecommonPollNbytes_eq hN h,if_neg (Nat.not_le_of_lt hwrap)]
    have := List.length_pos_of_ne_nil hne
    omega
  have hle : (dev.items N).length ≤ len := by
    have := h.length_items_lt
    omega
  obtain ⟨dev',-,-,-,-,hrd⟩ := pipecommonRead_refines hN h hnb len
  refine ⟨dev',?_⟩
  rw [hrd,hcount,if_neg (fun hc => hne hc.2),Nat.min_eq_right hle]
  simp only [fifoRead,List.take_of_length_le hle]

theorem pipe_poll_undercounts_wrapped_one_byte :
    ∃ (dev : PipeDev UInt8) (acc ret : List UInt8), PipeRun 4 dev acc ret ∧ dev.d_wrndx < dev.d_rdndx ∧
      pipecommonPollEvents 4 dev &&& POLLIN = 0 ∧
      ∃ dev', pipecommonRead 4 O_NONBLOCK dev 4 = .done 1 [4] dev' := by
  have h1 := PipeRun.write (N := 4) O_NONBLOCK [(1 : UInt8),2,3] 3 (PipeRun.init 1 fun _ => (0 : UInt8))
    (by decide) rfl
  have h2 := PipeRun.read O_NONBLOCK 3 3 _ h1 (by decide) rfl
  have h3 := PipeRun.write O_NONBLOCK [(4 : UInt8)] 1 h2 (by decide) rfl
  have hwrap : 0 < 3 := by decide
  obtain ⟨dev',hrd⟩ := pipe_poll_undercounts_wrapped (by decide) (by decide) h3 hwrap
    (show O_NONBLOCK &&& O_NONBLOCK ≠ 0 by decide) (Nat.le_refl 4)
  refine ⟨_,_,_,h3,hwrap,pipecommonPollEvents_no_pollin (by decide) (h3.inv (by decide) (by decide)).1
    hwrap (by decide),dev',?_⟩
  rw [hrd]
  rfl

/-- In every state a run of non-blocking calls reaches with the ring full and the bytes wrapped,
poll reports POLLOUT while a non-blocking write finds no room and returns -EAGAIN. -/
theorem pipe_poll_pollout_when_full (hpos : 0 < N) (hN : N < 2 ^ 32) {acc ret : List α}
    (hr : PipeRun N dev acc ret) (hwrap : dev.d_wrndx < dev.d_rdndx) (hfull : dev.free N = 0)
    {f_oflags : Nat} (hnb : f_oflags &&& O_NONBLOCK ≠ 0) {buffer : List α} (hb : buffer ≠ []) :
    pipecommonPollEvents N dev &&& POLLOUT ≠ 0 ∧
      ∃ dev', dev'.items N = dev.items N ∧
        pipecommonWrite N f_oflags dev buffer = .done (-EAGAIN) dev' := by
  obtain ⟨h,-⟩ := hr.inv hpos hN
  obtain ⟨dev',-,-,-,hitems,hw⟩ := pipecommonWrite_refines h hnb buffer
  have hnone : min buffer.length (N - 1 - (dev.items N).length) = 0 := by
    rw [free_def,hfull,Nat.min_zero]
  refine ⟨pipecommonPollEvents_pollout_of_wrap hN h hwrap,dev',?_,?_⟩
  · rw [hitems,fifoWrite]
    simp only [hnone,List.take_zero,List.append_nil]
  · rw [hw,fifoWrite]
    simp [hnone,hb]

theorem pipe_poll_pollout_when_full_three :
    ∃ (dev : PipeDev UInt8) (acc ret : List UInt8), PipeRun 4 dev acc ret ∧
      dev.d_wrndx < dev.d_rdndx ∧ dev.free 4 = 0 ∧ pipecommonPollEvents 4 dev &&& POLLOUT ≠ 0 ∧
      ∃ dev', dev'.items 4 = dev.items 4 ∧ pipecommonWrite 4 O_NONBLOCK dev [5] = .done (-EAGAIN) dev' := by
  have h1 := PipeRun.write (N := 4) O_NONBLOCK [(1 : UInt8),2,3] 3 (PipeRun.init 1 fun _ => (0 : UInt8))
    (by decide) rfl
  have h2 := PipeRun.read O_NONBLOCK 1 1 _ h1 (by decide) rfl
  have h3 := PipeRun.write O_NONBLOCK [(4 : UInt8)] 1 h2 (by decide) rfl
  have hwrap : 0 < 1 := by decide
  have hfull := pipe_poll_pollout_when_full (by decide) (by decide) h3 hwrap (by decide)
    (show O_NONBLOCK &&& O_NONBLOCK ≠ 0 by decide) (List.cons_ne_nil (5 : UInt8) [])
  exact ⟨_,_,_,h3,hwrap,by decide,hfull⟩

end Poll

end TizenRT.Pipe
