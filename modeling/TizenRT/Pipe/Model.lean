import TizenRT.Lib.RingBuffer
import TizenRT.Sem.Model

set_option autoImplicit false

/-!
One pipe (drivers/pipes/pipe_common.c): a ring of CONFIG_DEV_PIPE_SIZE bytes written at d_wrndx
and read at d_rdndx, one slot kept empty. `pipecommon_read` and `pipecommon_write` are taken from
the point where they hold d_bfsem. A call that would wait on d_rdsem or d_wrsem returns `wait`;
when it is woken it runs its loop again from there.
-/

namespace TizenRT.Pipe

open TizenRT.Wdog TizenRT.Sem RingBuffer

def O_NONBLOCK : Nat := 1 <<< 6
def POLLIN : Nat := 0x01
def POLLOUT : Nat := 0x02

/-- The width of `pipe_ndx_t`, as small as the configured size allows. -/
def pipeNdxBits (CONFIG_DEV_PIPE_SIZE : Nat) : Nat :=
  if CONFIG_DEV_PIPE_SIZE > 65535 then 32 else if CONFIG_DEV_PIPE_SIZE > 255 then 16 else 8

structure PipeDev (α : Type) where
  d_wrndx : Nat
  d_rdndx : Nat
  d_nwriters : Nat
  d_buffer : Nat → α

inductive PipeRead (α : Type) where
  | done (nread : Int) (bytes : List α) (dev : PipeDev α)
  /-- waits on d_rdsem; nothing has changed -/
  | wait

inductive PipeWrite (α : Type) where
  | done (nwritten : Int) (dev : PipeDev α)
  /-- waits on d_wrsem with `nwritten` bytes in and `rest` still to write -/
  | wait (nwritten : Nat) (rest : List α) (dev : PipeDev α)

variable {α : Type} (CONFIG_DEV_PIPE_SIZE : Nat)

/-- `while (nread < len && dev->d_wrndx != dev->d_rdndx)` with `k = len - nread` left;
`++dev->d_rdndx` is computed in `pipe_ndx_t`. -/
def pipeReadLoop (dev : PipeDev α) : Nat → List α × PipeDev α
  | 0 => ([],dev)
  | k + 1 =>
    if dev.d_wrndx ≠ dev.d_rdndx then
      let rdndx := (dev.d_rdndx + 1) % 2 ^ pipeNdxBits CONFIG_DEV_PIPE_SIZE
      let r := pipeReadLoop
        { dev with d_rdndx := if rdndx ≥ CONFIG_DEV_PIPE_SIZE then 0 else rdndx } k
      (dev.d_buffer dev.d_rdndx :: r.1,r.2)
    else ([],dev)

def pipecommonRead (f_oflags : Nat) (dev : PipeDev α) (len : Nat) : PipeRead α :=
  if len = 0 then .done 0 [] dev
  else if dev.d_wrndx = dev.d_rdndx then
    if f_oflags &&& O_NONBLOCK ≠ 0 then .done (-EAGAIN) [] dev
    else if dev.d_nwriters ≤ 0 then .done 0 [] dev
    else .wait
  else
    let r := pipeReadLoop CONFIG_DEV_PIPE_SIZE dev len
    .done r.1.length r.1 r.2

/-- The `for (;;)` of `pipecommon_write` with `nwritten` bytes written and `buffer` left. -/
def pipeWriteLoop (f_oflags len : Nat) (dev : PipeDev α) (nwritten : Nat) : List α → PipeWrite α
  | [] => .done nwritten dev
  | b :: buffer =>
    let nxtwrndx := nextIndex dev.d_wrndx CONFIG_DEV_PIPE_SIZE
    if nxtwrndx ≠ dev.d_rdndx then
      let dev := { dev with
        d_buffer := Function.update dev.d_buffer dev.d_wrndx b
        d_wrndx := nxtwrndx }
      if nwritten + 1 ≥ len then .done len dev
      else pipeWriteLoop f_oflags len dev (nwritten + 1) buffer
    else if f_oflags &&& O_NONBLOCK ≠ 0 then
      .done (if nwritten = 0 then -EAGAIN else nwritten) dev
    else .wait nwritten (b :: buffer) dev

def pipecommonWrite (f_oflags : Nat) (dev : PipeDev α) (buffer : List α) : PipeWrite α :=
  if buffer.length = 0 then .done 0 dev
  else pipeWriteLoop CONFIG_DEV_PIPE_SIZE f_oflags buffer.length dev 0 buffer

/-- The byte count `pipecommon_poll` computes at setup, a `pipe_ndx_t`. -/
def pipecommonPollNbytes (dev : PipeDev α) : Nat :=
  (if dev.d_wrndx ≥ dev.d_rdndx then dev.d_wrndx - dev.d_rdndx
    else (CONFIG_DEV_PIPE_SIZE - 1) + dev.d_wrndx - dev.d_rdndx) %
    2 ^ pipeNdxBits CONFIG_DEV_PIPE_SIZE

def pipecommonPollEvents (dev : PipeDev α) : Nat :=
  let nbytes := pipecommonPollNbytes CONFIG_DEV_PIPE_SIZE dev
  (if nbytes < CONFIG_DEV_PIPE_SIZE - 1 then POLLOUT else 0) ||| (if nbytes > 0 then POLLIN else 0)

end TizenRT.Pipe
