import TizenRT.Wdog.Model
import TizenRT.Lib.Overwrite

set_option autoImplicit false

/-!
A buffered stdio stream (lib_libfread.c, lib_libfwrite.c, lib_libfflush.c, lib_rdflush.c,
lib_wrflush.c, lib_fseek.c, lib_ftell.c, lib_ungetc.c) on a regular file opened with O_RDWR,
with a buffer of `N` = CONFIG_STDIO_BUFFER_SIZE bytes and `U` = CONFIG_NUNGET_CHARS pushed-back
bytes. The descriptor's `read` and `write` always succeed and `write` takes all it is given;
`lseek` fails only before the start of the file. `bufpos` and `bufread` are `fs_bufpos` and
`fs_bufread` as offsets from `fs_bufstart`.
-/

namespace TizenRT.Stdio

open TizenRT.Wdog (OK ERROR)
open Overwrite

structure OpenFile where
  data : List UInt8
  offset : Nat

namespace OpenFile

/-- The file as a `write` at the offset finds it: a gap after the end reads as zeros. -/
def padded (f : OpenFile) : List UInt8 := f.data ++ List.replicate (f.offset - f.data.length) 0

def read (f : OpenFile) (n : Nat) : List UInt8 × OpenFile :=
  let r := (f.data.drop f.offset).take n
  (r, { f with offset := f.offset + r.length })

def write (f : OpenFile) (src : List UInt8) : OpenFile :=
  ⟨overwrite f.padded f.offset src, f.offset + src.length⟩

theorem le_length_padded (f : OpenFile) : f.offset ≤ f.padded.length := by
  simp only [padded,List.length_append,List.length_replicate]
  omega

theorem offset_le_length_write (f : OpenFile) (src : List UInt8) :
    (f.write src).offset ≤ (f.write src).data.length := by
  have := f.le_length_padded
  simp only [write,overwrite,List.length_append,List.length_take,List.length_drop]
  omega

theorem padded_of_le {f : OpenFile} (h : f.offset ≤ f.data.length) : f.padded = f.data := by
  simp [padded,Nat.sub_eq_zero_of_le h]

theorem write_nil_of_le {f : OpenFile} (h : f.offset ≤ f.data.length) : f.write [] = f := by
  simp [write,overwrite,padded_of_le h]

theorem write_append (f : OpenFile) (a c : List UInt8) :
    (f.write a).write c = f.write (a ++ c) := by
  have hpad := padded_of_le (f.offset_le_length_write a)
  simp only [write] at hpad ⊢
  rw [hpad,overwrite_append f.le_length_padded,List.length_append,Nat.add_assoc]

inductive Whence where
  | seekSet
  | seekCur
  | seekEnd
  deriving DecidableEq, Repr

def base (f : OpenFile) : Whence → Int
  | .seekSet => 0
  | .seekCur => f.offset
  | .seekEnd => f.data.length

def lseek (f : OpenFile) (off : Int) (whence : Whence) : Option OpenFile :=
  if f.base whence + off < 0 then none else some { f with offset := (f.base whence + off).toNat }

end OpenFile

/-- The fields of `struct file_struct` that the buffered calls use. -/
structure Stream where
  fd : OpenFile
  buf : List UInt8
  bufpos : Nat
  bufread : Nat
  ungotten : List UInt8

/-- `lib_fflush`: the buffered write data goes to the file; a buffer that holds read data
is left alone. -/
def libFflush (s : Stream) : Stream :=
  if s.bufpos ≠ 0 ∧ s.bufread = 0 then
    { s with fd := s.fd.write (s.buf.take s.bufpos), bufpos := 0 }
  else s

def libWrflush (s : Stream) : Stream := libFflush s

/-- `lib_rdflush`: the read-ahead data and the pushed-back bytes are dropped and the file
offset goes back over them. Its `fseek` finds the buffer empty, so that only the `lseek` of
`fseek` is left. -/
def libRdflush (s : Stream) : Int × Stream :=
  if s.bufread ≠ 0 then
    let rdoffset : Int := (s.bufread : Int) - s.bufpos + s.ungotten.length
    let s := { s with bufpos := 0, bufread := 0, ungotten := [] }
    match s.fd.lseek (-rdoffset) .seekCur with
    | some fd => (OK, { s with fd })
    | none => (ERROR, s)
  else (OK, s)

def fseek (off : Int) (whence : OpenFile.Whence) (s : Stream) : Int × Stream :=
  let (r, s) := libRdflush s
  if r < 0 then (ERROR, s)
  else
    let s := { libWrflush s with ungotten := [] }
    match s.fd.lseek off whence with
    | some fd => (OK, { s with fd })
    | none => (ERROR, s)

/-- `lib_getrdoffset`: the read-ahead data and the pushed-back bytes, counted only when the
buffer holds read data. -/
def libGetrdoffset (s : Stream) : Int :=
  if s.bufread ≠ 0 then (s.bufread : Int) - s.bufpos + s.ungotten.length else 0

def ftell (s : Stream) : Int := s.fd.offset - libGetrdoffset s

def ungetc (U : Nat) (c : UInt8) (s : Stream) : Option Stream :=
  if s.ungotten.length < U then some { s with ungotten := s.ungotten ++ [c] } else none

section Buffer

variable (N : Nat)

/-- The `while (count > 0)` of `lib_fwrite`, for at most `fuel` gulps; it returns the bytes
it has not taken. -/
def libFwriteLoop : Nat → List UInt8 → Stream → List UInt8 × Stream
  | 0, src, s => (src, s)
  | fuel + 1, src, s =>
    if src = [] then ([], s)
    else
      let gulp := min (N - s.bufpos) src.length
      let s := { s with buf := overwrite s.buf s.bufpos (src.take gulp), bufpos := s.bufpos + gulp }
      libFwriteLoop fuel (src.drop gulp) (if s.bufpos ≥ N then libFflush s else s)

/-- `lib_fwrite`: the bytes taken, or ERROR. Every gulp but the last fills the buffer, so
`src.length + 1` gulps are enough. -/
def libFwrite (src : List UInt8) (s : Stream) : Int × Stream :=
  let (r, s) := libRdflush s
  if r < 0 then (ERROR, s)
  else
    let (rest, s) := libFwriteLoop N (src.length + 1) src s
    (src.length - rest.length, s)

/-- The `while (count > 0)` of `lib_fread` after the pushed-back bytes, for at most `fuel`
passes; `out` is what has been read. A pass takes what the buffer holds, then reads a request
larger than the buffer straight from the file and stops, or refills the buffer. -/
def libFreadLoop : Nat → Nat → List UInt8 → Stream → List UInt8 × Stream
  | 0, _, out, s => (out, s)
  | fuel + 1, count, out, s =>
    if count = 0 then (out, s)
    else
      let k := min count (s.bufread - s.bufpos)
      let out := out ++ (s.buf.drop s.bufpos).take k
      let s := { s with bufpos := s.bufpos + k }
      if count - k = 0 then (out, s)
      else
        let s := { s with bufpos := 0, bufread := 0 }
        if count - k > N then
          let (r, fd) := s.fd.read (count - k)
          (out ++ r, { s with fd })
        else
          let (r, fd) := s.fd.read N
          if r = [] then (out, { s with fd })
          else libFreadLoop fuel (count - k) out { s with fd, buf := overwrite s.buf 0 r, bufread := r.length }

/-- `lib_fread`: the pushed-back bytes, the last one first, then the buffer and the file. A
pass that does not stop refills the buffer, from which the next one takes a byte. -/
def libFread (count : Nat) (s : Stream) : List UInt8 × Stream :=
  let k := min count s.ungotten.length
  let out := s.ungotten.reverse.take k
  let s := libWrflush { s with ungotten := s.ungotten.take (s.ungotten.length - k) }
  libFreadLoop N (2 * (count - k) + 1) (count - k) out s

def Stream.pending (s : Stream) : OpenFile := s.fd.write (s.buf.take s.bufpos)

structure WriteMode (s : Stream) : Prop where
  bufread : s.bufread = 0
  bufpos : s.bufpos < N
  length : s.buf.length = N

theorem pending_libFflush {s : Stream} (h : s.bufread = 0) :
    (libFflush s).pending = s.pending ∧ (libFflush s).bufpos = 0 := by
  by_cases h0 : s.bufpos = 0
  · simp [libFflush,h0]
  · simp only [libFflush,h0,h,ne_eq,not_false_eq_true,and_self,if_true,Stream.pending,
      List.take_zero,and_true]
    exact OpenFile.write_nil_of_le (OpenFile.offset_le_length_write _ _)

theorem libRdflush_of_write {s : Stream} (h : s.bufread = 0) : libRdflush s = (OK, s) := by
  simp [libRdflush,h]

theorem ftell_of_write {s : Stream} (h : s.bufread = 0) : ftell s = s.fd.offset := by
  simp [ftell,libGetrdoffset,h]

theorem pending_gulp (s : Stream) (a : List UInt8) (h : s.bufpos ≤ s.buf.length) :
    ({ s with buf := overwrite s.buf s.bufpos a, bufpos := s.bufpos + a.length } : Stream).pending =
      s.pending.write a := by
  simp only [Stream.pending,take_overwrite h,OpenFile.write_append]

theorem libFwriteLoop_spec (fuel : Nat) (src : List UInt8) (s : Stream) (hs : WriteMode N s)
    (hfuel : src.length < fuel) :
    (libFwriteLoop N fuel src s).1 = [] ∧ WriteMode N (libFwriteLoop N fuel src s).2 ∧
      (libFwriteLoop N fuel src s).2.pending = s.pending.write src := by
  induction fuel generalizing src s with
  | zero => omega
  | succ fuel ih =>
    rw [libFwriteLoop]
    by_cases hsrc : src = []
    · subst hsrc
      rw [if_pos rfl]
      exact ⟨rfl,hs,(OpenFile.write_nil_of_le (OpenFile.offset_le_length_write _ _)).symm⟩
    rw [if_neg hsrc]
    set g := min (N - s.bufpos) src.length with hg
    have hg0 : 0 < g := by
      have := List.length_pos_of_ne_nil hsrc
      have := hs.bufpos
      omega
    have hlen : (src.take g).length = g := List.length_take_of_le (by omega)
    set s₁ : Stream := { s with
      buf := overwrite s.buf s.bufpos (src.take g)
      bufpos := s.bufpos + g } with hs₁
    have hbuf : s₁.buf.length = N := by
      rw [hs₁,length_overwrite (by rw [hlen,hs.length]; omega),hs.length]
    have hp₁ : s₁.pending = s.pending.write (src.take g) := by
      rw [← pending_gulp s (src.take g) (by rw [hs.length]; exact hs.bufpos.le),hlen]
    have hs₂ : WriteMode N (if s₁.bufpos ≥ N then libFflush s₁ else s₁) ∧
        (if s₁.bufpos ≥ N then libFflush s₁ else s₁).pending = s.pending.write (src.take g) := by
      by_cases hfull : s₁.bufpos ≥ N
      · have hfl := pending_libFflush (s := s₁) hs.bufread
        rw [if_pos hfull]
        refine ⟨⟨?_,by rw [hfl.2]; exact hs.bufpos.trans_le' (Nat.zero_le _),?_⟩,hfl.1.trans hp₁⟩
        · unfold libFflush
          split <;> exact hs.bufread
        · unfold libFflush
          split <;> exact hbuf
      · rw [if_neg hfull]
        exact ⟨⟨hs.bufread,by omega,hbuf⟩,hp₁⟩
    obtain ⟨h₁,h₂,h₃⟩ := ih (src.drop g) _ hs₂.1 (by simp; omega)
    refine ⟨h₁,h₂,?_⟩
    rw [h₃,hs₂.2,OpenFile.write_append,List.take_append_drop]

theorem libFwrite_spec (src : List UInt8) (s : Stream) (hs : WriteMode N s) :
    (libFwrite N src s).1 = src.length ∧ WriteMode N (libFwrite N src s).2 ∧
      (libFwrite N src s).2.pending = s.pending.write src := by
  obtain ⟨h₁,h₂,h₃⟩ := libFwriteLoop_spec N (src.length + 1) src s hs (Nat.lt_succ_self _)
  simp only [libFwrite,libRdflush_of_write hs.bufread,OK,lt_self_iff_false,if_false]
  exact ⟨by rw [h₁]; simp,h₂,h₃⟩

theorem libFwriteLoop_of_fit (fuel : Nat) (src : List UInt8) (s : Stream)
    (hfit : s.bufpos + src.length < N) : (libFwriteLoop N (fuel + 1) src s).2.fd = s.fd := by
  rw [libFwriteLoop]
  by_cases hsrc : src = []
  · rw [if_pos hsrc]
  rw [if_neg hsrc]
  dsimp only
  rw [min_eq_right (by omega),List.drop_length,if_neg (by omega)]
  cases fuel <;> rfl

/-- `ftell` does not move over bytes that `fwrite` leaves in the buffer, though the stream's
position does. -/
theorem ftell_after_buffered_fwrite (src : List UInt8) (s : Stream) (hs : WriteMode N s)
    (hfit : s.bufpos + src.length < N) :
    (libFwrite N src s).1 = src.length ∧
      (libFwrite N src s).2.pending.offset = s.pending.offset + src.length ∧
      ftell (libFwrite N src s).2 = ftell s := by
  obtain ⟨h₁,h₂,h₃⟩ := libFwrite_spec N src s hs
  have hfd : (libFwrite N src s).2.fd = s.fd := by
    simp only [libFwrite,libRdflush_of_write hs.bufread,OK,lt_self_iff_false,if_false]
    exact libFwriteLoop_of_fit N src.length src s hfit
  refine ⟨h₁,by rw [h₃]; rfl,?_⟩
  rw [ftell_of_write h₂.bufread,ftell_of_write hs.bufread,hfd]

theorem ftell_after_buffered_fwrite_one_byte :
    WriteMode 64 ⟨⟨[], 0⟩, List.replicate 64 0, 0, 0, []⟩ ∧
      (libFwrite 64 [0x41] ⟨⟨[], 0⟩, List.replicate 64 0, 0, 0, []⟩).2.pending.offset = 1 ∧
      ftell (libFwrite 64 [0x41] ⟨⟨[], 0⟩, List.replicate 64 0, 0, 0, []⟩).2 = 0 := by
  have hs : WriteMode 64 ⟨⟨[], 0⟩, List.replicate 64 0, 0, 0, []⟩ := ⟨rfl,by decide,by simp⟩
  obtain ⟨-,h₂,h₃⟩ := ftell_after_buffered_fwrite 64 [0x41] _ hs (by decide)
  exact ⟨hs,by rw [h₂]; rfl,by rw [h₃]; rfl⟩

end Buffer

end TizenRT.Stdio
