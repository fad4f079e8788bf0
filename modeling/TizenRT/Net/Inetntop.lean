import TizenRT.Net.Inetpton
import TizenRT.Stdio.Printf

set_option autoImplicit false

/-!
`inet_ipv4_ntop` (libc/net/lib_inetntop.c): an IPv4 address written as text by
`sprintf(dest, "%d.%d.%d.%d", ptr[0], ptr[1], ptr[2], ptr[3])`, with `ptr` a `char *`. `char` is
unsigned on the ARM targets, so each byte is put out as its value from 0 to 255. `sprintf` writes
through a memory stream that puts a NUL after each character, so the buffer holds the text and its
NUL. The text read back by `inet_ipv4_pton` gives the address again.
-/

namespace TizenRT.Net

open TizenRT.Stdio (libVsprintfOut utodec PrintfStop printfLoop_d printfLoop_literal printfLoop_nul
  toNat_digit foldl_utodec isDigit_utodec length_utodec_pos length_utodec_le)

def INET_ADDRSTRLEN : Nat := 16

def ENOSPC : Int := 28

def OK : Int := 0

def ipv4Format : List Char := ['%', 'd', '.', '%', 'd', '.', '%', 'd', '.', '%', 'd']

/-- `inet_ipv4_ntop(src, dest, size)`: the value returned and the text `sprintf` leaves in `dest`
before its NUL, nothing when the buffer is shorter than INET_ADDRSTRLEN. -/
def inetIpv4Ntop (src : Fin 4 → UInt8) (size : Nat) : Except PrintfStop (Int × List Char) :=
  if size < INET_ADDRSTRLEN then .ok (-ENOSPC, [])
  else (libVsprintfOut ipv4Format ((List.ofFn src).map fun b => .int b.toNat)).map fun text => (OK, text)

theorem atoi_utodec (n : Nat) : atoi (utodec n) = n :=
  foldl_utodec _ (fun d hd => by rw [toNat_digit hd]; omega) n

theorem ipv4Group_utodec (b : UInt8) : Ipv4Group (utodec b.toNat) := by
  have hb := b.toNat_lt
  refine ⟨isDigit_utodec _, length_utodec_pos _, length_utodec_le (k := 2) (by omega), ?_⟩
  rw [atoi_utodec]
  omega

theorem libVsprintfOut_ipv4Format (b₀ b₁ b₂ b₃ : UInt8) :
    libVsprintfOut ipv4Format [.int b₀.toNat, .int b₁.toNat, .int b₂.toNat, .int b₃.toNat] =
      .ok (dottedQuad (utodec b₀.toNat) (utodec b₁.toNat) (utodec b₂.toNat) (utodec b₃.toNat)) := by
  have hb : ∀ b : UInt8, -2 ^ 31 ≤ (b.toNat : Int) ∧ (b.toNat : Int) < 2 ^ 31 := fun b => by
    have := b.toNat_lt
    omega
  have hnonneg : ∀ b : UInt8, ¬ (b.toNat : Int) < 0 := fun b => by omega
  rw [libVsprintfOut, show ipv4Format.length + 2 = 11 + 2 from rfl,
    printfLoop_d rfl rfl (hb b₀).1 (hb b₀).2, printfLoop_literal rfl (by decide) (by decide),
    printfLoop_d rfl rfl (hb b₁).1 (hb b₁).2, printfLoop_literal rfl (by decide) (by decide),
    printfLoop_d rfl rfl (hb b₂).1 (hb b₂).2, printfLoop_literal rfl (by decide) (by decide),
    printfLoop_d rfl rfl (hb b₃).1 (hb b₃).2, printfLoop_nul rfl]
  simp [dottedQuad, hnonneg]

/-- Every IPv4 address written by `inet_ipv4_ntop` into a buffer of at least INET_ADDRSTRLEN
bytes is text that, with its NUL, fits the buffer, and that `inet_ipv4_pton` converts back into
the same four bytes, returning 1. -/
theorem inetIpv4Pton_inetIpv4Ntop (src : Fin 4 → UInt8) {size : Nat} (hsize : INET_ADDRSTRLEN ≤ size) :
    ∃ text, inetIpv4Ntop src size = .ok (OK, text) ∧ text.length + 1 ≤ INET_ADDRSTRLEN ∧
      inetIpv4Pton text = (1, [(0, src 0), (1, src 1), (2, src 2), (3, src 3)]) := by
  refine ⟨dottedQuad (utodec (src 0).toNat) (utodec (src 1).toNat) (utodec (src 2).toNat)
    (utodec (src 3).toNat), ?_, ?_, ?_⟩
  · rw [inetIpv4Ntop, if_neg (by omega), List.ofFn_succ, List.ofFn_succ, List.ofFn_succ, List.ofFn_succ,
      List.ofFn_zero]
    simp only [List.map_cons, List.map_nil, Fin.succ_zero_eq_one, Fin.succ_one_eq_two]
    rw [libVsprintfOut_ipv4Format]
    rfl
  · have hlen : ∀ b : UInt8, (utodec b.toNat).length ≤ 3 := fun b =>
      length_utodec_le (k := 2) (by have := b.toNat_lt; omega)
    have := hlen (src 0); have := hlen (src 1); have := hlen (src 2); have := hlen (src 3)
    simp only [dottedQuad, List.length_append, List.length_cons, INET_ADDRSTRLEN]
    omega
  · rw [inetIpv4Pton_dottedQuad (ipv4Group_utodec _) (ipv4Group_utodec _) (ipv4Group_utodec _)
      (ipv4Group_utodec _)]
    simp [atoi_utodec, UInt8.ofNat_toNat]

theorem inetIpv4Pton_inetIpv4Ntop_broadcast :
    INET_ADDRSTRLEN ≤ 16 ∧ ∃ text, inetIpv4Ntop ![255, 255, 255, 255] 16 = .ok (OK, text) ∧
      text.length + 1 ≤ INET_ADDRSTRLEN ∧ inetIpv4Pton text = (1, [(0, 255), (1, 255), (2, 255), (3, 255)]) :=
  ⟨le_rfl, inetIpv4Pton_inetIpv4Ntop ![255, 255, 255, 255] le_rfl⟩

end TizenRT.Net
