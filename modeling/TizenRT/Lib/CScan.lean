import Mathlib.Data.List.Basic

set_option autoImplicit false

/-!
Loops that read a NUL-terminated string one character a pass, `for (;;) { ch = src[srcoffset++]; ... }`.
Each pass either leaves the loop with a result or goes on with a new state. The string is a list of
characters read as NUL past its end. A run over a prefix whose passes all go on composes with the
run over the rest, and what every pass keeps holds of the result.
-/

namespace CScan

/-- What one pass of the loop does: leave it with a result, or go on from a new state. -/
inductive Pass (σ ρ : Type) where
  | done (r : ρ)
  | next (s : σ)

def NUL : Char := Char.ofNat 0

variable {σ ρ : Type} (pass : Char → σ → Pass σ ρ) (eos : σ → ρ)

/-- The loop from state `s` over `src`. At the end of the list it reads the NUL; a pass that goes on
from there would read past the string, and stops with `eos`. -/
def run : List Char → σ → ρ
  | [], s =>
    match pass NUL s with
    | .done r => r
    | .next s => eos s
  | c :: cs, s =>
    match pass c s with
    | .done r => r
    | .next s => run cs s

/-- The state after passes over all of `l` that go on, if they all do. -/
def steps : List Char → σ → Option σ
  | [], s => some s
  | c :: cs, s =>
    match pass c s with
    | .done _ => none
    | .next s => steps cs s

variable {pass eos}

/-! The equations of the two loops, stated once so that the lemmas below cite them. -/

theorem run_nil (s : σ) :
    run pass eos [] s = match pass NUL s with
      | .done r => r
      | .next s => eos s := rfl

theorem run_cons (c : Char) (cs : List Char) (s : σ) :
    run pass eos (c :: cs) s = match pass c s with
      | .done r => r
      | .next s => run pass eos cs s := rfl

theorem steps_cons (c : Char) (cs : List Char) (s : σ) :
    steps pass (c :: cs) s = match pass c s with
      | .done _ => none
      | .next s => steps pass cs s := rfl

theorem run_cons_next {c : Char} {cs : List Char} {s s' : σ} (h : pass c s = .next s') :
    run pass eos (c :: cs) s = run pass eos cs s' := by
  rw [run_cons,h]

theorem run_cons_done {c : Char} {cs : List Char} {s : σ} {r : ρ} (h : pass c s = .done r) :
    run pass eos (c :: cs) s = r := by
  rw [run_cons,h]

theorem steps_cons_next {c : Char} {cs : List Char} {s s' : σ} (h : pass c s = .next s') :
    steps pass (c :: cs) s = steps pass cs s' := by
  rw [steps_cons,h]

theorem run_append {l cs : List Char} {s s' : σ} (h : steps pass l s = some s') :
    run pass eos (l ++ cs) s = run pass eos cs s' := by
  induction l generalizing s with
  | nil =>
    cases h
    rfl
  | cons c l ih =>
    rw [steps_cons] at h
    cases hc : pass c s with
    | done r => rw [hc] at h; cases h
    | next t =>
      rw [hc] at h
      rw [List.cons_append,run_cons_next hc]
      exact ih h

theorem run_of_inv (inv : σ → Prop) (post : ρ → Prop)
    (hnext : ∀ c s s', inv s → pass c s = .next s' → inv s')
    (hdone : ∀ c s r, inv s → pass c s = .done r → post r)
    (heos : ∀ s, inv s → post (eos s)) (src : List Char) {s : σ} (hs : inv s) :
    post (run pass eos src s) := by
  induction src generalizing s with
  | nil =>
    rw [run_nil]
    cases hc : pass NUL s with
    | done r => exact hdone _ _ _ hs hc
    | next t => exact heos t (hnext _ _ _ hs hc)
  | cons c cs ih =>
    cases hc : pass c s with
    | done r =>
      rw [run_cons_done hc]
      exact hdone _ _ _ hs hc
    | next t =>
      rw [run_cons_next hc]
      exact ih (hnext _ _ _ hs hc)

end CScan
