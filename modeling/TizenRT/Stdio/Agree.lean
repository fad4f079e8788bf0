import TizenRT.Stdio.Printf

set_option autoImplicit false

/-!
The scan of `Vsprintf` and the output of `Printf` are two views of one run of `lib_vsprintf`.
Given arguments of the types the scan takes, and no floating conversion, the output model reads
the format where the scan does: it ends at the NUL where the scan ends, and reads past the NUL
at the index where the scan does. The scan's events do not depend on those it was given to start
with (`vsprintfLoop_prepend`), so the two loops are compared from an empty start at every pass.
-/

namespace TizenRT.Stdio

open CScan (NUL)

def VaValue.type : VaValue → VaArg
  | .int _ => .int
  | .longlong _ => .longlong
  | .charp _ => .charp
  | .double => .double

def argTypes (ev : List PrintfEvent) : List VaArg :=
  ev.filterMap fun e =>
    match e with
    | .put _ => none
    | .arg t _ => some t

@[simp] theorem argTypes_nil : argTypes [] = [] := rfl

@[simp] theorem argTypes_append (ev ev' : List PrintfEvent) :
    argTypes (ev ++ ev') = argTypes ev ++ argTypes ev' := List.filterMap_append

@[simp] theorem argTypes_put (c : Char) : argTypes [.put c] = [] := rfl

@[simp] theorem argTypes_arg (t : VaArg) (c : Char) : argTypes [.arg t c] = [t] := rfl

@[simp] theorem argTypes_cons_put (c : Char) (ev : List PrintfEvent) :
    argTypes (.put c :: ev) = argTypes ev := rfl

@[simp] theorem argTypes_cons_arg (t : VaArg) (c : Char) (ev : List PrintfEvent) :
    argTypes (.arg t c :: ev) = t :: argTypes ev := rfl

/-- A stop of the scan, after the events `ev` more at its start. -/
def VsprintfStop.prepend (ev : List PrintfEvent) : VsprintfStop → VsprintfStop
  | .readPastEnd i e => .readPastEnd i (ev ++ e)
  | .outOfFuel => .outOfFuel

@[simp] theorem VsprintfStop.prepend_prepend (ev ev' : List PrintfEvent) (s : VsprintfStop) :
    (s.prepend ev').prepend ev = s.prepend (ev ++ ev') := by
  cases s <;> simp [VsprintfStop.prepend]

def scanEvents {α : Type} (evs : α → List PrintfEvent) : Except VsprintfStop α → List PrintfEvent
  | .ok a => evs a
  | .error (.readPastEnd _ ev) => ev
  | .error .outOfFuel => []

/-- The output model stops as the scan does: both end, with results that `f` relates, or both
read past the NUL at one index. A scan out of fuel says nothing. -/
def StopsAlike {α β : Type} (f : α → β → Prop) : Except VsprintfStop α → Except PrintfStop β → Prop
  | .ok a, .ok b => f a b
  | .error (.readPastEnd i _), .error (.readPastEnd j) => i = j
  | .error .outOfFuel, _ => True
  | _, _ => False

section Prepend

variable (fmt : List Char)

theorem vsprintfWidth_prepend (ev : List PrintfEvent) (fuel i : Nat) :
    vsprintfWidth fmt ev fuel i = (vsprintfWidth fmt [] fuel i).mapError (·.prepend ev) := by
  induction fuel generalizing i with
  | zero => rfl
  | succ fuel ih =>
    simp only [vsprintfWidth]
    cases fmtChar fmt i with
    | none => simp [Except.mapError, VsprintfStop.prepend]
    | some c =>
      dsimp only
      split_ifs
      · exact ih (i + 1)
      · rfl

theorem vsprintfQualifiers_prepend (fuel i : Nat) (ev : List PrintfEvent) :
    vsprintfQualifiers fmt fuel i ev =
      ((vsprintfQualifiers fmt fuel i []).map fun r => (r.1, ev ++ r.2)).mapError (·.prepend ev) := by
  induction fuel generalizing i ev with
  | zero => rfl
  | succ fuel ih =>
    simp only [vsprintfQualifiers]
    cases fmtChar fmt i with
    | none => simp [Except.map, Except.mapError, VsprintfStop.prepend]
    | some c =>
      dsimp only
      split_ifs
      · simp [Except.map, Except.mapError]
      · simp [Except.map, Except.mapError]
      · rw [ih (i + 1) (ev ++ _), List.nil_append, ih (i + 1) [_]]
        cases vsprintfQualifiers fmt fuel (i + 1) [] with
        | error e => simp [Except.map, Except.mapError]
        | ok r => simp [Except.map, Except.mapError]
      · rw [vsprintfWidth_prepend fmt ev]
        cases vsprintfWidth fmt [] fuel (i + 1) with
        | error e => simp [Except.map, Except.mapError]
        | ok j => exact ih (j - 1 + 1) ev
      · exact ih (i + 1) ev

theorem vsprintfModifier_prepend (i : Nat) (ev : List PrintfEvent) (c : Char) :
    vsprintfModifier fmt i ev c = (vsprintfModifier fmt i [] c).mapError (·.prepend ev) := by
  unfold vsprintfModifier
  split_ifs
  · rfl
  · cases fmtChar fmt (i + 1) with
    | none => simp [Except.mapError, VsprintfStop.prepend]
    | some c' =>
      dsimp only
      split_ifs <;> rfl
  · rfl

theorem vsprintfConvChar_prepend (i : Nat) (longlong : Bool) (ev : List PrintfEvent) :
    vsprintfConvChar fmt i longlong ev =
      ((vsprintfConvChar fmt i longlong []).map fun r => (r.1, ev ++ r.2)).mapError (·.prepend ev) := by
  unfold vsprintfConvChar
  cases fmtChar fmt i with
  | none => simp [Except.map, Except.mapError, VsprintfStop.prepend]
  | some c =>
    dsimp only
    split_ifs <;> simp [Except.map, Except.mapError]

theorem vsprintfConversion_prepend (i : Nat) (ev : List PrintfEvent) :
    vsprintfConversion fmt i ev =
      ((vsprintfConversion fmt i []).map fun r => (r.1, ev ++ r.2)).mapError (·.prepend ev) := by
  unfold vsprintfConversion
  cases fmtChar fmt i with
  | none => simp [Except.map, Except.mapError, VsprintfStop.prepend]
  | some c =>
    dsimp only
    split_ifs
    any_goals simp [Except.map, Except.mapError]
    rw [vsprintfModifier_prepend]
    cases vsprintfModifier fmt i [] c with
    | error e => simp [Except.mapError]
    | ok r => exact vsprintfConvChar_prepend fmt r.1 r.2 ev

theorem vsprintfLoop_prepend (fuel i : Nat) (ev : List PrintfEvent) :
    vsprintfLoop fmt fuel i ev = ((vsprintfLoop fmt fuel i []).map (ev ++ ·)).mapError (·.prepend ev) := by
  induction fuel generalizing i ev with
  | zero => rfl
  | succ fuel ih =>
    simp only [vsprintfLoop]
    cases fmtChar fmt i with
    | none => simp [Except.map, Except.mapError, VsprintfStop.prepend]
    | some c =>
      dsimp only
      split_ifs
      · simp [Except.map, Except.mapError]
      · rw [ih (i + 1) (ev ++ _), List.nil_append, ih (i + 1) [_]]
        cases vsprintfLoop fmt fuel (i + 1) [] with
        | error e => simp [Except.map, Except.mapError]
        | ok r => simp [Except.map, Except.mapError]
      · rw [vsprintfQualifiers_prepend fmt fuel (i + 1) ev]
        cases vsprintfQualifiers fmt fuel (i + 1) [] with
        | error e => simp [Except.map, Except.mapError]
        | ok q =>
          obtain ⟨j,evq⟩ := q
          simp only [Except.map, Except.mapError]
          rw [vsprintfConversion_prepend fmt j (ev ++ evq),vsprintfConversion_prepend fmt j evq]
          cases vsprintfConversion fmt j [] with
          | error e => simp [Except.map, Except.mapError]
          | ok r =>
            obtain ⟨k,evc⟩ := r
            simp only [Except.map, Except.mapError]
            rw [ih (k + 1) (ev ++ evq ++ evc),ih (k + 1) (evq ++ evc)]
            cases vsprintfLoop fmt fuel (k + 1) [] with
            | error e => simp [Except.map, Except.mapError]
            | ok r => simp [Except.map, Except.mapError]

end Prepend

section Alike

theorem StopsAlike.imp {α β : Type} {f g : α → β → Prop} (hfg : ∀ a b, f a b → g a b) :
    ∀ {R : Except VsprintfStop α} {O : Except PrintfStop β}, StopsAlike f R O → StopsAlike g R O
  | .ok a, .ok b, h => hfg a b h
  | .error (.readPastEnd _ _), .error (.readPastEnd _), h => h
  | .error .outOfFuel, _, _ => trivial

theorem StopsAlike.exists_ok {α β : Type} {f : α → β → Prop} {a : α} :
    ∀ {O : Except PrintfStop β}, StopsAlike f (.ok a) O → ∃ b, O = .ok b ∧ f a b
  | .ok b, h => ⟨b, rfl, h⟩
  | .error _, h => h.elim

theorem StopsAlike.eq_readPastEnd {α β : Type} {f : α → β → Prop} {i : Nat} {ev : List PrintfEvent} :
    ∀ {O : Except PrintfStop β}, StopsAlike f (.error (.readPastEnd i ev)) O → O = .error (.readPastEnd i)
  | .error (.readPastEnd _), h => by rw [h]
  | .error .outOfFuel, h => h.elim
  | .error .badArg, h => h.elim
  | .error .floatConversion, h => h.elim
  | .ok _, h => h.elim

theorem stopsAlike_prepend {α β : Type} {f : α → β → Prop} (g : α → α) (ev : List PrintfEvent)
    (R : Except VsprintfStop α) (O : Except PrintfStop β) :
    StopsAlike f ((R.map g).mapError (·.prepend ev)) O ↔ StopsAlike (fun a b => f (g a) b) R O := by
  rcases R with e | a <;> rcases O with e' | b
  all_goals first | (cases e <;> cases e' <;> rfl) | (cases e <;> rfl) | rfl

theorem scanEvents_prepend {α : Type} (evs : α → List PrintfEvent) (g : α → α) {ev : List PrintfEvent}
    (hg : ∀ a, evs (g a) = ev ++ evs a) {R : Except VsprintfStop α} (hR : R ≠ .error .outOfFuel) :
    scanEvents evs ((R.map g).mapError (·.prepend ev)) = ev ++ scanEvents evs R := by
  rcases R with e | a
  · cases e with
    | readPastEnd i e => rfl
    | outOfFuel => exact absurd rfl hR
  · exact hg a

theorem scanEvents_prepend_id {ev : List PrintfEvent} {R : Except VsprintfStop (List PrintfEvent)}
    (hR : R ≠ .error .outOfFuel) :
    scanEvents id ((R.map (ev ++ ·)).mapError (·.prepend ev)) = ev ++ scanEvents id R :=
  scanEvents_prepend id (ev ++ ·) (fun _ => rfl) hR

theorem scanEvents_prepend_snd {ev : List PrintfEvent} {R : Except VsprintfStop (Nat × List PrintfEvent)}
    (hR : R ≠ .error .outOfFuel) :
    scanEvents Prod.snd ((R.map fun r => (r.1, ev ++ r.2)).mapError (·.prepend ev)) =
      ev ++ scanEvents Prod.snd R :=
  scanEvents_prepend Prod.snd (fun r => (r.1, ev ++ r.2)) (fun _ => rfl) hR

variable {fmt : List Char}

theorem printfWidth_alike (fuel i : Nat) (n : Int) :
    StopsAlike (fun j r => r.1 = j) (vsprintfWidth fmt [] fuel i) (printfWidth fmt fuel i n) := by
  induction fuel generalizing i n with
  | zero => trivial
  | succ fuel ih =>
    simp only [vsprintfWidth, printfWidth]
    cases fmtChar fmt i with
    | none => rfl
    | some c =>
      dsimp only
      split_ifs
      · exact ih (i + 1) _
      · rfl

theorem vsprintfQualifiers_other {fuel i : Nat} {c : Char} (ev : List PrintfEvent)
    (h : fmtChar fmt i = some c) (h0 : c ≠ NUL) (h1 : ¬ strchr convChars c) (hs : c ≠ '*')
    (hd : ¬ ('1' ≤ c ∧ c ≤ '9')) :
    vsprintfQualifiers fmt (fuel + 1) i ev = vsprintfQualifiers fmt fuel (i + 1) ev := by
  simp only [vsprintfQualifiers, h, if_neg h0, if_neg h1, if_neg hs, if_neg hd]

theorem printfQualifiers_other {fuel i : Nat} {c : Char} (sp : Spec) (args : List VaValue)
    (h : fmtChar fmt i = some c) (h0 : c ≠ NUL) (h1 : ¬ strchr convChars c) (hs : c ≠ '*')
    (hd : ¬ ('1' ≤ c ∧ c ≤ '9')) :
    ∃ sp' : Spec, sp'.flags.longlongprecision = sp.flags.longlongprecision ∧
      printfQualifiers fmt (fuel + 1) i sp args = printfQualifiers fmt fuel (i + 1) sp' args := by
  rw [printfQualifiers_succ, h]
  dsimp only
  rw [if_neg h0, if_neg h1]
  split_ifs <;> (refine ⟨_, ?_, rfl⟩; rfl)

theorem printfQualifiers_star {fuel i : Nat} (h : fmtChar fmt i = some '*') (sp : Spec) (v : Int)
    (args : List VaValue) :
    ∃ sp' : Spec, sp'.flags.longlongprecision = sp.flags.longlongprecision ∧
      printfQualifiers fmt (fuel + 1) i sp (.int v :: args) = printfQualifiers fmt fuel (i + 1) sp' args := by
  rw [printfQualifiers_succ, h]
  simp only [strchr, convChars, NUL]
  split_ifs <;> first | (refine ⟨_, ?_, rfl⟩; rfl) | contradiction

theorem exists_cons_of_prefix {t : VaArg} {ts : List VaArg} {args : List VaValue}
    (h : t :: ts <+: args.map VaValue.type) :
    ∃ a args', args = a :: args' ∧ a.type = t ∧ ts <+: args'.map VaValue.type := by
  cases args with
  | nil => simp at h
  | cons a args' =>
    rw [List.map_cons, List.cons_prefix_cons] at h
    exact ⟨a, args', rfl, h.1.symm, h.2⟩

theorem printfQualifiers_alike (fuel i : Nat) (sp : Spec) (args : List VaValue)
    (hargs : argTypes (scanEvents Prod.snd (vsprintfQualifiers fmt fuel i [])) <+:
      args.map VaValue.type) :
    StopsAlike (fun a b => b.1 = a.1 ∧ b.2.1.flags.longlongprecision = sp.flags.longlongprecision ∧
        args.map VaValue.type = argTypes a.2 ++ b.2.2.map VaValue.type)
      (vsprintfQualifiers fmt fuel i []) (printfQualifiers fmt fuel i sp args) := by
  induction fuel generalizing i sp args with
  | zero => trivial
  | succ fuel ih =>
    cases hc : fmtChar fmt i with
    | none => simp [vsprintfQualifiers, printfQualifiers_succ, hc, StopsAlike]
    | some c =>
      by_cases h0 : c = NUL
      · simp [vsprintfQualifiers, printfQualifiers_succ, hc, h0, StopsAlike]
      by_cases h1 : strchr convChars c
      · simp [vsprintfQualifiers, printfQualifiers_succ, hc, h0, h1, StopsAlike]
      by_cases hs : c = '*'
      · subst hs
        have hscan : vsprintfQualifiers fmt (fuel + 1) i [] =
            vsprintfQualifiers fmt fuel (i + 1) [.arg .int '*'] := by
          simp [vsprintfQualifiers, hc, strchr, convChars, NUL]
        rw [hscan, vsprintfQualifiers_prepend] at hargs ⊢
        by_cases hof : vsprintfQualifiers fmt fuel (i + 1) [] = .error .outOfFuel
        · rw [hof]
          trivial
        rw [scanEvents_prepend_snd hof, argTypes_append, argTypes_arg] at hargs
        obtain ⟨a, args', rfl, ha, hargs'⟩ := exists_cons_of_prefix hargs
        cases a with
        | int v =>
          obtain ⟨sp', hsp', heq⟩ := printfQualifiers_star hc sp v args'
          rw [heq, stopsAlike_prepend]
          refine (ih (i + 1) sp' args' hargs').imp fun a b h => ⟨h.1, h.2.1.trans hsp', ?_⟩
          simp [VaValue.type, h.2.2]
        | _ => simp [VaValue.type] at ha
      by_cases hd : '1' ≤ c ∧ c ≤ '9'
      · have hm : c ≠ '-' := fun h => by rw [h] at hd; exact absurd hd (by decide)
        have hz : c ≠ '0' := fun h => by rw [h] at hd; exact absurd hd (by decide)
        simp only [vsprintfQualifiers, printfQualifiers_succ, hc, if_neg h0, if_neg h1, if_neg hs,
          if_neg hm, if_neg hz, if_pos hd] at hargs ⊢
        have hw := @printfWidth_alike fmt fuel (i + 1) (c.toNat - '0'.toNat)
        rcases hW : vsprintfWidth fmt [] fuel (i + 1) with e | j <;>
          rcases hP : printfWidth fmt fuel (i + 1) (c.toNat - '0'.toNat) with e' | ⟨j', n⟩ <;>
          rw [hW, hP] at hw <;> simp only [hW] at hargs ⊢
        · cases e <;> cases e' <;> simp only [StopsAlike] at hw ⊢
          exact hw
        · cases e <;> simp [StopsAlike] at hw ⊢
        · cases e' <;> simp [StopsAlike] at hw ⊢
        · rw [show j' = j from hw]
          refine (ih (j - 1 + 1) _ args hargs).imp fun a b h => ⟨h.1, ?_, h.2.2⟩
          rw [h.2.1]
          split_ifs <;> rfl
      · obtain ⟨sp', hsp', heq⟩ := printfQualifiers_other sp args hc h0 h1 hs hd
        rw [vsprintfQualifiers_other [] hc h0 h1 hs hd] at hargs ⊢
        rw [heq]
        exact (ih (i + 1) sp' args hargs).imp fun a b h => ⟨h.1, h.2.1.trans hsp', h.2.2⟩

theorem printfModifier_alike (i : Nat) (c : Char) {flags : Flags}
    (hf : flags.longlongprecision = false) :
    StopsAlike (fun a b => b.1 = a.1 ∧ b.2.longlongprecision = a.2)
      (vsprintfModifier fmt i [] c) (printfModifier fmt i flags c) := by
  unfold vsprintfModifier printfModifier
  split_ifs
  · exact ⟨rfl, rfl⟩
  · cases fmtChar fmt (i + 1) with
    | none => rfl
    | some c' =>
      dsimp only
      split_ifs
      · exact ⟨rfl, rfl⟩
      · exact ⟨rfl, hf⟩
  · exact ⟨rfl, hf⟩

theorem printfConvChar_alike (i : Nat) (longlong : Bool) (sp : Spec) {flags : Flags}
    (hf : flags.longlongprecision = longlong) (args : List VaValue)
    (hargs : argTypes (scanEvents Prod.snd (vsprintfConvChar fmt i longlong [])) <+:
      args.map VaValue.type)
    (hfloat : ∀ c, PrintfEvent.arg .double c ∉ scanEvents Prod.snd (vsprintfConvChar fmt i longlong [])) :
    StopsAlike (fun a b => b.1 = a.1 ∧ args.map VaValue.type = argTypes a.2 ++ b.2.2.map VaValue.type)
      (vsprintfConvChar fmt i longlong []) (printfConvChar fmt i sp flags args) := by
  unfold vsprintfConvChar printfConvChar at *
  revert hargs hfloat
  cases fmtChar fmt i with
  | none => exact fun _ _ => rfl
  | some c =>
    intro hargs hfloat
    dsimp only at hargs hfloat ⊢
    by_cases hint : strchr ['d', 'i', 'u', 'x', 'X', 'p', 'o', 'b'] c
    · simp only [if_pos hint, hf, scanEvents, List.nil_append] at hargs ⊢
      by_cases hl : longlong = true ∧ c ≠ 'p'
      · simp only [if_pos hl, argTypes_arg] at hargs ⊢
        obtain ⟨a, args', rfl, ha, -⟩ := exists_cons_of_prefix hargs
        cases a <;> simp [VaValue.type, StopsAlike] at ha ⊢
      · simp only [if_neg hl, argTypes_arg] at hargs ⊢
        obtain ⟨a, args', rfl, ha, -⟩ := exists_cons_of_prefix hargs
        cases a <;> simp [VaValue.type, StopsAlike] at ha ⊢
    · by_cases hd : strchr ['e', 'E', 'f', 'g', 'G'] c
      · simp only [if_neg hint, if_pos hd, scanEvents] at hfloat
        exact absurd (by simp) (hfloat c)
      · simp only [if_neg hint, if_neg hd]
        exact ⟨rfl, by simp⟩

theorem printfConversion_alike (j : Nat) (sp : Spec) (hsp : sp.flags.longlongprecision = false)
    (args : List VaValue)
    (hargs : argTypes (scanEvents Prod.snd (vsprintfConversion fmt j [])) <+: args.map VaValue.type)
    (hfloat : ∀ c, PrintfEvent.arg .double c ∉ scanEvents Prod.snd (vsprintfConversion fmt j [])) :
    StopsAlike (fun a b => b.1 = a.1 ∧ args.map VaValue.type = argTypes a.2 ++ b.2.2.map VaValue.type)
      (vsprintfConversion fmt j []) (printfConversion fmt j sp args) := by
  unfold vsprintfConversion printfConversion at *
  revert hargs hfloat
  cases fmtChar fmt j with
  | none => exact fun _ _ => rfl
  | some c =>
    intro hargs hfloat
    dsimp only at hargs hfloat ⊢
    by_cases hpct : c = '%'
    · simp [hpct, StopsAlike]
    by_cases hs : c = 's'
    · simp only [if_neg hpct, if_pos hs, scanEvents, List.nil_append, argTypes_arg] at hargs ⊢
      obtain ⟨a, args', rfl, ha, -⟩ := exists_cons_of_prefix hargs
      cases a <;> simp [VaValue.type, StopsAlike] at ha ⊢
    by_cases hc : c = 'c'
    · simp only [if_neg hpct, if_neg hs, if_pos hc, scanEvents, List.nil_append, argTypes_arg] at hargs ⊢
      obtain ⟨a, args', rfl, ha, -⟩ := exists_cons_of_prefix hargs
      cases a <;> simp [VaValue.type, StopsAlike] at ha ⊢
    simp only [if_neg hpct, if_neg hs, if_neg hc] at hargs hfloat ⊢
    have hm := @printfModifier_alike fmt j c _ hsp
    rcases hW : vsprintfModifier fmt j [] c with e | ⟨i, longlong⟩ <;>
      rcases hP : printfModifier fmt j sp.flags c with e' | ⟨i', flags⟩ <;>
      rw [hW, hP] at hm <;> simp only [hW] at hargs hfloat ⊢
    · cases e <;> cases e' <;> simp only [StopsAlike] at hm ⊢
      exact hm
    · cases e <;> simp [StopsAlike] at hm ⊢
    · cases e' <;> simp [StopsAlike] at hm ⊢
    · obtain ⟨hi, hf⟩ := hm
      simp only at hi
      rw [hi]
      exact printfConvChar_alike i longlong sp hf args hargs hfloat

theorem printfLoop_alike (fuel i : Nat) (args : List VaValue) (out : List Char)
    (hargs : argTypes (scanEvents id (vsprintfLoop fmt fuel i [])) <+: args.map VaValue.type)
    (hfloat : ∀ c, PrintfEvent.arg .double c ∉ scanEvents id (vsprintfLoop fmt fuel i [])) :
    StopsAlike (fun _ _ => True) (vsprintfLoop fmt fuel i []) (printfLoop fmt fuel i args out) := by
  induction fuel generalizing i args out with
  | zero => trivial
  | succ fuel ih =>
    by_cases hof : vsprintfLoop fmt (fuel + 1) i [] = .error .outOfFuel
    · rw [hof]
      trivial
    revert hargs hfloat hof
    rw [printfLoop_succ]
    simp only [vsprintfLoop]
    cases fmtChar fmt i with
    | none => exact fun _ _ _ => rfl
    | some c =>
      intro hargs hfloat hof
      dsimp only at hargs hfloat hof ⊢
      by_cases h0 : c = NUL
      · simp [h0, StopsAlike]
      by_cases hp : c ≠ '%'
      · simp only [if_neg h0, if_pos hp, List.nil_append] at hargs hfloat hof ⊢
        rw [vsprintfLoop_prepend] at hargs hfloat hof ⊢
        have hof' : vsprintfLoop fmt fuel (i + 1) [] ≠ .error .outOfFuel := fun h => hof (by rw [h]; rfl)
        rw [scanEvents_prepend_id hof'] at hargs hfloat
        rw [stopsAlike_prepend]
        refine ih (i + 1) args _ (by simpa using hargs) fun c hc => hfloat c (by simp [hc])
      simp only [if_neg h0, if_neg hp] at hargs hfloat hof ⊢
      have hq := @printfQualifiers_alike fmt fuel (i + 1) {} args
      rcases hQ : vsprintfQualifiers fmt fuel (i + 1) [] with e | ⟨j, evq⟩ <;>
        simp only [hQ] at hargs hfloat hof hq ⊢
      · cases e with
        | outOfFuel => exact absurd rfl hof
        | readPastEnd k ev =>
          have hq' := hq hargs
          revert hq'
          cases printfQualifiers fmt fuel (i + 1) {} args with
          | error e' => cases e' <;> simp [StopsAlike]
          | ok _ => simp [StopsAlike]
      rw [vsprintfConversion_prepend] at hargs hfloat hof ⊢
      rcases hC : vsprintfConversion fmt j [] with e | ⟨k, evc⟩ <;>
        simp only [hC, Except.map, Except.mapError] at hargs hfloat hof ⊢
      · cases e with
        | outOfFuel => exact absurd rfl hof
        | readPastEnd k ev =>
          simp only [VsprintfStop.prepend, scanEvents, argTypes_append] at hargs hfloat ⊢
          have hq' : argTypes evq <+: args.map VaValue.type := (List.prefix_append _ _).trans hargs
          obtain ⟨⟨j', sp, args'⟩, hP, hj, hsp, hargs'⟩ := (hq hq').exists_ok
          simp only at hj hsp hargs'
          rw [hargs', List.prefix_append_right_inj] at hargs
          have hcargs : argTypes (scanEvents Prod.snd (vsprintfConversion fmt j [])) <+:
              args'.map VaValue.type := by
            rw [hC]
            exact hargs
          have hcfloat : ∀ c, PrintfEvent.arg .double c ∉
              scanEvents Prod.snd (vsprintfConversion fmt j []) := by
            rw [hC]
            exact fun c h => hfloat c (List.mem_append_right _ h)
          have hc := printfConversion_alike j sp hsp args' hcargs hcfloat
          rw [hC] at hc
          rw [hP]
          dsimp only
          rw [hj, StopsAlike.eq_readPastEnd hc]
          rfl
      · rw [vsprintfLoop_prepend] at hargs hfloat hof ⊢
        have hof' : vsprintfLoop fmt fuel (k + 1) [] ≠ .error .outOfFuel := fun h => hof (by rw [h]; rfl)
        rw [scanEvents_prepend_id hof'] at hargs hfloat
        simp only [argTypes_append, List.append_assoc] at hargs
        have hq' : argTypes evq <+: args.map VaValue.type := (List.prefix_append _ _).trans hargs
        obtain ⟨⟨j', sp, args'⟩, hP, hj, hsp, hargs'⟩ := (hq hq').exists_ok
        simp only at hj hsp hargs'
        rw [hargs', List.prefix_append_right_inj] at hargs
        have hcargs : argTypes (scanEvents Prod.snd (vsprintfConversion fmt j [])) <+:
            args'.map VaValue.type := by
          rw [hC]
          exact (List.prefix_append _ _).trans hargs
        have hcfloat : ∀ c, PrintfEvent.arg .double c ∉
            scanEvents Prod.snd (vsprintfConversion fmt j []) := by
          rw [hC]
          exact fun c h => hfloat c (List.mem_append_left _ (List.mem_append_right _ h))
        have hc := printfConversion_alike j sp hsp args' hcargs hcfloat
        rw [hC] at hc
        obtain ⟨⟨k', s, args''⟩, hCo, hk, hargs''⟩ := hc.exists_ok
        simp only at hk hargs''
        rw [hargs'', List.prefix_append_right_inj] at hargs
        rw [hP]
        dsimp only
        rw [hj, hCo]
        dsimp only
        rw [hk, stopsAlike_prepend]
        exact ih (k + 1) args'' (out ++ s) hargs (fun c h => hfloat c (by simp [h]))

end Alike

/-- The output of `lib_vsprintf` reads the format where its scan does: given arguments of the
types the scan takes, for a format with no floating conversion, it ends at the NUL when the scan
does, and reads past the NUL at the index the scan reads. -/
theorem libVsprintfOut_stops_alike (fmt : List Char) (args : List VaValue)
    (hargs : argTypes (scanEvents id (libVsprintf fmt)) <+: args.map VaValue.type)
    (hfloat : ∀ c, PrintfEvent.arg .double c ∉ scanEvents id (libVsprintf fmt)) :
    StopsAlike (fun _ _ => True) (libVsprintf fmt) (libVsprintfOut fmt args) :=
  printfLoop_alike (fmt.length + 2) 0 args [] hargs hfloat

theorem libVsprintfOut_stops_alike_trailing_percent :
    argTypes (scanEvents id (libVsprintf ['%','d','%'])) <+: [VaValue.int 5, .int 0].map VaValue.type ∧
      (∀ c, PrintfEvent.arg .double c ∉ scanEvents id (libVsprintf ['%','d','%'])) ∧
      StopsAlike (fun _ _ => True) (libVsprintf ['%','d','%'])
        (libVsprintfOut ['%','d','%'] [.int 5, .int 0]) := by
  have hev : scanEvents id (libVsprintf ['%','d','%']) = [.arg .int 'd', .arg .int NUL] := by decide
  have hargs : argTypes (scanEvents id (libVsprintf ['%','d','%'])) <+:
      [VaValue.int 5, .int 0].map VaValue.type := by
    rw [hev]
    exact List.prefix_refl _
  have hfloat : ∀ c, PrintfEvent.arg .double c ∉ scanEvents id (libVsprintf ['%','d','%']) := by
    rw [hev]
    simp
  exact ⟨hargs,hfloat,libVsprintfOut_stops_alike _ _ hargs hfloat⟩

end TizenRT.Stdio
