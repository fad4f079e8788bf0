import TizenRT.Environ.Run

set_option autoImplicit false

/-!
What a task group's environment is for: a map from names to values that `setenv`, `unsetenv` and
`putenv` update as their comments in env_setenv.c, env_unsetenv.c and env_putenv.c say, and that
`getenv` reads. A group stands for the map `getenv` gives on well-formed names. A call that
returns OK acts on that map as its specification does; every call, whatever it returns, leaves
the other names alone; a call that fails leaves its own name as it was or without a value. Over
a run of calls that all return OK, `getenv` gives the map the specifications build.
-/

namespace TizenRT.Environ

open TizenRT.Wdog KeyedList

abbrev EnvMap := List Char → Option (List Char)

/-- `setenv` on the map: an empty value unsets the name when `overwrite` is set, a name that has a
value keeps it unless `overwrite` is set, and otherwise the name gets the value. -/
def EnvMap.setenv (E : EnvMap) (name value : List Char) (overwrite : Int) : EnvMap :=
  if value = [] then
    if overwrite ≠ 0 then Function.update E name none else E
  else if overwrite = 0 ∧ (E name).isSome then E
  else Function.update E name (some value)

/-- `putenv` on the map: "name=value" is `setenv` with overwrite set; a string without '=' changes
nothing. -/
def EnvMap.putenv (E : EnvMap) (string : List Char) : EnvMap :=
  if '=' ∈ string then E.setenv (string.takeWhile (· ≠ '=')) (string.dropWhile (· ≠ '=')).tail 1
  else E

/-- What a call on `name` that returned `ret` did to the map `E`, leaving `E'`, against the map
`S` its specification gives. -/
structure CallRefines (ret : Int) (name : List Char) (S E E' : EnvMap) : Prop where
  ok : ret = OK → E' = S
  frame : ∀ n, n ≠ name → E' n = E n
  error : ret ≠ OK → E' name = E name ∨ E' name = none

namespace CallRefines

variable {ret : Int} {name : List Char} {S E : EnvMap}

theorem unchanged (h : ret = OK → S = E) : CallRefines ret name S E E :=
  ⟨fun hret => (h hret).symm, fun _ _ => rfl, fun _ => .inl rfl⟩

theorem update (hret : ret = OK) (v : Option (List Char)) (hS : S = Function.update E name v) :
    CallRefines ret name S E (Function.update E name v) :=
  ⟨fun _ => hS.symm, fun _ hn => Function.update_of_ne hn _ _, fun h => absurd hret h⟩

theorem unset (hret : ret ≠ OK) : CallRefines ret name S E (Function.update E name none) :=
  ⟨fun h => absurd h hret, fun _ hn => Function.update_of_ne hn _ _,
    fun _ => .inr (Function.update_self _ _ _)⟩

end CallRefines

theorem EnvMap.setenv_congr {E E' : EnvMap} {name : List Char} (hname : GoodName name)
    (hE : ∀ m, GoodName m → E m = E' m) (value : List Char) (overwrite : Int) :
    ∀ n, GoodName n → EnvMap.setenv E name value overwrite n = EnvMap.setenv E' name value overwrite n := by
  intro n hn
  have hn' := hE n hn
  unfold EnvMap.setenv
  rw [hE name hname]
  split_ifs <;> simp [Function.update_apply, hn']

theorem envGet_envUnset (L : Vars) (name : List Char) :
    envGet (envUnset L name) = Function.update (envGet L) name none := by
  funext n
  rw [envGet, envUnset, lookup_filter_ne, Function.update_apply]
  split_ifs <;> rfl

theorem envGet_envSet (L : Vars) (name value : List Char) :
    envGet (envSet L name value) = Function.update (envGet L) name (some value) := by
  funext n
  rw [envGet, envSet, lookup_append_singleton, Option.map_or, ← envGet, envGet_envUnset,
    Function.update_apply]
  by_cases hn : n = name
  · simp [hn]
  · simp [hn, Ne.symm hn]

section Step

variable {g : TaskGroup} {L : Vars} {name value : List Char} (avail : Bool) (overwrite : Int)

theorem setenv_refines (h : EnvInv g L) (hname : GoodName name) (hnul : NUL ∉ value) :
    ∃ L', EnvInv (setenv avail g name value overwrite).2.2 L' ∧
      CallRefines (setenv avail g name value overwrite).1 name (EnvMap.setenv (envGet L) name value overwrite)
        (envGet L) (envGet L') := by
  by_cases hval : value = []
  · subst hval
    by_cases hover : overwrite ≠ 0
    · obtain ⟨g',he,h'⟩ := unsetenv_spec avail h hname
      rw [setenv, if_pos rfl, if_pos hover, he]
      refine ⟨_, h', ?_⟩
      rw [envGet_envUnset]
      exact .update rfl _ (by rw [EnvMap.setenv, if_pos rfl, if_pos hover])
    · rw [setenv, if_pos rfl, if_neg hover]
      exact ⟨L, h, .unchanged fun _ => by rw [EnvMap.setenv, if_pos rfl, if_neg hover]⟩
  cases hold : envGet L name with
  | some old =>
    by_cases hover : overwrite = 0
    · subst hover
      rw [setenv_keep avail h hname hval (mem_of_envGet hold)]
      exact ⟨L, h, .unchanged fun _ => by rw [EnvMap.setenv, if_neg hval, if_pos ⟨rfl, by simp [hold]⟩]⟩
    · have hS : EnvMap.setenv (envGet L) name value overwrite = Function.update (envGet L) name (some value) := by
        rw [EnvMap.setenv, if_neg hval, if_neg fun h => hover h.1]
      rcases setenv_replace avail overwrite h hname hval hnul hold hover with ⟨g',he,h'⟩ | ⟨g',he,h'⟩
      · rw [he]
        refine ⟨_, h', ?_⟩
        rw [envGet_envSet]
        exact .update rfl _ hS
      · rw [he]
        refine ⟨_, h', ?_⟩
        rw [envGet_envUnset]
        exact .unset (show ERROR ≠ OK by decide)
  | none =>
    have hS : EnvMap.setenv (envGet L) name value overwrite = Function.update (envGet L) name (some value) := by
      rw [EnvMap.setenv, if_neg hval, if_neg fun h => by simp [hold] at h]
    rcases setenv_new avail overwrite h hname hval hnul (not_mem_of_envGet hold) with he | ⟨g',he,h'⟩
    · rw [he]
      exact ⟨L, h, .unchanged fun hok => absurd hok (show ERROR ≠ OK by decide)⟩
    · rw [he]
      refine ⟨_, h', ?_⟩
      rw [envGet_envSet]
      exact .update rfl _ hS

theorem putenv_refines {availDup : Bool} {string : List Char} (h : EnvInv g L) (hnul : NUL ∉ string)
    (hname : string.takeWhile (· ≠ '=') ≠ []) :
    ∃ L', EnvInv (putenv availDup avail g string).2.2 L' ∧
      CallRefines (putenv availDup avail g string).1 (string.takeWhile (· ≠ '='))
        (EnvMap.putenv (envGet L) string) (envGet L) (envGet L') := by
  unfold putenv
  split_ifs with hdup heq
  · obtain ⟨hgood, hval⟩ := putenv_args hnul hname
    rw [EnvMap.putenv, if_pos heq]
    exact setenv_refines avail 1 h hgood hval
  · exact ⟨L, h, .unchanged fun _ => by rw [EnvMap.putenv, if_neg heq]⟩
  · exact ⟨L, h, .unchanged fun hok => absurd hok (show ERROR ≠ OK by decide)⟩

end Step

/-- One call on the environment, with the heap's answers to its allocations. -/
inductive EnvCall where
  | setenv (avail : Bool) (name value : List Char) (overwrite : Int)
  | unsetenv (avail : Bool) (name : List Char)
  | putenv (availDup avail : Bool) (string : List Char)
  deriving DecidableEq, Repr

namespace EnvCall

def run : EnvCall → TaskGroup → Int × Option Int × TaskGroup
  | .setenv avail name value overwrite, g => TizenRT.Environ.setenv avail g name value overwrite
  | .unsetenv avail name, g => TizenRT.Environ.unsetenv avail g name
  | .putenv availDup avail string, g => TizenRT.Environ.putenv availDup avail g string

def spec : EnvCall → EnvMap → EnvMap
  | .setenv _ name value overwrite, E => E.setenv name value overwrite
  | .unsetenv _ name, E => Function.update E name none
  | .putenv _ _ string, E => E.putenv string

def name : EnvCall → List Char
  | .setenv _ name _ _ | .unsetenv _ name => name
  | .putenv _ _ string => string.takeWhile (· ≠ '=')

def Good : EnvCall → Prop
  | .setenv _ name value _ => GoodName name ∧ NUL ∉ value
  | .unsetenv _ name => GoodName name
  | .putenv _ _ string => NUL ∉ string ∧ string.takeWhile (· ≠ '=') ≠ []

instance (c : EnvCall) : Decidable c.Good := by
  cases c <;> unfold Good <;> infer_instance

def runAll : List EnvCall → TaskGroup → List Int × TaskGroup
  | [], g => ([], g)
  | c :: cs, g =>
    let (ret, _, g') := c.run g
    let (rets, g'') := runAll cs g'
    (ret :: rets, g'')

def specAll (cs : List EnvCall) (E : EnvMap) : EnvMap := cs.foldl (fun E c => c.spec E) E

theorem run_refines {c : EnvCall} {g : TaskGroup} {L : Vars} (h : EnvInv g L) (hc : c.Good) :
    ∃ L', EnvInv (c.run g).2.2 L' ∧ CallRefines (c.run g).1 c.name (c.spec (envGet L)) (envGet L) (envGet L') := by
  cases c with
  | setenv avail name value overwrite => exact setenv_refines avail overwrite h hc.1 hc.2
  | unsetenv avail name =>
    obtain ⟨g',he,h'⟩ := unsetenv_spec avail h hc
    rw [show (unsetenv avail name).run g = (OK, none, g') from he]
    refine ⟨_, h', ?_⟩
    rw [envGet_envUnset]
    exact .update rfl _ rfl
  | putenv availDup avail string => exact putenv_refines avail h hc.1 hc.2

theorem runAll_cons (c : EnvCall) (cs : List EnvCall) (g : TaskGroup) :
    runAll (c :: cs) g = ((c.run g).1 :: (runAll cs (c.run g).2.2).1, (runAll cs (c.run g).2.2).2) := rfl

theorem runAll_refines (cs : List EnvCall) :
    ∀ {g : TaskGroup} {L : Vars}, EnvInv g L → (∀ c ∈ cs, c.Good) → (∀ r ∈ (runAll cs g).1, r = OK) →
      ∃ L', EnvInv (runAll cs g).2 L' ∧ envGet L' = specAll cs (envGet L) := by
  induction cs with
  | nil => exact fun h _ _ => ⟨_, h, rfl⟩
  | cons c cs ih =>
    intro g L h hgood hok
    rw [runAll_cons] at hok ⊢
    obtain ⟨L₁, h₁, href⟩ := run_refines h (hgood c List.mem_cons_self)
    have hspec := href.ok (hok _ List.mem_cons_self)
    obtain ⟨L', h', hL'⟩ := ih h₁ (fun c hc => hgood c (List.mem_cons_of_mem _ hc))
      (fun r hr => hok r (List.mem_cons_of_mem _ hr))
    exact ⟨L', h', by rw [hL', hspec]; rfl⟩

theorem goodName_name {c : EnvCall} (hc : c.Good) : GoodName c.name := by
  cases c with
  | setenv => exact hc.1
  | unsetenv => exact hc
  | putenv => exact (putenv_args hc.1 hc.2).1

theorem spec_congr {c : EnvCall} (hc : c.Good) {E E' : EnvMap} (hE : ∀ m, GoodName m → E m = E' m) :
    ∀ n, GoodName n → c.spec E n = c.spec E' n := by
  intro n hn
  cases c with
  | setenv _ name value overwrite => exact EnvMap.setenv_congr hc.1 hE value overwrite n hn
  | unsetenv _ name =>
    simp only [spec, Function.update_apply]
    split_ifs
    · rfl
    · exact hE n hn
  | putenv _ _ string =>
    simp only [spec, EnvMap.putenv]
    split_ifs
    · exact EnvMap.setenv_congr (goodName_name hc) hE _ 1 n hn
    · exact hE n hn

theorem specAll_congr (cs : List EnvCall) (hgood : ∀ c ∈ cs, c.Good) :
    ∀ {E E' : EnvMap}, (∀ m, GoodName m → E m = E' m) → ∀ n, GoodName n → specAll cs E n = specAll cs E' n := by
  induction cs with
  | nil => exact fun hE => hE
  | cons c cs ih =>
    intro E E' hE
    exact ih (fun c hc => hgood c (List.mem_cons_of_mem _ hc))
      (spec_congr (hgood c List.mem_cons_self) hE)

/-- Over every run from a reachable environment whose calls all return OK, `getenv` gives for each
well-formed name what the calls' specifications, one after another, give from the values `getenv`
gave at the start. -/
theorem runAll_getenv {g : TaskGroup} (hr : Reachable g) (cs : List EnvCall) (hgood : ∀ c ∈ cs, c.Good)
    (hok : ∀ r ∈ (runAll cs g).1, r = OK) (n : List Char) (hn : GoodName n) :
    (getenv (runAll cs g).2 n).1 = specAll cs (fun m => (getenv g m).1) n := by
  obtain ⟨L, h⟩ := hr.envInv
  obtain ⟨L', h', hL'⟩ := runAll_refines cs h hgood hok
  rw [getenv_spec h' hn, hL']
  exact specAll_congr cs hgood (fun m hm => (getenv_spec h hm).symm) n hn

theorem runAll_getenv_boot :
    let cs := [EnvCall.setenv true "A".toList "1".toList 1, .putenv true true "B=2".toList,
      .setenv true "A".toList "3".toList 0, .unsetenv true "B".toList, .putenv true true "A=4".toList]
    Reachable ⟨none, 0⟩ ∧ (∀ c ∈ cs, c.Good) ∧ (∀ r ∈ (runAll cs ⟨none, 0⟩).1, r = OK) ∧
      GoodName "A".toList ∧
      (getenv (runAll cs ⟨none, 0⟩).2 "A".toList).1 = specAll cs (fun m => (getenv ⟨none, 0⟩ m).1) "A".toList := by
  intro cs
  have hgood : ∀ c ∈ cs, c.Good := by decide +kernel
  have hok : ∀ r ∈ (runAll cs ⟨none, 0⟩).1, r = OK := by decide +kernel
  have hn : GoodName "A".toList := by decide +kernel
  exact ⟨.init, hgood, hok, hn, runAll_getenv .init cs hgood hok "A".toList hn⟩

/-- Every call from a reachable environment, whatever it returns, leaves every other well-formed
name with its value; one that returns OK acts as its specification; one that fails leaves its own
name with its old value or with none. -/
theorem run_getenv {g : TaskGroup} (hr : Reachable g) {c : EnvCall} (hc : c.Good) :
    ((c.run g).1 = OK → ∀ n, GoodName n → (getenv (c.run g).2.2 n).1 = c.spec (fun m => (getenv g m).1) n) ∧
      (∀ n, GoodName n → n ≠ c.name → (getenv (c.run g).2.2 n).1 = (getenv g n).1) ∧
      ((c.run g).1 ≠ OK → (getenv (c.run g).2.2 c.name).1 = (getenv g c.name).1 ∨
        (getenv (c.run g).2.2 c.name).1 = none) := by
  obtain ⟨L, h⟩ := hr.envInv
  obtain ⟨L', h', href⟩ := run_refines h hc
  have hname := goodName_name hc
  have hget : ∀ m, GoodName m → (getenv g m).1 = envGet L m := fun m hm => getenv_spec h hm
  have hget' : ∀ m, GoodName m → (getenv (c.run g).2.2 m).1 = envGet L' m := fun m hm => getenv_spec h' hm
  refine ⟨fun hok n hn => ?_, fun n hn hne => ?_, fun herr => ?_⟩
  · rw [hget' n hn, href.ok hok]
    exact spec_congr hc (fun m hm => (hget m hm).symm) n hn
  · rw [hget' n hn, hget n hn]
    exact href.frame n hne
  · rw [hget' _ hname, hget _ hname]
    exact href.error herr

theorem run_getenv_refused :
    let g := (TizenRT.Environ.setenv true ⟨none, 0⟩ "A".toList "1".toList 1).2.2
    let c := EnvCall.setenv false "A".toList "22".toList 1
    Reachable g ∧ c.Good ∧ (c.run g).1 = ERROR ∧ (getenv (c.run g).2.2 c.name).1 = none ∧
      (((c.run g).1 = OK → ∀ n, GoodName n → (getenv (c.run g).2.2 n).1 = c.spec (fun m => (getenv g m).1) n) ∧
      (∀ n, GoodName n → n ≠ c.name → (getenv (c.run g).2.2 n).1 = (getenv g n).1) ∧
      ((c.run g).1 ≠ OK → (getenv (c.run g).2.2 c.name).1 = (getenv g c.name).1 ∨
        (getenv (c.run g).2.2 c.name).1 = none)) := by
  intro g c
  have hr : Reachable g := .setenv true _ _ 1 .init (by decide +kernel) (by decide +kernel)
  have hc : c.Good := by decide +kernel
  exact ⟨hr, hc, by decide +kernel, by decide +kernel, run_getenv hr hc⟩

end EnvCall

end TizenRT.Environ
