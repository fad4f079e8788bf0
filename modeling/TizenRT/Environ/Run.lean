import TizenRT.Environ.Map
import Mathlib.Data.List.TakeWhile

set_option autoImplicit false

/-!
`setenv` and `putenv` on the map, and the runs of a task group's environment. Replacing a
variable removes its string first and then grows the block; when the heap refuses, `setenv`
fails with ENOMEM and the variable has no value any more.
-/

namespace TizenRT.Environ

open TizenRT.Wdog KeyedList

variable {g : TaskGroup} {L : Vars} {name value : List Char} (avail : Bool) (overwrite : Int)

theorem isSome_tg_envp_of_mem (h : EnvInv g L) (hmem : name ∈ L.map Prod.fst) :
    g.tg_envp.isSome = true := by
  obtain ⟨junk,hb⟩ := h.buf
  cases hg : g.tg_envp with
  | some b => rfl
  | none =>
    rw [hg] at hb
    have hL : L = [] := envEncode_eq_nil.mp (List.append_eq_nil_iff.mp hb.symm).1
    subst hL
    cases hmem

theorem setenv_keep (h : EnvInv g L) (hname : GoodName name) (hval : value ≠ [])
    (hmem : name ∈ L.map Prod.fst) : setenv avail g name value 0 = (OK,none,g) := by
  simp [setenv,hval,isSome_tg_envp_of_mem h hmem,envFindvar_eq h hname,hmem]

theorem setenv_replace (h : EnvInv g L) (hname : GoodName name) (hval : value ≠ [])
    (hnul : NUL ∉ value) {old : List Char} (hold : envGet L name = some old) (hover : overwrite ≠ 0) :
    (∃ g', setenv avail g name value overwrite = (OK,none,g') ∧ EnvInv g' (envSet L name value)) ∨
      (∃ g', setenv avail g name value overwrite = (ERROR,some ENOMEM,g') ∧
        EnvInv g' (envUnset L name)) := by
  obtain ⟨pvar,junk,hfind,hrem,-,-⟩ := removevar_of_get h hname hold
  obtain ⟨hgood,hnd⟩ := h.unset name
  have h₁ := EnvInv.of_encode hgood hnd junk
  have hnew : name ∉ (envUnset L name).map Prod.fst := by
    simp [envUnset]
  simp only [setenv,hval,if_false,isSome_tg_envp_of_mem h (mem_of_envGet hold),if_true,hfind,hover,
    hrem]
  rcases setenvAppend_spec avail h₁ hname hnul hnew with he | ⟨g',he,h'⟩
  · exact .inr ⟨_,he,h₁⟩
  · exact .inl ⟨g',he,h'⟩

theorem setenv_new (h : EnvInv g L) (hname : GoodName name) (hval : value ≠ []) (hnul : NUL ∉ value)
    (hnot : name ∉ L.map Prod.fst) :
    setenv avail g name value overwrite = (ERROR,some ENOMEM,g) ∨
      ∃ g', setenv avail g name value overwrite = (OK,none,g') ∧ EnvInv g' (envSet L name value) := by
  have hfind : (if g.tg_envp.isSome then envFindvar g name else none) = none := by
    rw [envFindvar_eq h hname,if_neg hnot]
    split <;> rfl
  simp only [setenv,hval,if_false,hfind,envSet,envUnset_of_not_mem hnot]
  exact setenvAppend_spec avail h hname hnul hnot

theorem EnvInv.setenv (h : EnvInv g L) (hname : GoodName name) (hnul : NUL ∉ value) :
    ∃ L', EnvInv (setenv avail g name value overwrite).2.2 L' := by
  by_cases hval : value = []
  · subst hval
    by_cases hover : overwrite ≠ 0
    · obtain ⟨g',he,h'⟩ := unsetenv_spec avail h hname
      rw [TizenRT.Environ.setenv,if_pos rfl,if_pos hover,he]
      exact ⟨_,h'⟩
    · rw [TizenRT.Environ.setenv,if_pos rfl,if_neg hover]
      exact ⟨L,h⟩
  cases hold : envGet L name with
  | some old =>
    by_cases hover : overwrite = 0
    · subst hover
      rw [setenv_keep avail h hname hval (mem_of_envGet hold)]
      exact ⟨L,h⟩
    · rcases setenv_replace avail overwrite h hname hval hnul hold hover with ⟨g',he,h'⟩ | ⟨g',he,h'⟩
      · rw [he]
        exact ⟨_,h'⟩
      · rw [he]
        exact ⟨_,h'⟩
  | none =>
    rcases setenv_new avail overwrite h hname hval hnul
      (not_mem_of_envGet hold) with he | ⟨g',he,h'⟩
    · rw [he]
      exact ⟨L,h⟩
    · rw [he]
      exact ⟨_,h'⟩

theorem putenv_args {string : List Char} (hnul : NUL ∉ string) (hname : string.takeWhile (· ≠ '=') ≠ []) :
    GoodName (string.takeWhile (· ≠ '=')) ∧ NUL ∉ (string.dropWhile (· ≠ '=')).tail := by
  refine ⟨⟨hname,fun he => ?_,fun hn => hnul ((List.takeWhile_sublist _).subset hn)⟩,fun hn =>
    hnul ((List.dropWhile_sublist _).subset (List.mem_of_mem_tail hn))⟩
  simpa using List.mem_takeWhile_imp he

theorem EnvInv.putenv {availDup : Bool} {string : List Char} (h : EnvInv g L) (hnul : NUL ∉ string)
    (hname : string.takeWhile (· ≠ '=') ≠ []) :
    ∃ L', EnvInv (putenv availDup avail g string).2.2 L' := by
  unfold TizenRT.Environ.putenv
  split_ifs with hdup heq
  · obtain ⟨hgood,hval⟩ := putenv_args hnul hname
    exact h.setenv avail 1 hgood hval
  · exact ⟨L,h⟩
  · exact ⟨L,h⟩

/-- The environments a task group reaches from none, by calls with well-formed names. -/
inductive Reachable : TaskGroup → Prop
  | init : Reachable ⟨none,0⟩
  | setenv {g : TaskGroup} (avail : Bool) (name value : List Char) (overwrite : Int) :
      Reachable g → GoodName name → NUL ∉ value → Reachable (setenv avail g name value overwrite).2.2
  | unsetenv {g : TaskGroup} (avail : Bool) (name : List Char) :
      Reachable g → GoodName name → Reachable (unsetenv avail g name).2.2
  | putenv {g : TaskGroup} (availDup avail : Bool) (string : List Char) :
      Reachable g → NUL ∉ string → string.takeWhile (· ≠ '=') ≠ [] →
      Reachable (putenv availDup avail g string).2.2

theorem Reachable.envInv (hr : Reachable g) : ∃ L, EnvInv g L := by
  induction hr with
  | init => exact ⟨[],⟨(fun _ h => nomatch h),List.nodup_nil,rfl,⟨[],rfl⟩⟩⟩
  | setenv avail name value overwrite _ hname hnul ih =>
    obtain ⟨L,h⟩ := ih
    exact h.setenv avail overwrite hname hnul
  | unsetenv avail name _ hname ih =>
    obtain ⟨L,h⟩ := ih
    obtain ⟨g',he,h'⟩ := unsetenv_spec avail h hname
    rw [he]
    exact ⟨_,h'⟩
  | putenv availDup avail string _ hnul hname ih =>
    obtain ⟨L,h⟩ := ih
    exact h.putenv avail hnul hname

/-- `setenv` replacing a variable with a longer value than its block can take: the heap refuses,
`setenv` returns ERROR with errno ENOMEM, and the variable, already removed, has no value. -/
theorem setenv_enomem_removes_variable (hr : Reachable g) (h : EnvInv g L) (hname : GoodName name)
    (hval : value ≠ []) (hnul : NUL ∉ value) {old : List Char} (hold : envGet L name = some old)
    {overwrite : Int} (hover : overwrite ≠ 0)
    (hgrow : (g.tg_envp.getD []).length + (name.length + old.length + 2) <
      g.tg_envsize + (name.length + value.length + 2)) :
    ∃ g', setenv false g name value overwrite = (ERROR,some ENOMEM,g') ∧ Reachable g' ∧
      EnvInv g' (envUnset L name) ∧ (getenv g' name).1 = none := by
  obtain ⟨pvar,junk,hfind,hrem,hlen,hsize⟩ := removevar_of_get h hname hold
  obtain ⟨hgood,hnd⟩ := h.unset name
  have h₁ := EnvInv.of_encode hgood hnd junk
  have hrefused : setenvAppend false ⟨some (envEncode (envUnset L name) ++ junk),
      (envEncode (envUnset L name)).length⟩ name value = (ERROR,some ENOMEM,_) :=
    setenvAppend_of_refused rfl (by dsimp only; rw [hlen]; rw [h.size] at hgrow; omega)
  have he : setenv false g name value overwrite = (ERROR,some ENOMEM,
      ⟨some (envEncode (envUnset L name) ++ junk),(envEncode (envUnset L name)).length⟩) := by
    simp only [TizenRT.Environ.setenv,hval,if_false,
      isSome_tg_envp_of_mem h (mem_of_envGet hold),if_true,hfind,hover,hrem]
    exact hrefused
  have hr' := Reachable.setenv false name value overwrite hr hname hnul
  rw [he] at hr'
  refine ⟨_,he,hr',h₁,?_⟩
  rw [getenv_spec h₁ hname]
  exact envGet_of_not_mem (by simp [envUnset])

theorem setenv_enomem_removes_variable_run :
    let g := (setenv true ⟨none,0⟩ "A".toList "1".toList 1).2.2
    ∃ g', setenv false g "A".toList "22".toList 1 = (ERROR,some ENOMEM,g') ∧ Reachable g' ∧
      EnvInv g' (envUnset [("A".toList,"1".toList)] "A".toList) ∧ (getenv g' "A".toList).1 = none := by
  intro g
  have hr : Reachable g := .setenv true _ _ 1 .init (by decide) (by decide)
  have h : EnvInv g [("A".toList,"1".toList)] := ⟨by decide,by decide,by decide,⟨[],by decide⟩⟩
  have hold : envGet [("A".toList,"1".toList)] "A".toList = some "1".toList := by decide
  exact setenv_enomem_removes_variable hr h (by decide) (by decide) (by decide) hold (by decide)
    (by decide)

end TizenRT.Environ
