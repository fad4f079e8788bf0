import TizenRT.Wdog.Model

set_option autoImplicit false

/-!
The environment of a task group (kernel/environ/): the block `tg_envp` holds `tg_envsize` bytes
of "name=value\0" strings. Bytes are `Char`s with `NUL` for '\0'; a C string argument is its
characters without the terminator.

The heap is seen only through `kumm_realloc`: a block shrinks in place and is never refused, a
request for size 0 frees it; a new block, or a block that must grow, is granted when `avail`
holds. The bytes a new or grown block adds are zeros here. That a shrink is never refused holds
of the default build only: with CONFIG_DISABLE_REALLOC_NEIGHBOR_EXTENTION `mm_realloc` skips its
in-place shrink (mm_realloc.c:153) and takes a new block for every size, which can fail.
-/

namespace TizenRT.Environ

open TizenRT.Wdog

def ENOENT : Int := 2
def ENOMEM : Int := 12
def EINVAL : Int := 22

def NUL : Char := Char.ofNat 0

structure TaskGroup where
  /-- the allocated block, `none` for NULL -/
  tg_envp : Option (List Char)
  tg_envsize : Nat

def strlen (s : List Char) : Nat := (s.takeWhile (· ≠ NUL)).length

/-- `size` bytes of `bytes` written at `pos`, as `sprintf` or `memcpy` into a block. -/
def memWrite (buf : List Char) (pos : Nat) (bytes : List Char) : List Char :=
  buf.take pos ++ bytes ++ buf.drop (pos + bytes.length)

def kummMalloc (avail : Bool) (size : Nat) : Option (List Char) :=
  if avail ∧ size ≥ 1 then some (List.replicate size NUL) else none

def kummRealloc (avail : Bool) (p : Option (List Char)) (size : Nat) : Option (List Char) :=
  match p with
  | none => kummMalloc avail size
  | some buf =>
    if size < 1 then none
    else if size ≤ buf.length then some (buf.take size)
    else if avail then some (buf ++ List.replicate (size - buf.length) NUL) else none

/-- `env_cmpname` on the name with its terminator: equal up to the name's '\0', where the
variable has its '='. -/
def envCmpname : List Char → List Char → Bool
  | a :: pszname, b :: peqname => if a = b then envCmpname pszname peqname else a = NUL && b = '='
  | _, _ => false

def envFindvarFrom (envp pname : List Char) (endp ptr : Nat) : Option Nat :=
  if ptr < endp then
    if envCmpname (pname ++ [NUL]) (envp.drop ptr) then some ptr
    else envFindvarFrom envp pname endp (ptr + strlen (envp.drop ptr) + 1)
  else none
termination_by endp - ptr

def envFindvar (group : TaskGroup) (pname : List Char) : Option Nat :=
  envFindvarFrom (group.tg_envp.getD []) pname group.tg_envsize 0

/-- `env_removevar`: the strings after the one at `pvar` are moved down over it; the block keeps
its size. -/
def envRemovevar (group : TaskGroup) (pvar : Nat) : Int × TaskGroup :=
  if pvar < group.tg_envsize then
    let len := strlen ((group.tg_envp.getD []).drop pvar) + 1
    let src := pvar + len
    let count := group.tg_envsize - src
    (OK,{ tg_envp := group.tg_envp.map fun envp => memWrite envp pvar ((envp.drop src).take count)
          tg_envsize := group.tg_envsize - len })
  else (ERROR,group)

/-- `unsetenv`: the return value, the errno it sets, and the group. -/
def unsetenv (avail : Bool) (group : TaskGroup) (name : List Char) : Int × Option Int × TaskGroup :=
  match envFindvar group name with
  | some pvar =>
    let group := (envRemovevar group pvar).2
    let newsize := group.tg_envsize
    match kummRealloc avail group.tg_envp newsize with
    | none => if newsize ≠ 0 then (ERROR,some ENOMEM,group) else (OK,none,{ group with tg_envp := none })
    | some newenvp => (OK,none,{ group with tg_envp := some newenvp })
  | none => (OK,none,group)

/-- The end of `setenv`: the block grown by `varlen` and "name=value" written at the old end. -/
def setenvAppend (avail : Bool) (group : TaskGroup) (name value : List Char) :
    Int × Option Int × TaskGroup :=
  let varlen := name.length + value.length + 2
  let newsize := match group.tg_envp with
    | some _ => group.tg_envsize + varlen
    | none => varlen
  let newenvp := match group.tg_envp with
    | some envp => kummRealloc avail (some envp) newsize
    | none => kummMalloc avail varlen
  match newenvp with
  | none => (ERROR,some ENOMEM,group)
  | some newenvp =>
    let pvar := match group.tg_envp with
      | some _ => group.tg_envsize
      | none => 0
    (OK,none,{ tg_envp := some (memWrite newenvp pvar (name ++ '=' :: value ++ [NUL]))
               tg_envsize := newsize })

def setenv (avail : Bool) (group : TaskGroup) (name value : List Char) (overwrite : Int) :
    Int × Option Int × TaskGroup :=
  if value = [] then
    if overwrite ≠ 0 then unsetenv avail group name else (OK,none,group)
  else
    match (if group.tg_envp.isSome then envFindvar group name else none) with
    | some pvar =>
      if overwrite = 0 then (OK,none,group)
      else setenvAppend avail (envRemovevar group pvar).2 name value
    | none => setenvAppend avail group name value

/-- `getenv`: the value after the first '=' of the variable's string, and the errno. -/
def getenv (group : TaskGroup) (name : List Char) : Option (List Char) × Option Int :=
  match envFindvar group name with
  | none => (none,some ENOENT)
  | some pvar =>
    let pvar := ((group.tg_envp.getD []).drop pvar).takeWhile (· ≠ NUL)
    if '=' ∈ pvar then (some (pvar.dropWhile (· ≠ '=')).tail,none) else (none,some EINVAL)

def putenv (availDup avail : Bool) (group : TaskGroup) (string : List Char) :
    Int × Option Int × TaskGroup :=
  if availDup then
    if '=' ∈ string then
      setenv avail group (string.takeWhile (· ≠ '=')) (string.dropWhile (· ≠ '=')).tail 1
    else (OK,none,group)
  else (ERROR,some ENOMEM,group)

end TizenRT.Environ
