import GPhoto2.CString
import GPhoto2.Lib.Comp
import GPhoto2.Lib.Qsort
import GPhoto2.Result

/-!
# `GPhoto2.Camera.CameraList`: lists of names and values

`gphoto2-list.c`. Any allocation may fail. An entry may be without a name; where `strcmp` would get
that name, there is no defined outcome.
-/

set_option autoImplicit false

namespace GPhoto2

open Lib

/-- `struct _entry`. -/
structure ListEntry where
  name : Option CString
  value : Option CString

/-- `struct _CameraList`. -/
structure CameraList where
  /-- The entries that are used. -/
  entry : List ListEntry
  /-- The entries for which there is memory. -/
  max : Nat
  /-- Which of the next allocations succeed. All behind these do. -/
  allocs : List Bool

/-- `gp_list_new`. -/
def gpListNew (allocs : List Bool) : CameraList := { entry := [], max := 0, allocs := allocs }

/-- `realloc` or `strdup`. -/
def alloc : Comp CameraList Int Unit := do
  let list ← Comp.get
  Comp.modify fun list => { list with allocs := list.allocs.tail }
  if list.allocs.headD true then pure () else Comp.throw gpErrorNoMemory

/-- The memory for another entry in `gp_list_append`. -/
def growList : Comp CameraList Int Unit := do
  let list ← Comp.get
  if list.entry.length = list.max then do
    alloc
    Comp.modify fun list => { list with max := list.max + 100 }
  else
    pure ()

/-- The copy of a string in `gp_list_append`. -/
def dupString (s : Option CString) : Comp CameraList Int Unit :=
  if s.isSome then alloc else pure ()

/-- `gp_list_append`. It is stuck if there is no memory for the entry. -/
def gpListAppend (name value : Option CString) : Comp CameraList Int Unit := do
  growList
  dupString name
  dupString value
  let list ← Comp.get
  if list.entry.length < list.max then
    Comp.modify fun list => { list with entry := list.entry ++ [⟨name, value⟩] }
  else
    Comp.stuck

/-- `gp_list_reset`. The memory is kept. -/
def gpListReset : Comp CameraList Int Unit := Comp.modify fun list => { list with entry := [] }

/-- `strcmp`. -/
def strcmp (s t : CString) : Int := if s < t then -1 else if t < s then 1 else 0

/-- `cmp_list`, of entries with names. -/
def cmpList (a b : ListEntry) : Int := strcmp (a.name.getD []) (b.name.getD [])

/-- `gp_list_sort`. -/
def gpListSort (qsort : Qsort cmpList) : Comp CameraList Int Unit := do
  let list ← Comp.get
  if list.entry.all fun e => e.name.isSome then
    Comp.modify fun list => { list with entry := qsort.sort list.entry }
  else
    Comp.stuck

/-- The loop of `gp_list_find_by_name`, which goes down from the last entry. -/
def findByNameLoop (name : CString) (entry : List ListEntry) : Nat → Comp CameraList Int Nat
  | 0 => Comp.throw gpError
  | i + 1 => match entry[i]?.bind ListEntry.name with
    | none => Comp.stuck
    | some s => if s = name then pure i else findByNameLoop name entry i

/-- `gp_list_find_by_name`. -/
def gpListFindByName (name : CString) : Comp CameraList Int Nat := do
  let list ← Comp.get
  findByNameLoop name list.entry list.entry.length

/-- Change the entry at an index, with a new string for it. -/
def setEntry (index : Int) (change : ListEntry → ListEntry) : Comp CameraList Int Unit := do
  let list ← Comp.get
  if index < 0 ∨ list.entry.length ≤ index then
    Comp.throw gpErrorBadParameters
  else do
    alloc
    Comp.modify fun list => { list with entry := list.entry.modify index.toNat change }

/-- `gp_list_set_name`. -/
def gpListSetName (index : Int) (name : CString) : Comp CameraList Int Unit :=
  setEntry index fun e => { e with name := some name }

/-- `gp_list_set_value`. -/
def gpListSetValue (index : Int) (value : CString) : Comp CameraList Int Unit :=
  setEntry index fun e => { e with value := some value }

/-! ### Calls -/

/-- The calls that change a list, with names for all entries. -/
inductive ListCall
  | append (name : CString) (value : Option CString)
  | reset
  | sort
  | setName (index : Int) (name : CString)
  | setValue (index : Int) (value : CString)

/-- What a call does. -/
def ListCall.body (qsort : Qsort cmpList) : ListCall → Comp CameraList Int Unit
  | append name value => gpListAppend (some name) value
  | reset => gpListReset
  | sort => gpListSort qsort
  | setName index name => gpListSetName index name
  | setValue index value => gpListSetValue index value

/-- Make the calls one after the other, whatever each of them returns. -/
def runListCalls (qsort : Qsort cmpList) :
    List ListCall → Comp CameraList Int (List (Except Int Unit))
  | [] => pure []
  | call :: calls => do
    let r ← Comp.attempt (call.body qsort)
    let rs ← runListCalls qsort calls
    pure (r :: rs)

end GPhoto2
