import GPhoto2.Lib.Qsort
import GPhoto2.Ptp.Types

/-!
# `GPhoto2.Ptp.ObjectCache`: the array of cached objects

`params->objects` is an array of objects in the order of their handles. `ptp_object_find`
searches it with `bsearch` and `_cmp_ob`, `ptp_object_find_or_insert` with a search of its
own. A pointer into the array is an index here. Memory is never short.
-/

set_option autoImplicit false

namespace GPhoto2

open Lib

/-- `_cmp_ob`: the difference of two `uint32_t` becomes an `int`. -/
def cmpOb (oa ob : PTPObject) : Int := (oa.oid - ob.oid).toInt32.toInt

example : cmpOb (.new 1) (.new 0x90000000) = 0x70000001 := by decide

/-- `ptp_object_find`. It has no index where the source returns `PTP_RC_GeneralError`. -/
def ptpObjectFind (objects : List PTPObject) (handle : UInt32) : Option Nat :=
  bsearch (cmpOb (.new handle)) objects

/-- The handle at an index of the array. -/
def oidAt (objects : List PTPObject) (i : Nat) : UInt32 := (objects[i]?).elim 0 (·.oid)

/-- The loop of `ptp_object_find_or_insert`: an index with the handle, or the two indices it
ends with. -/
def findOrInsertLoop (objects : List PTPObject) (handle : UInt32) :
    Nat → Nat → Nat → Nat ⊕ (Nat × Nat)
  | 0, first, last => .inr (first, last)
  | fuel + 1, first, last =>
    let cursor := (last - first) / 2 + first
    if oidAt objects cursor = handle then .inl cursor
    else
      let first' := if oidAt objects cursor < handle then cursor else first
      let last' := if oidAt objects cursor < handle then last else cursor
      if last' - first' ≤ 1 then .inr (first', last')
      else findOrInsertLoop objects handle fuel first' last'

/-- The index `ptp_object_find_or_insert` inserts at, between the indices its loop ends with. -/
def insertAt (objects : List PTPObject) (handle : UInt32) (first last : Nat) : Nat :=
  if first = 0 ∧ handle < oidAt objects 0 then first
  else if last = objects.length - 1 ∧ oidAt objects last < handle then last + 1
  else first + 1

/-- `ptp_object_find_or_insert`: the index of the object and the array, or nothing where the
source returns `PTP_RC_GeneralError`. -/
def ptpObjectFindOrInsert (objects : List PTPObject) (handle : UInt32) :
    Option (Nat × List PTPObject) :=
  if handle = 0 then none
  else if objects.length = 0 then some (0, [.new handle])
  else
    match findOrInsertLoop objects handle objects.length 0 (objects.length - 1) with
    | .inl cursor => some (cursor, objects)
    | .inr (first, last) =>
      if oidAt objects first = handle then some (first, objects)
      else if oidAt objects last = handle then some (last, objects)
      else
        let insertat := insertAt objects handle first last
        some (insertat, objects.take insertat ++ .new handle :: objects.drop insertat)

/-- `ptp_remove_object_from_cache`. -/
def ptpRemoveObjectFromCache (objects : List PTPObject) (handle : UInt32) : List PTPObject :=
  match ptpObjectFind objects handle with
  | none => objects
  | some i => objects.eraseIdx i

/-! ### Runs -/

/-- A call that changes the cache. -/
inductive CacheCall
  | findOrInsert (handle : UInt32)
  | remove (handle : UInt32)

/-- The array after a call. -/
def CacheCall.exec (objects : List PTPObject) : CacheCall → List PTPObject
  | .findOrInsert handle => ((ptpObjectFindOrInsert objects handle).map Prod.snd).getD objects
  | .remove handle => ptpRemoveObjectFromCache objects handle

/-- The array after a run from the empty cache. -/
def runCache (calls : List CacheCall) : List PTPObject := calls.foldl CacheCall.exec []

/-- What a call makes of the handles inserted and not removed so far, in ascending order. The
handle 0 is refused. -/
def CacheCall.leaves (live : List UInt32) : CacheCall → List UInt32
  | .findOrInsert handle =>
    if handle = 0 ∨ handle ∈ live then live
    else live.takeWhile (· < handle) ++ handle :: live.dropWhile (· < handle)
  | .remove handle => live.erase handle

/-- The handles a run inserted and has not removed since, in ascending order. -/
def liveHandles (calls : List CacheCall) : List UInt32 := calls.foldl CacheCall.leaves []

example : liveHandles [.findOrInsert 5, .findOrInsert 2, .findOrInsert 9, .remove 5] =
    [2, 9] := by decide

end GPhoto2
