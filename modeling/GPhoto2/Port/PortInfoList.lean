import GPhoto2.CString
import GPhoto2.Result

/-!
# `GPhoto2.Port.PortInfoList`: the list of ports

`gphoto2-port-info-list.c`. An entry with an empty name is generic: its path is a pattern for
the ports a driver claims, and it does not count as an entry. Each function maps between the
index in the array and the index among the other entries by a loop of its own.

The regular expressions are a parameter. Where a null pointer would be copied there is no
defined outcome.
-/

set_option autoImplicit false

namespace GPhoto2

/-- `struct _GPPortInfo`. -/
structure PortInfo where
  type : Nat
  name : CString
  path : CString
  libraryFilename : Option CString
deriving DecidableEq

/-- The regular expressions of the platform: whether a text matches a pattern, or `none` if the
pattern does not compile. `gnu` is `HAVE_GNU_REGEX`. -/
structure Regex where
  gnu : Bool
  isMatch : CString → CString → Option Bool

/-- The number of generic entries, as the loops count them. -/
def countGeneric : List PortInfo → Nat
  | [] => 0
  | e :: list => if e.name = [] then countGeneric list + 1 else countGeneric list

/-- `gp_port_info_list_append`. -/
def gpPortInfoListAppend (list : List PortInfo) (info : PortInfo) : Int × List PortInfo :=
  let list := list ++ [info]
  -- Ignore generic entries
  ((list.length : Int) - 1 - countGeneric list, list)

/-- `gp_port_info_list_count`. -/
def gpPortInfoListCount (list : List PortInfo) : Int := (list.length : Int) - countGeneric list

/-- The loop of the two lookups. -/
def lookupEntryLoop (isIt : PortInfo → Bool) : List PortInfo → Nat → Nat → Option Int
  | [], _, _ => none
  | e :: list, i, generic =>
    if e.name = [] then lookupEntryLoop isIt list (i + 1) (generic + 1)
    else if isIt e then some ((i : Int) - generic)
    else lookupEntryLoop isIt list (i + 1) generic

/-- `gp_port_info_list_lookup_name`. -/
def gpPortInfoListLookupName (list : List PortInfo) (name : CString) : Int :=
  match lookupEntryLoop (fun e => e.name = name) list 0 0 with
  | some i => i
  | none => gpErrorUnknownPort

/-- `_("Generic Port")`. -/
def genericPort : CString := "Generic Port".toList

/-- The entry for a path that a generic entry matches. -/
def newPortInfo (e : PortInfo) (path : CString) : Option PortInfo :=
  e.libraryFilename.map fun library => ⟨e.type, genericPort, path, some library⟩

/-- The regex search of `gp_port_info_list_lookup_path`: the new entry, if a driver claims the
path. -/
def regexLoop (regex : Regex) (path : CString) : List PortInfo → Option (Option PortInfo)
  | [] => some none
  | e :: list =>
    if e.name ≠ [] then regexLoop regex path list
    else match regex.isMatch e.path path with
      -- a pattern that does not compile ends the search, but not with GNU regex
      | none => if regex.gnu then regexLoop regex path list else some none
      | some false => regexLoop regex path list
      | some true => (newPortInfo e path).map some

/-- `gp_port_info_list_lookup_path`. -/
def gpPortInfoListLookupPath (regex : Regex) (list : List PortInfo) (path : CString) :
    Option (Int × List PortInfo) :=
  -- Exact match?
  match lookupEntryLoop (fun e => e.path = path) list 0 0 with
  | some i => some (i, list)
  | none =>
    -- Regex match?
    (regexLoop regex path list).map fun found =>
      match found with
      | none => (gpErrorUnknownPort, list)
      | some newinfo => gpPortInfoListAppend list newinfo

/-- The loop of `gp_port_info_list_get_info`, at the entry `i` of the array. -/
def getInfoLoop (count : Nat) : List PortInfo → Nat → Nat → Option (Except Int Nat)
  | rest, i, n =>
    if n < i then some (.ok n)
    else match rest with
      | [] => none
      | e :: rest =>
        -- Ignore generic entries
        if e.name = [] then
          if count ≤ n + 1 then some (.error gpErrorBadParameters)
          else getInfoLoop count rest (i + 1) (n + 1)
        else getInfoLoop count rest (i + 1) n

/-- `gp_port_info_list_get_info`. -/
def gpPortInfoListGetInfo (list : List PortInfo) (n : Int) : Option (Except Int PortInfo) :=
  if n < 0 ∨ (list.length : Int) ≤ n then some (.error gpErrorBadParameters)
  else (getInfoLoop list.length list 0 n.toNat).bind fun r =>
    match r with
    | .error e => some (.error e)
    | .ok n => list[n]?.map .ok

end GPhoto2
