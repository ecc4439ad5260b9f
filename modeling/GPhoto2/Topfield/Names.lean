import GPhoto2.Lib.Outcome
import GPhoto2.Result

/-!
# `GPhoto2.Topfield.Names`: the map between the recorder's names and those of a picture list

`strdup_to_locale`, `_convert_and_logname`, `_convert_for_device` and `get_path` of `puppy.c`. A
name is the bytes in front of its terminator. The two conversions of `iconv` are a parameter: each
is a string or, where it fails, nothing. Running out of memory is not modelled.

`get_path` frees the name that `_convert_for_device` has returned, and the map keeps the pointer. An
entry remembers here what the name was, and any use of it behind that is stuck.
-/

set_option autoImplicit false

namespace GPhoto2.Topfield

open Lib

/-- The bytes of a name. -/
abbrev Name := List UInt8

/-- `cd_latin1_to_locale` and `cd_locale_to_latin1`. -/
structure Locale where
  fromLatin1 : Name → Option Name
  toLatin1   : Name → Option Name

/-- A `struct _mapnames`, and whether its `tfname` has been freed. -/
structure Mapname where
  tfname : Name
  lgname : Name
  freed  : Bool
  deriving DecidableEq

/-- `camera->pl->names`. -/
abbrev Names := List Mapname

/-- Every byte `a` of a name becomes `b`. -/
def replaceByte (a b : UInt8) (name : Name) : Name :=
  name.map fun c => if c = a then b else c

/-- `backslash`. -/
def backslash (path : Name) : Name := replaceByte 0x2f 0x5c path

/-- `strdup_to_locale`. Where `iconv` fails, `strchr` is given `NULL`. -/
def strdupToLocale (locale : Locale) (str : Name) : Option Name :=
  (locale.fromLatin1 (if str.head? = some 5 then str.tail else str)).map (replaceByte 0x2f 0x2d)

/-- The loop of `_convert_and_logname`. It is stuck at a name that has been freed. -/
def findTfname (tfname : Name) : Names → Option (Option Name)
  | [] => some none
  | m :: names =>
    if m.freed then
      none
    else if tfname = m.tfname then
      some (some m.lgname)
    else
      findTfname tfname names

/-- The end of `_convert_and_logname`: the name is new. -/
def logname (locale : Locale) (tfname : Name) : Comp Names Int Name := fun names =>
  match strdupToLocale locale tfname with
  | none => none
  | some lgname => some (.ok lgname, names ++ [⟨tfname, lgname, false⟩])

/-- `_convert_and_logname`. -/
def convertAndLogname (locale : Locale) (tfname : Name) : Comp Names Int Name := fun names =>
  match findTfname tfname names with
  | none => none
  | some (some lgname) => some (.ok lgname, names)
  | some none => logname locale tfname names

/-- `_convert_for_device`: the entry whose `tfname` it returns. -/
def convertForDevice (lgname : Name) (names : Names) : Option Mapname :=
  names.find? fun m => lgname = m.lgname

/-- `free` of the pointer that `_convert_for_device` has returned. -/
def freeTfname (lgname : Name) : Names → Names
  | [] => []
  | m :: names =>
    if lgname = m.lgname then { m with freed := true } :: names else m :: freeTfname lgname names

/-- The path of a file, which frees its name. -/
def pathTo (xfolder filename : Name) (m : Mapname) : Comp Names Int Name :=
  if m.freed then
    Comp.stuck
  else do
    Comp.modify (freeTfname filename)
    pure (backslash (xfolder ++ [0x2f]) ++ m.tfname)

/-- `get_path`. The error stands for `NULL`. -/
def getPath (locale : Locale) (folder filename : Name) : Comp Names Int Name :=
  match locale.toLatin1 folder with
  | none => Comp.throw gpError
  | some xfolder => do
    let names ← Comp.get
    match convertForDevice filename names with
    | none => Comp.throw gpError
    | some m => pathTo xfolder filename m

end GPhoto2.Topfield
