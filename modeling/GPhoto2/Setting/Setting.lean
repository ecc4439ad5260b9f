import GPhoto2.CString
import GPhoto2.Lib.CText
import GPhoto2.Lib.Comp
import GPhoto2.Result

/-!
# `GPhoto2.Setting.Setting`: the settings of the frontends

`gphoto2-setting.c`. The array `glob_setting` is filled from the settings file and by
`gp_setting_set`, which writes the file again each time. `strcpy` into a `char [256]` and a
write to the array behind its last element have no defined outcome where there is no room.

The file is its content, or nothing where it cannot be opened for reading. `writable` says
whether it can be opened for writing.
-/

set_option autoImplicit false

namespace GPhoto2

open Lib

/-- A `char [256]`, by the string in it. Its terminating zero has to fit as well. -/
structure Field where
  text : CString
  fits : text.length < 256
deriving DecidableEq

/-- `Setting`. -/
structure Setting where
  id : Field
  key : Field
  value : Field
deriving DecidableEq

/-- `glob_setting` and `glob_setting_count`. -/
structure GlobSetting where
  entries : List Setting
  count_le : entries.length ≤ 512
deriving DecidableEq

/-- The loaded settings, and the settings file. -/
structure SettingWorld where
  glob : GlobSetting
  file : Option (List Char)
  writable : Bool
deriving DecidableEq

/-- A computation over the settings. The errors are result codes. -/
abbrev SettingM (α : Type) := Comp SettingWorld Int α

/-- `strcpy` into a `char [256]`. -/
def strcpyField (s : CString) : SettingM Field :=
  if h : s.length < 256 then pure ⟨s, h⟩ else Comp.stuck

/-- The entry at `glob_setting_count++`. -/
def addSetting (x : Setting) : SettingM Unit := do
  let w ← Comp.get
  if h : w.glob.entries.length < 512 then
    Comp.modify fun _ =>
      { w with glob := ⟨w.glob.entries ++ [x], by rw [List.length_append]; exact h⟩ }
  else Comp.stuck

/-- The value of the entry `x` is replaced. -/
def setSettingValue (x : Nat) (value : Field) : SettingM Unit :=
  Comp.modify fun w => { w with
    glob := ⟨w.glob.entries.modify x fun s => { s with value := value },
      by rw [List.length_modify]; exact w.glob.count_le⟩ }

/-! ### The settings file -/

/-- A line has at least two equals signs, unless it is too short to matter. -/
def verifiesLine (line : List Char) : Bool :=
  let buf := cstr line
  (buf.length ≤ 2) || (2 ≤ buf.count '=')

/-- `verify_settings`. -/
def verifySettings : SettingM Int := do
  let w ← Comp.get
  match w.file with
  | none => pure 0
  | some content =>
    if (fgetsLines 1022 content).all verifiesLine then pure 0
    else do
      -- Incorrect settings format. resetting
      Comp.modify fun w => { w with file := none }
      pure gpError

/-- What `load_settings` does with a line. -/
def loadLine (line : List Char) : SettingM Unit :=
  let buf := cstr line
  if 2 < buf.length then
    let buf := buf.dropLast
    match strtok ['='] buf with
    | none => Comp.stuck
    | some (id, rest) => do
      let id ← strcpyField id
      match strtok ['='] rest with
      | none => Comp.stuck
      | some (key, rest) => do
        let key ← strcpyField key
        let value ← strcpyField (((strtok [] rest).map Prod.fst).getD [])
        addSetting ⟨id, key, value⟩
  else pure ()

/-- `load_settings`. -/
def loadSettings : SettingM Int := do
  Comp.modify fun w => { w with glob := ⟨[], Nat.zero_le _⟩ }
  let ret ← verifySettings
  if ret ≠ 0 then
    -- verify_settings will unlink and recreate the settings file
    pure 0
  else do
    let w ← Comp.get
    match w.file with
    | none => pure gpError
    | some content => do
      (fgetsLines 1022 content).forM loadLine
      pure 0

/-- The line of an entry in the file. -/
def settingLine (x : Setting) : List Char :=
  x.id.text ++ ['='] ++ x.key.text ++ ['='] ++ x.value.text ++ ['\n']

/-- `save_settings`. -/
def saveSettings : SettingM Int := do
  let w ← Comp.get
  if w.writable then do
    Comp.modify fun w => { w with file := some (w.glob.entries.flatMap settingLine) }
    pure 0
  else pure 0

/-! ### The functions of the library -/

/-- The entry is the one for this frontend and key. -/
def Setting.isFor (id key : CString) (x : Setting) : Bool := x.id.text = id && x.key.text = key

/-- `gp_setting_get`: the result code, and what is copied into `value`. -/
def gpSettingGet (id key : Option CString) : SettingM (Int × CString) :=
  match id, key with
  | some id, some key => do
    let w ← Comp.get
    if w.glob.entries = [] then do
      let _ ← loadSettings
    let w ← Comp.get
    match w.glob.entries.find? (·.isFor id key) with
    | some x => pure (0, x.value.text)
    | none => pure (gpError, [])
  | _, _ => Comp.throw gpErrorBadParameters

/-- The part of `gp_setting_set` that stores. -/
def storeSetting (id key value : CString) : SettingM Unit := do
  let w ← Comp.get
  match w.glob.entries.findIdx? (·.isFor id key) with
  | some x => do
    let value ← strcpyField value
    setSettingValue x value
  | none => do
    let id ← strcpyField id
    let key ← strcpyField key
    let value ← strcpyField value
    addSetting ⟨id, key, value⟩

/-- `gp_setting_set`. -/
def gpSettingSet (id key : Option CString) (value : CString) : SettingM Unit :=
  match id, key with
  | some id, some key => do
    let w ← Comp.get
    if w.glob.entries = [] then do
      let _ ← loadSettings
    storeSetting id key value
    let _ ← saveSettings
  | _, _ => Comp.throw gpErrorBadParameters

/-! ### Runs -/

/-- What can happen to the settings. Between two calls another program may write the file. -/
inductive SettingOp
  | set (id key : Option CString) (value : CString)
  | get (id key : Option CString)
  | load
  | edit (file : Option (List Char)) (writable : Bool)

/-- Make the call. Only `gp_setting_get` has an answer. -/
def SettingOp.exec : SettingOp → SettingM (Option (Int × CString))
  | set id key value => do
    gpSettingSet id key value
    pure none
  | get id key => do
    let answer ← gpSettingGet id key
    pure (some answer)
  | load => do
    let _ ← loadSettings
    pure none
  | edit file writable => do
    Comp.modify fun w => { w with file := file, writable := writable }
    pure none

/-- Make one call after the other. -/
def runSettings : List SettingOp → SettingWorld → Option SettingWorld
  | [], w => some w
  | op :: ops, w => (op.exec w).bind fun p => runSettings ops p.2

end GPhoto2
