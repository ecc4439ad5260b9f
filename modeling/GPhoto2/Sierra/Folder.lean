import GPhoto2.CString
import GPhoto2.Lib.Outcome
import GPhoto2.Result

/-!
# `GPhoto2.Sierra.Folder`: the working folder of the Sierra cameras

`sierra_change_folder` and `sierra_set_string_register` of `library.c`. The driver notes the name of
the folder that it has changed to. The camera goes to its root when register 84 is set to a
backslash, and into a folder of the folder it is in when the register is set to its name. A packet
that fails has no effect on the camera.
-/

set_option autoImplicit false

namespace GPhoto2.Sierra

open Lib

/-- The packets of `sierra_set_string_register`. -/
inductive Packet
  | command (reg : Nat) (s : CString)
  | data (seq : Nat) (s : CString)
  | dataEnd (seq : Nat) (s : CString)
  deriving DecidableEq

/-- What the driver knows, and the camera. -/
structure Camera where
  /-- `camera->pl->folders`: it has folders. -/
  folders : Bool
  /-- `camera->pl->folder`. -/
  folder : CString
  /-- The folder that the camera is in. -/
  path : List CString
  /-- What becomes of the next packets: they are taken, or fail with an error. -/
  answers : List (Option Int)
  deriving DecidableEq

/-- What a packet does to the camera. -/
def Camera.take (camera : Camera) : Packet → Camera
  | .command 84 ['\\'] => { camera with path := [] }
  | .command 84 s => { camera with path := camera.path ++ [s] }
  | _ => camera

/-- `sierra_transmit_ack`. -/
def transmitAck (packet : Packet) : Comp Camera Int Unit := do
  let camera ← Comp.get
  let rest := { camera with answers := camera.answers.tail }
  match camera.answers.head?.join with
  | some e => do
    Comp.modify fun _ => rest
    Comp.throw e
  | none => Comp.modify fun _ => rest.take packet

/-- `MAX_DATA_FIELD_LENGTH`. -/
def maxDataFieldLength : Nat := 2048

/-- The rounds of `sierra_set_string_register` behind the first one. -/
def setStringRest : Nat → Nat → CString → Comp Camera Int Unit
  | 0, _, _ => pure ()
  | fuel + 1, seq, s =>
    if s = [] then
      pure ()
    else do
      let chunk := s.take maxDataFieldLength
      let rest := s.drop maxDataFieldLength
      transmitAck (if rest ≠ [] then .data seq chunk else .dataEnd seq chunk)
      setStringRest fuel ((seq + 1) % 256) rest

/-- `sierra_set_string_register`. -/
def setStringRegister (reg : Nat) (s : CString) : Comp Camera Int Unit :=
  if s = [] then
    pure ()
  else do
    transmitAck (.command reg (s.take (maxDataFieldLength - 2)))
    setStringRest s.length 0 (s.drop (maxDataFieldLength - 2))

/-- The loop of `sierra_change_folder`, with the characters between `st` and `i`. It breaks at a
single character. -/
def sendNames : CString → CString → Comp Camera Int Unit
  | _, [] => pure ()
  | name, c :: target =>
    if c = '/' then
      if name.length = 1 then
        pure ()
      else do
        setStringRegister 84 name
        sendNames [] target
    else
      sendNames (name ++ [c]) target

/-- What `sierra_change_folder` sends for a path. An absolute one begins in the root. -/
def sendPath (target : CString) : Comp Camera Int Unit :=
  if target.head? = some '/' then do
    setStringRegister 84 ['\\']
    sendNames [] (target.drop 1)
  else
    sendNames [] target

/-- `sizeof (target)`, and the size of `camera->pl->folder`. -/
def targetSize : Nat := 128

/-- `sierra_change_folder`. It is stuck where it leaves one of the two buffers. -/
def changeFolder (folder : CString) : Comp Camera Int Unit := do
  let camera ← Comp.get
  if camera.folders = false ∨ camera.folder = folder then
    pure ()
  else
    let target := folder.take (targetSize - 1)
    if target = [] then
      -- target[strlen (target) - 1]
      Comp.stuck
    else if target.getLast? ≠ some '/' ∧ target.length + 1 ≥ targetSize then
      Comp.stuck
    else do
      sendPath (if target.getLast? ≠ some '/' then target ++ ['/'] else target)
      if folder.length ≥ targetSize then
        Comp.stuck
      else
        Comp.modify fun camera => { camera with folder := folder }

end GPhoto2.Sierra
