import WallSwitch.Json

/-!
This module contains the records in which a device keeps its settings.
-/

namespace WallSwitch

/--
Values with a written form. Members of the form that a record does not have are ignored, but all
that it has must be there once.
-/
class Record (α : Type) where
  encode : α → Bytes
  decode? : Bytes → Option α

namespace Record

def membersOf? (body : Bytes) : Option (List (Bytes × Bytes)) :=
  Json.readAll (Json.object Json.raw) body

end Record

structure BasicRecord where
  /-- Whether a dedicated LED is lit while the device is joined. -/
  networkLedOn : Bool
deriving DecidableEq, Repr

structure VersionRecord where
  version : UInt16
deriving DecidableEq, Repr

/--
The role that the device has in the network, by its code.
-/
structure RoleRecord where
  role : UInt8
deriving DecidableEq, Repr

structure RelayRecord where
  on : Bool
deriving DecidableEq, Repr

/--
The settings of a switch, choices by their codes.
-/
structure SwitchRecord where
  mode : UInt8
  action : UInt8
  relayMode : UInt8
  boundStage : UInt8
  relayNumber : UInt8
  longPressMs : UInt16
  levelMoveRate : UInt8
deriving DecidableEq, Repr

instance : Record BasicRecord where
  encode record := Json.printObject [Json.printMember "network_led_on" record.networkLedOn]
  decode? body := do
    let members ← Record.membersOf? body
    let networkLedOn ← Json.member? "network_led_on" members
    return { networkLedOn }

instance : Record VersionRecord where
  encode record := Json.printObject [Json.printMember "version" record.version]
  decode? body := do
    let members ← Record.membersOf? body
    let version ← Json.member? "version" members
    return { version }

instance : Record RoleRecord where
  encode record := Json.printObject [Json.printMember "role" record.role]
  decode? body := do
    let members ← Record.membersOf? body
    let role ← Json.member? "role" members
    return { role }

instance : Record RelayRecord where
  encode record := Json.printObject [Json.printMember "on" record.on]
  decode? body := do
    let members ← Record.membersOf? body
    let on ← Json.member? "on" members
    return { on }

instance : Record SwitchRecord where
  encode record := Json.printObject [
    Json.printMember "mode" record.mode,
    Json.printMember "action" record.action,
    Json.printMember "relay_mode" record.relayMode,
    Json.printMember "binded_mode" record.boundStage,
    Json.printMember "relay_index" record.relayNumber,
    Json.printMember "long_press_ms" record.longPressMs,
    Json.printMember "level_move_rate" record.levelMoveRate]
  decode? body := do
    let members ← Record.membersOf? body
    let mode ← Json.member? "mode" members
    let action ← Json.member? "action" members
    let relayMode ← Json.member? "relay_mode" members
    let boundStage ← Json.member? "binded_mode" members
    let relayNumber ← Json.member? "relay_index" members
    let longPressMs ← Json.member? "long_press_ms" members
    let levelMoveRate ← Json.member? "level_move_rate" members
    return { mode, action, relayMode, boundStage, relayNumber, longPressMs, levelMoveRate }

/--
A list of numbers.
-/
instance : Record (List UInt16) where
  encode numbers := Json.printArray numbers
  decode? body := Json.readAll (Json.array Json.Scalar.parse) body

end WallSwitch
