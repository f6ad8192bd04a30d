import WallSwitch.Pin
import WallSwitch.SwitchSettings

/-!
This module contains the parts that a device is made of, as its configuration describes them.
-/

namespace WallSwitch

inductive ButtonAction where
  /-- A long press resets the device. -/
  | factoryReset
  /-- It is the contact of this switch. -/
  | switch (index : Nat)
deriving DecidableEq, Repr

/--
A push button, or the contact of a switch.
-/
structure Button where
  pin : Pin
  pull : Pull
  action : ButtonAction
deriving DecidableEq, Repr

structure Led where
  pin : Pin
  /-- Whether a high level lights the LED. -/
  activeHigh : Bool
deriving DecidableEq, Repr

structure Switch where
  index : Nat
  /-- The button that is the contact of the switch. -/
  button : Nat
  mode : SwitchMode
  action : SwitchAction
  /-- When the relay follows a momentary switch. -/
  relayMode : RelayMode
  /-- When bound devices hear of a momentary switch. -/
  boundStage : PressStage
  /-- The number of the relay, counted from one; zero for none. -/
  relayNumber : UInt8
  longPressMs : UInt16
  /-- How fast bound devices are dimmed. -/
  levelMoveRate : UInt8
deriving DecidableEq, Repr

namespace Switch

def standard (index button : Nat) : Switch where
  index := index
  button := button
  mode := .toggle
  action := .toggleSimple
  relayMode := .following .shortPress
  boundStage := .shortPress
  relayNumber := UInt8.ofNat (index + 1)
  longPressMs := 800
  levelMoveRate := 50

def relay? (switch : Switch) : Option Nat :=
  if switch.relayNumber = 0 then none else some (switch.relayNumber.toNat - 1)

end Switch

structure RelayDrive where
  index : Nat
  /-- The drive pin; that of the coil that switches a bi-stable relay on. -/
  pin : Pin
  /-- The pin of the coil that switches a bi-stable relay off. -/
  offPin? : Option Pin
  /-- The level that drives the relay. -/
  activeHigh : Bool
deriving DecidableEq, Repr

namespace RelayDrive

/--
Whether the relay is bi-stable: it has two coils and is driven by pulses.
-/
def isLatching (relay : RelayDrive) : Bool :=
  relay.offPin?.isSome

def pins (relay : RelayDrive) : List Pin :=
  relay.pin :: relay.offPin?.toList

end RelayDrive

end WallSwitch
