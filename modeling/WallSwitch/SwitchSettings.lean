/-!
This module contains the settings of a switch that can be changed while the device runs, with the
codes that stand for them on the network and in the settings memory.
-/

namespace WallSwitch

inductive SwitchMode where
  /-- Two positions; every flip counts. -/
  | toggle
  /-- Springs back; the contact is closed while it is pressed. -/
  | momentary
  /-- Springs back; the contact is open while it is pressed. -/
  | momentaryNc
deriving DecidableEq, Repr

namespace SwitchMode

def code : SwitchMode → UInt8
  | .toggle => 0
  | .momentary => 1
  | .momentaryNc => 2

def ofCode? (code : UInt8) : Option SwitchMode :=
  if code = 0 then some .toggle
  else if code = 1 then some .momentary
  else if code = 2 then some .momentaryNc
  else none

def isMomentary (mode : SwitchMode) : Bool :=
  mode != .toggle

@[simp]
theorem ofCode?_code (mode : SwitchMode) : ofCode? mode.code = some mode := by
  cases mode <;> rfl

end SwitchMode

/--
What a switch does to its relay and to the devices bound to it.
-/
inductive SwitchAction where
  /-- On while the contact is closed. -/
  | onOff
  /-- On while the contact is open. -/
  | offOn
  /-- Toggles the relay, and tells bound devices to toggle. -/
  | toggleSimple
  /-- Toggles the relay, and tells bound devices to follow it. -/
  | toggleSmartSync
  /-- Toggles the relay, and tells bound devices to do the opposite. -/
  | toggleSmartOpposite
deriving DecidableEq, Repr

namespace SwitchAction

def code : SwitchAction → UInt8
  | .onOff => 0
  | .offOn => 1
  | .toggleSimple => 2
  | .toggleSmartSync => 3
  | .toggleSmartOpposite => 4

def ofCode? (code : UInt8) : Option SwitchAction :=
  if code = 0 then some .onOff
  else if code = 1 then some .offOn
  else if code = 2 then some .toggleSimple
  else if code = 3 then some .toggleSmartSync
  else if code = 4 then some .toggleSmartOpposite
  else none

@[simp]
theorem ofCode?_code (action : SwitchAction) : ofCode? action.code = some action := by
  cases action <;> rfl

end SwitchAction

/--
The stages of a press of a momentary switch.
-/
inductive PressStage where
  /-- The switch went down. -/
  | pressStart
  /-- The switch was held for its long-press time. -/
  | longPress
  /-- The switch came up before its long-press time. -/
  | shortPress
deriving DecidableEq, Repr

namespace PressStage

def code : PressStage → UInt8
  | .pressStart => 1
  | .longPress => 2
  | .shortPress => 3

def ofCode? (code : UInt8) : Option PressStage :=
  if code = 1 then some .pressStart
  else if code = 2 then some .longPress
  else if code = 3 then some .shortPress
  else none

@[simp]
theorem ofCode?_code (stage : PressStage) : ofCode? stage.code = some stage := by
  cases stage <;> rfl

end PressStage

/--
When the relay of a momentary switch follows it.
-/
inductive RelayMode where
  /-- Never, and not with a toggle switch either. -/
  | detached
  /-- At this stage of a press. -/
  | following (stage : PressStage)
deriving DecidableEq, Repr

namespace RelayMode

def code : RelayMode → UInt8
  | .detached => 0
  | .following stage => stage.code

def ofCode? (code : UInt8) : Option RelayMode :=
  if code = 0 then some .detached else (PressStage.ofCode? code).map .following

@[simp]
theorem ofCode?_code (mode : RelayMode) : ofCode? mode.code = some mode := by
  cases mode with
  | detached => rfl
  | following stage => cases stage <;> rfl

end RelayMode

end WallSwitch
