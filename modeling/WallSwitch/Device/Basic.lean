import WallSwitch.Blueprint
import WallSwitch.Board.Wired
import WallSwitch.Contacts
import WallSwitch.PinWatcher
import WallSwitch.RelayBank
import WallSwitch.ResetTimer
import WallSwitch.Settings.Keeping
import WallSwitch.Settings.Key
import WallSwitch.StatusLight

/-!
This module contains the controller of a device, which holds all its parts together, and what can be
done with it apart from its inputs: relays, settings and the network.
-/

namespace WallSwitch

/--
The parts of a running device, apart from its board.
-/
structure Controller where
  /-- The configuration text, which may be newer than what the device runs on. -/
  text : ConfigText
  config : DeviceConfig
  topology : Topology
  relays : RelayBank
  contacts : Contacts
  /-- Watches the pins of the buttons, each with the index of its button. -/
  watcher : PinWatcher Nat
  light : StatusLight
  resets : ResetTimer
  /-- For each switch, whether its present or last press became a long one. -/
  longPressed : Vector Bool 5

abbrev Device := Wired Controller

def Device.step (device : Device) (next : Step Controller) : Device :=
  Wired.step device next

@[simp]
theorem Device.part_step (device : Device) (next : Step Controller) :
    (device.step next).part = next.state device.part := rfl

@[simp]
theorem Device.board_step (device : Device) (next : Step Controller) :
    (device.step next).board = device.board.performAll (next.commands device.part) := rfl

namespace Controller

/-! ### Parts -/

def onRelays (step : Step RelayBank) : Step Controller :=
  step.within (·.relays) fun controller relays => { controller with relays := relays }

def onWatcher (step : Step (PinWatcher Nat)) : Step Controller :=
  step.within (·.watcher) fun controller watcher => { controller with watcher := watcher }

def onLight (step : Step StatusLight) : Step Controller :=
  step.within (·.light) fun controller light => { controller with light := light }

def onResets (step : Step ResetTimer) : Step Controller :=
  step.within (·.resets) fun controller resets => { controller with resets := resets }

def switch? (controller : Controller) (i : Nat) : Option Switch :=
  controller.config.switches[i]?

/-! ### Relays -/

/--
Switches relay `i`, and keeps its state for the next start. If the relay does not exist, nothing
happens.
-/
def setRelay (i : Nat) (on : Bool) : Step Controller :=
  .choose fun controller =>
    if i < controller.relays.size then
      (onRelays (RelayBank.set i on)).andThen <|
        .emit fun _ => Record.save (Key.relay i) (⟨on⟩ : RelayRecord)
    else
      .skip

def toggleRelay (i : Nat) : Step Controller :=
  .choose fun controller => setRelay i !controller.relays.isOn i

/-! ### Network -/

/--
Shows a new network status. Once the device is joined, LEDs that were borrowed show their relays
again.
-/
def onStatus (status : NetworkStatus) : Step Controller :=
  (onLight (StatusLight.display status)).andThen <|
    if status = .joined then onRelays RelayBank.indicateAll else .skip

/--
Chooses whether a dedicated LED is lit while the device is joined, and keeps the choice.
-/
def chooseStatusLed (on : Bool) : Step Controller :=
  (onLight (StatusLight.setManual on)).andThen <|
    .emit fun _ => Record.save Key.basic (⟨on⟩ : BasicRecord)

/-! ### Settings of switches -/

def recordOf (switch : Switch) : SwitchRecord where
  mode := switch.mode.code
  action := switch.action.code
  relayMode := switch.relayMode.code
  boundStage := switch.boundStage.code
  relayNumber := switch.relayNumber
  longPressMs := switch.longPressMs
  levelMoveRate := switch.levelMoveRate

/--
A switch with the settings of a record. Codes that are unknown change nothing.
-/
def applyRecord (switch : Switch) (record : SwitchRecord) : Switch :=
  { switch with
    mode := (SwitchMode.ofCode? record.mode).getD switch.mode
    action := (SwitchAction.ofCode? record.action).getD switch.action
    relayMode := (RelayMode.ofCode? record.relayMode).getD switch.relayMode
    boundStage := (PressStage.ofCode? record.boundStage).getD switch.boundStage
    relayNumber := record.relayNumber
    longPressMs := record.longPressMs
    levelMoveRate := record.levelMoveRate }

/--
Changes the settings of switch `i`, and keeps them. The answer is whether the switch exists; if it does
not, nothing happens.
-/
def changeSwitch (i : Nat) (change : Switch → Switch) : Request Controller Bool := fun controller =>
  match controller.switch? i with
  | none => (false, controller, [])
  | some switch =>
    let switches := controller.config.switches.set i (change switch)
    (true, { controller with config := { controller.config with switches := switches } },
      Record.save (Key.switch i) (recordOf (change switch)))

def setMode (i : Nat) (mode : SwitchMode) : Request Controller Bool :=
  changeSwitch i fun switch => { switch with mode := mode }

def setAction (i : Nat) (action : SwitchAction) : Request Controller Bool :=
  changeSwitch i fun switch => { switch with action := action }

def setRelayMode (i : Nat) (relayMode : RelayMode) : Request Controller Bool :=
  changeSwitch i fun switch => { switch with relayMode := relayMode }

def setBoundStage (i : Nat) (stage : PressStage) : Request Controller Bool :=
  changeSwitch i fun switch => { switch with boundStage := stage }

def setRelayNumber (i : Nat) (number : UInt8) : Request Controller Bool :=
  changeSwitch i fun switch => { switch with relayNumber := number }

def setLongPressMs (i : Nat) (ms : UInt16) : Request Controller Bool :=
  changeSwitch i fun switch => { switch with longPressMs := ms }

def setLevelMoveRate (i : Nat) (rate : UInt8) : Request Controller Bool :=
  changeSwitch i fun switch => { switch with levelMoveRate := rate }

/-! ### Configuration -/

/--
Takes a new configuration text, which is kept and comes into force with the reboot that follows.
-/
def acceptText (text : ConfigText) : Step Controller :=
  (Step.emit fun _ => [.save Key.config text.bytes]).andThen <|
    (Step.update fun controller => { controller with text := text }).andThen <|
      onResets (ResetTimer.schedule .reboot 0)

end Controller

def Device.reconfigure (device : Device) (bytes : Bytes) : Except ConfigError Device :=
  (ConfigText.ofBytes bytes).map fun text => device.step (Controller.acceptText text)

end WallSwitch
