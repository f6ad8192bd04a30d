import WallSwitch.DeviceConfig.Basic

/-!
This module contains the adding of peripherals to a configuration in place. One piece is placed after
the other, and a piece for which there is no room ends it. The pieces in front of that are not taken
back.
-/

namespace WallSwitch

/--
A change of a configuration in place, which may fail on the way.
-/
abbrev Filling (α : Type) := ExceptT ConfigError (StateM DeviceConfig) α

namespace DeviceConfig

/--
Makes a change that puts something behind all others of its kind, and says in which place it is.
-/
def place (kind : Peripherals) (change : DeviceConfig → DeviceConfig) : Filling Nat := do
  let config ← get
  config.reserve kind
  set (change config)
  return config.count kind

def placeButton (button : Button) : Filling Nat :=
  place .buttons fun config => config.addButton button

def placeSwitch (switch : Switch) : Filling Nat :=
  place .switches fun config => { config with switches := config.switches ++ [switch] }

def placeLed (led : Led) : Filling Nat :=
  place .leds fun config => { config with leds := config.leds ++ [led] }

def placeRelay (relay : RelayDrive) : Filling Nat :=
  place .relays fun config => { config with relays := config.relays ++ [relay] }

/--
Places the switch with this index, behind its contact.
-/
def placeContactAndSwitch (index : Nat) (pin : Pin) (pull : Pull) : Filling Unit := do
  let button ← placeButton ⟨pin, pull, .switch index⟩
  let _ ← placeSwitch (.standard index button)

/--
Adds a peripheral in place. Room for a switch has to be found before its contact is placed.
-/
def fill : Peripheral → Filling Unit
  | .button pin pull => do
    let _ ← placeButton ⟨pin, pull, .factoryReset⟩
  | .switch pin pull => do
    let config ← get
    config.reserve .switches
    placeContactAndSwitch (config.count .switches) pin pull
  | .statusLed pin activeHigh => do
    let led ← placeLed ⟨pin, activeHigh⟩
    modify fun config => { config with networkLeds := .free 4 }
    modify fun config => { config with networkLeds := config.networkLeds.assign led }
    modify fun config => { config with hasDedicatedLed := true }
  | .indicatorLed pin activeHigh => do
    let led ← placeLed ⟨pin, activeHigh⟩
    modify fun config => { config with relayIndicators := config.relayIndicators.assign led }
    if !(← get).hasDedicatedLed then
      modify fun config => { config with networkLeds := config.networkLeds.assign led }
  | .relay pin offPin? => do
    let index := (← get).count .relays
    let _ ← placeRelay ⟨index, pin, offPin?, true⟩
  | .imageType value => modify fun config => { config with imageType := some value }
  | .simultaneousPulses => modify fun config => { config with simultaneousPulses := true }
  | .momentarySwitches => modify fun config => { config with
      switches := config.switches.map fun switch => { switch with mode := .momentary } }

/--
The outcome of adding a peripheral in place, and what has become of the configuration.
-/
def filled (config : DeviceConfig) (peripheral : Peripheral) :
    Except ConfigError Unit × DeviceConfig :=
  (fill peripheral).run.run config

end DeviceConfig

end WallSwitch
