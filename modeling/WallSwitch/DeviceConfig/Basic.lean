import WallSwitch.ConfigError
import WallSwitch.DeviceConfig.LedSlots
import WallSwitch.DeviceConfig.Parts
import WallSwitch.Peripheral

/-!
This module contains the configuration of a device, built up by adding one peripheral after the
other.
-/

namespace WallSwitch

structure DeviceConfig where
  manufacturer : Bytes
  model : Bytes
  buttons : List Button
  leds : List Led
  switches : List Switch
  relays : List RelayDrive
  /-- The LED that shows each relay. -/
  relayIndicators : LedSlots 5
  /-- The LEDs that show the network status. -/
  networkLeds : LedSlots 4
  /-- Whether there is an LED that only shows the network status. -/
  hasDedicatedLed : Bool
  imageType : Option UInt32
  simultaneousPulses : Bool
deriving DecidableEq, Repr

namespace DeviceConfig

def capacity : Peripherals → Nat
  | .buttons => 5
  | .leds => 5
  | .relays => 5
  | .switches => 5

def maxNameLength : Nat := 31

def empty : DeviceConfig where
  manufacturer := []
  model := []
  buttons := []
  leds := []
  switches := []
  relays := []
  relayIndicators := .free 5
  networkLeds := .free 4
  hasDedicatedLed := false
  imageType := none
  simultaneousPulses := false

def count (config : DeviceConfig) : Peripherals → Nat
  | .buttons => config.buttons.length
  | .leds => config.leds.length
  | .relays => config.relays.length
  | .switches => config.switches.length

/--
Refuses to go on if there is no room for one more peripheral of this kind.
-/
def reserve (config : DeviceConfig) (kind : Peripherals) : Except ConfigError Unit :=
  if config.count kind < capacity kind then .ok () else .error (.capacityExceeded kind)

def addButton (config : DeviceConfig) (button : Button) : DeviceConfig :=
  { config with buttons := config.buttons ++ [button] }

def addSwitch (config : DeviceConfig) (pin : Pin) (pull : Pull) : DeviceConfig :=
  let index := config.switches.length
  let config' := config.addButton ⟨pin, pull, .switch index⟩
  { config' with switches := config.switches ++ [.standard index config.buttons.length] }

/--
Adds the LED that shows the network status, in place of any that did so before.
-/
def addStatusLed (config : DeviceConfig) (led : Led) : DeviceConfig :=
  { config with
    leds := config.leds ++ [led]
    networkLeds := .only 4 config.leds.length
    hasDedicatedLed := true }

/--
Adds the LED that shows the next relay. It also shows the network status, as long as no LED is
there for that alone.
-/
def addIndicatorLed (config : DeviceConfig) (led : Led) : DeviceConfig :=
  { config with
    leds := config.leds ++ [led]
    relayIndicators := config.relayIndicators.assign config.leds.length
    networkLeds :=
      if config.hasDedicatedLed then config.networkLeds
      else config.networkLeds.assign config.leds.length }

def addRelay (config : DeviceConfig) (pin : Pin) (offPin? : Option Pin) : DeviceConfig :=
  { config with relays := config.relays ++ [⟨config.relays.length, pin, offPin?, true⟩] }

/--
Adds a peripheral, or says which kind of peripheral there are too many of. A switch takes a place
among the switches first, and then one among the buttons.
-/
def add (config : DeviceConfig) : Peripheral → Except ConfigError DeviceConfig
  | .button pin pull => do
    config.reserve .buttons
    return config.addButton ⟨pin, pull, .factoryReset⟩
  | .switch pin pull => do
    config.reserve .switches
    config.reserve .buttons
    return config.addSwitch pin pull
  | .statusLed pin activeHigh => do
    config.reserve .leds
    return config.addStatusLed ⟨pin, activeHigh⟩
  | .indicatorLed pin activeHigh => do
    config.reserve .leds
    return config.addIndicatorLed ⟨pin, activeHigh⟩
  | .relay pin offPin? => do
    config.reserve .relays
    return config.addRelay pin offPin?
  | .imageType value => return { config with imageType := some value }
  | .simultaneousPulses => return { config with simultaneousPulses := true }
  | .momentarySwitches =>
    return { config with
      switches := config.switches.map fun switch => { switch with mode := .momentary } }

def relayIndicator? (config : DeviceConfig) (relay : Nat) : Option Led :=
  (config.relayIndicators[relay]?.join).bind fun led => config.leds[led]?

def networkLedList (config : DeviceConfig) : List Led :=
  config.networkLeds.toList.filterMap fun slot => slot.bind fun led => config.leds[led]?

/--
The number of endpoints: one for every switch and every relay, and one even without any.
-/
def endpointCount (config : DeviceConfig) : Nat :=
  max (config.switches.length + config.relays.length) 1

end DeviceConfig

end WallSwitch
