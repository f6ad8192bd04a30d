import WallSwitch.Board.Step
import WallSwitch.Led

/-!
This module contains the LEDs that show whether the device belongs to a network. A device without an
LED for that alone borrows those of the relays as long as it is not joined.
-/

namespace WallSwitch

/--
The LEDs that show the network status, and what they show.
-/
structure StatusLight where
  leds : List Led
  hasDedicatedLed : Bool
  /-- Whether a dedicated LED is lit while the device is joined. -/
  manual : Bool
  /-- The status that is shown. -/
  status : NetworkStatus
deriving DecidableEq, Repr

namespace StatusLight

def ofConfig (config : DeviceConfig) : StatusLight where
  leds := config.networkLedList
  hasDedicatedLed := config.hasDedicatedLed
  manual := true
  status := .notJoined

/--
Whether the LEDs are lit. Borrowed ones are dark while the device is joined.
-/
def isLit (light : StatusLight) : Bool :=
  match light.status with
  | .joined => light.hasDedicatedLed && light.manual
  | .notJoined | .joining => true

def refresh : Step StatusLight :=
  .emit fun light => light.leds.flatMap fun led => led.drive light.isLit

def display (status : NetworkStatus) : Step StatusLight :=
  (Step.update fun light => { light with status := status }).andThen refresh

def setManual (on : Bool) : Step StatusLight :=
  (Step.update fun light => { light with manual := on }).andThen refresh

end StatusLight

end WallSwitch
