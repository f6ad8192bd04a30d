/-!
This module contains the reasons for which a configuration text is refused.
-/

namespace WallSwitch

/--
The parts of a device of which there is a limited number.
-/
inductive Peripherals where
  /-- Buttons, those behind switches included. -/
  | buttons
  /-- Status and indicator LEDs. -/
  | leds
  | relays
  | switches
deriving DecidableEq, Repr

protected def Peripherals.toString : Peripherals → String
  | .buttons => "Buttons"
  | .leds => "Leds"
  | .relays => "Relays"
  | .switches => "Switches"

instance : ToString Peripherals := ⟨Peripherals.toString⟩

inductive ConfigError where
  | manufacturerTooLong (length : Nat)
  | modelTooLong (length : Nat)
  /-- There are more parts of this kind than the device can hold. -/
  | capacityExceeded (kind : Peripherals)
  /-- The layout does not fit the endpoint and cluster tables. -/
  | topologyOverflow
  /-- The text does not fit the configuration memory. -/
  | configTooLong (length : Nat)
deriving DecidableEq, Repr

namespace ConfigError

/--
Whether a device that meets the error while it starts wipes itself. A text that is too long is
refused before the device takes any notice of it.
-/
def isFatal : ConfigError → Bool
  | .configTooLong _ => false
  | _ => true

def message : ConfigError → String
  | .manufacturerTooLong length => "ManufacturerTooLong(" ++ toString length ++ ")"
  | .modelTooLong length => "ModelTooLong(" ++ toString length ++ ")"
  | .capacityExceeded kind => "CapacityExceeded(" ++ toString kind ++ ")"
  | .topologyOverflow => "TopologyOverflow"
  | .configTooLong length => "ConfigTooLong(" ++ toString length ++ ")"

end ConfigError

end WallSwitch
