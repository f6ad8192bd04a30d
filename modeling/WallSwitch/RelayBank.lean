import WallSwitch.Board.Step
import WallSwitch.Led

/-!
This module contains the relays of a device. A plain relay follows its state through the level of
one pin. A bi-stable one has a coil for on and a coil for off, and takes a pulse on one of them to
change over. Pulses share one supply: while a relay holds it, others wait, unless simultaneous pulses
are allowed.
-/

namespace WallSwitch

inductive PulseState where
  | idle
  /-- A coil is driven, and will be released. -/
  | active
  /-- Another relay holds the supply; it will be tried again. -/
  | waiting
deriving DecidableEq, Repr

/--
A relay with its state and with what follows the state.
-/
structure Relay where
  drive : RelayDrive
  isOn : Bool
  pulse : PulseState
  /-- The LED that shows the relay. -/
  indicator? : Option Led
  /-- What the observer of the relay is known by. -/
  observer? : Option Nat
deriving DecidableEq, Repr

namespace Relay

def fresh (drive : RelayDrive) (indicator? : Option Led) : Relay where
  drive := drive
  isOn := false
  pulse := .idle
  indicator? := indicator?
  observer? := none

def coil (relay : Relay) : Pin :=
  if relay.isOn then relay.drive.pin else relay.drive.offPin?.getD relay.drive.pin

def release (relay : Relay) : List Command :=
  relay.drive.pins.map fun pin => .write pin !relay.drive.activeHigh

def indicate (relay : Relay) : List Command :=
  relay.indicator?.toList.flatMap fun led => led.drive relay.isOn

/--
Tells the observer of the relay of its state. The observer knows the relay by its place `i` in the
bank.
-/
def tell (i : Nat) (relay : Relay) : List Command :=
  relay.observer?.toList.map fun param => .notify i relay.isOn param

def setUp (relay : Relay) : List Command :=
  relay.drive.pins.map (fun pin => .configure pin .output)
    ++ relay.release
    ++ relay.indicator?.toList.flatMap Led.setUp

end Relay

/--
The relays of a device and the supply of their pulses.
-/
structure RelayBank where
  relays : List Relay
  /-- The relay that holds the supply. -/
  holder? : Option Nat
  /-- Whether relays may be pulsed at the same time. -/
  simultaneous : Bool
deriving DecidableEq, Repr

namespace RelayBank

def pulseMs : Nat := 100

def retryMs : Nat := 50

def ofConfig (config : DeviceConfig) : RelayBank where
  relays := config.relays.map fun drive => .fresh drive (config.relayIndicator? drive.index)
  holder? := none
  simultaneous := config.simultaneousPulses

def size (bank : RelayBank) : Nat :=
  bank.relays.length

def get? (bank : RelayBank) (i : Nat) : Option Relay :=
  bank.relays[i]?

/--
Whether relay `i` is on. One that does not exist is not.
-/
def isOn (bank : RelayBank) (i : Nat) : Bool :=
  (bank.get? i).any (·.isOn)

def pulse? (bank : RelayBank) (i : Nat) : Option PulseState :=
  (bank.get? i).map (·.pulse)

def modify (bank : RelayBank) (i : Nat) (f : Relay → Relay) : RelayBank :=
  { bank with relays := bank.relays.modify i f }

/--
Has relay `i` tell an observer of its state from now on. The answer is whether the relay exists.
-/
def observe (i param : Nat) : Request RelayBank Bool := fun bank =>
  match bank.get? i with
  | none => (false, bank, [])
  | some _ => (true, bank.modify i fun relay => { relay with observer? := some param }, [])

def emitFrom (i : Nat) (commands : Relay → List Command) : Step RelayBank :=
  .emit fun bank => (bank.get? i).toList.flatMap commands

def setUp : Step RelayBank :=
  .emit fun bank => bank.relays.flatMap Relay.setUp

def indicateAll : Step RelayBank :=
  .emit fun bank => bank.relays.flatMap Relay.indicate

/--
Whether a relay other than `i` holds the supply, in a bank that takes that into account.
-/
def isBlocked (bank : RelayBank) (i : Nat) : Bool :=
  bank.holder?.any (· != i) && !bank.simultaneous

/--
Gives the supply back, if relay `i` holds it.
-/
def yieldSupply (bank : RelayBank) (i : Nat) : RelayBank :=
  if bank.holder? = some i then { bank with holder? := none } else bank

def beginPulse (i : Nat) : Step RelayBank :=
  .choose fun bank =>
    if bank.isBlocked i then
      (Step.emit fun _ => [.schedule (.relayPulse i) retryMs]).andThen
        (.update fun bank => bank.modify i fun relay => { relay with pulse := .waiting })
    else
      (emitFrom i fun relay => [.write relay.coil relay.drive.activeHigh]).andThen <|
        (Step.emit fun _ => [.schedule (.relayPulse i) pulseMs]).andThen <|
          .update fun bank =>
            { bank.modify i (fun relay => { relay with pulse := .active }) with holder? := some i }

def finishPulse (i : Nat) : Step RelayBank :=
  (emitFrom i Relay.release).andThen <|
    .update fun bank =>
      (bank.modify i fun relay => { relay with pulse := .idle }).yieldSupply i

def dropPulse (i : Nat) : Step RelayBank :=
  (finishPulse i).andThen <| .emit fun _ => [.cancel (.relayPulse i)]

/--
Drives relay `i` to its state.
-/
def actuate (i : Nat) : Step RelayBank :=
  .choose fun bank =>
    if (bank.get? i).any (·.drive.isLatching) then
      (dropPulse i).andThen (beginPulse i)
    else
      emitFrom i fun relay => [.write relay.drive.pin (relay.isOn == relay.drive.activeHigh)]

/--
Switches relay `i` on or off. A bi-stable relay drops the pulse that it may be at and starts one
towards the new state. If the relay does not exist, nothing happens.
-/
def set (i : Nat) (on : Bool) : Step RelayBank :=
  .choose fun bank =>
    if i < bank.size then
      (Step.update fun bank => bank.modify i fun relay => { relay with isOn := on }).andThen <|
        (actuate i).andThen <|
          (emitFrom i Relay.indicate).andThen <|
            emitFrom i (Relay.tell i)
    else
      .skip

def turnOn (i : Nat) : Step RelayBank :=
  set i true

def turnOff (i : Nat) : Step RelayBank :=
  set i false

def toggle (i : Nat) : Step RelayBank :=
  .choose fun bank => set i !bank.isOn i

/--
Goes on with the pulse of relay `i`: ends it, or tries again to start it.
-/
def continuePulse (i : Nat) : Step RelayBank :=
  .choose fun bank =>
    match bank.pulse? i with
    | some .active => finishPulse i
    | some .waiting => beginPulse i
    | some .idle | none => .skip

end RelayBank

end WallSwitch
