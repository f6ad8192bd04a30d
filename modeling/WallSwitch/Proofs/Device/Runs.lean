import WallSwitch.Device.Inputs
import WallSwitch.Proofs.Board.Orders
import WallSwitch.Proofs.RelayBank.Moves

/-!
This module contains what can happen to a device that was started: it is asked for something, tasks
of its board are run, pins are changed from outside and time passes, in any order.
-/

namespace WallSwitch

inductive SwitchChange where
  | mode (mode : SwitchMode)
  | action (action : SwitchAction)
  | relayMode (relayMode : RelayMode)
  | boundStage (stage : PressStage)
  | relayNumber (number : UInt8)
  | longPressMs (ms : UInt16)
  | levelMoveRate (rate : UInt8)
deriving DecidableEq, Repr

namespace SwitchChange

def apply (switch : Switch) : SwitchChange → Switch
  | .mode new => { switch with mode := new }
  | .action new => { switch with action := new }
  | .relayMode new => { switch with relayMode := new }
  | .boundStage new => { switch with boundStage := new }
  | .relayNumber new => { switch with relayNumber := new }
  | .longPressMs new => { switch with longPressMs := new }
  | .levelMoveRate new => { switch with levelMoveRate := new }

def request (i : Nat) : SwitchChange → Request Controller Bool
  | .mode new => Controller.setMode i new
  | .action new => Controller.setAction i new
  | .relayMode new => Controller.setRelayMode i new
  | .boundStage new => Controller.setBoundStage i new
  | .relayNumber new => Controller.setRelayNumber i new
  | .longPressMs new => Controller.setLongPressMs i new
  | .levelMoveRate new => Controller.setLevelMoveRate i new

end SwitchChange

inductive DeviceCall where
  | setRelay (i : Nat) (on : Bool)
  | toggleRelay (i : Nat)
  | onStatus (status : NetworkStatus)
  | chooseStatusLed (on : Bool)
  | changeSwitch (i : Nat) (change : SwitchChange)
  /-- The relays are asked past the device, which keeps nothing of it. -/
  | bank (asked : BankCall)
  | observe (i param : Nat)
  /-- An edge interrupts, whatever the levels are. -/
  | onEdge
deriving DecidableEq, Repr

def DeviceCall.step : DeviceCall → Step Controller
  | .setRelay i on => Controller.setRelay i on
  | .toggleRelay i => Controller.toggleRelay i
  | .onStatus status => Controller.onStatus status
  | .chooseStatusLed on => Controller.chooseStatusLed on
  | .changeSwitch i change => (change.request i).step
  | .bank asked => Controller.onRelays asked.step
  | .observe i param => Controller.onRelays (RelayBank.observe i param).step
  | .onEdge => Controller.onWatcher PinWatcher.onEdge

theorem DeviceCall.step_changeSwitch (i : Nat) (change : SwitchChange) :
    (changeSwitch i change).step
      =
    (Controller.changeSwitch i fun switch => change.apply switch).step := by
  cases change <;> rfl

/--
What can happen to a board without the device that runs on it.
-/
inductive BoardEvent where
  | setLevel (pin : Pin) (high : Bool)
  | setBounces (pin : Pin) (levels : List Bool)
  | setNetwork (status : NetworkStatus)
  /-- Keys of the settings memory break, or work again. -/
  | setFaults (unreadable unwritable : List Nat) (unerasable : Bool)
  | goTo (time : Nat)
deriving DecidableEq, Repr

def BoardEvent.on (board : Board) : BoardEvent → Board
  | .setLevel pin high => board.setLevel pin high
  | .setBounces pin levels => board.setBounces pin levels
  | .setNetwork status => { board with network := status }
  | .setFaults unreadable unwritable unerasable =>
    { board with memory := ⟨board.memory.store, unreadable, unwritable, unerasable⟩ }
  | .goTo time => board.goTo time

inductive DeviceEvent where
  | call (asked : DeviceCall)
  | reconfigure (bytes : Bytes)
  /-- A task is taken off the agenda and run, at whatever time. -/
  | fire (task : Task) (time : Nat)
  /-- The level of a pin changes, which may interrupt. -/
  | input (pin : Pin) (high : Bool)
  | board (event : BoardEvent)
deriving DecidableEq, Repr

namespace Device

/--
The device when its board has taken a task off the agenda, and before the task is run.
-/
def begun (device : Device) (task : Task) (time : Nat) : Device :=
  ⟨device.part, device.board.begin task time⟩

def happen (device : Device) : DeviceEvent → Device
  | .call asked => device.step asked.step
  | .reconfigure bytes => (device.reconfigure bytes).toOption.getD device
  | .fire task time => fire task (device.begun task time)
  | .input pin high => device.input pin high
  | .board event => ⟨device.part, event.on device.board⟩

def after (device : Device) (events : List DeviceEvent) : Device :=
  events.foldl happen device

@[simp]
theorem after_nil (device : Device) : device.after [] = device := rfl

@[simp]
theorem after_cons (device : Device) (event : DeviceEvent) (events : List DeviceEvent) :
    device.after (event :: events) = (device.happen event).after events := rfl

theorem after_append (device : Device) (first second : List DeviceEvent) :
    device.after (first ++ second) = (device.after first).after second := by
  simp [after]

theorem after_invariant {Invariant : Device → Prop} {Allowed : DeviceEvent → Prop}
    (hhappen : ∀ device event, Allowed event → Invariant device → Invariant (device.happen event))
    (events : List DeviceEvent) :
    ∀ device, (∀ event ∈ events, Allowed event) → Invariant device →
      Invariant (device.after events) := by
  induction events with
  | nil =>
    intro device _ h
    exact h
  | cons event events ih =>
    intro device hallowed h
    rw [List.forall_mem_cons] at hallowed
    exact ih _ hallowed.2 (hhappen device event hallowed.1 h)

/-! ### Runs on time -/

def Along (Allowed : Device → DeviceEvent → Prop) (device : Device) : List DeviceEvent → Prop
  | [] => True
  | event :: events => Allowed device event ∧ Along Allowed (device.happen event) events

def IsTimely (device : Device) : DeviceEvent → Prop
  | .fire task time => time ∈ device.board.due task
  | _ => True

/--
The scheduler alone runs tasks.
-/
def Timely (device : Device) (events : List DeviceEvent) : Prop :=
  device.Along IsTimely events

instance (device : Device) : (event : DeviceEvent) → Decidable (device.IsTimely event)
  | .fire task time => inferInstanceAs (Decidable (time ∈ device.board.due task))
  | .call _ | .reconfigure _ | .input .. | .board _ => .isTrue trivial

instance decidableAlong (Allowed : Device → DeviceEvent → Prop)
    [∀ device event, Decidable (Allowed device event)] :
    (device : Device) → (events : List DeviceEvent) → Decidable (device.Along Allowed events)
  | _, [] => .isTrue trivial
  | device, event :: events =>
    have := decidableAlong Allowed (device.happen event) events
    inferInstanceAs (Decidable (Allowed device event ∧ Along Allowed (device.happen event) events))

instance (device : Device) (events : List DeviceEvent) : Decidable (device.Timely events) :=
  inferInstanceAs (Decidable (device.Along IsTimely events))

variable {Allowed : Device → DeviceEvent → Prop}

theorem along_append {first second : List DeviceEvent} :
    ∀ {device : Device}, device.Along Allowed (first ++ second)
      ↔ device.Along Allowed first ∧ (device.after first).Along Allowed second := by
  induction first with
  | nil => simp [Along]
  | cons event events ih =>
    intro device
    simp only [List.cons_append, Along, after_cons, ih, and_assoc]

theorem Along.and {Kept : DeviceEvent → Prop} {events : List DeviceEvent} :
    ∀ {device : Device}, device.Along Allowed events → (∀ event ∈ events, Kept event) →
      device.Along (fun device event => Allowed device event ∧ Kept event) events := by
  induction events with
  | nil =>
    intro device _ _
    trivial
  | cons event events ih =>
    intro device h hkept
    rw [List.forall_mem_cons] at hkept
    exact ⟨⟨h.1, hkept.1⟩, ih h.2 hkept.2⟩

theorem along_of_forall {events : List DeviceEvent}
    (h : ∀ device : Device, ∀ event ∈ events, Allowed device event) :
    ∀ device : Device, device.Along Allowed events := by
  induction events with
  | nil =>
    intro device
    trivial
  | cons event events ih =>
    intro device
    exact ⟨h device event List.mem_cons_self,
      ih (fun next other hmem => h next other (List.mem_cons_of_mem event hmem)) _⟩

end Device

end WallSwitch
