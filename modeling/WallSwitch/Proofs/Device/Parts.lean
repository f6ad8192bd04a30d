import WallSwitch.Proofs.Device.Reactions
import WallSwitch.Proofs.Device.Runs
import WallSwitch.Proofs.PinWatcher.Table
import WallSwitch.Proofs.RelayBank.Wiring

/-!
This module contains what the parts of a device have to do with its configuration: they are made from
it when the device starts, and nothing that happens to the device changes that.
-/

namespace WallSwitch

theorem RelayBank.state_observe (bank : RelayBank) (i param : Nat) :
    (observe i param).step.state bank
      =
    bank.modify i fun relay => { relay with observer? := some param } := by
  simp only [observe, Request.step, Step.state]
  split
  . next hnone =>
    unfold modify
    rw [List.modify_eq_self (List.getElem?_eq_none_iff.mp hnone)]
  . rfl

theorem RelayBank.commands_observe (bank : RelayBank) (i param : Nat) :
    (observe i param).step.commands bank = [] := by
  simp only [observe, Request.step, Step.commands]
  split <;> rfl

theorem RelayBank.get?_observe {bank : RelayBank} {i j param : Nat} {relay : Relay}
    (h : ((observe i param).step.state bank).get? j = some relay) :
    ∃ old, bank.get? j = some old ∧ old.drive = relay.drive ∧ old.isOn = relay.isOn
      ∧ old.indicator? = relay.indicator? := by
  rw [state_observe] at h
  unfold modify get? at h
  rw [List.getElem?_modify] at h
  obtain ⟨old, hold, rfl⟩ := Option.map_eq_some_iff.mp h
  refine ⟨old, hold, ?_⟩
  split <;> exact ⟨rfl, rfl, rfl⟩

theorem RelayBank.map_observe {α : Type} {f : Relay → α} (bank : RelayBank) (i param : Nat)
    (hf : ∀ relay : Relay, f { relay with observer? := some param } = f relay) :
    ((observe i param).step.state bank).relays.map f = bank.relays.map f := by
  rw [state_observe]
  apply List.ext_getElem?
  intro j
  unfold modify
  rw [List.getElem?_map, List.getElem?_map, List.getElem?_modify]
  cases bank.relays[j]? with
  | none => rfl
  | some relay => by_cases hij : i = j <;> simp [hij, hf]

theorem RelayBank.BuiltFrom.observe {bank : RelayBank} {config : DeviceConfig} {i param : Nat}
    (h : bank.BuiltFrom config) : ((observe i param).step.state bank).BuiltFrom config where
  drives := by
    rw [← h.drives]
    exact map_observe bank i param fun _ => rfl
  indicators := by
    intro relay hmem
    obtain ⟨j, hj⟩ := List.getElem?_of_mem hmem
    obtain ⟨old, hold, hdrive, _, hindicator⟩ := get?_observe hj
    rw [← hindicator, ← hdrive]
    exact h.indicators old (List.mem_of_getElem? hold)
  simultaneous := by
    rw [state_observe]
    exact h.simultaneous

@[simp]
theorem DeviceCall.commands_observe (controller : Controller) (i param : Nat) :
    (observe i param).step.commands controller = [] :=
  controller.relays.commands_observe i param

namespace Controller

structure BuiltFrom (controller : Controller) (config : DeviceConfig) : Prop where
  relays : controller.relays.BuiltFrom config
  leds : controller.light.leds = config.networkLedList
  dedicated : controller.light.hasDedicatedLed = config.hasDedicatedLed
  buttons : controller.contacts.contacts.map (·.button) = config.buttons
  watched : ∀ pin ∈ controller.watcher.pins, pin ∈ config.buttons.map (·.pin)

theorem exists_state_changeSwitch (controller : Controller) (i : Nat) (change : Switch → Switch) :
    ∃ config, (changeSwitch i change).step.state controller = { controller with config := config } := by
  simp only [changeSwitch, Request.step, Step.state]
  split
  . exact ⟨controller.config, rfl⟩
  . exact ⟨_, rfl⟩

variable {controller next : Controller} {config : DeviceConfig} {commands : List Command}

namespace BuiltFrom

theorem move {bank : RelayBank} {target : Option Nat} (h : controller.BuiltFrom config)
    (hmove : controller.relays.Move target bank commands) :
    { controller with relays := bank }.BuiltFrom config :=
  ⟨h.relays.move hmove, h.leds, h.dedicated, h.buttons, h.watched⟩

theorem setRelay (h : controller.BuiltFrom config) (i : Nat) (on : Bool) :
    ((setRelay i on).state controller).BuiltFrom config := by
  unfold Controller.setRelay
  rw [Step.state_choose]
  split
  . exact h.move (controller.relays.move_set i on)
  . exact h

theorem reaction (h : controller.BuiltFrom config)
    (hreaction : Reaction controller next commands) : next.BuiltFrom config := by
  induction hreaction with
  | rest => exact h
  | setRelay controller i on => exact h.setRelay i on
  | tell => exact h
  | note controller contacts longPressed hcontacts =>
    exact ⟨h.relays, h.leds, h.dedicated, hcontacts.trans h.buttons, h.watched⟩
  | askReset => exact ⟨h.relays, h.leds, h.dedicated, h.buttons, h.watched⟩
  | trans _ _ ih ihnext => exact ihnext (ih h)

theorem onStatus (h : controller.BuiltFrom config) (status : NetworkStatus) :
    ((onStatus status).state controller).BuiltFrom config := by
  unfold Controller.onStatus
  rw [Step.state_andThen]
  have hdisplayed : ((onLight (StatusLight.display status)).state controller).BuiltFrom config :=
    ⟨h.relays, h.leds, h.dedicated, h.buttons, h.watched⟩
  split
  . exact hdisplayed
  . exact hdisplayed

theorem changeSwitch (h : controller.BuiltFrom config) (i : Nat) (change : Switch → Switch) :
    ((changeSwitch i change).step.state controller).BuiltFrom config := by
  obtain ⟨_, hstate⟩ := controller.exists_state_changeSwitch i change
  rw [hstate]
  exact ⟨h.relays, h.leds, h.dedicated, h.buttons, h.watched⟩

theorem call (h : controller.BuiltFrom config) (asked : DeviceCall) :
    (asked.step.state controller).BuiltFrom config := by
  cases asked with
  | setRelay i on => exact h.setRelay i on
  | toggleRelay i => exact h.setRelay i _
  | onStatus status => exact h.onStatus status
  | chooseStatusLed on => exact ⟨h.relays, h.leds, h.dedicated, h.buttons, h.watched⟩
  | changeSwitch i change =>
    rw [DeviceCall.step_changeSwitch]
    exact h.changeSwitch i _
  | bank asked => exact h.move (asked.move controller.relays)
  | observe i param =>
    exact ⟨h.relays.observe, h.leds, h.dedicated, h.buttons, h.watched⟩
  | onEdge => exact ⟨h.relays, h.leds, h.dedicated, h.buttons, h.watched⟩

end BuiltFrom

end Controller

namespace Device

variable {config : DeviceConfig} {device : Device}

/--
The device after its pins were read, and before it deals with what was found.
-/
def passed (device : Device) : Device :=
  ⟨{ device.part with watcher := (device.part.watcher.pass device.board).2.1 },
    (device.part.watcher.pass device.board).2.2⟩

theorem exists_reaction_settle (device : Device) :
    ∃ commands, Controller.Reaction device.passed.part device.settle.part commands
      ∧ device.settle.board = device.passed.board.performAll commands := by
  unfold settle passed
  obtain ⟨notifications, watcher, board⟩ := device.part.watcher.pass device.board
  dsimp only
  rw [part_step, board_step]
  exact ⟨_, (Controller.reacts_takeNotifications notifications).andThen
    Controller.reacts_handleContacts, rfl⟩

theorem builtFrom_passed (h : device.part.BuiltFrom config) : device.passed.part.BuiltFrom config :=
  ⟨h.relays, h.leds, h.dedicated, h.buttons, h.watched⟩

theorem builtFrom_fire (h : device.part.BuiltFrom config) (task : Task) :
    (device.fire task).part.BuiltFrom config := by
  cases task with
  | relayPulse i => exact h.move (device.part.relays.move_continuePulse i)
  | settle =>
    obtain ⟨commands, hreaction, _⟩ := device.exists_reaction_settle
    exact (builtFrom_passed h).reaction hreaction
  | buttonHold i => exact h.reaction (Controller.reacts_onHoldElapsed i)
  | reset => exact ⟨h.relays, h.leds, h.dedicated, h.buttons, h.watched⟩

theorem builtFrom_happen (h : device.part.BuiltFrom config) (event : DeviceEvent) :
    (device.happen event).part.BuiltFrom config := by
  cases event with
  | call asked => exact h.call asked
  | reconfigure bytes =>
    simp only [happen, reconfigure]
    cases ConfigText.ofBytes bytes with
    | error error => exact h
    | ok text => exact ⟨h.relays, h.leds, h.dedicated, h.buttons, h.watched⟩
  | fire task time =>
    have hbegun : (device.begun task time).part.BuiltFrom config := h
    exact builtFrom_fire hbegun task
  | input pin high =>
    simp only [happen, input, Wired.input]
    split
    . exact h.call .onEdge
    . exact h
  | board event => exact h

end Device

end WallSwitch
