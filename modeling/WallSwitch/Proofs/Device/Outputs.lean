import WallSwitch.Proofs.Device.Indicators
import WallSwitch.Proofs.Device.Requests

/-!
This module contains the proof that a device writes to no pins but those that its relays and LEDs are
wired to.
-/

namespace WallSwitch

namespace DeviceConfig

def outputPins (config : DeviceConfig) : List Pin :=
  config.relays.flatMap RelayDrive.pins ++ config.leds.map (·.pin)

def CoversWrites (config : DeviceConfig) (commands : List Command) : Prop :=
  ∀ pin high, .write pin high ∈ commands → pin ∈ config.outputPins

variable {config : DeviceConfig} {commands more : List Command} {relay : Relay} {led : Led} {pin : Pin}

theorem pin_mem_outputPins_of_drive {drive : RelayDrive} (hdrive : drive ∈ config.relays)
    (hpin : pin ∈ drive.pins) : pin ∈ config.outputPins :=
  List.mem_append_left _ (List.mem_flatMap.mpr ⟨drive, hdrive, hpin⟩)

theorem pin_mem_outputPins_of_led (hled : led ∈ config.leds) : led.pin ∈ config.outputPins :=
  List.mem_append_right _ (List.mem_map_of_mem hled)

theorem pin_mem_outputPins_of_relay {bank : RelayBank} (hbuilt : bank.BuiltFrom config)
    (hrelay : relay ∈ bank.relays) (hpin : pin ∈ relay.pins) : pin ∈ config.outputPins := by
  rcases Relay.mem_pins_iff.mp hpin with hdrive | ⟨led, hled, rfl⟩
  . obtain ⟨i, hget⟩ := List.getElem?_of_mem hrelay
    exact pin_mem_outputPins_of_drive (hbuilt.mem_relays hget) hdrive
  . rw [hbuilt.indicators relay hrelay, relayIndicator?, Option.bind_eq_some_iff] at hled
    obtain ⟨_, _, hget⟩ := hled
    exact pin_mem_outputPins_of_led (List.mem_of_getElem? hget)

namespace CoversWrites

theorem of_topic (h : ∀ command ∈ commands, command.topic ≠ .outputs) :
    config.CoversWrites commands := by
  intro pin high hmem
  exact absurd rfl (h _ hmem)

theorem append (hfirst : config.CoversWrites commands) (hsecond : config.CoversWrites more) :
    config.CoversWrites (commands ++ more) := by
  intro pin high hmem
  exact (List.mem_append.mp hmem).elim (hfirst pin high) (hsecond pin high)

theorem not_mem (h : config.CoversWrites commands) (hpin : pin ∉ config.outputPins) (high : Bool) :
    .write pin high ∉ commands :=
  fun hmem => hpin (h pin high hmem)

theorem save {α : Type} [Record α] (key : Nat) (record : α) :
    config.CoversWrites (Record.save key record) := by
  apply of_topic
  intro command hmem
  simp [Record.topic_save command hmem]

theorem move {bank next : RelayBank} {target : Option Nat} (hbuilt : bank.BuiltFrom config)
    (hmove : bank.Move target next commands) : config.CoversWrites commands := by
  intro pin high hmem
  obtain ⟨relay, hrelay, hpin⟩ := hmove.exists_relay_of_write hmem
  exact pin_mem_outputPins_of_relay hbuilt hrelay hpin

variable {controller next : Controller}

theorem refresh {light : StatusLight} (hleds : light.leds = config.networkLedList) :
    config.CoversWrites (StatusLight.refresh.commands light) := by
  intro pin high hmem
  obtain ⟨led, hled, rfl, _⟩ := StatusLight.write_mem_refresh.mp hmem
  rw [hleds] at hled
  exact pin_mem_outputPins_of_led (mem_leds_of_mem_networkLedList hled)

theorem setRelay (hbuilt : controller.BuiltFrom config) (i : Nat) (on : Bool) :
    config.CoversWrites ((Controller.setRelay i on).commands controller) := by
  unfold Controller.setRelay
  rw [Step.commands_choose]
  split
  . exact (move hbuilt.relays (controller.relays.move_set i on)).append (save _ _)
  . exact of_topic (by simp)

theorem reaction (hbuilt : controller.BuiltFrom config)
    (hreaction : Controller.Reaction controller next commands) : config.CoversWrites commands := by
  induction hreaction with
  | rest => exact of_topic (by simp)
  | setRelay controller i on => exact setRelay hbuilt i on
  | tell controller h | askReset controller resets h =>
    intro pin high hmem
    exact absurd hmem (Controller.write_not_mem_messages h pin high)
  | note => exact of_topic (by simp)
  | trans hfirst _ ih ihnext => exact (ih hbuilt).append (ihnext (hbuilt.reaction hfirst))

theorem onStatus (hbuilt : controller.BuiltFrom config) (status : NetworkStatus) :
    config.CoversWrites ((Controller.onStatus status).commands controller) := by
  unfold Controller.onStatus
  rw [Step.commands_andThen]
  apply append
  . exact refresh hbuilt.leds
  . split
    . exact move hbuilt.relays .indicate
    . exact of_topic (by simp)

theorem call (hbuilt : controller.BuiltFrom config) (asked : DeviceCall) :
    config.CoversWrites (asked.step.commands controller) := by
  cases asked with
  | setRelay i on => exact setRelay hbuilt i on
  | toggleRelay i => exact setRelay hbuilt i _
  | onStatus status => exact onStatus hbuilt status
  | chooseStatusLed on =>
    have hleds : { controller.light with manual := on }.leds = config.networkLedList := hbuilt.leds
    exact (refresh hleds).append (save Key.basic (⟨on⟩ : BasicRecord))
  | changeSwitch i change =>
    rw [DeviceCall.step_changeSwitch]
    apply of_topic
    intro command hmem
    simp [Controller.topic_changeSwitch command hmem]
  | bank asked => exact move hbuilt.relays (asked.move controller.relays)
  | observe i param => exact of_topic (by simp)
  | onEdge =>
    apply of_topic
    intro command hmem
    simp [PinWatcher.topic_onEdge command hmem]

end CoversWrites

end DeviceConfig

end WallSwitch
