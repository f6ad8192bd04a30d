import WallSwitch.Proofs.Device.Booting
import WallSwitch.Proofs.Device.Indicators
import WallSwitch.Proofs.DeviceConfig.StatusLed

/-!
This module contains what the LED that only shows the network status is like while a device runs: it
is the last one that the configuration names, it stands for the last status that was shown and the
last choice that was made, and the relays leave it alone.
-/

namespace WallSwitch

theorem Led.eq_levelFor_true_iff {led : Led} {level lit : Bool} (h : level = led.levelFor lit) :
    level = led.levelFor true ↔ lit = true := by
  rw [h]
  unfold levelFor
  cases lit <;> cases led.activeHigh <;> decide

theorem StatusLight.isLit_of_dedicated {light : StatusLight} (h : light.hasDedicatedLed = true) :
    light.isLit = true ↔ light.status ≠ .joined ∨ light.manual = true := by
  unfold isLit
  cases light.status <;> simp [h]

namespace DeviceConfig

variable {config : DeviceConfig} {led : Led} {shown : List Nat}

theorem Dedicates.mem_leds (h : config.Dedicates (some led)) : led ∈ config.leds := by
  obtain ⟨_, place, _, hget⟩ := h
  exact List.mem_of_getElem? hget

theorem Dedicates.pin_not_mem_relayPins (h : config.Dedicates (some led)) (hapart : config.LedsApart)
    (hassigned : config.LedsAssigned shown) : led.pin ∉ config.relayPins := by
  intro hmem
  obtain ⟨drive, hdrive, hpin⟩ := List.mem_flatMap.mp hmem
  rcases List.mem_append.mp hpin with hcoil | hindicator
  . exact hapart.relays led h.mem_leds drive hdrive hcoil
  . obtain ⟨other, hother, hsame⟩ := List.mem_map.mp hindicator
    rw [Option.mem_toList] at hother
    have hnetwork : led ∈ config.networkLedList := by
      rw [h.networkLedList_eq]
      exact List.mem_singleton_self led
    exact hassigned.network_ne hapart.nodup h.1 hother hnetwork hsame

end DeviceConfig

/-! ### What is kept -/

namespace Board

variable {board next : Board}

theorem network_perform (command : Command) (board : Board) :
    (board.perform command).network = board.network := by
  cases command with
  | save key item =>
    obtain ⟨_, _, hsave⟩ := board.exists_perform_save key item
    rw [hsave]
  | erase =>
    obtain ⟨_, _, herase⟩ := board.exists_perform_erase
    rw [herase]
  | _ => rfl

def statusLedChoice? (board : Board) : Option Bool :=
  (board.loadRecord BasicRecord Key.basic).1.toOption.map (·.networkLedOn)

theorem statusLedChoice?_congr
    (h : ∀ room, next.memory.read Key.basic room = board.memory.read Key.basic room) :
    next.statusLedChoice? = board.statusLedChoice? := by
  unfold statusLedChoice? loadRecord load
  rw [h]

end Board

/-! ### What is shown -/

namespace DeviceEvent

def shown? : DeviceEvent → Option NetworkStatus
  | .call (.onStatus status) => some status
  | _ => none

def chosen? : DeviceEvent → Option Bool
  | .call (.chooseStatusLed on) => some on
  | _ => none

end DeviceEvent

def StatusLight.meet (light : StatusLight) (event : DeviceEvent) : StatusLight :=
  { light with
    status := event.shown?.getD light.status
    manual := event.chosen?.getD light.manual }

namespace Controller

variable {controller next : Controller} {commands : List Command}

theorem light_setRelay (controller : Controller) (i : Nat) (on : Bool) :
    ((setRelay i on).state controller).light = controller.light := by
  unfold setRelay
  rw [Step.state_choose]
  split <;> rfl

theorem light_reaction (h : Reaction controller next commands) : next.light = controller.light := by
  induction h with
  | setRelay controller i on => exact light_setRelay controller i on
  | trans _ _ ih ihnext => exact ihnext.trans ih
  | _ => rfl

theorem light_call (asked : DeviceCall) :
    (asked.step.state controller).light = controller.light.meet (.call asked) := by
  cases asked with
  | setRelay i on => exact light_setRelay controller i on
  | toggleRelay i => exact light_setRelay controller i _
  | onStatus status =>
    change ((onStatus status).state controller).light = _
    unfold onStatus
    rw [Step.state_andThen]
    split <;> rfl
  | changeSwitch i change =>
    obtain ⟨config, hstate⟩ := controller.exists_state_changeSwitch i fun switch => change.apply switch
    rw [DeviceCall.step_changeSwitch, hstate]
    rfl
  | _ => rfl

end Controller

namespace Device

theorem light_fire (device : Device) (task : Task) :
    (device.fire task).part.light = device.part.light := by
  cases task with
  | settle =>
    obtain ⟨commands, hreaction, _⟩ := device.exists_reaction_settle
    have hlight := Controller.light_reaction hreaction
    exact hlight
  | buttonHold i => exact Controller.light_reaction (Controller.reacts_onHoldElapsed i)
  | _ => rfl

theorem light_happen (device : Device) (event : DeviceEvent) :
    (device.happen event).part.light = device.part.light.meet event := by
  cases event with
  | call asked => exact Controller.light_call asked
  | reconfigure bytes =>
    simp only [happen, reconfigure]
    cases ConfigText.ofBytes bytes <;> rfl
  | fire task time => exact light_fire (device.begun task time) task
  | input pin high =>
    simp only [happen, input, Wired.input]
    split <;> rfl
  | board event => rfl

theorem light_after (device : Device) (events : List DeviceEvent) :
    (device.after events).part.light
      =
    { device.part.light with
      status := ((events.filterMap DeviceEvent.shown?).getLast?).getD device.part.light.status
      manual := ((events.filterMap DeviceEvent.chosen?).getLast?).getD device.part.light.manual } := by
  induction events using List.reverseRecOn with
  | nil => rfl
  | append_singleton events event ih =>
    rw [after_append, getLast?_filterMap_concat, getLast?_filterMap_concat, Option.getD_or,
      Option.getD_or]
    change ((device.after events).happen event).part.light = _
    rw [light_happen, ih]
    rfl

end Device

/-! ### What the LED is like -/

namespace Controller

variable {controller next : Controller} {board : Board} {config : DeviceConfig}
variable {commands : List Command} {led : Led} {pin : Pin}

def Lights (controller : Controller) (board : Board) (led : Led) : Prop :=
  board.level led.pin = led.levelFor controller.light.isLit

theorem Lights.performAll (h : controller.Lights board led) (hlight : next.light = controller.light)
    (hcommands : ∀ high, .write led.pin high ∉ commands) :
    next.Lights (board.performAll commands) led := by
  unfold Lights
  rw [Board.level_performAll_of_not_written _ hcommands, hlight]
  exact h

theorem Lights.onEdge (h : controller.Lights board led) :
    ((onWatcher PinWatcher.onEdge).state controller).Lights
      (board.performAll ((onWatcher PinWatcher.onEdge).commands controller)) led := by
  apply h.performAll rfl
  intro high hmem
  cases PinWatcher.topic_onEdge _ hmem

theorem setRelay_not_written (hbuilt : controller.BuiltFrom config) (hpin : pin ∉ config.relayPins)
    (i : Nat) (on high : Bool) : .write pin high ∉ (setRelay i on).commands controller := by
  unfold setRelay
  rw [Step.commands_choose]
  split
  . rw [Step.commands_andThen, List.mem_append, not_or]
    exact ⟨fun hmem => hpin (hbuilt.relays.mem_relayPins_of_write (controller.relays.move_set i on) hmem),
      write_not_mem_save⟩
  . exact List.not_mem_nil

theorem reaction_not_written (hbuilt : controller.BuiltFrom config) (hpin : pin ∉ config.relayPins)
    (h : Reaction controller next commands) (high : Bool) : .write pin high ∉ commands := by
  induction h with
  | setRelay controller i on => exact setRelay_not_written hbuilt hpin i on high
  | tell controller hmessages | askReset controller resets hmessages =>
    exact write_not_mem_messages hmessages pin high
  | trans hfirst _ ih ihnext =>
    rw [List.mem_append, not_or]
    exact ⟨ih hbuilt, ihnext (hbuilt.reaction hfirst)⟩
  | _ => exact List.not_mem_nil

section Dedicated

variable (hbuilt : controller.BuiltFrom config) (hled : config.Dedicates (some led))
include hbuilt hled

theorem lights_refresh {light : StatusLight} (hleds : light.leds = controller.light.leds)
    (hnext : next.light = light) (hmore : ∀ high, .write led.pin high ∉ commands) (board : Board) :
    next.Lights (board.performAll (StatusLight.refresh.commands light ++ commands)) led := by
  rw [hbuilt.leds, hled.networkLedList_eq] at hleds
  unfold Lights
  rw [hnext]
  apply Board.level_performAll_of_writes
  . intro high hmem
    rw [List.mem_append, StatusLight.write_mem_refresh, hleds] at hmem
    rcases hmem with ⟨other, hother, _, hhigh⟩ | hmem
    . rw [hhigh, List.mem_singleton.mp hother]
    . exact absurd hmem (hmore high)
  . left
    rw [List.mem_append, StatusLight.write_mem_refresh, hleds]
    exact .inl ⟨led, List.mem_singleton_self led, rfl, rfl⟩

theorem lights_onStatus (hpin : led.pin ∉ config.relayPins) (status : NetworkStatus)
    (board : Board) :
    ((onStatus status).state controller).Lights
      (board.performAll ((onStatus status).commands controller)) led := by
  unfold onStatus
  rw [Step.commands_andThen]
  apply lights_refresh hbuilt hled
  . rfl
  . rw [Step.state_andThen]
    split <;> rfl
  . intro high
    split
    . exact fun hmem => hpin (hbuilt.relays.mem_relayPins_of_write .indicate hmem)
    . exact List.not_mem_nil

theorem lights_chooseStatusLed (on : Bool) (board : Board) :
    ((chooseStatusLed on).state controller).Lights
      (board.performAll ((chooseStatusLed on).commands controller)) led := by
  rw [commands_chooseStatusLed]
  apply lights_refresh hbuilt hled
  . rfl
  . rfl
  . intro high
    exact write_not_mem_save

end Dedicated

end Controller

namespace Device

variable {device : Device} {board : Board} {role : Role} {config : DeviceConfig} {led : Led}

section Dedicated

variable (hbuilt : device.part.BuiltFrom config) (hled : config.Dedicates (some led))
variable (hapart : config.LedsApart) (hpin : led.pin ∉ config.relayPins)

theorem lights_of_level (next : Device) (h : device.part.Lights device.board led)
    (hlight : next.part.light = device.part.light)
    (hlevel : next.board.level led.pin = device.board.level led.pin) :
    next.part.Lights next.board led := by
  unfold Controller.Lights
  rw [hlight, hlevel]
  exact h

section

include hbuilt hled hpin

theorem lights_call (h : device.part.Lights device.board led) (asked : DeviceCall) :
    (device.step asked.step).part.Lights (device.step asked.step).board led := by
  cases asked with
  | setRelay i on =>
    exact h.performAll (Controller.light_call (.setRelay i on))
      (Controller.setRelay_not_written hbuilt hpin i on)
  | toggleRelay i =>
    exact h.performAll (Controller.light_call (.toggleRelay i))
      (Controller.setRelay_not_written hbuilt hpin i _)
  | onStatus status => exact Controller.lights_onStatus hbuilt hled hpin status device.board
  | chooseStatusLed on => exact Controller.lights_chooseStatusLed hbuilt hled on device.board
  | changeSwitch i change =>
    apply h.performAll (Controller.light_call (.changeSwitch i change))
    intro high hmem
    rw [DeviceCall.step_changeSwitch] at hmem
    cases Controller.topic_changeSwitch _ hmem
  | bank asked =>
    apply h.performAll rfl
    intro high hmem
    exact hpin (hbuilt.relays.mem_relayPins_of_write (asked.move _) hmem)
  | observe i param => exact h.performAll rfl (by simp)
  | onEdge => exact h.onEdge

end

include hbuilt hled hapart hpin

theorem lights_fire (h : device.part.Lights device.board led) (task : Task) :
    (device.fire task).part.Lights (device.fire task).board led := by
  cases task with
  | relayPulse i =>
    exact lights_call hbuilt hled hpin h (.bank (.continuePulse i))
  | settle =>
    obtain ⟨commands, hreaction, hboard⟩ := device.exists_reaction_settle
    have hpassed : device.passed.part.Lights device.passed.board led := by
      apply lights_of_level device.passed h rfl
      apply PinWatcher.level_pass_of_not_mem
      intro hmem
      exact hapart.buttons led hled.mem_leds (hbuilt.watched led.pin hmem)
    have hsettled := hpassed.performAll (Controller.light_reaction hreaction)
      (Controller.reaction_not_written (builtFrom_passed hbuilt) hpin hreaction)
    rw [← hboard] at hsettled
    exact hsettled
  | buttonHold i =>
    have hreaction : device.part.Reacts (Controller.onHoldElapsed i) :=
      Controller.reacts_onHoldElapsed i
    exact h.performAll (Controller.light_reaction hreaction)
      (Controller.reaction_not_written hbuilt hpin hreaction)
  | reset =>
    apply h.performAll rfl
    intro high hmem
    rcases Controller.topic_fireReset _ hmem with htopic | htopic <;> cases htopic

theorem lights_happen (h : device.part.Lights device.board led) (event : DeviceEvent)
    (htouched : event.touched? ≠ some led.pin) :
    (device.happen event).part.Lights (device.happen event).board led := by
  cases event with
  | call asked => exact lights_call hbuilt hled hpin h asked
  | reconfigure bytes =>
    simp only [happen, reconfigure]
    cases ConfigText.ofBytes bytes with
    | error error => exact h
    | ok text =>
      apply h.performAll rfl
      intro high hmem
      rcases Controller.topic_acceptText _ hmem with htopic | htopic <;> cases htopic
  | fire task time =>
    have hparts : (device.begun task time).part.BuiltFrom config := hbuilt
    have hbegun : (device.begun task time).part.Lights (device.begun task time).board led := h
    exact lights_fire hparts hled hapart hpin hbegun task
  | input pin high =>
    have hchanged : device.part.Lights (device.board.setLevel pin high) led := by
      apply lights_of_level ⟨device.part, device.board.setLevel pin high⟩ h rfl
      apply PinMap.get_set_of_ne
      rintro rfl
      exact htouched rfl
    simp only [happen, input, Wired.input]
    split
    . exact hchanged.onEdge
    . exact hchanged
  | board event =>
    apply lights_of_level ⟨device.part, event.on device.board⟩ h rfl
    cases event with
    | setLevel pin high =>
      apply PinMap.get_set_of_ne
      rintro rfl
      exact htouched rfl
    | _ => rfl

theorem lights_after (h : device.part.Lights device.board led) (events : List DeviceEvent)
    (htouched : ∀ event ∈ events, event.touched? ≠ some led.pin) :
    (device.after events).part.BuiltFrom config
      ∧ (device.after events).part.Lights (device.after events).board led := by
  have hhappen (device : Device) (event : DeviceEvent) (huntouched : event.touched? ≠ some led.pin)
      (h : device.part.BuiltFrom config ∧ device.part.Lights device.board led) :
      (device.happen event).part.BuiltFrom config
        ∧ (device.happen event).part.Lights (device.happen event).board led :=
    ⟨builtFrom_happen h.1 event, lights_happen h.1 hled hapart hpin h.2 event huntouched⟩
  exact after_invariant hhappen events device htouched ⟨hbuilt, h⟩

end Dedicated

/-! ### After the start -/

theorem light_loadStatusLed (device : Device) :
    device.loadStatusLed.part.light
      =
    { device.part.light with
      manual := device.board.statusLedChoice?.getD device.part.light.manual } := by
  unfold loadStatusLed Board.statusLedChoice?
  dsimp only
  cases (device.board.loadRecord BasicRecord Key.basic).1 <;> rfl

theorem light_prepared (device : Device) :
    device.prepared.part.light
      =
    { device.part.light with
      manual := device.board.statusLedChoice?.getD device.part.light.manual } := by
  have hmemory := Board.memory_of_kept_eq (kept_of_snapshot device.snapshot_prepared)
  unfold prepared
  rw [light_loadStatusLed, Board.statusLedChoice?_congr fun room =>
    congrArg (fun memory : SettingsMemory => memory.read Key.basic room) hmemory]
  rfl

theorem light_recalled (device : Device) :
    device.recalled.part.light
      =
    { device.part.light with
      manual := device.board.statusLedChoice?.getD device.part.light.manual } := by
  have hannounced (next : Device) :
      (next.step Controller.announceTopology).part.light = next.part.light := rfl
  have hcontacts (next : Device) : next.setUpContacts.part.light = next.part.light := rfl
  unfold recalled
  rw [recallRelays_keeps_part (f := Controller.light) (fun _ _ => rfl), hannounced, readied_eq,
    watchButtons_keeps_part (f := Controller.light) (fun _ _ => rfl), hcontacts, light_prepared]

theorem network_recalled (device : Device) : device.recalled.board.network = device.board.network := by
  have hload (key room : Nat) (board : Board) : (board.load key room).2.network = board.network := rfl
  have hread (pin : Pin) (board : Board) : (board.read pin).2.network = board.network := by
    unfold Board.read
    split <;> rfl
  have hannounced (next : Device) :
      (next.step Controller.announceTopology).board.network = next.board.network := rfl
  unfold recalled
  rw [start_keeps_recallRelays (f := Board.network) hload fun command _ => Board.network_perform command,
    hannounced]
  exact start_keeps_readied (f := Board.network) (fun command _ => Board.network_perform command) hread
    hload device

theorem light_start (device : Device) (role : Role) :
    (device.start role).part.light
      =
    { device.part.light with
      status := device.board.network
      manual := device.board.statusLedChoice?.getD device.part.light.manual } := by
  have hlight := light_recalled device
  have hnetwork := network_recalled device
  rw [start_eq, compareRole_eq]
  generalize device.recalled = recalled at hlight hnetwork ⊢
  have hshown : ((Controller.onStatus recalled.board.network).state recalled.part).light
      = recalled.part.light.meet (.call (.onStatus recalled.board.network)) :=
    Controller.light_call (.onStatus recalled.board.network)
  refine hshown.trans ?_
  rw [hlight, hnetwork]
  rfl

theorem light_of_boot (h : boot board role = .ok device) :
    device.part.light.manual = board.statusLedChoice?.getD true
      ∧ device.part.light.status = board.network := by
  obtain ⟨blueprint, _, hdevice⟩ := exists_of_boot h
  have hloaded := (Board.memory_of_kept_eq (Board.kept_loadSwitches blueprint.config.switches
    board.updateVersion.2.loadConfigText.2)).trans
      (Board.memory_of_kept_eq board.updateVersion.2.kept_loadConfigText)
  have hnetwork := (Board.loadSwitches_keeps (f := Board.network) (fun _ _ _ => rfl)
    blueprint.config.switches _).trans
      (Board.lookUp_keeps (fun _ _ _ => rfl) (fun _ _ => Board.network_perform _) board)
  generalize (board.updateVersion.2.loadConfigText.2.loadSwitches blueprint.config.switches).2
    = loaded at hdevice hloaded hnetwork
  have hchoice : loaded.statusLedChoice? = board.statusLedChoice? := by
    apply Board.statusLedChoice?_congr
    intro room
    rw [hloaded]
    exact Board.memory_read_updateVersion (by decide) room board
  rw [hdevice, light_start]
  dsimp only
  rw [hnetwork, hchoice]
  exact ⟨rfl, rfl⟩

theorem lights_of_boot (h : boot board role = .ok device)
    (hled : device.part.config.Dedicates (some led)) (hpin : led.pin ∉ device.part.config.relayPins) :
    device.part.Lights device.board led := by
  obtain ⟨fresh, hfresh, _, _, hdevice⟩ := exists_assembled_of_boot h
  have hready := hfresh.recalled
  rw [start_eq, compareRole_eq] at hdevice
  generalize fresh.recalled = recalled at hready hdevice
  have hshown := Controller.lights_onStatus hready.2 hled hpin recalled.board.network recalled.board
  rw [← part_step, ← board_step] at hshown
  rw [hdevice]
  exact lights_of_level ⟨_, _⟩ hshown rfl (level_compareRole role _ _ _)

theorem dedicates_of_boot (h : boot board role = .ok device) :
    device.part.config.Dedicates
      (board.loadConfigText.1.peripherals.filterMap Peripheral.statusLed?).getLast? := by
  obtain ⟨blueprint, hcompile, hdevice⟩ := exists_of_boot h
  rw [board.loadConfigText_updateVersion] at hcompile
  have hconfig : device.part.config
      = startConfig blueprint board.updateVersion.2.loadConfigText.2 := by
    rw [hdevice]
    exact ((assembled_ofConfig _ _ _ _).start role).1
  rw [hconfig]
  exact ConfigText.dedicates_of_compile hcompile

/--
An LED that is only there for the network status, the last one if the configuration names several,
shows the last status that was applied, and goes dark while the device is joined if that was chosen
last. What was chosen before the start is found in the settings, unless nothing can be read there.
The relays never write to this LED, and nothing but a status and a choice changes it.
-/
theorem status_led_shows_status (hboot : boot board role = .ok device)
    (hapart : device.part.config.LedsApart)
    (hlast : (board.loadConfigText.1.peripherals.filterMap Peripheral.statusLed?).getLast? = some led)
    (events : List DeviceEvent) (htouched : ∀ event ∈ events, event.touched? ≠ some led.pin) :
    let later := device.after events
    let status := ((events.filterMap DeviceEvent.shown?).getLast?).getD board.network
    let manual := ((events.filterMap DeviceEvent.chosen?).getLast?).getD
      (board.statusLedChoice?.getD true)
    later.part.light = ⟨[led], true, manual, status⟩
      ∧ (later.board.level led.pin = led.levelFor true ↔ status ≠ .joined ∨ manual = true)
      ∧ (∀ (asked : BankCall) high, .write led.pin high ∉ asked.step.commands later.part.relays)
      ∧ ∀ event : DeviceEvent, event.shown? = none → event.chosen? = none →
        event.touched? ≠ some led.pin →
          (later.happen event).board.level led.pin = later.board.level led.pin := by
  intro later status manual
  have hbuilt := builtFrom_of_boot hboot
  obtain ⟨shown, hassigned⟩ := ledsAssigned_of_boot hboot
  have hled := dedicates_of_boot hboot
  rw [hlast] at hled
  have hpin := hled.pin_not_mem_relayPins hapart hassigned
  have hdark := hled.networkLedList_eq
  obtain ⟨hparts, hlights⟩ := lights_after hbuilt hled hapart hpin (lights_of_boot hboot hled hpin)
    events htouched
  obtain ⟨hmanual, hstatus⟩ := light_of_boot hboot
  have hlight : later.part.light = ⟨[led], true, manual, status⟩ := by
    have hafter := light_after device events
    dsimp only at hafter
    rw [hmanual, hstatus, hbuilt.leds, hbuilt.dedicated, hdark, hled.1] at hafter
    exact hafter
  refine ⟨hlight, ?_, ?_, ?_⟩
  . have hlit : later.part.light.isLit = true ↔ status ≠ .joined ∨ manual = true := by
      rw [StatusLight.isLit_of_dedicated (by rw [hlight]), hlight]
    exact (Led.eq_levelFor_true_iff hlights).trans hlit
  . intro asked high hmem
    exact hpin (hparts.relays.mem_relayPins_of_write (asked.move _) hmem)
  . intro event hshown hchosen huntouched
    have hnext := lights_happen hparts hled hapart hpin hlights event huntouched
    have hsame : (later.happen event).part.light = later.part.light := by
      rw [light_happen, StatusLight.meet, hshown, hchosen]
      rfl
    unfold Controller.Lights at hnext
    rw [hnext, hsame]
    exact hlights.symm

theorem status_led_shows_status_among_others :
    let store : Store := ⟨16, 256, [(Key.config, Bytes.ascii "Acme;ACME-1;RA0;LD1;IC0;LD0i;IC1;")]⟩
    let board := Board.idle [] .notJoined (.sound store)
    let led : Led := ⟨.line 3 0, false⟩
    let events := [.call (.onStatus .joined), .call (.chooseStatusLed false), .call (.setRelay 0 true)]
    ∃ device, boot board .router = .ok device ∧ device.part.config.LedsApart
      ∧ (board.loadConfigText.1.peripherals.filterMap Peripheral.statusLed?).getLast? = some led
      ∧ (∀ event ∈ events, event.touched? ≠ some led.pin)
      ∧ device.part.light = ⟨[led], true, true, .notJoined⟩
      ∧ device.board.level led.pin = led.levelFor true
      ∧ (device.after events).part.light = ⟨[led], true, false, .joined⟩
      ∧ (device.after events).board.level led.pin ≠ led.levelFor true := by
  intro store board led events
  have hfacts : (boot board .router).toOption.map (fun device =>
      decide device.part.config.LedsApart) = some true := by
    decide +kernel
  obtain ⟨device, hboot, hapart⟩ := exists_of_map_boot hfacts
  rw [decide_eq_true_eq] at hapart
  have hlast : (board.loadConfigText.1.peripherals.filterMap Peripheral.statusLed?).getLast?
      = some led := by
    decide +kernel
  have htouched : ∀ event ∈ events, event.touched? ≠ some led.pin := by
    decide
  have hchoice : board.statusLedChoice? = none := by
    decide +kernel
  obtain ⟨hstarted, hlit, _⟩ := status_led_shows_status hboot hapart hlast [] (by simp)
  obtain ⟨hlight, hlevel, _⟩ := status_led_shows_status hboot hapart hlast events htouched
  rw [hchoice] at hstarted
  exact ⟨device, hboot, hapart, hlast, htouched, hstarted, hlit.mpr (.inl (by decide)), hlight,
    fun h => (hlevel.mp h).elim (fun hstatus => hstatus rfl) Bool.false_ne_true⟩

end Device

end WallSwitch
