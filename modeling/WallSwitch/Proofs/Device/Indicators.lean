import WallSwitch.Proofs.Device.Starting
import WallSwitch.Proofs.PinWatcher.Settling
import WallSwitch.Proofs.RelayBank.Indicators

/-!
This module contains which LEDs show their relays while a device is joined. All of them do, unless
they are borrowed by the network status and the status LED was chosen again since the status was last
shown.
-/

namespace WallSwitch

namespace DeviceConfig

structure LedsApart (config : DeviceConfig) : Prop where
  nodup : (config.leds.map (·.pin)).Nodup
  relays : ∀ led ∈ config.leds, ∀ drive ∈ config.relays, led.pin ∉ drive.pins
  buttons : ∀ led ∈ config.leds, led.pin ∉ config.buttons.map (·.pin)

instance (config : DeviceConfig) : Decidable config.LedsApart :=
  decidable_of_iff
    ((config.leds.map (·.pin)).Nodup
      ∧ (∀ led ∈ config.leds, ∀ drive ∈ config.relays, led.pin ∉ drive.pins)
      ∧ ∀ led ∈ config.leds, led.pin ∉ config.buttons.map (·.pin))
    ⟨fun ⟨nodup, relays, buttons⟩ => ⟨nodup, relays, buttons⟩,
      fun ⟨nodup, relays, buttons⟩ => ⟨nodup, relays, buttons⟩⟩

theorem LedsApart.indicatorsApart {config : DeviceConfig} {shown : List Nat}
    (hapart : config.LedsApart) (hassigned : config.LedsAssigned shown) :
    config.IndicatorsApart where
  distinct := by
    intro i j led other hled hother hne
    exact hassigned.indicator_ne hapart.nodup hled hother hne
  drives := by
    intro i led hled
    exact hapart.relays led (mem_leds_of_relayIndicator? hled)

end DeviceConfig

theorem DeviceConfig.mem_leds_of_mem_networkLedList {config : DeviceConfig} {led : Led}
    (h : led ∈ config.networkLedList) : led ∈ config.leds := by
  simp only [networkLedList, List.mem_filterMap, Option.bind_eq_some_iff] at h
  obtain ⟨_, _, _, _, hget⟩ := h
  exact List.mem_of_getElem? hget

theorem DeviceConfig.LedsApart.eq_of_pin_eq {config : DeviceConfig} {led other : Led}
    (h : config.LedsApart) (hled : led ∈ config.leds) (hother : other ∈ config.leds)
    (hpin : led.pin = other.pin) : led = other :=
  List.inj_on_of_nodup_map h.nodup hled hother hpin

theorem StatusLight.write_mem_refresh {light : StatusLight} {pin : Pin} {high : Bool} :
    .write pin high ∈ refresh.commands light
      ↔
    ∃ led ∈ light.leds, pin = led.pin ∧ high = led.levelFor light.isLit := by
  simp [refresh, Led.drive]

namespace Controller

/--
While the device is joined every relay is shown, except that borrowed LEDs may have gone dark.
-/
def Shows (controller : Controller) (board : Board) (darkened : Prop) : Prop :=
  controller.light.status = .joined → ∀ i relay led, controller.relays.get? i = some relay →
    relay.indicator? = some led →
      board.level led.pin = led.levelFor relay.isOn
        ∨ (darkened ∧ controller.light.hasDedicatedLed = false ∧ led ∈ controller.light.leds
          ∧ board.level led.pin = led.levelFor false)

variable {controller next : Controller} {board board' : Board} {config : DeviceConfig}
variable {darkened darkened' : Prop} {commands : List Command} {shown : List Nat}

theorem write_not_mem_save {α : Type} [Record α] {key : Nat} {record : α} {pin : Pin} {high : Bool} :
    .write pin high ∉ Record.save key record := by
  simp [Record.save]

theorem write_not_mem_messages (h : ∀ command ∈ commands, command.isMessage = true) (pin : Pin)
    (high : Bool) : .write pin high ∉ commands := by
  intro hmem
  have hmessage := h _ hmem
  contradiction

theorem commands_chooseStatusLed (controller : Controller) (on : Bool) :
    (Controller.chooseStatusLed on).commands controller
      =
    StatusLight.refresh.commands { controller.light with manual := on }
      ++ Record.save Key.basic (⟨on⟩ : BasicRecord) := rfl

section Choosing

variable (hbuilt : controller.BuiltFrom config) (hapart : config.LedsApart)
include hbuilt hapart

theorem level_chooseStatusLed_of_not_mem {led : Led} (hled : led ∈ config.leds)
    (hfree : led ∉ controller.light.leds) (on : Bool) (board : Board) :
    (board.performAll ((Controller.chooseStatusLed on).commands controller)).level led.pin
      =
    board.level led.pin := by
  apply Board.level_performAll_of_not_written
  intro high hmem
  rw [commands_chooseStatusLed, List.mem_append, StatusLight.write_mem_refresh] at hmem
  rcases hmem with ⟨other, hother, hpin, _⟩ | hsave
  . rw [hbuilt.leds] at hother hfree
    have hsame := hapart.eq_of_pin_eq hled (DeviceConfig.mem_leds_of_mem_networkLedList hother) hpin
    exact hfree (hsame ▸ hother)
  . exact write_not_mem_save hsave

theorem level_chooseStatusLed_of_mem {led : Led} (hmem : led ∈ controller.light.leds)
    (hjoined : controller.light.status = .joined)
    (hborrowed : controller.light.hasDedicatedLed = false) (on : Bool) (board : Board) :
    (board.performAll ((Controller.chooseStatusLed on).commands controller)).level led.pin
      =
    led.levelFor false := by
  have hdark : StatusLight.isLit { controller.light with manual := on } = false := by
    simp [StatusLight.isLit, hjoined, hborrowed]
  have hleds (led : Led) (hled : led ∈ controller.light.leds) : led ∈ config.leds := by
    rw [hbuilt.leds] at hled
    exact DeviceConfig.mem_leds_of_mem_networkLedList hled
  rw [commands_chooseStatusLed]
  apply Board.level_performAll_of_writes
  . intro high hwrite
    rw [List.mem_append, StatusLight.write_mem_refresh] at hwrite
    rcases hwrite with ⟨other, hother, hpin, hhigh⟩ | hsave
    . rw [hhigh, hdark, hapart.eq_of_pin_eq (hleds led hmem) (hleds other hother) hpin]
    . exact absurd hsave write_not_mem_save
  . left
    rw [List.mem_append, StatusLight.write_mem_refresh]
    exact .inl ⟨led, hmem, rfl, by rw [hdark]⟩

end Choosing

namespace Shows

theorem mono (h : controller.Shows board darkened) (himp : darkened → darkened') :
    controller.Shows board darkened' := by
  intro hjoined i relay led hget hled
  exact (h hjoined i relay led hget hled).imp_right fun hdark => ⟨himp hdark.1, hdark.2⟩

theorem keep (h : controller.Shows board darkened) (hlight : next.light = controller.light)
    (hrelays : ∀ i relay, next.relays.get? i = some relay →
      ∃ old, controller.relays.get? i = some old ∧ old.isOn = relay.isOn
        ∧ old.indicator? = relay.indicator?)
    (hlevel : ∀ i relay led, controller.relays.get? i = some relay → relay.indicator? = some led →
      board'.level led.pin = board.level led.pin) : next.Shows board' darkened := by
  intro hjoined i relay led hget hled
  obtain ⟨old, hold, hon, hindicator⟩ := hrelays i relay hget
  rw [← hindicator] at hled
  rw [hlight] at hjoined ⊢
  rw [← hon, hlevel i old led hold hled]
  exact h hjoined i old led hold hled

theorem keep_levels (h : controller.Shows board darkened) (hlight : next.light = controller.light)
    (hrelays : next.relays = controller.relays)
    (hlevel : ∀ pin, board'.level pin = board.level pin) : next.Shows board' darkened := by
  apply h.keep hlight
  . intro i relay hget
    rw [hrelays] at hget
    exact ⟨relay, hget, rfl, rfl⟩
  . intro i relay led _ _
    exact hlevel led.pin

theorem performAll (h : controller.Shows board darkened) (hlight : next.light = controller.light)
    (hrelays : next.relays = controller.relays)
    (hcommands : ∀ pin high, .write pin high ∉ commands) :
    next.Shows (board.performAll commands) darkened := by
  apply h.keep_levels hlight hrelays
  intro pin
  exact board.level_performAll_of_not_written (hcommands pin)

theorem changeSwitch (h : controller.Shows board darkened) (i : Nat) (change : Switch → Switch) :
    ((changeSwitch i change).step.state controller).Shows
      (board.performAll ((Controller.changeSwitch i change).step.commands controller)) darkened := by
  simp only [Controller.changeSwitch, Request.step, Step.state, Step.commands]
  split
  . exact h
  . exact h.performAll rfl rfl fun _ _ => write_not_mem_save

theorem observe (h : controller.Shows board darkened) (i param : Nat) :
    ((DeviceCall.observe i param).step.state controller).Shows
      (board.performAll ((DeviceCall.observe i param).step.commands controller)) darkened := by
  rw [DeviceCall.commands_observe]
  apply h.keep
  . rfl
  . intro j relay hget
    obtain ⟨old, hold, _, hon, hindicator⟩ := RelayBank.get?_observe hget
    exact ⟨old, hold, hon, hindicator⟩
  . intro _ _ _ _ _
    rfl

theorem onEdge (h : controller.Shows board darkened) :
    ((onWatcher PinWatcher.onEdge).state controller).Shows
      (board.performAll ((onWatcher PinWatcher.onEdge).commands controller)) darkened := by
  apply h.performAll rfl rfl
  intro pin high hmem
  rw [onWatcher, Step.commands_within] at hmem
  simp [PinWatcher.onEdge, Step.commands] at hmem

section Wired

variable (hbuilt : controller.BuiltFrom config) (hnumbered : config.Numbered)
variable (hapart : config.LedsApart) (hassigned : config.LedsAssigned shown)
include hbuilt hnumbered hapart hassigned

theorem move {bank : RelayBank} {target : Option Nat} (h : controller.Shows board darkened)
    (hmove : controller.relays.Move target bank commands) :
    { controller with relays := bank }.Shows (board.performAll commands) darkened := by
  intro hjoined i relay led hget hled
  rcases hmove.level_indicator hbuilt.relays hnumbered (hapart.indicatorsApart hassigned) hget hled
    board with hshown | ⟨old, hold, hindicator, hon, hlevel⟩
  . exact .inl hshown
  . rw [hlevel, ← hon]
    exact h hjoined i old led hold hindicator

theorem setRelay (h : controller.Shows board darkened) (i : Nat) (on : Bool) :
    ((setRelay i on).state controller).Shows
      (board.performAll ((Controller.setRelay i on).commands controller)) darkened := by
  unfold Controller.setRelay
  rw [Step.state_choose, Step.commands_choose]
  split
  . rw [Step.commands_andThen, Board.performAll_append]
    have hmoved := h.move hbuilt hnumbered hapart hassigned (controller.relays.move_set i on)
    exact hmoved.performAll rfl rfl fun _ _ => write_not_mem_save
  . exact h

theorem onStatus (status : NetworkStatus) (board : Board) :
    ((onStatus status).state controller).Shows
      (board.performAll ((Controller.onStatus status).commands controller)) False := by
  unfold Controller.onStatus
  rw [Step.state_andThen, Step.commands_andThen, Board.performAll_append]
  split
  . intro _ i relay led hget hled
    left
    exact RelayBank.level_indicateAll hbuilt.relays hnumbered (hapart.indicatorsApart hassigned) hget
      hled _
  . next hstatus =>
    intro hjoined
    exact absurd hjoined hstatus

theorem chooseStatusLed (h : controller.Shows board darkened) (on : Bool) :
    ((chooseStatusLed on).state controller).Shows
      (board.performAll ((Controller.chooseStatusLed on).commands controller)) True := by
  intro hjoined i relay led hget hled
  replace hjoined : controller.light.status = .joined := hjoined
  replace hget : controller.relays.get? i = some relay := hget
  have hindicator := hbuilt.relays.indicator_eq hnumbered hget
  rw [hled] at hindicator
  have hmem : led ∈ config.leds := DeviceConfig.mem_leds_of_relayIndicator? hindicator.symm
  by_cases hnetwork : led ∈ controller.light.leds
  . right
    -- A dedicated LED is not the LED of any relay.
    have hborrowed : controller.light.hasDedicatedLed = false := by
      rw [hbuilt.dedicated, Bool.eq_false_iff]
      intro hdedicated
      rw [hbuilt.leds] at hnetwork
      exact hassigned.network_ne hapart.nodup hdedicated hindicator.symm hnetwork rfl
    exact ⟨trivial, hborrowed, hnetwork,
      level_chooseStatusLed_of_mem hbuilt hapart hnetwork hjoined hborrowed on board⟩
  . rw [level_chooseStatusLed_of_not_mem hbuilt hapart hmem hnetwork]
    exact (h hjoined i relay led hget hled).imp_right fun hdark => absurd hdark.2.2.1 hnetwork

theorem reaction (h : controller.Shows board darkened)
    (hreaction : Reaction controller next commands) :
    next.Shows (board.performAll commands) darkened := by
  induction hreaction generalizing board with
  | rest => exact h
  | setRelay controller i on => exact h.setRelay hbuilt hnumbered hapart hassigned i on
  | tell controller hmessages => exact h.performAll rfl rfl (write_not_mem_messages hmessages)
  | note => exact h.keep_levels rfl rfl fun _ => rfl
  | askReset controller resets hmessages =>
    exact h.performAll rfl rfl (write_not_mem_messages hmessages)
  | trans hfirst hnext ih ihnext =>
    rw [Board.performAll_append]
    exact ihnext (hbuilt.reaction hfirst) (ih hbuilt h)

end Wired

end Shows

end Controller

namespace DeviceEvent

def touched? : DeviceEvent → Option Pin
  | .input pin _ | .board (.setLevel pin _) => some pin
  | _ => none

/--
The status LED was chosen after the status was last shown.
-/
def ChosenSince (events : List DeviceEvent) : Prop :=
  ∃ before on later, events = before ++ .call (.chooseStatusLed on) :: later
    ∧ ∀ status, .call (.onStatus status) ∉ later

theorem chosenSince_append_chooseStatusLed (events : List DeviceEvent) (on : Bool) :
    ChosenSince (events ++ [.call (.chooseStatusLed on)]) :=
  ⟨events, on, [], rfl, by simp⟩

theorem ChosenSince.append {events : List DeviceEvent} {event : DeviceEvent}
    (h : ChosenSince events) (hevent : ∀ status, event ≠ .call (.onStatus status)) :
    ChosenSince (events ++ [event]) := by
  obtain ⟨before, on, later, rfl, hlater⟩ := h
  refine ⟨before, on, later ++ [event], by simp, ?_⟩
  intro status hmem
  rw [List.mem_append, List.mem_singleton] at hmem
  cases hmem with
  | inl hold => exact hlater status hold
  | inr hnew => exact hevent status hnew.symm

end DeviceEvent

namespace Device

open DeviceEvent

variable {config : DeviceConfig} {device : Device} {darkened : Prop} {shown : List Nat}
variable {board : Board} {role : Role}

theorem shows_of_levels (next : Device) (hbuilt : device.part.BuiltFrom config)
    (hnumbered : config.Numbered) (h : device.part.Shows device.board darkened)
    (hlight : next.part.light = device.part.light) (hrelays : next.part.relays = device.part.relays)
    (hlevel : ∀ led ∈ config.leds, next.board.level led.pin = device.board.level led.pin) :
    next.part.Shows next.board darkened := by
  apply h.keep hlight
  . intro i relay hget
    rw [hrelays] at hget
    exact ⟨relay, hget, rfl, rfl⟩
  . intro i relay led hget hled
    rw [hbuilt.relays.indicator_eq hnumbered hget] at hled
    exact hlevel led (DeviceConfig.mem_leds_of_relayIndicator? hled)

theorem shows_append {controller : Controller} {board : Board} {events : List DeviceEvent}
    {event : DeviceEvent} (h : controller.Shows board (ChosenSince events))
    (hevent : ∀ status, event ≠ .call (.onStatus status)) :
    controller.Shows board (ChosenSince (events ++ [event])) :=
  h.mono fun hchosen => hchosen.append hevent

theorem shows_resets (h : device.part.Shows device.board darkened) :
    (device.fire .reset).part.Shows (device.fire .reset).board darkened := by
  apply h.performAll rfl rfl
  intro pin high hmem
  rw [Controller.onResets, Step.commands_within] at hmem
  obtain ⟨kind, _, hcommand⟩ := List.mem_flatMap.mp hmem
  cases kind <;> simp [ResetKind.commands] at hcommand

section Wired

variable (hbuilt : device.part.BuiltFrom config) (hnumbered : config.Numbered)
variable (hapart : config.LedsApart) (hassigned : config.LedsAssigned shown)
include hbuilt hnumbered hapart hassigned

theorem shows_settle (h : device.part.Shows device.board darkened) :
    device.settle.part.Shows device.settle.board darkened := by
  obtain ⟨commands, hreaction, hboard⟩ := device.exists_reaction_settle
  have hpassed : device.passed.part.Shows device.passed.board darkened := by
    apply shows_of_levels device.passed hbuilt hnumbered h rfl rfl
    intro led hled
    apply PinWatcher.level_pass_of_not_mem
    intro hmem
    exact hapart.buttons led hled (hbuilt.watched led.pin hmem)
  rw [hboard]
  exact hpassed.reaction (builtFrom_passed hbuilt) hnumbered hapart hassigned hreaction

theorem shows_fire (h : device.part.Shows device.board darkened) (task : Task) :
    (device.fire task).part.Shows (device.fire task).board darkened := by
  cases task with
  | relayPulse i =>
    exact h.move hbuilt hnumbered hapart hassigned (device.part.relays.move_continuePulse i)
  | settle => exact shows_settle hbuilt hnumbered hapart hassigned h
  | buttonHold i =>
    exact h.reaction hbuilt hnumbered hapart hassigned (Controller.reacts_onHoldElapsed i)
  | reset => exact shows_resets h

theorem shows_call {events : List DeviceEvent}
    (h : device.part.Shows device.board (ChosenSince events)) (asked : DeviceCall) :
    (device.step asked.step).part.Shows (device.step asked.step).board
      (ChosenSince (events ++ [.call asked])) := by
  cases asked with
  | setRelay i on =>
    exact shows_append (h.setRelay hbuilt hnumbered hapart hassigned i on) (by simp)
  | toggleRelay i =>
    exact shows_append (h.setRelay hbuilt hnumbered hapart hassigned i _) (by simp)
  | onStatus status =>
    exact (Controller.Shows.onStatus hbuilt hnumbered hapart hassigned status _).mono False.elim
  | chooseStatusLed on =>
    exact (h.chooseStatusLed hbuilt hnumbered hapart hassigned on).mono fun _ =>
      chosenSince_append_chooseStatusLed events on
  | changeSwitch i change =>
    rw [DeviceCall.step_changeSwitch]
    exact shows_append (h.changeSwitch i _) (by simp)
  | bank asked =>
    exact shows_append (h.move hbuilt hnumbered hapart hassigned (asked.move _)) (by simp)
  | observe i param =>
    exact shows_append (h.observe i param) (by simp)
  | onEdge => exact shows_append h.onEdge (by simp)

theorem shows_happen {events : List DeviceEvent}
    (h : device.part.Shows device.board (ChosenSince events)) (event : DeviceEvent)
    (htouched : ∀ led ∈ config.leds, event.touched? ≠ some led.pin) :
    (device.happen event).part.Shows (device.happen event).board
      (ChosenSince (events ++ [event])) := by
  cases event with
  | call asked => exact shows_call hbuilt hnumbered hapart hassigned h asked
  | reconfigure bytes =>
    refine shows_append ?_ (by simp)
    simp only [happen, reconfigure]
    cases ConfigText.ofBytes bytes with
    | error error => exact h
    | ok text =>
      apply h.performAll rfl rfl
      intro pin high hmem
      simp [Controller.acceptText, Controller.onResets, ResetTimer.schedule, Step.commands,
        Step.andThen, Step.emit, Step.update, Step.within] at hmem
  | fire task time =>
    refine shows_append ?_ (by simp)
    have hparts : (device.begun task time).part.BuiltFrom config := hbuilt
    have hbegun := shows_of_levels (device.begun task time) hbuilt hnumbered h rfl rfl fun _ _ => rfl
    exact shows_fire hparts hnumbered hapart hassigned hbegun task
  | input pin high =>
    refine shows_append ?_ (by simp)
    have hchanged : device.part.Shows (device.board.setLevel pin high) (ChosenSince events) := by
      apply shows_of_levels ⟨device.part, device.board.setLevel pin high⟩ hbuilt hnumbered h rfl rfl
      intro led hled
      apply PinMap.get_set_of_ne
      rintro rfl
      exact htouched led hled rfl
    simp only [happen, input, Wired.input]
    split
    . exact hchanged.onEdge
    . exact hchanged
  | board event =>
    refine shows_append ?_ (by simp)
    apply shows_of_levels ⟨device.part, event.on device.board⟩ hbuilt hnumbered h rfl rfl
    intro led hled
    cases event with
    | setLevel pin high =>
      apply PinMap.get_set_of_ne
      rintro rfl
      exact htouched led hled rfl
    | _ => rfl

theorem shows_after (h : device.part.Shows device.board False) (events : List DeviceEvent)
    (htouched : ∀ event ∈ events, ∀ led ∈ config.leds, event.touched? ≠ some led.pin) :
    (device.after events).part.BuiltFrom config
      ∧ (device.after events).part.Shows (device.after events).board (ChosenSince events) := by
  -- From the end, because the last events decide whether the status LED was chosen since.
  induction events using List.reverseRecOn with
  | nil => exact ⟨hbuilt, h.mono False.elim⟩
  | append_singleton events event ih =>
    rw [List.forall_mem_append] at htouched
    obtain ⟨hparts, hshows⟩ := ih htouched.1
    rw [after_append]
    refine ⟨builtFrom_happen hparts event, ?_⟩
    exact shows_happen hparts hnumbered hapart hassigned hshows event
      (htouched.2 event (List.mem_singleton_self event))

end Wired

theorem level_compareRole (role : Role) (timer : ResetTimer) (board : Board) (pin : Pin) :
    (board.compareRole role timer).2.2.level pin = board.level pin := by
  apply Board.compareRole_keeps (f := fun board => board.level pin)
  . intro key room board
    rfl
  . intro command htopic board
    apply Board.level_perform_of_ne
    rintro high rfl
    simp [Command.topic] at htopic
  . intro board
    rfl

theorem shows_compareRole (h : device.part.Shows device.board darkened) (role : Role) :
    (device.compareRole role).part.Shows (device.compareRole role).board darkened := by
  rw [compareRole_eq]
  exact h.keep_levels rfl rfl fun pin => level_compareRole role _ _ pin

theorem shows_of_boot (h : boot board role = .ok device) (hapart : device.part.config.LedsApart) :
    device.part.Shows device.board False := by
  obtain ⟨fresh, hfresh, _, _, hdevice⟩ := exists_assembled_of_boot h
  obtain ⟨shown, hassigned⟩ := ledsAssigned_of_boot h
  have hready := hfresh.recalled
  have hshown := Controller.Shows.onStatus hready.2 (numbered_of_boot h) hapart hassigned
    fresh.recalled.board.network fresh.recalled.board
  rw [← part_step, ← board_step] at hshown
  rw [hdevice, start_eq]
  exact shows_compareRole hshown role

/--
While a device is joined every LED shows its relay, with one exception: choosing the status LED of a
device that has none for that alone darkens the LEDs that the network status borrows, and they stay
dark until their relays are set or the status is shown again.
-/
theorem relays_shown_while_joined (hboot : boot board role = .ok device)
    (hapart : device.part.config.LedsApart) (events : List DeviceEvent)
    (htouched : ∀ event ∈ events, ∀ led ∈ device.part.config.leds, event.touched? ≠ some led.pin) :
    let later := device.after events
    later.part.relays.BuiltFrom device.part.config
      ∧ (later.part.light.status = .joined → ∀ i relay led, later.part.relays.get? i = some relay →
        relay.indicator? = some led →
          later.board.level led.pin = (relay.isOn == led.activeHigh)
            ∨ (ChosenSince events ∧ later.part.light.hasDedicatedLed = false
              ∧ led ∈ later.part.light.leds ∧ later.board.level led.pin = (false == led.activeHigh)))
      ∧ (later.part.light.status = .joined → later.part.light.hasDedicatedLed = false →
        ∀ on, ∀ led ∈ later.part.light.leds,
          (later.step (Controller.chooseStatusLed on)).board.level led.pin
            = (false == led.activeHigh)) := by
  intro later
  obtain ⟨shown, hassigned⟩ := ledsAssigned_of_boot hboot
  have hbuilt := builtFrom_of_boot hboot
  obtain ⟨hparts, hshows⟩ := shows_after hbuilt (numbered_of_boot hboot) hapart hassigned
    (shows_of_boot hboot hapart) events htouched
  refine ⟨hparts.relays, hshows, ?_⟩
  intro hjoined hborrowed on led hled
  exact Controller.level_chooseStatusLed_of_mem hparts hapart hled hjoined hborrowed on later.board

theorem relays_shown_beside_dedicated_led :
    let store : Store := ⟨16, 256, [(Key.config, Bytes.ascii "Acme;ACME-1;RA0;IC0;LD0;")]⟩
    let board := Board.idle [] .joined (.sound store)
    let events := [.call (.setRelay 0 true), .call (.chooseStatusLed false)]
    ∃ device, boot board .router = .ok device ∧ device.part.config.LedsApart
      ∧ (device.after events).part.light.status = .joined
      ∧ (device.after events).part.relays.isOn 0 = true
      ∧ (device.after events).board.level (.line 2 0) = true := by
  intro store board events
  have hfacts : (boot board .router).toOption.map (fun device =>
      (decide device.part.config.LedsApart, (device.after events).part.light,
        (device.after events).part.relays.get? 0))
        =
      some (true, ⟨[⟨.line 3 0, true⟩], true, false, .joined⟩,
        some ⟨⟨0, .line 0 0, none, true⟩, true, .idle, some ⟨.line 2 0, true⟩, none⟩) := by
    decide +kernel
  obtain ⟨device, hboot, hdevice⟩ := exists_of_map_boot hfacts
  simp only [Prod.mk.injEq, decide_eq_true_eq] at hdevice
  obtain ⟨hapart, hlight, hget⟩ := hdevice
  have hjoined : (device.after events).part.light.status = .joined := by rw [hlight]
  obtain ⟨_, hshown, _⟩ := relays_shown_while_joined hboot hapart events
    (by simp [events, DeviceEvent.touched?])
  refine ⟨device, hboot, hapart, hjoined, by rw [RelayBank.isOn, hget]; rfl, ?_⟩
  rcases hshown hjoined 0 _ _ hget rfl with hlevel | ⟨_, hborrowed, _⟩
  . exact hlevel
  . rw [hlight] at hborrowed
    cases hborrowed

/--
The relay is on and the device is joined, but the LED of the relay is dark.
-/
theorem borrowed_led_dark_while_joined :
    let store : Store := ⟨16, 256, [(Key.config, Bytes.ascii "Acme;ACME-1;RA0;IC0;")]⟩
    let board := Board.idle [] .joined (.sound store)
    let events := [.call (.setRelay 0 true), .call (.chooseStatusLed true)]
    ¬∀ device, boot board .router = .ok device → device.part.config.LedsApart →
      (device.after events).part.light.status = .joined →
        ∀ i relay led, (device.after events).part.relays.get? i = some relay →
          relay.indicator? = some led →
            (device.after events).board.level led.pin = (relay.isOn == led.activeHigh) := by
  intro store board events h
  have hfacts : (boot board .router).toOption.map (fun device =>
      (decide device.part.config.LedsApart, (device.after events).part.light.status,
        (device.after events).part.relays.get? 0, (device.after events).board.level (.line 2 0)))
        =
      some (true, .joined,
        some ⟨⟨0, .line 0 0, none, true⟩, true, .idle, some ⟨.line 2 0, true⟩, none⟩, false) := by
    decide +kernel
  obtain ⟨device, hboot, hdevice⟩ := exists_of_map_boot hfacts
  simp only [Prod.mk.injEq, decide_eq_true_eq] at hdevice
  obtain ⟨hapart, hjoined, hget, hdark⟩ := hdevice
  have hlit := h device hboot hapart hjoined 0 _ ⟨.line 2 0, true⟩ hget rfl
  rw [hdark] at hlit
  cases hlit

end Device

end WallSwitch
