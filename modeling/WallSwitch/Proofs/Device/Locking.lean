import WallSwitch.Proofs.Device.Happenings
import WallSwitch.Proofs.Device.Watching
import WallSwitch.Proofs.RelayBank.States

/-!
This module contains the proof that a toggle switch and its relay stay locked to each other. Every flip
is dealt with once and changes the relay once, and nothing else does, as long as nobody else commands
the relay.
-/

namespace WallSwitch

/-! ### Who commands a relay -/

def DeviceCall.relay? : DeviceCall → Option Nat
  | .setRelay i _ | .toggleRelay i => some i
  | .bank asked => asked.target?
  | _ => none

def Happening.relay? : Happening → Option Nat
  | .event (.call asked) => asked.relay?
  | _ => none

namespace Controller

structure Binds (controller : Controller) (i : Nat) (switch : Switch) (r : Nat) : Prop where
  switch : controller.switch? i = some switch
  alone : ∀ other ∈ controller.config.switches.eraseIdx i, other.relay? ≠ some r

instance (controller : Controller) (i : Nat) (switch : Switch) (r : Nat) :
    Decidable (controller.Binds i switch r) :=
  decidable_of_iff (controller.switch? i = some switch
      ∧ ∀ other ∈ controller.config.switches.eraseIdx i, other.relay? ≠ some r)
    ⟨fun h => ⟨h.1, h.2⟩, fun h => ⟨h.switch, h.alone⟩⟩

theorem Binds.congr {controller next : Controller} {i r : Nat} {switch : Switch}
    (h : controller.Binds i switch r) (hconfig : next.config = controller.config) :
    next.Binds i switch r := by
  constructor
  . unfold switch?
    rw [hconfig]
    exact h.switch
  . rw [hconfig]
    exact h.alone

/-! ### What leaves a relay as it is -/

def Leaves (r : Nat) (controller : Controller) (step : Step Controller) : Prop :=
  (step.state controller).relays.states[r]? = controller.relays.states[r]?

variable {controller : Controller} {switch : Switch} {first second : Step Controller} {i r : Nat}

namespace Leaves

theorem of_state {step : Step Controller} (h : step.state controller = controller) :
    Leaves r controller step := by
  unfold Leaves
  rw [h]

theorem skip : Leaves r controller .skip := rfl

theorem emit (f : Controller → List Command) : Leaves r controller (.emit f) := rfl

theorem setLongPressed (long : Bool) : Leaves r controller (setLongPressed i long) := rfl

theorem andThen (hfirst : Leaves r controller first)
    (hsecond : Leaves r (first.state controller) second) :
    Leaves r controller (first.andThen second) :=
  hsecond.trans hfirst

theorem choose {f : Controller → Step Controller} (h : Leaves r controller (f controller)) :
    Leaves r controller (.choose f) := h

theorem ite {c : Prop} [Decidable c] (hfirst : Leaves r controller first)
    (hsecond : Leaves r controller second) :
    Leaves r controller (if c then first else second) := by
  split
  . exact hfirst
  . exact hsecond

theorem setRelay (h : i ≠ r) (on : Bool) : Leaves r controller (setRelay i on) := by
  unfold Controller.setRelay
  apply choose
  split
  . apply Leaves.andThen
    . exact (controller.relays.move_set i on).states_of_ne fun htarget => h (Option.some.inj htarget)
    . exact emit _
  . exact skip

theorem actOnRelay (h : switch.relay? ≠ some r) (closed? : Option Bool) :
    Leaves r controller (actOnRelay switch closed?) := by
  unfold Controller.actOnRelay
  split
  . exact skip
  . next relay hrelay =>
    have hother : relay ≠ r := by
      rintro rfl
      exact h hrelay
    split
    . exact setRelay hother _
    . exact setRelay hother _
    . exact choose (setRelay hother _)

theorem onFlip (h : switch.relay? ≠ some r) (closed : Bool) :
    Leaves r controller (onFlip i switch closed) :=
  (emit _).andThen ((ite skip (actOnRelay h _)).andThen (emit _))

theorem onStage (h : switch.relay? ≠ some r) (stage : PressStage) :
    Leaves r controller (onStage switch stage) :=
  (ite (actOnRelay h none) skip).andThen (ite (emit _) skip)

theorem onDown (h : switch.relay? ≠ some r) : Leaves r controller (onDown i switch) :=
  (setLongPressed false).andThen ((emit _).andThen (onStage h _))

theorem onUp (h : switch.relay? ≠ some r) : Leaves r controller (onUp i switch) :=
  (emit _).andThen (choose (ite skip (onStage h _)))

theorem onLongPress (h : switch.relay? ≠ some r) : Leaves r controller (onLongPress i switch) :=
  (setLongPressed true).andThen ((emit _).andThen (onStage h _))

theorem onSwitchMoved (h : ∀ switch, controller.switch? i = some switch → switch.relay? ≠ some r)
    (closed : Bool) : Leaves r controller (onSwitchMoved i closed) := by
  unfold Controller.onSwitchMoved
  apply choose
  split
  . exact skip
  . next switch hswitch =>
    have hother := h switch hswitch
    split
    . exact onFlip hother closed
    . exact ite (onDown hother) (onUp hother)
    . exact ite (onDown hother) (onUp hother)

theorem onSwitchHeld (h : ∀ switch, controller.switch? i = some switch → switch.relay? ≠ some r) :
    Leaves r controller (onSwitchHeld i) := by
  unfold Controller.onSwitchHeld
  apply choose
  split
  . exact skip
  . next switch hswitch => exact ite (onLongPress (h switch hswitch)) skip

theorem onContact {event : ContactEvent}
    (h : ∀ j switch, controller.contacts.action? event.index = some (.switch j) →
      controller.switch? j = some switch → switch.relay? ≠ some r) :
    Leaves r controller (onContact event) := by
  unfold Controller.onContact
  apply choose
  split
  . exact skip
  . exact emit _
  . next j haction => exact onSwitchMoved (fun switch => h j switch haction) _

theorem onHoldElapsed {button : Nat}
    (h : ∀ j switch, controller.contacts.action? button = some (.switch j) →
      controller.switch? j = some switch → switch.relay? ≠ some r) :
    Leaves r controller (onHoldElapsed button) := by
  unfold Controller.onHoldElapsed
  apply choose
  split
  . exact skip
  . exact ite rfl skip
  . next j haction => exact onSwitchHeld fun switch => h j switch haction

theorem prompt {prompt : Prompt}
    (h : ∀ j switch, controller.contacts.action? prompt.button = some (.switch j) →
      controller.switch? j = some switch → switch.relay? ≠ some r) :
    Leaves r controller prompt.step := by
  cases prompt with
  | moved event => exact onContact h
  | held button => exact onHoldElapsed h

theorem call {asked : DeviceCall} (h : asked.relay? ≠ some r) : Leaves r controller asked.step := by
  cases asked with
  | setRelay i on =>
    apply setRelay
    rintro rfl
    exact h rfl
  | toggleRelay i =>
    apply choose
    apply setRelay
    rintro rfl
    exact h rfl
  | onStatus status =>
    apply Leaves.andThen
    . rfl
    . split <;> rfl
  | changeSwitch i change =>
    obtain ⟨config, hstate⟩ := controller.exists_state_changeSwitch i fun switch => change.apply switch
    unfold Leaves
    rw [DeviceCall.step_changeSwitch, hstate]
  | bank asked => exact (asked.move controller.relays).states_of_ne h
  | observe i param =>
    exact congrArg (·[r]?) (controller.relays.map_observe i param fun _ => rfl)
  | _ => rfl

end Leaves

end Controller

/-! ### Flips -/

namespace SwitchAction

def outcome (action : SwitchAction) (closed on : Bool) : Bool :=
  match action with
  | .onOff => closed
  | .offOn => !closed
  | .toggleSimple | .toggleSmartSync | .toggleSmartOpposite => !on

/--
What a relay is after its toggle switch was flipped to one position after the other. Before that the
contact was closed or not, and the relay on or not.
-/
def Tracks (action : SwitchAction) (closed on : Bool) (positions : List Bool) (now : Bool) : Prop :=
  match action with
  | .onOff => positions ≠ [] → now = positions.getLastD closed
  | .offOn => positions ≠ [] → now = !positions.getLastD closed
  | .toggleSimple | .toggleSmartSync | .toggleSmartOpposite =>
    (now != positions.getLastD closed) = (on != closed)

variable {action : SwitchAction} {closed on now : Bool} {positions : List Bool}

theorem tracks_nil : action.Tracks closed on [] on := by
  cases action <;> simp [Tracks]

theorem Tracks.flip (h : action.Tracks closed on positions now) :
    action.Tracks closed on (positions ++ [!positions.getLastD closed])
      (action.outcome (!positions.getLastD closed) now) := by
  cases action with
  | onOff | offOn => simp [Tracks, outcome]
  | toggleSimple | toggleSmartSync | toggleSmartOpposite =>
    unfold Tracks outcome at *
    simpa using h

end SwitchAction

namespace Controller

variable {controller : Controller} {switch : Switch} {i r : Nat} {closed on : Bool}

theorem states_setRelay (h : controller.relays.states[r]? = some on) (next : Bool) :
    ((setRelay r next).state controller).relays.states[r]? = some next := by
  obtain ⟨hlt, _⟩ := List.getElem?_eq_some_iff.mp h
  rw [RelayBank.length_states] at hlt
  unfold setRelay
  rw [Step.state_choose, if_pos hlt]
  change ((RelayBank.set r next).state controller.relays).states[r]? = _
  rw [RelayBank.states_set, List.getElem?_set_self (by simpa using hlt)]

theorem states_onFlip (hattached : switch.relayMode ≠ .detached) (hrelay : switch.relay? = some r)
    (h : controller.relays.states[r]? = some on) :
    ((onFlip i switch closed).state controller).relays.states[r]?
      = some (switch.action.outcome closed on) := by
  have hon : controller.relays.isOn r = on := by
    rw [RelayBank.isOn_eq_states, h]
    rfl
  have hflip : (onFlip i switch closed).state controller
      = (actOnRelay switch (some closed)).state controller := by
    unfold onFlip
    rw [if_neg hattached]
    rfl
  rw [hflip]
  unfold actOnRelay
  rw [hrelay]
  cases switch.action with
  | onOff | offOn => exact states_setRelay h _
  | toggleSimple | toggleSmartSync | toggleSmartOpposite =>
    dsimp only
    unfold toggleRelay
    rw [Step.state_choose, hon]
    exact states_setRelay h _

theorem onSwitchMoved_toggle (hswitch : controller.switch? i = some switch)
    (hmode : switch.mode = .toggle) (closed : Bool) :
    onSwitchMoved i closed controller = onFlip i switch closed controller := by
  simp [onSwitchMoved, Step.choose, hswitch, hmode]

theorem onSwitchHeld_toggle (hswitch : controller.switch? i = some switch)
    (hmode : switch.mode = .toggle) : onSwitchHeld i controller = (controller, []) := by
  simp [onSwitchHeld, Step.choose, hswitch, hmode, SwitchMode.isMomentary, Step.skip]

theorem step_moved_toggle {event : ContactEvent}
    (haction : controller.contacts.action? event.index = some (.switch i))
    (hswitch : controller.switch? i = some switch) (hmode : switch.mode = .toggle) :
    (Prompt.moved event).step controller = onFlip i switch event.closed controller :=
  (Prompt.moved_of_switch haction).trans (onSwitchMoved_toggle hswitch hmode event.closed)

end Controller

namespace Device

open Controller

variable {device start : Device} {i r : Nat} {switch : Switch} {happening : Happening}
variable {prompt : Prompt} {prompts : List Prompt} {turns : List Turn}

theorem states_absorb (device : Device) (h : happening.relay? ≠ some r) :
    (device.absorb happening).part.relays.states[r]? = device.part.relays.states[r]? := by
  have htask (device : Device) (task : Task) :
      (device.absorb (.task task)).part.relays.states[r]? = device.part.relays.states[r]? := by
    cases task with
    | relayPulse j => exact (device.part.relays.move_continuePulse j).states_of_ne nofun
    | _ => rfl
  cases happening with
  | event event =>
    change (device.receive event).part.relays.states[r]? = _
    cases event with
    | call asked => exact Leaves.call h
    | reconfigure bytes =>
      simp only [receive, happen, reconfigure]
      cases ConfigText.ofBytes bytes <;> rfl
    | fire task time =>
      rw [receive_fire]
      exact htask (device.begun task time) task
    | input pin high =>
      simp only [receive, happen, input, Wired.input]
      split <;> rfl
    | board event => rfl
  | task task => exact htask device task
  | board change => rfl

def KeepsLink (i : Nat) (switch : Switch) (r : Nat) (device : Device) (happening : Happening) : Prop :=
  happening.relay? ≠ some r ∧ (device.meet happening).part.Binds i switch r

instance (i : Nat) (switch : Switch) (r : Nat) (device : Device) (happening : Happening) :
    Decidable (KeepsLink i switch r device happening) :=
  inferInstanceAs
    (Decidable (happening.relay? ≠ some r ∧ (device.meet happening).part.Binds i switch r))

/--
The relay is as the flips of its switch so far have left it.
-/
structure Locked (start : Device) (i : Nat) (switch : Switch) (r : Nat) (device : Device)
    (prompts : List Prompt) (turns : List Turn) : Prop where
  accounted : Accounted start.part.contacts.isClosed device prompts turns
  binds : device.part.Binds i switch r
  tracks : ∃ on, device.part.relays.states[r]? = some on
    ∧ switch.action.Tracks (start.part.contacts.isClosed switch.button) (start.part.relays.isOn r)
      (Prompt.positions switch.button (turns.map (·.prompt))) on

theorem Locked.absorb (h : Locked start i switch r device [] turns)
    (hkept : KeepsLink i switch r device happening) :
    Locked start i switch r (device.absorb happening) (device.promptsOf happening) turns where
  accounted := h.accounted.absorb happening
  binds := by
    apply hkept.2.congr
    rw [meet_eq, config_dealWith]
  tracks := by
    rw [states_absorb device hkept.1]
    exact h.tracks

theorem Locked.leave (h : Locked start i switch r device (prompt :: prompts) turns)
    (hpositions : ∀ more, Prompt.positions switch.button (prompt :: more)
      = Prompt.positions switch.button more)
    (hleaves : Leaves r device.part prompt.step) :
    Locked start i switch r (device.step prompt.step) prompts (turns ++ [⟨device, prompt⟩]) where
  accounted := h.accounted.turn
  binds := h.binds.congr (config_prompt device prompt)
  tracks := by
    have hstates : (device.step prompt.step).part.relays.states[r]?
        = device.part.relays.states[r]? := hleaves
    rw [hstates, List.map_append, Prompt.positions_append, List.map_singleton, hpositions,
      Prompt.positions_nil, List.append_nil]
    exact h.tracks

theorem Locked.flip {closed : Bool} (hmode : switch.mode = .toggle)
    (hattached : switch.relayMode ≠ .detached) (hrelay : switch.relay? = some r)
    (h : Locked start i switch r device (.moved ⟨switch.button, closed⟩ :: prompts) turns) :
    Locked start i switch r (device.step (Prompt.moved ⟨switch.button, closed⟩).step) prompts
      (turns ++ [⟨device, .moved ⟨switch.button, closed⟩⟩]) where
  accounted := h.accounted.turn
  binds := h.binds.congr (config_prompt device _)
  tracks := by
    obtain ⟨on, hon, htracks⟩ := h.tracks
    have haction := h.accounted.attends.matched.action i switch h.binds.switch
    have hstep : (Prompt.moved ⟨switch.button, closed⟩).step device.part
        = onFlip i switch closed device.part := step_moved_toggle haction h.binds.switch hmode
    -- The turn goes on from the position of the last one.
    have halternates := h.accounted.alternates switch.button
    rw [Prompt.positions_append, Prompt.positions_moved_self] at halternates
    obtain ⟨position, hdealt, hclosed, _⟩ := alternates_append.mp halternates
    rw [← hdealt.getLastD_eq] at hclosed
    refine ⟨switch.action.outcome closed on, ?_, ?_⟩
    . rw [part_step, Step.state, hstep]
      exact states_onFlip hattached hrelay hon
    . rw [List.map_append, List.map_singleton, Prompt.positions_append, Prompt.positions_moved_self,
        Prompt.positions_nil, hclosed]
      exact htracks.flip

theorem Locked.turn (hmode : switch.mode = .toggle) (hattached : switch.relayMode ≠ .detached)
    (hrelay : switch.relay? = some r)
    (h : Locked start i switch r device (prompt :: prompts) turns) :
    Locked start i switch r (device.step prompt.step) prompts (turns ++ [⟨device, prompt⟩]) := by
  have hmatched := h.accounted.attends.matched
  by_cases hbutton : prompt.button = switch.button
  . cases prompt with
    | moved event =>
      obtain ⟨button, closed⟩ := event
      rw [Prompt.button_moved] at hbutton
      subst hbutton
      exact h.flip hmode hattached hrelay
    | held button =>
      rw [Prompt.button_held] at hbutton
      subst hbutton
      apply h.leave fun more => Prompt.positions_held switch.button
      apply Leaves.of_state
      rw [Step.state, Prompt.held_of_switch (hmatched.action i switch h.binds.switch),
        onSwitchHeld_toggle h.binds.switch hmode]
  . apply h.leave fun more => Prompt.positions_of_button_ne hbutton
    apply Leaves.prompt
    intro j other haction hother
    apply h.binds.alone
    apply List.mem_eraseIdx_iff_getElem?.mpr
    refine ⟨j, ?_, hother⟩
    rintro rfl
    exact hmatched.action?_ne h.binds.switch hbutton haction

/--
As long as a toggle switch keeps its settings and nobody else commands its relay, the relay goes along
with every flip, whatever else happens. If it is toggled, it is on while the contact is closed, or while
it is open, as it was after the start. If it is told its state, it has that of the contact, or the
opposite, from the first flip on.
-/
theorem toggle_switch_stays_locked {board : Board} {role : Role} {device : Device} {i r : Nat}
    {switch : Switch} {happenings : List Happening} (hboot : boot board role = .ok device)
    (hbinds : device.part.Binds i switch r) (hmode : switch.mode = .toggle)
    (hattached : switch.relayMode ≠ .detached) (hrelay : switch.relay? = some r)
    (hsize : r < device.part.relays.size)
    (hkept : device.Throughout (KeepsLink i switch r) happenings) :
    let last := device.through happenings
    let closed := last.part.contacts.isClosed switch.button
    let flips := Prompt.positions switch.button ((device.turnsThrough happenings).map (·.prompt))
    (switch.action ∈ [.toggleSimple, .toggleSmartSync, .toggleSmartOpposite] →
        (last.part.relays.isOn r != closed)
          = (device.part.relays.isOn r != device.part.contacts.isClosed switch.button))
      ∧ (flips ≠ [] →
        (switch.action = .onOff → last.part.relays.isOn r = closed)
          ∧ (switch.action = .offOn → last.part.relays.isOn r = !closed)) := by
  intro last closed flips
  have hstart : Locked device i switch r device [] [] :=
    ⟨⟨attends_of_boot hboot, fun _ => rfl⟩, hbinds, device.part.relays.isOn r,
      RelayBank.states_of_lt_size hsize, SwitchAction.tracks_nil⟩
  have hlocked := through_induction (fun _ _ _ hallowed h => Locked.absorb h hallowed)
    (fun _ _ _ _ h => Locked.turn hmode hattached hrelay h) happenings device [] hkept hstart
  rw [List.nil_append] at hlocked
  obtain ⟨on, hon, htracks⟩ := hlocked.tracks
  have hlast : last.part.relays.isOn r = on := by
    rw [RelayBank.isOn_eq_states, hon]
    rfl
  have hposition := hlocked.accounted.alternates switch.button
  rw [List.append_nil] at hposition
  unfold SwitchAction.Tracks at htracks
  rw [hposition.getLastD_eq, ← hlast] at htracks
  constructor
  . intro haction
    cases hswitch : switch.action with
    | onOff | offOn =>
      rw [hswitch] at haction
      simp at haction
    | toggleSimple | toggleSmartSync | toggleSmartOpposite =>
      rw [hswitch] at htracks
      exact htracks
  . intro hflips
    constructor
    . intro haction
      rw [haction] at htracks
      exact htracks hflips
    . intro haction
      rw [haction] at htracks
      exact htracks hflips

theorem toggle_switch_stays_locked_when_flipped :
    let store : Store := ⟨16, 256, [(Key.config, Bytes.ascii "Acme;ACME-1;SB1u;RC2;SB2u;RC3;")]⟩
    let board := Board.idle [] .joined (.sound store)
    let pin := Pin.line 1 1
    let switch := Switch.standard 0 0
    let happenings := [.event (.input pin true), .event (.call (.toggleRelay 1)),
      .event (.board (.setFaults [] [Key.relay 0] false)), .task .settle, .event (.fire .settle 3)]
    ∃ device, boot board .router = .ok device
      ∧ device.part.Binds 0 switch 0
      ∧ device.Throughout (KeepsLink 0 switch 0) happenings
      ∧ device.part.contacts.isClosed 0 = true ∧ device.part.relays.isOn 0 = false
      ∧ (device.through happenings).part.contacts.isClosed 0 = false
      ∧ (device.through happenings).part.relays.isOn 0 = true := by
  intro store board pin switch happenings
  have hfacts : (boot board .router).toOption.map (fun device =>
      decide (device.part.Binds 0 switch 0 ∧ 0 < device.part.relays.size
        ∧ device.Throughout (KeepsLink 0 switch 0) happenings
        ∧ device.part.contacts.isClosed 0 = true ∧ device.part.relays.isOn 0 = false
        ∧ (device.through happenings).part.contacts.isClosed 0 = false)) = some true := by
    decide +kernel
  obtain ⟨device, hboot, hdevice⟩ := exists_of_map_boot hfacts
  rw [decide_eq_true_eq] at hdevice
  obtain ⟨hbinds, hsize, hkept, hclosed, hoff, hopen⟩ := hdevice
  obtain ⟨htoggled, _⟩ := toggle_switch_stays_locked hboot hbinds rfl (by decide) rfl hsize hkept
  have hlocked := htoggled (by decide)
  have hbutton : switch.button = 0 := rfl
  rw [hbutton, hopen, hclosed, hoff, Bool.bne_false] at hlocked
  exact ⟨device, hboot, hbinds, hkept, hclosed, hoff, hopen, hlocked⟩

end Device

end WallSwitch
