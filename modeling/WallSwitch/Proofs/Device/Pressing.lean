import WallSwitch.Proofs.Device.Presses
import WallSwitch.Proofs.Device.Watching

/-!
This module contains the proof that a momentary switch reports one press after the other, and acts on
each at the stages that its settings name.
-/

namespace WallSwitch

def DeviceEvent.KeepsMode (i : Nat) (mode : SwitchMode) : DeviceEvent → Prop
  | .call (.changeSwitch j (.mode new)) => j = i → new = mode
  | _ => True

instance (i : Nat) (mode : SwitchMode) : DecidablePred (DeviceEvent.KeepsMode i mode)
  | .call (.changeSwitch j (.mode new)) => inferInstanceAs (Decidable (j = i → new = mode))
  | .call (.changeSwitch _ (.action _)) | .call (.changeSwitch _ (.relayMode _))
  | .call (.changeSwitch _ (.boundStage _)) | .call (.changeSwitch _ (.relayNumber _))
  | .call (.changeSwitch _ (.longPressMs _)) | .call (.changeSwitch _ (.levelMoveRate _))
  | .call (.setRelay ..) | .call (.toggleRelay _) | .call (.onStatus _)
  | .call (.chooseStatusLed _) | .call (.bank _) | .call (.observe ..) | .call .onEdge
  | .reconfigure _ | .fire .. | .input .. | .board _ => .isTrue trivial

namespace Controller

def HasMode (controller : Controller) (i button : Nat) (mode : SwitchMode) : Prop :=
  ∃ switch, controller.switch? i = some switch ∧ switch.button = button ∧ switch.mode = mode

variable {controller next : Controller} {i j button : Nat} {mode : SwitchMode}

theorem HasMode.congr (h : controller.HasMode i button mode)
    (hconfig : next.config = controller.config) : next.HasMode i button mode := by
  unfold HasMode switch?
  rw [hconfig]
  exact h

theorem HasMode.changeSwitch (h : controller.HasMode i button mode) {change : SwitchChange}
    (hkept : (DeviceEvent.call (.changeSwitch j change)).KeepsMode i mode) :
    ((DeviceCall.changeSwitch j change).step.state controller).HasMode i button mode := by
  obtain ⟨switch, hswitch, hbutton, hmode⟩ := h
  rw [DeviceCall.step_changeSwitch]
  simp only [Controller.changeSwitch, Request.step, Step.state]
  split
  . exact ⟨switch, hswitch, hbutton, hmode⟩
  . next old hold =>
    by_cases hij : j = i
    . subst hij
      rw [hswitch, Option.some.injEq] at hold
      subst hold
      refine ⟨change.apply switch, ?_, ?_, ?_⟩
      . exact List.getElem?_set_self (List.getElem?_eq_some_iff.mp hswitch).1
      . cases change <;> exact hbutton
      . cases change with
        | mode new => exact hkept rfl
        | _ => exact hmode
    . exact ⟨switch, (List.getElem?_set_ne hij).trans hswitch, hbutton, hmode⟩

theorem HasMode.call (h : controller.HasMode i button mode) {asked : DeviceCall}
    (hkept : (DeviceEvent.call asked).KeepsMode i mode) :
    (asked.step.state controller).HasMode i button mode := by
  cases asked with
  | setRelay r on => exact h.congr (config_reaction (.setRelay controller r on))
  | toggleRelay r => exact h.congr (config_reaction (reacts_toggleRelay r))
  | onStatus status =>
    apply h.congr
    simp only [DeviceCall.step, onStatus, Step.state_andThen]
    split <;> rfl
  | changeSwitch j change => exact h.changeSwitch hkept
  | _ => exact h

end Controller

def PressPhase.closedIn (mode : SwitchMode) (phase : PressPhase) : Bool :=
  phase.isDown != (mode == .momentaryNc)

theorem PressPhase.closedIn_of_isDown {mode : SwitchMode} {phase next : PressPhase}
    (h : next.isDown = !phase.isDown) : next.closedIn mode = !phase.closedIn mode := by
  unfold closedIn
  rw [h, Bool.not_bne]

theorem Controller.isDownAt_closedIn {switch : Switch} {mode : SwitchMode}
    (hmode : switch.mode = mode) (phase : PressPhase) :
    isDownAt switch (phase.closedIn mode) = phase.isDown := by
  unfold isDownAt PressPhase.closedIn
  rw [hmode]
  cases phase.isDown <;> cases mode == .momentaryNc <;> rfl

theorem Controller.isDownAt_not (switch : Switch) (closed : Bool) :
    isDownAt switch (!closed) = !isDownAt switch closed :=
  Bool.not_bne closed _

/--
The turn is what switch `i` does as this deed, with the settings that it has at the time.
-/
def Turn.CarriesOut (i : Nat) (deed : Deed) (turn : Turn) : Prop :=
  ∃ switch, turn.before.part.switch? i = some switch
    ∧ Controller.CarriesOut switch deed turn.before.part turn.prompt.step

namespace Device

open Controller

variable {device : Device} {i button : Nat} {mode : SwitchMode} {event : DeviceEvent}

theorem hasMode_receive (h : device.part.HasMode i button mode)
    (hkept : event.KeepsMode i mode) : (device.receive event).part.HasMode i button mode := by
  cases event with
  | call asked => exact h.call hkept
  | reconfigure bytes =>
    simp only [receive, happen, reconfigure]
    cases ConfigText.ofBytes bytes <;> exact h
  | input pin high =>
    simp only [receive, happen, input, Wired.input]
    split <;> exact h
  | fire task time => cases task <;> exact h
  | board change => exact h

/--
What a momentary switch with this mode and button has done since it was started in some phase, and
what its contact, its hold time and its long press are at.
-/
structure Pressing (i button : Nat) (mode : SwitchMode) (start : PressPhase) (old : Board)
    (device : Device) (prompts : List Prompt) (turns : List Turn) (deeds : List Deed)
    (phase : PressPhase) : Prop where
  attends : device.Attends
  hasMode : device.part.HasMode i button mode
  presses : Presses start deeds phase
  carried : List.Forall₂ (Turn.CarriesOut i) deeds (turns.filter (·.button = button))
  alternates : Alternates (phase.closedIn mode)
    (Prompt.positions button prompts) (device.part.contacts.isClosed button)
  long : phase.isDown = true → device.part.longPressed[i]?.getD false = decide (phase = .long)
  hold : device.board.due (.buttonHold button) ≠ [] → phase = .down
  held : .held button ∈ prompts → prompts = [.held button] ∧ phase = .down
    ∧ device.board.due (.buttonHold button) = []
  reports : device.board.reports i = old.reports i ++ deeds.map (·.action)
  sends : device.board.sends i = old.sends i
    ++ (turns.filter (·.button = button)).flatMap fun turn => Command.sends i turn.commands

variable {start phase next : PressPhase} {old : Board} {prompts : List Prompt} {turns : List Turn}
variable {deeds : List Deed} {deed : Deed} {prompt : Prompt} {switch : Switch}

theorem Pressing.receive (h : Pressing i button mode start old device [] turns deeds phase)
    (htimely : device.IsTimely event) (hkept : event.KeepsMode i mode) :
    Pressing i button mode start old (device.receive event) (device.prompts event) turns deeds
      phase := by
  obtain ⟨hattends, halternates⟩ := h.attends.receive event
  have hclosed : device.part.contacts.isClosed button = phase.closedIn mode := h.alternates
  refine ⟨hattends, hasMode_receive h.hasMode hkept, h.presses, h.carried, ?_, ?_, ?_, ?_, ?_, ?_⟩
  . rw [← hclosed]
    exact halternates button
  . rw [longPressed_receive]
    exact h.long
  . -- Receiving an event ends hold times, and starts none.
    intro hdue
    apply h.hold
    intro hnone
    have hsubset := due_hold_receive_subset device event button
    rw [hnone] at hsubset
    exact hdue (List.eq_nil_of_subset_nil hsubset)
  . intro hheld
    obtain ⟨⟨time, rfl⟩, hprompts⟩ := exists_fire_of_held_mem_prompts hheld
    exact ⟨hprompts, h.hold (List.ne_nil_of_mem htimely), Board.due_begin_self ..⟩
  . rw [reports_receive, h.reports]
  . rw [sends_receive, h.sends]

theorem Pressing.act (h : Pressing i button mode start old device (prompt :: prompts) turns deeds phase)
    (hbutton : prompt.button = button) (hswitch : device.part.switch? i = some switch)
    (hcarries : CarriesOut switch deed device.part prompt.step)
    (hpresses : Presses start (deeds ++ [deed]) next)
    (halternates : Alternates (next.closedIn mode) (Prompt.positions button prompts)
      (device.part.contacts.isClosed button))
    (hlong : next.isDown = true →
      ((prompt.step.state device.part).wasLongPressed i) = decide (next = .long))
    (hhold : (device.step prompt.step).board.due (.buttonHold button) ≠ [] → next = .down) :
    Pressing i button mode start old (device.step prompt.step) prompts
      (turns ++ [⟨device, prompt⟩]) (deeds ++ [deed]) next := by
  have hmatched := h.attends.matched
  have hindex := hmatched.index i switch hswitch
  have hfilter : (turns ++ [Turn.mk device prompt]).filter (·.button = button)
      = turns.filter (·.button = button) ++ [⟨device, prompt⟩] := by
    rw [List.filter_append]
    congr 1
    simp [Turn.button, hbutton]
  have hcommands : (⟨device, prompt⟩ : Turn).commands = prompt.step.commands device.part := rfl
  refine ⟨h.attends.turn prompt, h.hasMode.congr (config_prompt device prompt), hpresses, ?_, ?_, ?_,
    hhold, ?_, ?_, ?_⟩
  . rw [hfilter]
    exact List.rel_append h.carried (.cons ⟨switch, hswitch, hcarries⟩ .nil)
  . rw [contacts_prompt hmatched]
    exact halternates
  . exact hlong
  . intro hheld
    exact absurd hheld (Prompt.held_not_mem_of_alone fun hmem => (h.held hmem).1)
  . rw [board_step, Board.reports_performAll, h.reports, ← hindex, hcarries.reports, hindex,
      List.map_append, List.append_assoc]
    rfl
  . rw [board_step, Board.sends_performAll, h.sends, hfilter, List.flatMap_append,
      List.flatMap_singleton, hcommands, List.append_assoc]

theorem action?_ne_switch (h : device.part.Matched) (hmode : device.part.HasMode i button mode)
    {other : Nat} (hother : other ≠ button) :
    device.part.contacts.action? other ≠ some (.switch i) := by
  obtain ⟨switch, hswitch, hbutton, _⟩ := hmode
  apply h.action?_ne hswitch
  rw [hbutton]
  exact hother

theorem topics_of_other (h : device.part.Matched) (hmode : device.part.HasMode i button mode)
    (hother : prompt.button ≠ button) :
    .switch i ∉ prompt.topics device.part ∧ .hold button ∉ prompt.topics device.part := by
  have hnot := action?_ne_switch h hmode hother
  unfold Prompt.topics
  split
  . simp
  . simp [hother.symm]
  . next j haction =>
    have hne : j ≠ i := by
      rintro rfl
      exact hnot haction
    simp [hother.symm, hne.symm]

theorem Pressing.skip (h : Pressing i button mode start old device (prompt :: prompts) turns deeds phase)
    (hother : prompt.button ≠ button) :
    Pressing i button mode start old (device.step prompt.step) prompts
      (turns ++ [⟨device, prompt⟩]) deeds phase := by
  have hmatched := h.attends.matched
  -- A prompt of another button is about neither this switch nor its hold time.
  obtain ⟨hswitch, hhold⟩ := topics_of_other hmatched h.hasMode hother
  have htopics : ∀ command ∈ prompt.step.commands device.part, command.topic ≠ .switch i := by
    intro command hmem heq
    exact hswitch (heq ▸ Prompt.topic_mem_topics hmatched command hmem)
  have hfilter : (turns ++ [Turn.mk device prompt]).filter (·.button = button)
      = turns.filter (·.button = button) := by
    rw [List.filter_append]
    have hnone : [Turn.mk device prompt].filter (·.button = button) = [] := by
      simp [Turn.button, hother]
    rw [hnone, List.append_nil]
  have hdue : (device.step prompt.step).board.due (.buttonHold button)
      = device.board.due (.buttonHold button) := due_prompt hmatched hhold
  refine ⟨h.attends.turn prompt, h.hasMode.congr (config_prompt device prompt), h.presses, ?_, ?_, ?_,
    ?_, ?_, ?_, ?_⟩
  . rw [hfilter]
    exact h.carried
  . rw [contacts_prompt hmatched, ← Prompt.positions_of_button_ne hother]
    exact h.alternates
  . rw [longPressed_prompt hmatched (action?_ne_switch hmatched h.hasMode hother)]
    exact h.long
  . rw [hdue]
    exact h.hold
  . intro hheld
    exact absurd hheld (Prompt.held_not_mem_of_alone fun hmem => (h.held hmem).1)
  . rw [board_step, Board.reports_performAll, Command.reports_of_topic htopics, List.append_nil,
      h.reports]
  . rw [board_step, Board.sends_performAll, Command.sends_of_topic htopics, List.append_nil, h.sends,
      hfilter]

/-! ### Turns of the switch -/

theorem Pressing.index_eq (h : Pressing i button mode start old device prompts turns deeds phase)
    (hswitch : device.part.switch? i = some switch) : switch.index = i :=
  h.attends.matched.index i switch hswitch

theorem Pressing.wasLongPressed
    (h : Pressing i button mode start old device prompts turns deeds phase)
    (hdown : phase.isDown = true) : device.part.wasLongPressed i = decide (phase = .long) :=
  h.long hdown

theorem Pressing.index_lt (h : Pressing i button mode start old device prompts turns deeds phase)
    (hswitch : device.part.switch? i = some switch) : i < 5 := by
  have hlt : i < device.part.config.switches.length := (List.getElem?_eq_some_iff.mp hswitch).1
  exact hlt.trans_le h.attends.matched.few

variable (hmomentary : mode.isMomentary = true)

section Moved

variable {closed : Bool} (h : Pressing i switch.button mode start old device
  (.moved ⟨switch.button, closed⟩ :: prompts) turns deeds phase)
variable (hswitch : device.part.switch? i = some switch) (hmode : switch.mode = mode)

include h in
theorem Pressing.closed_eq :
    closed = !phase.closedIn mode
      ∧ Alternates closed (Prompt.positions switch.button prompts)
        (device.part.contacts.isClosed switch.button) := by
  have halternates := h.alternates
  rw [Prompt.positions_moved_self] at halternates
  exact halternates

include hmomentary h hswitch hmode in
theorem Pressing.step_moved :
    (Prompt.moved ⟨switch.button, closed⟩).step device.part
      =
    (if phase.isDown then onUp i switch else onDown i switch) device.part := by
  have haction := h.attends.matched.action i switch hswitch
  have hdown : isDownAt switch closed = !phase.isDown := by
    rw [h.closed_eq.1, isDownAt_not, isDownAt_closedIn hmode]
  rw [Prompt.moved_of_switch haction,
    onSwitchMoved_momentary hswitch (by rw [hmode]; exact hmomentary), hdown]
  cases phase.isDown <;> rfl

include hmomentary h hswitch hmode in
theorem Pressing.press (hup : phase.isDown = false) :
    Pressing i switch.button mode start old
      (device.step (Prompt.moved ⟨switch.button, closed⟩).step) prompts
      (turns ++ [⟨device, .moved ⟨switch.button, closed⟩⟩]) (deeds ++ [.press]) .down := by
  have hphase : phase = .up := by
    cases phase with
    | up => rfl
    | _ => cases hup
  have hstep := h.step_moved hmomentary hswitch hmode
  rw [hup] at hstep
  change _ = onDown i switch device.part at hstep
  obtain ⟨hclosed, hlater⟩ := h.closed_eq
  have hdown : closed = PressPhase.down.closedIn mode :=
    hclosed.trans (PressPhase.closedIn_of_isDown (by rw [hup]; rfl)).symm
  have hcarries := carriesOut_onDown (h.index_eq hswitch) device.part
  refine h.act rfl hswitch (hcarries.congr hstep) (.press (hphase ▸ h.presses)) (hdown ▸ hlater) ?_
    (fun _ => rfl)
  intro _
  rw [Step.state, hstep]
  exact wasLongPressed_onDown (h.index_lt hswitch)

include hmomentary h hswitch hmode in
theorem Pressing.release (hdown : phase.isDown = true) :
    Pressing i switch.button mode start old
      (device.step (Prompt.moved ⟨switch.button, closed⟩).step) prompts
      (turns ++ [⟨device, .moved ⟨switch.button, closed⟩⟩]) (deeds ++ [phase.release]) .up := by
  have hstep := h.step_moved hmomentary hswitch hmode
  rw [hdown] at hstep
  change _ = onUp i switch device.part at hstep
  obtain ⟨hclosed, hlater⟩ := h.closed_eq
  have hup : closed = PressPhase.up.closedIn mode :=
    hclosed.trans (PressPhase.closedIn_of_isDown (by rw [hdown]; rfl)).symm
  have hcarries := carriesOut_onUp (h.index_eq hswitch) (h.wasLongPressed hdown)
  refine h.act rfl hswitch (hcarries.congr hstep) (.release h.presses hdown) (hup ▸ hlater) ?_ ?_
  . intro hcontra
    cases hcontra
  . intro hdue
    rw [board_step, Step.commands, hstep] at hdue
    exact absurd (due_onUp device.board) hdue

end Moved

include hmomentary in
theorem Pressing.longPress (h : Pressing i switch.button mode start old device
      (.held switch.button :: prompts) turns deeds phase)
    (hswitch : device.part.switch? i = some switch) (hmode : switch.mode = mode) :
    Pressing i switch.button mode start old (device.step (Prompt.held switch.button).step) prompts
      (turns ++ [⟨device, .held switch.button⟩]) (deeds ++ [.longPress]) .long := by
  obtain ⟨halone, hphase, hnone⟩ := h.held List.mem_cons_self
  rw [List.cons.injEq] at halone
  obtain ⟨_, rfl⟩ := halone
  subst hphase
  have haction := h.attends.matched.action i switch hswitch
  have hclosed : device.part.contacts.isClosed switch.button = PressPhase.down.closedIn mode :=
    h.alternates
  have hdown : isDownAt switch (device.part.contacts.isClosed switch.button) = true := by
    rw [hclosed, isDownAt_closedIn hmode]
    rfl
  have hstep : (Prompt.held switch.button).step device.part = onLongPress i switch device.part := by
    rw [Prompt.held_of_switch haction,
      onSwitchHeld_momentary hswitch (by rw [hmode]; exact hmomentary), hdown]
    rfl
  have hcarries := carriesOut_onLongPress (h.index_eq hswitch) device.part
  refine h.act rfl hswitch (hcarries.congr hstep) (.longPress h.presses) hclosed ?_ ?_
  . intro _
    rw [Step.state, hstep]
    exact wasLongPressed_onLongPress (h.index_lt hswitch)
  . intro hdue
    rw [board_step, Step.commands, hstep] at hdue
    exact absurd ((due_onLongPress device.board).trans hnone) hdue

include hmomentary in
theorem Pressing.turn (h : Pressing i button mode start old device (prompt :: prompts) turns deeds phase) :
    ∃ deeds phase, Pressing i button mode start old (device.step prompt.step) prompts
      (turns ++ [⟨device, prompt⟩]) deeds phase := by
  by_cases hbutton : prompt.button = button
  . obtain ⟨switch, hswitch, rfl, hmode⟩ := h.hasMode
    cases prompt with
    | moved event =>
      obtain ⟨other, closed⟩ := event
      change other = switch.button at hbutton
      subst hbutton
      cases hdown : phase.isDown with
      | false => exact ⟨_, _, h.press hmomentary hswitch hmode hdown⟩
      | true => exact ⟨_, _, h.release hmomentary hswitch hmode hdown⟩
    | held other =>
      change other = switch.button at hbutton
      subst hbutton
      exact ⟨_, _, h.longPress hmomentary hswitch hmode⟩
  . exact ⟨deeds, phase, h.skip hbutton⟩

/-! ### Runs -/

variable {board : Board} {role : Role} {events : List DeviceEvent}

def startPhase (switch : Switch) (closed : Bool) : PressPhase :=
  if isDownAt switch closed then .downFromStart else .up

theorem pressing_of_boot (hboot : boot board role = .ok device) (hidle : board.agenda.pending = [])
    (hswitch : device.part.switch? i = some switch) :
    Pressing i switch.button switch.mode
      (startPhase switch (device.part.contacts.isClosed switch.button)) device.board device [] [] []
      (startPhase switch (device.part.contacts.isClosed switch.button)) := by
  obtain ⟨_, hlongPressed, _⟩ := waiting_of_boot hboot
  refine ⟨attends_of_boot hboot, ⟨switch, hswitch, rfl, rfl⟩, .start, .nil, ?_, ?_, ?_, ?_, ?_, ?_⟩
  . unfold startPhase isDownAt PressPhase.closedIn
    cases device.part.contacts.isClosed switch.button <;>
      cases switch.mode == .momentaryNc <;> rfl
  . intro _
    have hshort : (Vector.replicate 5 false)[i]?.getD false = false := by
      rw [Vector.getElem?_replicate]
      split <;> rfl
    rw [hlongPressed, hshort]
    unfold startPhase
    split <;> rfl
  . intro hdue
    exact absurd (due_of_boot hboot hidle (by simp [Task.topic])) hdue
  . simp
  . simp
  . simp

theorem exists_pressing_after (hboot : boot board role = .ok device)
    (hidle : board.agenda.pending = []) (hswitch : device.part.switch? i = some switch)
    (hmomentary : switch.mode.isMomentary = true) (htimely : device.Timely events)
    (hkept : ∀ event ∈ events, event.KeepsMode i switch.mode) :
    ∃ deeds phase, Pressing i switch.button switch.mode
      (startPhase switch (device.part.contacts.isClosed switch.button)) device.board
      (device.after events) [] (device.turns events) deeds phase :=
  turns_induction (P := fun next prompts turns => ∃ deeds phase, Pressing i switch.button switch.mode
      (startPhase switch (device.part.contacts.isClosed switch.button)) device.board next prompts turns
      deeds phase)
    (fun _ _ _ hallowed ⟨deeds, phase, h⟩ => ⟨deeds, phase, h.receive hallowed.1 hallowed.2⟩)
    (fun _ _ _ _ ⟨_, _, h⟩ => h.turn hmomentary) events device [] (htimely.and hkept)
    ⟨_, _, pressing_of_boot hboot hidle hswitch⟩

/--
A momentary switch that is at rest when the device starts does one press after the other. All that the
device does for its buttons it does in turns. Each turn of the switch's button is one deed of such a
press: one report, and the stage that goes with it, at which the relay and the bound devices follow if
the settings of the switch name the stage. Nothing else reports for the switch or speaks to the devices
bound to it, and its hold time runs only after it went down.
-/
theorem momentary_switch_presses (hboot : boot board role = .ok device)
    (hidle : board.agenda.pending = []) (hswitch : device.part.switch? i = some switch)
    (hmomentary : switch.mode.isMomentary = true)
    (hrest : device.part.contacts.isClosed switch.button = (switch.mode == .momentaryNc))
    (htimely : device.Timely events) (hkept : ∀ event ∈ events, event.KeepsMode i switch.mode) :
    let last := device.after events
    let turns := (device.turns events).filter (·.button = switch.button)
    device.Along TakesTurns events
      ∧ ∃ (deeds : List Deed) (presses : List Press), deeds <+: presses.flatMap Press.deeds
        ∧ List.Forall₂ (Turn.CarriesOut i) deeds turns
        ∧ last.board.reports i = device.board.reports i ++ deeds.map (·.action)
        ∧ last.board.sends i
          = device.board.sends i ++ turns.flatMap (fun turn => Command.sends i turn.commands)
        ∧ (last.board.due (.buttonHold switch.button) ≠ [] → deeds.getLast? = some .press) := by
  have hstart : startPhase switch (device.part.contacts.isClosed switch.button) = .up := by
    unfold startPhase isDownAt
    rw [hrest, bne_self_eq_false]
    rfl
  obtain ⟨deeds, phase, h⟩ := exists_pressing_after hboot hidle hswitch hmomentary htimely hkept
  rw [hstart] at h
  obtain ⟨presses, hprefix⟩ := h.presses.exists_prefix
  refine ⟨device.along_takesTurns events, deeds, presses, hprefix, h.carried, h.reports, h.sends, ?_⟩
  intro hdue
  have hdown := h.presses
  rw [h.hold hdue] at hdown
  exact hdown.getLast?_of_down

theorem momentary_switch_presses_twice :
    let store : Store := ⟨16, 256, [(Key.config, Bytes.ascii "Acme;ACME-1;RB2;SB0u;M;")]⟩
    let pin := Pin.line 1 0
    let board := (Board.idle [] .joined (.sound store)).setLevel pin true
    let events := [.input pin false, .fire .settle 3, .fire (.buttonHold 0) 803, .input pin true,
      .fire .settle 805, .call (.changeSwitch 0 (.longPressMs 100)), .input pin false,
      .fire .settle 811]
    ∃ device switch, boot board .router = .ok device
      ∧ device.part.switch? 0 = some switch
      ∧ switch.mode.isMomentary = true
      ∧ device.part.contacts.isClosed switch.button = (switch.mode == .momentaryNc)
      ∧ device.Timely events
      ∧ (∀ event ∈ events, event.KeepsMode 0 switch.mode)
      ∧ ∃ (deeds : List Deed) (presses : List Press), deeds <+: presses.flatMap Press.deeds
        ∧ deeds.map (·.action) = [.press, .longPress, .released, .press]
        ∧ (device.after events).board.due (.buttonHold switch.button) = [911]
        ∧ deeds.getLast? = some .press := by
  intro store pin board events
  have hfacts : (boot board .router).toOption.map (fun device =>
      decide (((device.part.switch? 0).map fun switch => (switch.button, switch.mode))
          = some (0, .momentary)
        ∧ device.part.contacts.isClosed 0 = false
        ∧ device.Timely events
        ∧ (∀ event ∈ events, event.KeepsMode 0 .momentary)
        ∧ device.board.reports 0 = []
        ∧ (device.after events).board.reports 0 = [.press, .longPress, .released, .press]
        ∧ (device.after events).board.due (.buttonHold 0) = [911])) = some true := by
    decide +kernel
  obtain ⟨device, hboot, hdevice⟩ := exists_of_map_boot hfacts
  rw [decide_eq_true_eq] at hdevice
  obtain ⟨hplace, hclosed, htimely, hkept, hnone, hreports, hdue⟩ := hdevice
  obtain ⟨switch, hswitch, hplace⟩ := Option.map_eq_some_iff.mp hplace
  rw [Prod.mk.injEq] at hplace
  obtain ⟨hbutton, hmode⟩ := hplace
  have hmomentary : switch.mode.isMomentary = true := by rw [hmode]; rfl
  have hrest : device.part.contacts.isClosed switch.button = (switch.mode == .momentaryNc) := by
    rw [hbutton, hclosed, hmode]
    rfl
  rw [← hmode] at hkept
  rw [← hbutton] at hdue
  obtain ⟨_, deeds, presses, hprefix, _, hreported, _, hlast⟩ :=
    momentary_switch_presses hboot rfl hswitch hmomentary hrest htimely hkept
  rw [hnone, hreports, List.nil_append] at hreported
  exact ⟨device, switch, hboot, hswitch, hmomentary, hrest, htimely, hkept, deeds, presses, hprefix,
    hreported.symm, hdue, hlast (by rw [hdue]; simp)⟩

end Device

end WallSwitch
