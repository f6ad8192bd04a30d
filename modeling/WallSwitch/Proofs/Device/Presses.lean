import WallSwitch.Proofs.Device.Answers

/-!
This module contains the presses of momentary switches: what a switch does when it goes down, when it
was held for its long-press time and when it comes up, and the order in which it does so.
-/

namespace WallSwitch

/--
What a momentary switch does at one time: it reports an action, and may reach a stage of a press.
-/
structure Deed where
  action : PressAction
  stage? : Option PressStage
deriving DecidableEq, Repr

namespace Deed

def press : Deed := ⟨.press, some .pressStart⟩

def longPress : Deed := ⟨.longPress, some .longPress⟩

def shortPress : Deed := ⟨.released, some .shortPress⟩

def longRelease : Deed := ⟨.released, none⟩

def Moves (deed : Deed) (switch : Switch) : Prop :=
  deed.stage?.map .following = some switch.relayMode

def Tells (deed : Deed) (switch : Switch) : Prop :=
  deed.stage? = some switch.boundStage

instance (deed : Deed) (switch : Switch) : Decidable (deed.Moves switch) :=
  inferInstanceAs (Decidable (_ = _))

instance (deed : Deed) (switch : Switch) : Decidable (deed.Tells switch) :=
  inferInstanceAs (Decidable (_ = _))

end Deed

/-! ### The order of deeds -/

/--
A press from its beginning to its end.
-/
inductive Press where
  | short
  | long
deriving DecidableEq, Repr

def Press.deeds : Press → List Deed
  | .short => [.press, .shortPress]
  | .long => [.press, .longPress, .longRelease]

inductive PressPhase where
  | up
  | down
  /-- The switch has been down for its long-press time. -/
  | long
  /-- The switch was down when the device started, and did not come up since. -/
  | downFromStart
deriving DecidableEq, Repr

namespace PressPhase

def isDown : PressPhase → Bool
  | .up => false
  | .down | .long | .downFromStart => true

/--
What was done of a press that has not ended.
-/
def deeds : PressPhase → List Deed
  | .up | .downFromStart => []
  | .down => [.press]
  | .long => [.press, .longPress]

def release : PressPhase → Deed
  | .long => .longRelease
  | .up | .down | .downFromStart => .shortPress

end PressPhase

inductive Presses (start : PressPhase) : List Deed → PressPhase → Prop where
  | start : Presses start [] start
  | press {deeds : List Deed} (h : Presses start deeds .up) :
    Presses start (deeds ++ [.press]) .down
  | longPress {deeds : List Deed} (h : Presses start deeds .down) :
    Presses start (deeds ++ [.longPress]) .long
  | release {deeds : List Deed} {phase : PressPhase} (h : Presses start deeds phase)
      (hdown : phase.isDown = true) :
    Presses start (deeds ++ [phase.release]) .up

namespace Presses

variable {deeds : List Deed} {phase : PressPhase}

theorem exists_presses (h : Presses .up deeds phase) :
    phase ≠ .downFromStart ∧ ∃ presses : List Press, deeds = presses.flatMap Press.deeds ++ phase.deeds := by
  induction h with
  | start => exact ⟨by decide, [], rfl⟩
  | press _ ih =>
    obtain ⟨_, presses, rfl⟩ := ih
    exact ⟨by decide, presses, by simp [PressPhase.deeds]⟩
  | longPress _ ih =>
    obtain ⟨_, presses, rfl⟩ := ih
    exact ⟨by decide, presses, by simp [PressPhase.deeds]⟩
  | @release deeds phase _ hdown ih =>
    obtain ⟨hphase, presses, rfl⟩ := ih
    refine ⟨by decide, ?_⟩
    cases phase with
    | up => cases hdown
    | down => exact ⟨presses ++ [.short], by simp [PressPhase.deeds, PressPhase.release, Press.deeds]⟩
    | long => exact ⟨presses ++ [.long], by simp [PressPhase.deeds, PressPhase.release, Press.deeds]⟩
    | downFromStart => exact absurd rfl hphase

theorem exists_prefix (h : Presses .up deeds phase) :
    ∃ presses : List Press, deeds <+: presses.flatMap Press.deeds := by
  obtain ⟨hphase, presses, rfl⟩ := h.exists_presses
  cases phase with
  | up => exact ⟨presses, by simp [PressPhase.deeds]⟩
  | down => exact ⟨presses ++ [.short], [.shortPress], by simp [PressPhase.deeds, Press.deeds]⟩
  | long => exact ⟨presses ++ [.long], [.longRelease], by simp [PressPhase.deeds, Press.deeds]⟩
  | downFromStart => exact absurd rfl hphase

theorem getLast?_of_down (h : Presses .up deeds .down) : deeds.getLast? = some .press := by
  obtain ⟨_, presses, rfl⟩ := h.exists_presses
  exact List.getLast?_concat

theorem eq_of_no_press {start : PressPhase} (hstart : start = .up ∨ start = .downFromStart)
    (h : Presses start deeds phase) (hnone : ∀ deed ∈ deeds, deed.action ≠ .press) :
    (deeds = [] ∧ phase = start) ∨ (start = .downFromStart ∧ deeds = [.shortPress] ∧ phase = .up) := by
  -- A release needs a switch that is down: without a press only one that was down at the start is.
  induction h with
  | start => exact .inl ⟨rfl, rfl⟩
  | press _ ih => exact absurd rfl (hnone .press (by simp))
  | longPress _ ih =>
    rw [List.forall_mem_append] at hnone
    rcases ih hnone.1 with ⟨_, hphase⟩ | ⟨_, _, hphase⟩
    . subst hphase
      rcases hstart with h | h <;> cases h
    . cases hphase
  | @release deeds phase _ hdown ih =>
    rw [List.forall_mem_append] at hnone
    rcases ih hnone.1 with ⟨rfl, hphase⟩ | ⟨_, _, hphase⟩
    . subst hphase
      rcases hstart with rfl | rfl
      . cases hdown
      . exact .inr ⟨rfl, rfl, rfl⟩
    . rw [hphase] at hdown
      cases hdown

end Presses

theorem Step.andThen_assoc {σ : Type} (first second third : Step σ) :
    (first.andThen second).andThen third = first.andThen (second.andThen third) := by
  funext s
  simp [andThen]

namespace Controller

/-! ### What is done -/

structure Toggles (controller : Controller) (step : Step Controller) (r : Nat) : Prop where
  state : (step.state controller).relays
    = (RelayBank.set r !controller.relays.isOn r).state controller.relays
  commands : (RelayBank.set r !controller.relays.isOn r).commands controller.relays
    <:+: step.commands controller

structure SparesRelays (controller : Controller) (step : Step Controller) : Prop where
  state : (step.state controller).relays = controller.relays
  commands : ∀ command ∈ step.commands controller, command.topic ≠ .outputs

structure CarriesOut (switch : Switch) (deed : Deed) (controller : Controller)
    (step : Step Controller) : Prop where
  reports : Command.reports switch.index (step.commands controller) = [deed.action]
  toggles : ∀ r, switch.relay? = some r → r < controller.relays.size →
    (deed.Moves switch ↔ controller.Toggles step r)
  spares : ¬deed.Moves switch → controller.SparesRelays step
  tells : deed.Tells switch
    ↔ ∃ command, Command.sends switch.index (step.commands controller) = [command]
  silent : ¬deed.Tells switch → Command.sends switch.index (step.commands controller) = []

variable {controller : Controller} {switch : Switch} {stage : PressStage} {action : PressAction}
variable {deed : Deed} {step other : Step Controller} {i : Nat} {closed : Bool}

theorem Toggles.isOn {r : Nat} (h : controller.Toggles step r) (hlt : r < controller.relays.size) :
    (step.state controller).relays.isOn r = !controller.relays.isOn r := by
  rw [h.state, RelayBank.isOn_set hlt]

theorem CarriesOut.intro
    (hreports : Command.reports switch.index (step.commands controller) = [deed.action])
    (htoggles : deed.Moves switch → ∀ r, switch.relay? = some r → r < controller.relays.size →
      controller.Toggles step r)
    (hspares : ¬deed.Moves switch → controller.SparesRelays step)
    (htells : deed.Tells switch →
      ∃ command, Command.sends switch.index (step.commands controller) = [command])
    (hsilent : ¬deed.Tells switch → Command.sends switch.index (step.commands controller) = []) :
    CarriesOut switch deed controller step where
  reports := hreports
  toggles := by
    intro r hrelay hlt
    refine ⟨fun hmoves => htoggles hmoves r hrelay hlt, ?_⟩
    intro h
    by_contra hmoves
    have hflipped := h.isOn hlt
    rw [(hspares hmoves).state] at hflipped
    simp at hflipped
  spares := hspares
  tells := by
    refine ⟨htells, ?_⟩
    rintro ⟨command, hcommand⟩
    by_contra hnot
    rw [hsilent hnot] at hcommand
    cases hcommand
  silent := hsilent

theorem CarriesOut.congr (h : CarriesOut switch deed controller step)
    (heq : other controller = step controller) : CarriesOut switch deed controller other := by
  have hstate : other.state controller = step.state controller := congrArg Prod.fst heq
  have hcommands : other.commands controller = step.commands controller := congrArg Prod.snd heq
  have htoggles (r : Nat) (htoggled : controller.Toggles step r) : controller.Toggles other r :=
    ⟨by rw [hstate]; exact htoggled.state, by rw [hcommands]; exact htoggled.commands⟩
  have hspares (hspared : controller.SparesRelays step) : controller.SparesRelays other :=
    ⟨by rw [hstate]; exact hspared.state, by rw [hcommands]; exact hspared.commands⟩
  apply CarriesOut.intro
  . rw [hcommands]
    exact h.reports
  . exact fun hmoves r hrelay hlt => htoggles r ((h.toggles r hrelay hlt).mp hmoves)
  . exact fun hmoves => hspares (h.spares hmoves)
  . rw [hcommands]
    exact h.tells.mp
  . rw [hcommands]
    exact h.silent

/-! ### Stages -/

def moveRelay (switch : Switch) (stage : PressStage) : Step Controller :=
  if switch.relayMode = .following stage then actOnRelay switch none else .skip

def tellBound (switch : Switch) (stage : PressStage) : Step Controller :=
  if switch.boundStage = stage then sendBound switch.index switch none else .skip

theorem onStage_eq (switch : Switch) (stage : PressStage) :
    onStage switch stage = (moveRelay switch stage).andThen (tellBound switch stage) := rfl

theorem actOnRelay_press {r : Nat} (h : switch.relay? = some r) :
    actOnRelay switch none = toggleRelay r := by
  unfold actOnRelay
  rw [h]
  cases switch.action <;> rfl

theorem moveRelay_cases (switch : Switch) (stage : PressStage) :
    moveRelay switch stage = .skip ∨ ∃ r, moveRelay switch stage = toggleRelay r := by
  unfold moveRelay
  split
  . cases hrelay : switch.relay? with
    | none =>
      left
      unfold actOnRelay
      rw [hrelay]
    | some r => exact .inr ⟨r, actOnRelay_press hrelay⟩
  . exact .inl rfl

theorem topic_moveRelay :
    ∀ command ∈ (moveRelay switch stage).commands controller,
      command.topic = .outputs ∨ command.topic = .settings := by
  rcases moveRelay_cases switch stage with h | ⟨r, h⟩
  . simp [h]
  . rw [h]
    exact topic_setRelay

theorem longPressed_moveRelay :
    ((moveRelay switch stage).state controller).longPressed = controller.longPressed := by
  rcases moveRelay_cases switch stage with h | ⟨r, h⟩
  . rw [h]
    rfl
  . rw [h]
    exact congrArg (fun notes => notes.2.1) notes_setRelay

theorem state_tellBound : (tellBound switch stage).state controller = controller := by
  unfold tellBound
  split <;> rfl

theorem topic_tellBound :
    ∀ command ∈ (tellBound switch stage).commands controller,
      command.topic = .switch switch.index := by
  unfold tellBound
  intro command hmem
  split at hmem
  . rw [List.mem_singleton.mp hmem]
    rfl
  . cases hmem

theorem reports_tellBound :
    Command.reports switch.index ((tellBound switch stage).commands controller) = [] := by
  unfold tellBound
  split <;> rfl

theorem sends_tellBound :
    Command.sends switch.index ((tellBound switch stage).commands controller)
      =
    if switch.boundStage = stage then [controller.commandFor switch none] else [] := by
  unfold tellBound
  split
  . exact List.filterMap_cons_some (if_pos rfl)
  . rfl

theorem reports_onStage :
    Command.reports switch.index ((onStage switch stage).commands controller) = [] := by
  have hmoved : Command.reports switch.index ((moveRelay switch stage).commands controller) = [] := by
    apply Command.reports_of_topic
    intro command hmem
    rcases topic_moveRelay command hmem with h | h <;> simp [h]
  rw [onStage_eq, Step.commands_andThen, Command.reports_append, hmoved, reports_tellBound]
  rfl

theorem sends_onStage :
    Command.sends switch.index ((onStage switch stage).commands controller)
      =
    if switch.boundStage = stage then
      [((moveRelay switch stage).state controller).commandFor switch none]
    else [] := by
  have hmoved : Command.sends switch.index ((moveRelay switch stage).commands controller) = [] := by
    apply Command.sends_of_topic
    intro command hmem
    rcases topic_moveRelay command hmem with h | h <;> simp [h]
  rw [onStage_eq, Step.commands_andThen, Command.sends_append, hmoved, sends_tellBound]
  rfl

theorem toggles_moveRelay {r : Nat} (hmode : switch.relayMode = .following stage)
    (hrelay : switch.relay? = some r) (hlt : r < controller.relays.size) :
    controller.Toggles (moveRelay switch stage) r := by
  have hmove : moveRelay switch stage = toggleRelay r :=
    (if_pos hmode).trans (actOnRelay_press hrelay)
  rw [hmove]
  unfold toggleRelay setRelay
  constructor
  . rw [Step.state_choose, Step.state_choose, if_pos hlt]
    rfl
  . rw [Step.commands_choose, Step.commands_choose, if_pos hlt, Step.commands_andThen]
    exact ⟨[], _, rfl⟩

theorem sparesRelays_moveRelay (hmode : switch.relayMode ≠ .following stage) :
    controller.SparesRelays (moveRelay switch stage) := by
  unfold moveRelay
  rw [if_neg hmode]
  exact ⟨rfl, by simp⟩

/-! ### Deeds -/

theorem CarriesOut.of_stage {first : Step Controller}
    (hrelays : (first.state controller).relays = controller.relays)
    (hreports : Command.reports switch.index (first.commands controller) = [action])
    (hsends : Command.sends switch.index (first.commands controller) = [])
    (htopics : ∀ command ∈ first.commands controller, command.topic ≠ .outputs) :
    CarriesOut switch ⟨action, some stage⟩ controller (first.andThen (onStage switch stage)) := by
  have hsent : Command.sends switch.index ((first.andThen (onStage switch stage)).commands controller)
      = if switch.boundStage = stage then
          [((moveRelay switch stage).state (first.state controller)).commandFor switch none]
        else [] := by
    rw [Step.commands_andThen, Command.sends_append, hsends, sends_onStage]
    rfl
  -- What comes first moves no relay and tells nobody, so both are up to the stage.
  apply CarriesOut.intro
  . rw [Step.commands_andThen, Command.reports_append, hreports, reports_onStage]
    rfl
  . intro hmoves r hrelay hlt
    rw [← hrelays] at hlt
    obtain ⟨hstate, before, later, hcommands⟩ :=
      toggles_moveRelay (Option.some.inj hmoves).symm hrelay hlt
    rw [hrelays] at hstate hcommands
    refine ⟨?_, first.commands controller ++ before,
      later ++ (tellBound switch stage).commands
        ((moveRelay switch stage).state (first.state controller)), ?_⟩
    . rw [onStage_eq, Step.state_andThen, Step.state_andThen, state_tellBound]
      exact hstate
    . rw [onStage_eq, Step.commands_andThen, Step.commands_andThen, ← hcommands]
      simp only [List.append_assoc]
  . intro hmoves
    have hmode : switch.relayMode ≠ .following stage := by
      intro heq
      exact hmoves (congrArg some heq.symm)
    obtain ⟨hstate, hcommands⟩ : (first.state controller).SparesRelays (moveRelay switch stage) :=
      sparesRelays_moveRelay hmode
    constructor
    . rw [onStage_eq, Step.state_andThen, Step.state_andThen, state_tellBound, hstate, hrelays]
    . intro command hmem
      simp only [onStage_eq, Step.commands_andThen, List.mem_append] at hmem
      rcases hmem with hfirst | hmove | htell
      . exact htopics command hfirst
      . exact hcommands command hmove
      . simp [topic_tellBound command htell]
  . intro htells
    rw [hsent, if_pos (Option.some.inj htells).symm]
    exact ⟨_, rfl⟩
  . intro htells
    rw [hsent, if_neg]
    intro heq
    exact htells (congrArg some heq.symm)

theorem carriesOut_onDown (hindex : switch.index = i) (controller : Controller) :
    CarriesOut switch .press controller (onDown i switch) := by
  subst hindex
  unfold onDown
  rw [← Step.andThen_assoc]
  apply CarriesOut.of_stage
  . rfl
  . simp [setLongPressed, Command.reports, Command.reported?]
  . simp [setLongPressed, Command.sends, Command.sent?]
  . simp [setLongPressed, Command.topic, Task.topic]

theorem carriesOut_onLongPress (hindex : switch.index = i) (controller : Controller) :
    CarriesOut switch .longPress controller (onLongPress i switch) := by
  subst hindex
  unfold onLongPress
  rw [← Step.andThen_assoc]
  apply CarriesOut.of_stage
  . rfl
  . simp [setLongPressed, Command.reports, Command.reported?]
  . simp [setLongPressed, Command.sends, Command.sent?]
  . simp [setLongPressed, Command.topic, Task.topic]

def endPress (i : Nat) (switch : Switch) : Step Controller :=
  .emit fun _ => [.cancel (.buttonHold switch.button), .report i .released]

theorem reports_endPress :
    Command.reports i ((endPress i switch).commands controller) = [.released] := by
  simp [endPress, Command.reports, List.filterMap_cons, Command.reported?]

theorem sends_endPress (j : Nat) :
    Command.sends j ((endPress i switch).commands controller) = [] := rfl

theorem topic_endPress :
    ∀ command ∈ (endPress i switch).commands controller, command.topic ≠ .outputs := by
  simp [endPress, Command.topic, Task.topic]

theorem onUp_eq (i : Nat) (switch : Switch) (controller : Controller) :
    onUp i switch controller
      =
    (endPress i switch).andThen
      (if controller.wasLongPressed i then .skip else onStage switch .shortPress) controller :=
  rfl

theorem onUp_of_long (h : controller.wasLongPressed i = true) :
    onUp i switch controller = endPress i switch controller := by
  rw [onUp_eq, if_pos h]
  rfl

theorem onUp_of_not_long (h : controller.wasLongPressed i = false) :
    onUp i switch controller
      =
    (endPress i switch).andThen (onStage switch .shortPress) controller := by
  rw [onUp_eq, if_neg (Bool.not_eq_true _ ▸ h)]

theorem carriesOut_onUp (hindex : switch.index = i) {phase : PressPhase}
    (hlong : controller.wasLongPressed i = decide (phase = .long)) :
    CarriesOut switch phase.release controller (onUp i switch) := by
  subst hindex
  by_cases hphase : phase = .long
  . rw [decide_eq_true hphase] at hlong
    subst hphase
    refine CarriesOut.congr (.intro reports_endPress ?_ (fun _ => ⟨rfl, topic_endPress⟩) ?_
      (fun _ => sends_endPress _)) (onUp_of_long hlong)
    . intro hmoves
      cases hmoves
    . intro htells
      cases htells
  . have hrelease : phase.release = .shortPress := by
      cases phase with
      | long => exact absurd rfl hphase
      | _ => rfl
    rw [decide_eq_false hphase] at hlong
    rw [hrelease]
    exact CarriesOut.congr (.of_stage rfl reports_endPress (sends_endPress _) topic_endPress)
      (onUp_of_not_long hlong)

/-! ### What calls for a deed -/

theorem onSwitchMoved_momentary (hswitch : controller.switch? i = some switch)
    (hmode : switch.mode.isMomentary = true) (closed : Bool) :
    onSwitchMoved i closed controller
      =
    (if isDownAt switch closed then onDown i switch else onUp i switch) controller := by
  simp only [onSwitchMoved, Step.choose, hswitch]
  cases hkind : switch.mode with
  | toggle =>
    rw [hkind] at hmode
    cases hmode
  | momentary | momentaryNc => rfl

theorem onSwitchHeld_momentary (hswitch : controller.switch? i = some switch)
    (hmode : switch.mode.isMomentary = true) :
    onSwitchHeld i controller
      =
    (if isDownAt switch (controller.contacts.isClosed switch.button) then onLongPress i switch
      else .skip) controller := by
  simp only [onSwitchHeld, Step.choose, hswitch, hmode, Bool.true_and]

/-! ### Long presses and hold times -/

theorem longPressed_onStage :
    ((onStage switch stage).state controller).longPressed = controller.longPressed := by
  rw [onStage_eq, Step.state_andThen, state_tellBound, longPressed_moveRelay]

theorem topic_onStage :
    ∀ command ∈ (onStage switch stage).commands controller,
      command.topic ≠ .hold switch.button := by
  intro command hmem
  rw [onStage_eq, Step.commands_andThen, List.mem_append] at hmem
  rcases hmem with hmove | htell
  . rcases topic_moveRelay command hmove with h | h <;> simp [h]
  . simp [topic_tellBound command htell]

theorem wasLongPressed_setLongPressed (hi : i < 5) (long : Bool) :
    ((setLongPressed i long).state controller).wasLongPressed i = long := by
  simp [setLongPressed, wasLongPressed, hi]

theorem wasLongPressed_congr {next : Controller} (h : next.longPressed = controller.longPressed) :
    next.wasLongPressed i = controller.wasLongPressed i := by
  unfold wasLongPressed
  rw [h]

theorem wasLongPressed_onDown (hi : i < 5) :
    ((onDown i switch).state controller).wasLongPressed i = false :=
  (wasLongPressed_congr longPressed_onStage).trans (wasLongPressed_setLongPressed hi false)

theorem wasLongPressed_onLongPress (hi : i < 5) :
    ((onLongPress i switch).state controller).wasLongPressed i = true :=
  (wasLongPressed_congr longPressed_onStage).trans (wasLongPressed_setLongPressed hi true)

theorem due_onLongPress (board : Board) :
    (board.performAll ((onLongPress i switch).commands controller)).due (.buttonHold switch.button)
      =
    board.due (.buttonHold switch.button) := by
  apply Board.due_performAll_of_topic
  intro command hmem
  simp only [onLongPress, Step.commands_andThen, List.mem_append] at hmem
  rcases hmem with hset | hreport | hstage
  . cases hset
  . rw [List.mem_singleton.mp hreport]
    simp [Command.topic, Task.topic]
  . exact topic_onStage command hstage

theorem due_onUp (board : Board) :
    (board.performAll ((onUp i switch).commands controller)).due (.buttonHold switch.button) = [] := by
  have hended : (board.performAll ((endPress i switch).commands controller)).due
      (.buttonHold switch.button) = [] := Agenda.due_cancel_self
  cases hlong : controller.wasLongPressed i with
  | true =>
    have hcommands : (onUp i switch).commands controller = (endPress i switch).commands controller :=
      congrArg Prod.snd (onUp_of_long hlong)
    rw [hcommands]
    exact hended
  | false =>
    have hcommands : (onUp i switch).commands controller
        = ((endPress i switch).andThen (onStage switch .shortPress)).commands controller :=
      congrArg Prod.snd (onUp_of_not_long hlong)
    rw [hcommands, Step.commands_andThen, Board.performAll_append,
      Board.due_performAll_of_topic topic_onStage, hended]

end Controller

end WallSwitch
