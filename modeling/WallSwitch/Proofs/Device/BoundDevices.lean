import WallSwitch.Proofs.Device.Locking
import WallSwitch.Proofs.Device.Presses

/-!
This module contains the proof that what bound devices are told agrees with the relay of their switch.
A switch drives its relay first, and tells them what the relay is by then; if it is told its position,
so are they.
-/

namespace WallSwitch

def Switch.MayTell (switch : Switch) (on : Bool) (command : OnOff) : Prop :=
  match switch.action with
  | .toggleSimple => command = .toggle
  | .toggleSmartSync => command = .ofState on
  | .toggleSmartOpposite => command = .ofState !on
  | .onOff | .offOn =>
    if switch.mode.isMomentary then command = .toggle
    else switch.relayMode ≠ .detached → command = .ofState on

/--
The number that a switch gives to the devices bound to it when its button knows it as switch `i`. A
press gives its own number; the two differ in no device that was started.
-/
def Switch.speaksAs (switch : Switch) (i : Nat) : Nat :=
  if switch.mode = .toggle then i else switch.index

namespace Controller

variable {controller : Controller} {switch : Switch} {first second : Step Controller} {i j r : Nat}
variable {closed : Bool}

/-! ### What is to be said -/

theorem mayTell_press (hmode : switch.mode.isMomentary = true) (hrelay : switch.relay? = some r)
    (hlt : r < controller.relays.size) :
    switch.MayTell (controller.relays.isOn r) (controller.commandFor switch none) := by
  obtain ⟨relay, hget⟩ := RelayBank.exists_of_lt_size hlt
  unfold Switch.MayTell commandFor RelayBank.isOn
  rw [hrelay, Option.bind_some, hget]
  cases switch.action with
  | onOff | offOn => exact (if_pos hmode).mpr rfl
  | toggleSimple | toggleSmartSync | toggleSmartOpposite => rfl

theorem mayTell_flip (hmode : switch.mode = .toggle) (hrelay : switch.relay? = some r)
    (hlt : r < controller.relays.size)
    (hdriven : switch.relayMode ≠ .detached →
      ∃ on, controller.relays.isOn r = switch.action.outcome closed on) :
    switch.MayTell (controller.relays.isOn r) (controller.commandFor switch (some closed)) := by
  obtain ⟨relay, hget⟩ := RelayBank.exists_of_lt_size hlt
  unfold Switch.MayTell commandFor
  rw [hrelay, Option.bind_some, hget, hmode]
  -- A position is only told by an action that drives the relay to it.
  cases haction : switch.action with
  | onOff | offOn =>
    intro hattached
    obtain ⟨on, hon⟩ := hdriven hattached
    rw [hon, haction]
    rfl
  | toggleSimple => rfl
  | toggleSmartSync | toggleSmartOpposite =>
    unfold RelayBank.isOn
    rw [hget]
    rfl

/-! ### Relays -/

theorem relays_setRelay (controller : Controller) (r : Nat) (on : Bool) :
    ((setRelay r on).state controller).relays = (RelayBank.set r on).state controller.relays := by
  unfold setRelay
  rw [Step.state_choose]
  split
  . rfl
  . next hlt =>
    rw [Step.state, Step.state, RelayBank.set_of_size_le (Nat.le_of_not_lt hlt)]
    rfl

theorem sends_setRelay (on : Bool) :
    Command.sends j ((setRelay r on).commands controller) = [] := by
  apply Command.sends_of_topic
  intro command hmem
  rcases topic_setRelay command hmem with h | h <;> simp [h]

theorem exists_actOnRelay (hrelay : switch.relay? = some r) (closed? : Option Bool)
    (controller : Controller) :
    ∃ on, actOnRelay switch closed? controller = setRelay r on controller := by
  cases closed? with
  | none =>
    rw [actOnRelay_press hrelay]
    exact ⟨_, rfl⟩
  | some closed =>
    unfold actOnRelay
    rw [hrelay]
    cases switch.action <;> exact ⟨_, rfl⟩

def Drives (r : Nat) (controller : Controller) (step : Step Controller) : Prop :=
  (step.state controller).relays = controller.relays
    ∨ ∃ on, (step.state controller).relays = (RelayBank.set r on).state controller.relays

namespace Drives

variable {step : Step Controller}

theorem get?_of_ne (h : Drives r controller step) (hne : j ≠ r) :
    (step.state controller).relays.get? j = controller.relays.get? j := by
  rcases h with hkept | ⟨on, hset⟩
  . rw [hkept]
  . rw [hset]
    exact (controller.relays.move_set r on).get?_of_ne hne.symm

theorem size_eq (h : Drives r controller step) :
    (step.state controller).relays.size = controller.relays.size := by
  rcases h with hkept | ⟨on, hset⟩
  . rw [hkept]
  . rw [hset]
    exact (controller.relays.move_set r on).size_eq

theorem actOnRelay (hrelay : switch.relay? = some r) (closed? : Option Bool) :
    Drives r controller (actOnRelay switch closed?) := by
  obtain ⟨on, hon⟩ := exists_actOnRelay hrelay closed? controller
  refine .inr ⟨on, ?_⟩
  rw [Step.state, hon]
  exact relays_setRelay controller r on

end Drives

theorem drives_onFlip (hrelay : switch.relay? = some r) (closed : Bool) :
    Drives r controller (onFlip i switch closed) := by
  change Drives r controller
    (if switch.relayMode = .detached then .skip else actOnRelay switch (some closed))
  split
  . exact .inl rfl
  . exact .actOnRelay hrelay _

theorem drives_onStage (hrelay : switch.relay? = some r) (stage : PressStage) :
    Drives r controller (onStage switch stage) := by
  unfold Drives
  rw [onStage_eq, Step.state_andThen, state_tellBound]
  unfold moveRelay
  split
  . exact Drives.actOnRelay hrelay none
  . exact .inl rfl

/-! ### What is told -/

theorem sends_sendBound (closed? : Option Bool) :
    Command.sends j ((sendBound i switch closed?).commands controller)
      =
    if i = j then [controller.commandFor switch closed?] else [] := by
  split
  . next hname => exact List.filterMap_cons_some (if_pos hname)
  . next hname => exact List.filterMap_cons_none (if_neg hname)

theorem sends_onFlip (hrelay : switch.relay? = some r) (closed : Bool) :
    Command.sends j ((onFlip i switch closed).commands controller)
      =
    if i = j then [((onFlip i switch closed).state controller).commandFor switch (some closed)]
    else [] := by
  have hdriven : Command.sends j
      ((if switch.relayMode = .detached then Step.skip
        else actOnRelay switch (some closed)).commands controller) = [] := by
    split
    . rfl
    . obtain ⟨on, hon⟩ := exists_actOnRelay hrelay (some closed) controller
      rw [Step.commands, hon]
      exact sends_setRelay on
  unfold onFlip
  simp only [Step.commands_andThen, Command.sends_append, Step.state_emit, hdriven,
    sends_sendBound]
  rfl

theorem sends_onStage_of_ne (hne : j ≠ switch.index) (stage : PressStage) :
    Command.sends j ((onStage switch stage).commands controller) = [] := by
  apply Command.sends_of_topic
  intro command hmem
  rw [onStage_eq, Step.commands_andThen, List.mem_append] at hmem
  rcases hmem with hmove | htell
  . rcases topic_moveRelay command hmove with h | h <;> simp [h]
  . simp [topic_tellBound command htell, hne.symm]

theorem mayTell_onFlip (hmode : switch.mode = .toggle) (hrelay : switch.relay? = some r)
    (hlt : r < controller.relays.size) (closed : Bool) :
    let after := (onFlip i switch closed).state controller
    switch.MayTell (after.relays.isOn r) (after.commandFor switch (some closed)) := by
  have hdrives : Drives r controller (onFlip i switch closed) := drives_onFlip hrelay closed
  apply mayTell_flip hmode hrelay (hlt.trans_eq hdrives.size_eq.symm)
  intro hattached
  refine ⟨controller.relays.isOn r, ?_⟩
  rw [RelayBank.isOn_eq_states,
    states_onFlip hattached hrelay (RelayBank.states_of_lt_size hlt)]
  rfl

/--
The step drives relay `r` alone, and tells bound devices nothing that contradicts it, and that under
one number only.
-/
structure Follows (number : Nat) (switch : Switch) (r : Nat) (controller : Controller)
    (step : Step Controller) : Prop where
  drives : Drives r controller step
  tells : ∀ command ∈ Command.sends number (step.commands controller),
    switch.MayTell ((step.state controller).relays.isOn r) command
  silent : ∀ j, j ≠ number → Command.sends j (step.commands controller) = []

namespace Follows

variable {step other : Step Controller} {number : Nat}

theorem skip : Follows number switch r controller .skip :=
  ⟨.inl rfl, by simp, by simp⟩

theorem after (hrelays : (first.state controller).relays = controller.relays)
    (hsends : ∀ j, Command.sends j (first.commands controller) = [])
    (h : Follows number switch r (first.state controller) second) :
    Follows number switch r controller (first.andThen second) where
  drives := by
    unfold Drives
    rw [Step.state_andThen, ← hrelays]
    exact h.drives
  tells := by
    rw [Step.commands_andThen, Command.sends_append, hsends, List.nil_append]
    exact h.tells
  silent := by
    intro j hne
    rw [Step.commands_andThen, Command.sends_append, hsends, h.silent j hne, List.nil_append]

theorem ite {c : Prop} [Decidable c] (hfirst : Follows number switch r controller first)
    (hsecond : Follows number switch r controller second) :
    Follows number switch r controller (if c then first else second) := by
  split
  . exact hfirst
  . exact hsecond

theorem congr (h : Follows number switch r controller step)
    (heq : other controller = step controller) : Follows number switch r controller other where
  drives := by
    unfold Drives
    rw [Step.state, heq]
    exact h.drives
  tells := by
    rw [Step.commands, Step.state, heq]
    exact h.tells
  silent := by
    rw [Step.commands, heq]
    exact h.silent

section

variable (hrelay : switch.relay? = some r)

include hrelay in
theorem onFlip (hmode : switch.mode = .toggle) (hlt : r < controller.relays.size) (closed : Bool) :
    Follows i switch r controller (onFlip i switch closed) where
  drives := drives_onFlip hrelay closed
  tells := by
    intro command hmem
    rw [sends_onFlip hrelay, if_pos rfl, List.mem_singleton] at hmem
    rw [hmem]
    exact mayTell_onFlip hmode hrelay hlt closed
  silent := by
    intro j hne
    rw [sends_onFlip hrelay, if_neg hne.symm]

variable (hmode : switch.mode.isMomentary = true)

include hrelay hmode

theorem onStage (hlt : r < controller.relays.size) (stage : PressStage) :
    Follows switch.index switch r controller (onStage switch stage) where
  drives := drives_onStage hrelay stage
  tells := by
    intro command hmem
    have hdrives : Drives r controller (Controller.onStage switch stage) :=
      drives_onStage hrelay stage
    have hsize := hdrives.size_eq
    rw [sends_onStage] at hmem
    rw [onStage_eq, Step.state_andThen, state_tellBound] at hsize ⊢
    split at hmem
    . rw [List.mem_singleton.mp hmem]
      exact mayTell_press hmode hrelay (hlt.trans_eq hsize.symm)
    . cases hmem
  silent := fun _ hne => sends_onStage_of_ne hne stage

theorem onDown (hlt : r < controller.relays.size) :
    Follows switch.index switch r controller (onDown i switch) := by
  apply after rfl (fun _ => rfl)
  apply after rfl (fun _ => rfl)
  apply onStage hrelay hmode
  exact hlt

theorem onUp (hlt : r < controller.relays.size) :
    Follows switch.index switch r controller (onUp i switch) := by
  apply Follows.congr _ (onUp_eq i switch controller)
  apply after rfl sends_endPress
  exact ite skip (onStage hrelay hmode hlt _)

theorem onLongPress (hlt : r < controller.relays.size) :
    Follows switch.index switch r controller (onLongPress i switch) := by
  apply after rfl (fun _ => rfl)
  apply after rfl (fun _ => rfl)
  apply onStage hrelay hmode
  exact hlt

end

theorem prompt {prompt : Prompt}
    (haction : controller.contacts.action? prompt.button = some (.switch i))
    (hswitch : controller.switch? i = some switch) (hrelay : switch.relay? = some r)
    (hlt : r < controller.relays.size) :
    Follows (switch.speaksAs i) switch r controller prompt.step := by
  unfold Switch.speaksAs
  split
  . next hmode => cases prompt with
    | moved event =>
      exact (onFlip hrelay hmode hlt event.closed).congr (step_moved_toggle haction hswitch hmode)
    | held button =>
      have hstep := (Prompt.held_of_switch haction).trans (onSwitchHeld_toggle hswitch hmode)
      exact skip.congr hstep
  . next hmode =>
    have hmomentary : switch.mode.isMomentary = true := bne_iff_ne.mpr hmode
    cases prompt with
    | moved event =>
      have hstep := (Prompt.moved_of_switch haction).trans
        (onSwitchMoved_momentary hswitch hmomentary event.closed)
      exact (ite (onDown hrelay hmomentary hlt) (onUp hrelay hmomentary hlt)).congr hstep
    | held button =>
      have hstep := (Prompt.held_of_switch haction).trans
        (onSwitchHeld_momentary hswitch hmomentary)
      exact (ite (onLongPress hrelay hmomentary hlt) skip).congr hstep

end Follows

end Controller

namespace Device

open Controller

/--
However a switch is set up and whatever state its device is in, it tells bound devices nothing that
contradicts its relay. If they are to follow the relay, or to do the opposite, they are told what the
relay is once the event is dealt with, and so they are if a toggle switch drives its relay to its
position. Otherwise they are told to toggle. A flip tells them exactly one thing. No other relay
changes, and nothing is said under the number of another switch.
-/
theorem bound_devices_hear_of_relay (device : Device) (prompt : Prompt) {i r : Nat}
    {switch : Switch} (haction : device.part.contacts.action? prompt.button = some (.switch i))
    (hswitch : device.part.switch? i = some switch) (hrelay : switch.relay? = some r)
    (hlt : r < device.part.relays.size) :
    let after := device.step prompt.step
    let told := Command.sends (switch.speaksAs i) (prompt.step.commands device.part)
    (∀ j, after.board.sends j
        = device.board.sends j ++ if j = switch.speaksAs i then told else [])
      ∧ (∃ on, after.part.relays.states[r]? = some on ∧ ∀ command ∈ told, switch.MayTell on command)
      ∧ (switch.mode = .toggle → ∀ event, prompt = .moved event → ∃ command, told = [command])
      ∧ ∀ j, j ≠ r → after.part.relays.get? j = device.part.relays.get? j := by
  intro after told
  have hfollows := Follows.prompt haction hswitch hrelay hlt
  refine ⟨?_, ?_, ?_, fun j => hfollows.drives.get?_of_ne⟩
  . intro j
    have hsends : after.board.sends j
        = device.board.sends j ++ Command.sends j (prompt.step.commands device.part) :=
      Board.sends_performAll _ _ _
    rw [hsends]
    congr 1
    split
    . next hname => rw [hname]
    . next hname => exact hfollows.silent j hname
  . refine ⟨after.part.relays.isOn r, RelayBank.states_of_lt_size ?_, hfollows.tells⟩
    exact hlt.trans_eq hfollows.drives.size_eq.symm
  . rintro hmode event rfl
    have hstep := step_moved_toggle haction hswitch hmode
    have hname : i = switch.speaksAs i := (if_pos hmode).symm
    have htold : told = Command.sends (switch.speaksAs i)
        ((onFlip i switch event.closed).commands device.part) :=
      congrArg (fun next => Command.sends (switch.speaksAs i) next.2) hstep
    rw [htold, sends_onFlip hrelay, if_pos hname]
    exact ⟨_, rfl⟩

theorem bound_devices_hear_of_relay_when_opposed :
    let store : Store := ⟨16, 256, [(Key.config, Bytes.ascii "Acme;ACME-1;SB1u;RC2;SB2u;RC3;")]⟩
    let board := Board.idle [] .joined (.sound store)
    let switch := { Switch.standard 0 0 with action := .toggleSmartOpposite }
    ∃ booted, boot board .router = .ok booted
      ∧ let device := booted.step (setAction 0 .toggleSmartOpposite).step
        let after := device.step (Prompt.moved ⟨0, true⟩).step
        device.part.contacts.action? 0 = some (.switch 0) ∧ device.part.switch? 0 = some switch
          ∧ switch.relay? = some 0 ∧ 0 < device.part.relays.size
          ∧ after.part.relays.states[0]? = some true
          ∧ after.board.sends 0 = device.board.sends 0 ++ [.off]
          ∧ after.part.relays.get? 1 = device.part.relays.get? 1 := by
  intro store board switch
  have hfacts : (boot board .router).toOption.map (fun booted =>
      let device := booted.step (setAction 0 .toggleSmartOpposite).step
      decide (device.part.contacts.action? 0 = some (.switch 0)
        ∧ device.part.switch? 0 = some switch ∧ 0 < device.part.relays.size
        ∧ (device.step (Prompt.moved ⟨0, true⟩).step).part.relays.states[0]? = some true))
        = some true := by
    decide +kernel
  obtain ⟨booted, hboot, hbooted⟩ := exists_of_map_boot hfacts
  rw [decide_eq_true_eq] at hbooted
  obtain ⟨haction, hswitch, hlt, hstate⟩ := hbooted
  have hrelay : switch.relay? = some 0 := rfl
  obtain ⟨hsends, ⟨on, hon, hmay⟩, hone, hothers⟩ :=
    bound_devices_hear_of_relay _ (.moved ⟨0, true⟩) haction hswitch hrelay hlt
  obtain ⟨command, htold⟩ := hone rfl _ rfl
  have hopposite := hmay command (by rw [htold]; exact .head _)
  rw [hstate, Option.some.injEq] at hon
  subst hon
  have hsent := hsends 0
  rw [htold, show command = .off from hopposite] at hsent
  exact ⟨booted, hboot, haction, hswitch, hrelay, hlt, hstate, hsent, hothers 1 (by decide)⟩

end Device

end WallSwitch
