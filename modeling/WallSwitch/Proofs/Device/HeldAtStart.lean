import WallSwitch.Proofs.Device.Pressing

/-!
This module contains what a momentary switch does before its first press: nothing, unless it is down
when the device starts. Then it takes its release for the end of a short press.
-/

namespace WallSwitch

namespace Device

open Controller

variable {device : Device} {board : Board} {role : Role} {events : List DeviceEvent} {i : Nat}
variable {switch : Switch}

/--
As long as a momentary switch has not reported a press, its button took no turn, or it was down when
the device started and its only turn was to come up. The switch acts then as at the end of a short
press.
-/
theorem acts_before_first_press (hboot : boot board role = .ok device)
    (hidle : board.agenda.pending = []) (hswitch : device.part.switch? i = some switch)
    (hmomentary : switch.mode.isMomentary = true) (htimely : device.Timely events)
    (hkept : ∀ event ∈ events, event.KeepsMode i switch.mode)
    (hnone : .press ∉ ((device.after events).board.reports i).drop (device.board.reports i).length) :
    let last := device.after events
    let turns := (device.turns events).filter (·.button = switch.button)
    device.Along TakesTurns events
      ∧ ((turns = [] ∧ last.board.sends i = device.board.sends i)
        ∨ isDownAt switch (device.part.contacts.isClosed switch.button) = true
          ∧ ∃ turn, turns = [turn] ∧ turn.CarriesOut i .shortPress
            ∧ last.board.sends i = device.board.sends i ++ Command.sends i turn.commands) := by
  intro last turns
  refine ⟨device.along_takesTurns events, ?_⟩
  obtain ⟨deeds, phase, h⟩ := exists_pressing_after hboot hidle hswitch hmomentary htimely hkept
  have hdeeds : ∀ deed ∈ deeds, deed.action ≠ .press := by
    rw [h.reports, List.drop_left] at hnone
    intro deed hmem heq
    exact hnone (heq ▸ List.mem_map_of_mem hmem)
  have hstart : startPhase switch (device.part.contacts.isClosed switch.button) = .up
      ∨ startPhase switch (device.part.contacts.isClosed switch.button) = .downFromStart := by
    unfold startPhase
    split
    . exact .inr rfl
    . exact .inl rfl
  have hsends : last.board.sends i
      = device.board.sends i ++ turns.flatMap (fun turn => Command.sends i turn.commands) := h.sends
  have hcarried : List.Forall₂ (Turn.CarriesOut i) deeds turns := h.carried
  rcases h.presses.eq_of_no_press hstart hdeeds with ⟨rfl, _⟩ | ⟨hdown, rfl, _⟩
  . left
    rw [List.forall₂_nil_left_iff] at hcarried
    rw [hcarried] at hsends
    exact ⟨hcarried, by simpa using hsends⟩
  . right
    refine ⟨?_, ?_⟩
    . unfold startPhase at hdown
      split at hdown
      . assumption
      . cases hdown
    . obtain ⟨turn, rest, hturn, hrest, hturns⟩ := List.forall₂_cons_left_iff.mp hcarried
      rw [List.forall₂_nil_left_iff] at hrest
      rw [hrest] at hturns
      rw [hturns] at hsends
      exact ⟨turn, hturns, hturn, by simpa using hsends⟩

theorem acts_before_first_press_of_held_switch :
    let store : Store := ⟨16, 256, [(Key.config, Bytes.ascii "Acme;ACME-1;RB2;SB0u;M;")]⟩
    let board := Board.idle [] .joined (.sound store)
    let events := [.board (.goTo 5000), .input (.line 1 0) true, .fire .settle 5003]
    ∃ device switch, boot board .router = .ok device
      ∧ device.part.switch? 0 = some switch
      ∧ switch.mode.isMomentary = true
      ∧ device.Timely events
      ∧ (∀ event ∈ events, event.KeepsMode 0 switch.mode)
      ∧ .press ∉ ((device.after events).board.reports 0).drop (device.board.reports 0).length
      ∧ ∃ turn, (device.turns events).filter (·.button = switch.button) = [turn]
        ∧ turn.CarriesOut 0 .shortPress := by
  intro store board events
  have hfacts : (boot board .router).toOption.map (fun device =>
      decide (((device.part.switch? 0).map fun switch => (switch.button, switch.mode))
          = some (0, .momentary)
        ∧ device.Timely events
        ∧ (∀ event ∈ events, event.KeepsMode 0 .momentary)
        ∧ .press ∉ ((device.after events).board.reports 0).drop (device.board.reports 0).length
        ∧ device.board.sends 0 ≠ (device.after events).board.sends 0)) = some true := by
    decide +kernel
  obtain ⟨device, hboot, hdevice⟩ := exists_of_map_boot hfacts
  rw [decide_eq_true_eq] at hdevice
  obtain ⟨hplace, htimely, hkept, hnone, hspoken⟩ := hdevice
  obtain ⟨switch, hswitch, hplace⟩ := Option.map_eq_some_iff.mp hplace
  rw [Prod.mk.injEq] at hplace
  obtain ⟨hbutton, hmode⟩ := hplace
  have hmomentary : switch.mode.isMomentary = true := by rw [hmode]; rfl
  rw [← hmode] at hkept
  refine ⟨device, switch, hboot, hswitch, hmomentary, htimely, hkept, hnone, ?_⟩
  obtain ⟨_, hacts⟩ := acts_before_first_press hboot rfl hswitch hmomentary htimely hkept hnone
  rcases hacts with ⟨_, hsilent⟩ | ⟨_, turn, hturns, hturn, _⟩
  . exact absurd hsilent.symm hspoken
  . exact ⟨turn, hturns, hturn⟩

/--
A push switch is held while the device starts and let go five seconds later. It never reports a press,
but it switches its relay on and tells the devices bound to it to toggle.
-/
theorem switch_held_at_start_acts_on_release :
    let store : Store := ⟨16, 256, [(Key.config, Bytes.ascii "Acme;ACME-1;RB2;SB0u;M;")]⟩
    let board := Board.idle [] .joined (.sound store)
    let events := [.board (.goTo 5000), .input (.line 1 0) true, .fire .settle 5003]
    ∃ device, boot board .router = .ok device
      ∧ (device.part.switch? 0).map (·.mode) = some .momentary
      ∧ device.part.contacts.isClosed 0 = true
      ∧ device.Timely events
      ∧ (∀ event ∈ events, event.KeepsMode 0 .momentary)
      ∧ device.board.reports 0 = []
      ∧ device.board.sends 0 = []
      ∧ device.part.relays.isOn 0 = false
      ∧ (device.after events).board.reports 0 = [.released]
      ∧ (device.after events).board.sends 0 = [.toggle]
      ∧ (device.after events).part.relays.isOn 0 = true
      ∧ (device.after events).board.level (.line 1 2) = true := by
  intro store board events
  have hfacts : (boot board .router).toOption.map (fun device =>
      decide ((device.part.switch? 0).map (·.mode) = some .momentary
        ∧ device.part.contacts.isClosed 0 = true
        ∧ device.Timely events
        ∧ (∀ event ∈ events, event.KeepsMode 0 .momentary)
        ∧ device.board.reports 0 = []
        ∧ device.board.sends 0 = []
        ∧ device.part.relays.isOn 0 = false
        ∧ (device.after events).board.reports 0 = [.released]
        ∧ (device.after events).board.sends 0 = [.toggle]
        ∧ (device.after events).part.relays.isOn 0 = true
        ∧ (device.after events).board.level (.line 1 2) = true)) = some true := by
    decide +kernel
  obtain ⟨device, hboot, hdevice⟩ := exists_of_map_boot hfacts
  rw [decide_eq_true_eq] at hdevice
  exact ⟨device, hboot, hdevice⟩

end Device

end WallSwitch
