import WallSwitch.Proofs.Device.Starting

/-!
This module contains which button belongs to which switch. The configuration text says so, and nothing
that happens to a device changes it, whatever settings its switches are given.
-/

namespace WallSwitch

namespace Controller

def wiring (controller : Controller) : List Button × List (Nat × Nat) :=
  (controller.contacts.contacts.map (·.button), controller.config.switches.map (·.place))

variable {controller next : Controller} {commands : List Command} {i button : Nat} {switch : Switch}

/-! ### What keeps the wiring -/

theorem config_reaction (h : Reaction controller next commands) :
    next.config = controller.config := by
  induction h with
  | setRelay controller i on =>
    unfold setRelay
    rw [Step.state_choose]
    split <;> rfl
  | trans _ _ ih ihnext => exact ihnext.trans ih
  | _ => rfl

theorem contacts_setRelay (controller : Controller) (i : Nat) (on : Bool) :
    ((setRelay i on).state controller).contacts = controller.contacts := by
  unfold setRelay
  rw [Step.state_choose]
  split <;> rfl

theorem wiring_reaction (h : Reaction controller next commands) :
    next.wiring = controller.wiring := by
  have hconfig := config_reaction h
  unfold wiring
  rw [hconfig]
  congr 1
  induction h with
  | setRelay controller i on => rw [contacts_setRelay]
  | note controller contacts longPressed hcontacts => exact hcontacts
  | trans hfirst hsecond ih ihnext =>
    exact (ihnext (config_reaction hsecond)).trans (ih (config_reaction hfirst))
  | _ => rfl

theorem map_place_changeSwitch (change : SwitchChange) (i : Nat) :
    ((DeviceCall.changeSwitch i change).step.state controller).config.switches.map (·.place)
      =
    controller.config.switches.map (·.place) := by
  rw [DeviceCall.step_changeSwitch]
  simp only [changeSwitch, Request.step, Step.state]
  split
  . rfl
  . next switch hget =>
    have hplace : (change.apply switch).place = switch.place := by cases change <;> rfl
    dsimp only
    rw [List.map_set, hplace]
    apply List.ext_getElem?
    intro j
    rw [List.getElem?_set]
    split
    . next heq =>
      subst heq
      rw [if_pos (by simpa using (List.getElem?_eq_some_iff.mp hget).1), List.getElem?_map]
      exact (congrArg (Option.map Switch.place) hget).symm
    . rfl

theorem wiring_call (asked : DeviceCall) :
    (asked.step.state controller).wiring = controller.wiring := by
  cases asked with
  | setRelay i on => exact wiring_reaction (.setRelay controller i on)
  | toggleRelay i => exact wiring_reaction (reacts_toggleRelay i)
  | onStatus status =>
    simp only [DeviceCall.step, onStatus, Step.state_andThen]
    split <;> rfl
  | changeSwitch i change =>
    refine Prod.ext_iff.mpr ⟨?_, map_place_changeSwitch change i⟩
    obtain ⟨config, hstate⟩ := controller.exists_state_changeSwitch i fun switch => change.apply switch
    rw [DeviceCall.step_changeSwitch, hstate]
    rfl
  | _ => rfl

/-! ### Matching -/

/--
Switches know their own places, and every switch has a button that belongs to no other.
-/
structure Matched (controller : Controller) : Prop where
  index : ∀ i switch, controller.switch? i = some switch → switch.index = i
  action : ∀ i switch, controller.switch? i = some switch →
    controller.contacts.action? switch.button = some (.switch i)
  switch : ∀ button i, controller.contacts.action? button = some (.switch i) →
    ∃ switch, controller.switch? i = some switch ∧ switch.button = button
  few : controller.config.switches.length ≤ 5

theorem action?_eq (controller : Controller) (button : Nat) :
    controller.contacts.action? button = (controller.wiring.1[button]?).map (·.action) := by
  unfold Contacts.action? Contacts.button? wiring
  rw [List.getElem?_map]

theorem action?_congr (h : next.wiring = controller.wiring) (button : Nat) :
    next.contacts.action? button = controller.contacts.action? button := by
  rw [action?_eq, action?_eq, h]

theorem map_place_switch? (controller : Controller) (i : Nat) :
    (controller.switch? i).map (·.place) = controller.wiring.2[i]? := by
  unfold switch? wiring
  rw [List.getElem?_map]

theorem exists_switch_of_wiring (h : next.wiring = controller.wiring)
    (hswitch : next.switch? i = some switch) :
    ∃ old, controller.switch? i = some old ∧ old.index = switch.index
      ∧ old.button = switch.button := by
  have hplace := next.map_place_switch? i
  rw [h, ← map_place_switch?, hswitch] at hplace
  obtain ⟨old, hold, heq⟩ := Option.map_eq_some_iff.mp hplace.symm
  exact ⟨old, hold, congrArg Prod.fst heq, congrArg Prod.snd heq⟩

theorem Matched.congr (h : controller.Matched) (hwiring : next.wiring = controller.wiring) :
    next.Matched where
  index := by
    intro i switch hswitch
    obtain ⟨old, hold, hindex, _⟩ := exists_switch_of_wiring hwiring hswitch
    rw [← hindex, h.index i old hold]
  action := by
    intro i switch hswitch
    obtain ⟨old, hold, _, hbutton⟩ := exists_switch_of_wiring hwiring hswitch
    rw [action?_congr hwiring, ← hbutton, h.action i old hold]
  switch := by
    intro button i haction
    rw [action?_congr hwiring] at haction
    obtain ⟨old, hold, hbutton⟩ := h.switch button i haction
    obtain ⟨switch, hswitch, _, hsame⟩ := exists_switch_of_wiring hwiring.symm hold
    exact ⟨switch, hswitch, hsame.trans hbutton⟩
  few := by
    have hlength := congrArg (fun wiring => wiring.2.length) hwiring
    simp only [wiring, List.length_map] at hlength
    rw [hlength]
    exact h.few

theorem Matched.action?_ne (h : controller.Matched) (hswitch : controller.switch? i = some switch)
    (hother : button ≠ switch.button) : controller.contacts.action? button ≠ some (.switch i) := by
  intro haction
  obtain ⟨known, hknown, hbutton⟩ := h.switch button i haction
  rw [hswitch, Option.some.injEq] at hknown
  rw [← hknown] at hbutton
  exact hother hbutton.symm

end Controller

namespace Device

open Controller

variable {device : Device} {board : Board} {role : Role}

theorem action?_of_boot (h : boot board role = .ok device) (button : Nat) :
    device.part.contacts.action? button = (device.part.config.buttons[button]?).map (·.action) := by
  rw [action?_eq, ← (builtFrom_of_boot h).buttons]
  rfl

theorem matched_of_boot (h : boot board role = .ok device) : device.part.Matched := by
  have hpaired := paired_of_boot h
  have haction (button : Nat) : device.part.contacts.action? button
      = (device.part.config.buttons.map (·.action))[button]? := by
    rw [action?_of_boot h, List.getElem?_map]
  refine ⟨?_, ?_, ?_, count_le_of_boot h .switches⟩
  . intro i switch hswitch
    exact (numbered_of_boot h).index_switch hswitch
  . intro i switch hswitch
    rw [haction]
    exact hpaired.action_of_switch hswitch
  . intro button i hbutton
    rw [haction, ← hpaired, List.getElem?_map] at hbutton
    exact Option.map_eq_some_iff.mp hbutton

end Device

end WallSwitch
