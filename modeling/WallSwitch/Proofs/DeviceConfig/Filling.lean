import WallSwitch.DeviceConfig.Filling
import WallSwitch.Proofs.DeviceConfig.Capacity

/-!
This module contains the proof that a peripheral is added in place as a whole or not at all, whatever
configuration it is added to, and that this leaves alone what is already there.
-/

namespace WallSwitch

namespace Filling

variable {α β : Type}

theorem run_bind (first : Filling α) (next : α → Filling β) (config : DeviceConfig) :
    (first >>= next).run.run config
      =
    match first.run.run config with
    | (.ok a, config) => (next a).run.run config
    | (.error error, config) => (.error error, config) := by
  rw [ExceptT.run_bind, StateT.run_bind]
  cases first.run.run config with
  | mk outcome config => cases outcome <;> rfl

theorem run_get (config : DeviceConfig) :
    (get : Filling DeviceConfig).run.run config = (.ok config, config) := rfl

theorem run_modify (f : DeviceConfig → DeviceConfig) (config : DeviceConfig) :
    (modify f : Filling Unit).run.run config = (.ok (), f config) := rfl

theorem run_lift (outcome : Except ConfigError α) (config : DeviceConfig) :
    (liftM outcome : Filling α).run.run config = (outcome, config) := rfl

end Filling

namespace LedSlots

theorem getElem?_fillFirst_of_some (led : Nat) {other : Nat} {slots : List (Option Nat)} :
    ∀ {i : Nat}, slots[i]? = some (some other) → (fillFirst led slots)[i]? = some (some other) := by
  fun_induction fillFirst led slots with
  | case1 =>
    intro i h
    exact h
  | case2 slots =>
    intro i h
    cases i with
    | zero => cases h
    | succ i => exact h
  | case3 shown slots ih =>
    intro i h
    cases i with
    | zero => exact h
    | succ i => exact ih h

theorem getElem?_assign_of_some {n i other : Nat} {slots : LedSlots n} (led : Nat)
    (h : slots[i]? = some (some other)) : (slots.assign led)[i]? = some (some other) := by
  rw [← Vector.getElem?_toList] at h ⊢
  exact getElem?_fillFirst_of_some led h

end LedSlots

namespace DeviceConfig

open Filling

variable {config next : DeviceConfig} {kind : Peripherals} {change : DeviceConfig → DeviceConfig}
variable {peripheral : Peripheral} {error : ConfigError}

/-! ### In place -/

def allOrNothing (config : DeviceConfig) :
    Except ConfigError DeviceConfig → Except ConfigError Unit × DeviceConfig
  | .ok next => (.ok (), next)
  | .error error => (.error error, config)

theorem run_place (kind : Peripherals) (change : DeviceConfig → DeviceConfig)
    (config : DeviceConfig) :
    (place kind change).run.run config
      =
    match config.reserve kind with
    | .ok _ => (.ok (config.count kind), change config)
    | .error error => (.error error, config) := by
  unfold place
  simp only [run_bind, run_get, run_lift]
  cases config.reserve kind <;> rfl

theorem run_place_bind {rest : Nat → Filling Unit}
    (hrest : (rest (config.count kind)).run.run (change config) = (.ok (), next)) :
    (place kind change >>= rest).run.run config
      =
    config.allOrNothing (do config.reserve kind; return next) := by
  rw [run_bind, run_place]
  cases config.reserve kind with
  | error error => rfl
  | ok _ => exact hrest

theorem filled_switch (config : DeviceConfig) (pin : Pin) (pull : Pull) :
    config.filled (.switch pin pull) = config.allOrNothing (config.add (.switch pin pull)) := by
  unfold filled fill
  rw [run_bind, run_get]
  dsimp only
  rw [run_bind, run_lift]
  unfold add
  dsimp only
  cases hswitches : config.reserve .switches with
  | error error => rfl
  | ok _ =>
    apply run_place_bind
    -- The contact takes a place among the buttons, so there is still room for the switch.
    have hroom : (config.addButton ⟨pin, pull, .switch (config.count .switches)⟩).reserve .switches
        = .ok () := hswitches
    unfold placeSwitch
    rw [run_bind, run_place, hroom]
    rfl

theorem filled_indicatorLed (config : DeviceConfig) (pin : Pin) (activeHigh : Bool) :
    config.filled (.indicatorLed pin activeHigh)
      =
    config.allOrNothing (config.add (.indicatorLed pin activeHigh)) := by
  apply run_place_bind
  unfold addIndicatorLed
  rw [run_bind, run_modify]
  dsimp only
  rw [run_bind, run_get]
  dsimp only
  cases h : config.hasDedicatedLed <;> rfl

theorem filled_eq (config : DeviceConfig) (peripheral : Peripheral) :
    config.filled peripheral = config.allOrNothing (config.add peripheral) := by
  cases peripheral with
  | button pin pull => exact run_place_bind rfl
  | switch pin pull => exact config.filled_switch pin pull
  | statusLed pin activeHigh => exact run_place_bind rfl
  | indicatorLed pin activeHigh => exact config.filled_indicatorLed pin activeHigh
  | relay pin offPin? => exact run_place_bind rfl
  | imageType value => rfl
  | simultaneousPulses => rfl
  | momentarySwitches => rfl

/-! ### What stays -/

/--
All that was there before the peripheral was added is there as it was, except that the mark of
momentary switches makes all of them momentary, and only what the peripheral takes came with it.
-/
structure Keeps (config : DeviceConfig) (peripheral : Peripheral) (next : DeviceConfig) : Prop where
  buttons : config.buttons <+: next.buttons
  leds : config.leds <+: next.leds
  relays : config.relays <+: next.relays
  switches : (if peripheral = .momentarySwitches then
      config.switches.map fun switch => { switch with mode := .momentary }
    else config.switches) <+: next.switches
  relayIndicators : ∀ i led : Nat, config.relayIndicators[i]? = some (some led) →
    next.relayIndicators[i]? = some (some led)
  count : ∀ kind, next.count kind = config.count kind + if peripheral.takes kind then 1 else 0

theorem keeps_extend (config : DeviceConfig) (peripheral : Peripheral) :
    config.Keeps peripheral (config.extend peripheral) where
  buttons := by
    cases peripheral with
    | button | switch => exact List.prefix_append _ _
    | _ => exact List.prefix_rfl
  leds := by
    cases peripheral with
    | statusLed | indicatorLed => exact List.prefix_append _ _
    | _ => exact List.prefix_rfl
  relays := by
    cases peripheral with
    | relay => exact List.prefix_append _ _
    | _ => exact List.prefix_rfl
  switches := by
    cases peripheral with
    | switch => exact List.prefix_append _ _
    | _ => exact List.prefix_rfl
  relayIndicators := by
    intro i led h
    cases peripheral with
    | indicatorLed => exact LedSlots.getElem?_assign_of_some _ h
    | _ => exact h
  count := config.count_extend peripheral

/--
A peripheral that cannot be added in place leaves the configuration exactly as it was, and one that
can be leaves alone what was there before. Adding it in place comes to the same as adding it at once.
-/
theorem filled_whole_or_not_at_all (config : DeviceConfig) (peripheral : Peripheral) :
    let filled := config.filled peripheral
    (∀ error, filled.1 = .error error → filled.2 = config)
      ∧ (filled.1 = .ok () → config.Keeps peripheral filled.2)
      ∧ config.add peripheral = filled.1.map fun _ => filled.2 := by
  intro filled
  have hfilled : filled = config.allOrNothing (config.add peripheral) := config.filled_eq peripheral
  rw [hfilled]
  cases hadd : config.add peripheral with
  | error error => exact ⟨fun _ _ => rfl, nofun, rfl⟩
  | ok next =>
    refine ⟨nofun, ?_, rfl⟩
    intro _
    rw [eq_extend_of_add hadd]
    exact config.keeps_extend peripheral

theorem filled_whole_or_not_at_all_without_contact :
    let button : Button := ⟨.line 0 0, .up, .factoryReset⟩
    let config := { empty with buttons := List.replicate 5 button }
    let peripheral := Peripheral.switch (.line 1 0) .up
    (config.filled peripheral).1 = .error (.capacityExceeded .buttons)
      ∧ (config.filled peripheral).2 = config
      ∧ (empty.filled peripheral).1 = .ok ()
      ∧ empty.Keeps peripheral (empty.filled peripheral).2 := by
  intro button config peripheral
  have hrefused : (config.filled peripheral).1 = .error (.capacityExceeded .buttons) := rfl
  have hadded : (empty.filled peripheral).1 = .ok () := rfl
  obtain ⟨hunchanged, _, _⟩ := filled_whole_or_not_at_all config peripheral
  obtain ⟨_, hkept, _⟩ := filled_whole_or_not_at_all empty peripheral
  exact ⟨hrefused, hunchanged _ hrefused, hadded, hkept hadded⟩

end DeviceConfig

end WallSwitch
