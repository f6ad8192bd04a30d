import WallSwitch.DeviceConfig.Basic

/-!
This module contains what a configuration looks like once peripherals were added to it, and what that
means for the numbers of its switches and relays, and for the buttons of its switches.
-/

namespace WallSwitch

def Switch.place (switch : Switch) : Nat × Nat :=
  (switch.index, switch.button)

namespace DeviceConfig

def extend (config : DeviceConfig) : Peripheral → DeviceConfig
  | .button pin pull => config.addButton ⟨pin, pull, .factoryReset⟩
  | .switch pin pull => config.addSwitch pin pull
  | .statusLed pin activeHigh => config.addStatusLed ⟨pin, activeHigh⟩
  | .indicatorLed pin activeHigh => config.addIndicatorLed ⟨pin, activeHigh⟩
  | .relay pin offPin? => config.addRelay pin offPin?
  | .imageType value => { config with imageType := some value }
  | .simultaneousPulses => { config with simultaneousPulses := true }
  | .momentarySwitches =>
    { config with
      switches := config.switches.map fun switch => { switch with mode := .momentary } }

variable {config config' : DeviceConfig} {peripheral : Peripheral} {peripherals : List Peripheral}

theorem of_reserve_bind {kind : Peripherals} {next : Except ConfigError DeviceConfig}
    (h : (do config.reserve kind; next) = .ok config') :
    next = .ok config' ∧ config.count kind < capacity kind := by
  unfold reserve at h
  by_cases hroom : config.count kind < capacity kind
  . rw [if_pos hroom] at h
    exact ⟨h, hroom⟩
  . rw [if_neg hroom] at h
    cases h

theorem eq_extend_of_add (h : config.add peripheral = .ok config') :
    config' = config.extend peripheral := by
  cases peripheral with
  | switch pin pull => exact (Except.ok.inj (of_reserve_bind (of_reserve_bind h).1).1).symm
  | imageType value => exact (Except.ok.inj h).symm
  | simultaneousPulses => exact (Except.ok.inj h).symm
  | momentarySwitches => exact (Except.ok.inj h).symm
  | _ => exact (Except.ok.inj (of_reserve_bind h).1).symm

theorem lt_of_add_led {pin : Pin} {activeHigh : Bool}
    (h : config.add (.indicatorLed pin activeHigh) = .ok config') : config.leds.length < 5 :=
  (of_reserve_bind h).2

theorem foldlM_add_induction {P : DeviceConfig → Prop}
    (hadd : ∀ config peripheral config', config.add peripheral = .ok config' → P config → P config')
    (peripherals : List Peripheral) :
    ∀ (config : DeviceConfig), peripherals.foldlM add config = .ok config' → P config →
      P config' := by
  induction peripherals with
  | nil =>
    intro config hfold h
    cases hfold
    exact h
  | cons peripheral peripherals ih =>
    intro config hfold h
    rw [List.foldlM_cons] at hfold
    cases hfirst : config.add peripheral with
    | error error =>
      rw [hfirst] at hfold
      cases hfold
    | ok next =>
      rw [hfirst] at hfold
      exact ih next hfold (hadd config peripheral next hfirst h)

/-! ### Numbers -/

structure Numbered (config : DeviceConfig) : Prop where
  switches : config.switches.map (·.index) = List.range config.switches.length
  relays : config.relays.map (·.index) = List.range config.relays.length

theorem Numbered.extend (h : config.Numbered) (peripheral : Peripheral) :
    (config.extend peripheral).Numbered := by
  cases peripheral with
  | switch pin pull =>
    refine ⟨?_, h.relays⟩
    simp [DeviceConfig.extend, addSwitch, addButton, h.switches, List.range_succ, Switch.standard]
  | relay pin offPin? =>
    refine ⟨h.switches, ?_⟩
    simp [DeviceConfig.extend, addRelay, h.relays, List.range_succ]
  | momentarySwitches =>
    refine ⟨?_, h.relays⟩
    simp only [DeviceConfig.extend, List.map_map, List.length_map, ← h.switches]
    rfl
  | _ => exact ⟨h.switches, h.relays⟩

theorem Numbered.foldlM_add (h : config.Numbered)
    (hfold : peripherals.foldlM add config = .ok config') : config'.Numbered := by
  apply foldlM_add_induction _ _ _ hfold h
  intro config peripheral config' hadd hnumbered
  rw [eq_extend_of_add hadd]
  exact hnumbered.extend peripheral

theorem index_of_map_eq_range {α : Type} {index : α → Nat} {as : List α} {i : Nat} {a : α}
    (h : as.map index = List.range as.length) (hget : as[i]? = some a) : index a = i := by
  have hlt : i < as.length := (List.getElem?_eq_some_iff.mp hget).1
  have hindex : (as.map index)[i]? = (List.range as.length)[i]? := by rw [h]
  rw [List.getElem?_map, hget, List.getElem?_range hlt] at hindex
  exact Option.some.inj hindex

theorem Numbered.index_switch (h : config.Numbered) {i : Nat} {switch : Switch}
    (hget : config.switches[i]? = some switch) : switch.index = i :=
  index_of_map_eq_range h.switches hget

theorem Numbered.index_lt (h : config.Numbered) {switch : Switch}
    (hmem : switch ∈ config.switches) : switch.index < config.switches.length := by
  obtain ⟨i, hget⟩ := List.getElem?_of_mem hmem
  rw [h.index_switch hget]
  exact (List.getElem?_eq_some_iff.mp hget).1

theorem Numbered.index_relay (h : config.Numbered) {i : Nat} {drive : RelayDrive}
    (hget : config.relays[i]? = some drive) : drive.index = i :=
  index_of_map_eq_range h.relays hget

/-! ### Buttons of switches -/

def Paired (config : DeviceConfig) : Prop :=
  ∀ i button, (config.switches.map (·.button))[i]? = some button
    ↔ (config.buttons.map (·.action))[button]? = some (ButtonAction.switch i)

theorem getElem?_append_singleton_eq_some {α : Type} {as : List α} {a x : α} {i : Nat} :
    (as ++ [a])[i]? = some x ↔ as[i]? = some x ∨ (i = as.length ∧ a = x) := by
  rcases Nat.lt_trichotomy i as.length with hlt | rfl | hgt
  . simp [List.getElem?_append_left hlt, Nat.ne_of_lt hlt]
  . simp
  . have hnone : as[i]? = none := List.getElem?_eq_none (Nat.le_of_lt hgt)
    have hnone' : (as ++ [a])[i]? = none := List.getElem?_eq_none (by simp; omega)
    simp [hnone, hnone', Nat.ne_of_gt hgt]

theorem Paired.extend (h : config.Paired) (peripheral : Peripheral) :
    (config.extend peripheral).Paired := by
  intro i button
  cases peripheral with
  | button pin pull =>
    simp only [DeviceConfig.extend, addButton, List.map_append, List.map_cons, List.map_nil,
      getElem?_append_singleton_eq_some, reduceCtorEq, and_false, or_false]
    exact h i button
  | switch pin pull =>
    simp only [DeviceConfig.extend, addSwitch, addButton, Switch.standard, List.map_append,
      List.map_cons, List.map_nil, getElem?_append_singleton_eq_some, List.length_map,
      ButtonAction.switch.injEq]
    rw [h i button, eq_comm (a := i), eq_comm (b := button), and_comm]
  | momentarySwitches =>
    simp only [DeviceConfig.extend, List.map_map]
    exact h i button
  | _ => exact h i button

theorem Paired.action_of_switch (h : config.Paired) {i : Nat} {switch : Switch}
    (hget : config.switches[i]? = some switch) :
    (config.buttons.map (·.action))[switch.button]? = some (.switch i) := by
  rw [← h, List.getElem?_map, hget]
  rfl

end DeviceConfig

end WallSwitch
