import WallSwitch.Proofs.ConfigText.Refusal
import WallSwitch.Proofs.DeviceConfig.Leds

/-!
This module contains what is known of every configuration that comes out of a text.
-/

namespace WallSwitch

namespace ConfigText

open DeviceConfig

variable {text : ConfigText} {blueprint : Blueprint}

theorem assembled_of_compile (h : text.compile.1 = .ok blueprint) :
    text.peripherals.foldlM add (named text.manufacturer text.model) = .ok blueprint.config
      ∧ blueprint.config.Holds text.peripherals ∧ Fits text.peripherals := by
  rcases text.compiled_or_refused with ⟨hmanufacturer, hmodel, hfits⟩ | ⟨error, herror⟩
  . obtain ⟨config, hconfig, hholds⟩ :=
      foldlM_add_of_fits text.peripherals (holds_named text.manufacturer text.model) hfits
    have htopology := Topology.ofConfig_eq (endpointCount_le_of_fits hholds hfits)
    rw [compile_eq, nameOf_of_le _ hmanufacturer, nameOf_of_le _ hmodel] at h
    change (text.peripherals.foldlM add (named text.manufacturer text.model) >>= _) = _ at h
    rw [hconfig] at h
    change (Topology.ofConfig config >>= _) = _ at h
    rw [htopology] at h
    cases h
    exact ⟨hconfig, hholds, hfits⟩
  . rw [herror.compile_eq] at h
    cases h

theorem exists_of_bind_eq_ok {ε α β : Type} {first : Except ε α} {next : α → Except ε β} {b : β}
    (h : first >>= next = .ok b) : ∃ a, first = .ok a ∧ next a = .ok b := by
  cases first with
  | error error => cases h
  | ok a => exact ⟨a, rfl, h⟩

theorem topology_of_compile (h : text.compile.1 = .ok blueprint) :
    Topology.ofConfig blueprint.config = .ok blueprint.topology := by
  rw [compile_eq] at h
  obtain ⟨manufacturer, _, h⟩ := exists_of_bind_eq_ok h
  obtain ⟨model, _, h⟩ := exists_of_bind_eq_ok h
  obtain ⟨config, _, h⟩ := exists_of_bind_eq_ok h
  obtain ⟨topology, htopology, h⟩ := exists_of_bind_eq_ok h
  cases h
  exact htopology

theorem count_le_of_compile (h : text.compile.1 = .ok blueprint) (kind : Peripherals) :
    blueprint.config.count kind ≤ 5 := by
  obtain ⟨_, hholds, hfits⟩ := assembled_of_compile h
  rw [hholds kind]
  exact hfits kind

theorem numbered_of_compile (h : text.compile.1 = .ok blueprint) : blueprint.config.Numbered := by
  have hnamed : (named text.manufacturer text.model).Numbered := ⟨rfl, rfl⟩
  exact hnamed.foldlM_add (assembled_of_compile h).1

theorem paired_of_compile (h : text.compile.1 = .ok blueprint) : blueprint.config.Paired := by
  apply foldlM_add_induction _ _ _ (assembled_of_compile h).1
  . intro i button
    simp [named, DeviceConfig.empty]
  . intro config peripheral config' hadd hpaired
    rw [eq_extend_of_add hadd]
    exact hpaired.extend peripheral

theorem ledsAssigned_of_compile (h : text.compile.1 = .ok blueprint) :
    ∃ shown, blueprint.config.LedsAssigned shown := by
  have hadd (config : DeviceConfig) (peripheral : Peripheral) (config' : DeviceConfig)
      (hadd : config.add peripheral = .ok config')
      (hassigned : ∃ shown, config.LedsAssigned shown) : ∃ shown, config'.LedsAssigned shown := by
    obtain ⟨shown, hshown⟩ := hassigned
    exact hshown.add hadd
  exact foldlM_add_induction hadd _ _ (assembled_of_compile h).1
    ⟨[], ledsAssigned_named _ rfl rfl rfl⟩

end ConfigText

end WallSwitch
