import WallSwitch.Proofs.ConfigText.Compiled
import WallSwitch.Proofs.DeviceConfig.References

/-!
This module contains which LED only shows the network status: the last one that was added for that,
whatever LEDs were added for the relays before and after it.
-/

namespace WallSwitch

def Peripheral.statusLed? : Peripheral → Option Led
  | .statusLed pin activeHigh => some ⟨pin, activeHigh⟩
  | _ => none

theorem getLast?_filterMap_concat {α β : Type} (f : α → Option β) (as : List α) (a : α) :
    ((as ++ [a]).filterMap f).getLast? = (f a).or (as.filterMap f).getLast? := by
  rw [List.filterMap_append, List.getLast?_append]
  cases h : f a <;> simp [h]

namespace DeviceConfig

/--
This LED alone shows the network status, or there is no LED for that alone.
-/
def Dedicates (config : DeviceConfig) : Option Led → Prop
  | none => config.hasDedicatedLed = false
  | some led => config.hasDedicatedLed = true
    ∧ ∃ place, config.networkLeds.toList = LedSlots.filled 4 [place]
      ∧ config.leds[place]? = some led

variable {config config' : DeviceConfig} {peripheral : Peripheral} {found : Option Led} {led : Led}

namespace Dedicates

theorem addStatusLed (config : DeviceConfig) (led : Led) :
    (config.addStatusLed led).Dedicates (some led) := by
  refine ⟨rfl, config.leds.length, LedSlots.toList_only _ (by decide), ?_⟩
  simp [DeviceConfig.addStatusLed]

theorem addIndicatorLed (h : config.Dedicates found) (led : Led) :
    (config.addIndicatorLed led).Dedicates found := by
  cases found with
  | none => exact h
  | some shown =>
    obtain ⟨hdedicated, place, hnetwork, hget⟩ := h
    have hkept : (config.addIndicatorLed led).networkLeds = config.networkLeds := if_pos hdedicated
    refine ⟨hdedicated, place, by rw [hkept, hnetwork], ?_⟩
    exact (List.getElem?_append_left (List.getElem?_eq_some_iff.mp hget).1).trans hget

theorem add (h : config.Dedicates found) (hadd : config.add peripheral = .ok config') :
    config'.Dedicates (peripheral.statusLed?.or found) := by
  have heq := eq_extend_of_add hadd
  subst heq
  cases peripheral with
  | statusLed pin activeHigh => exact addStatusLed config ⟨pin, activeHigh⟩
  | indicatorLed pin activeHigh => exact h.addIndicatorLed ⟨pin, activeHigh⟩
  | _ => cases found <;> exact h

theorem foldlM_add {peripherals : List Peripheral} (h : config.Dedicates none)
    (hfold : peripherals.foldlM DeviceConfig.add config = .ok config') :
    config'.Dedicates (peripherals.filterMap Peripheral.statusLed?).getLast? := by
  apply foldlM_add_induction_on (P := fun config before =>
    config.Dedicates (before.filterMap Peripheral.statusLed?).getLast?) _ peripherals config [] hfold h
  intro config before peripheral config' hadd hbefore
  rw [getLast?_filterMap_concat]
  exact hbefore.add hadd

theorem networkLedList_eq (h : config.Dedicates (some led)) : config.networkLedList = [led] := by
  obtain ⟨_, place, hnetwork, hget⟩ := h
  unfold networkLedList
  rw [hnetwork]
  simp [LedSlots.filled, hget]

end Dedicates

end DeviceConfig

theorem ConfigText.dedicates_of_compile {text : ConfigText} {blueprint : Blueprint}
    (h : text.compile.1 = .ok blueprint) :
    blueprint.config.Dedicates (text.peripherals.filterMap Peripheral.statusLed?).getLast? := by
  have hnone : (DeviceConfig.named text.manufacturer text.model).Dedicates none := rfl
  exact hnone.foldlM_add (assembled_of_compile h).1

end WallSwitch
