import Mathlib.Data.List.Nodup
import WallSwitch.Proofs.DeviceConfig.Extending

/-!
This module contains which LEDs show the relays and which show the network status. No LED does both
once there is one that only shows the network status.
-/

namespace WallSwitch

namespace LedSlots

def filled (n : Nat) (leds : List Nat) : List (Option Nat) :=
  leds.map some ++ List.replicate (n - leds.length) none

theorem fillFirst_map_some (led : Nat) (leds : List Nat) (slots : List (Option Nat)) :
    fillFirst led (leds.map some ++ slots) = leds.map some ++ fillFirst led slots := by
  induction leds with
  | nil => rfl
  | cons other leds ih => simp [fillFirst, ih]

theorem fillFirst_filled {n : Nat} {leds : List Nat} (led : Nat) (h : leds.length < n) :
    fillFirst led (filled n leds) = filled n (leds ++ [led]) := by
  have hroom : n - leds.length = n - (leds.length + 1) + 1 := by omega
  unfold filled
  rw [fillFirst_map_some, hroom, List.replicate_succ]
  simp [fillFirst]

theorem fillFirst_filled_of_le {n : Nat} {leds : List Nat} (led : Nat) (h : n ≤ leds.length) :
    fillFirst led (filled n leds) = filled n leds := by
  unfold filled
  rw [fillFirst_map_some, Nat.sub_eq_zero_of_le h]
  rfl

theorem fillFirst_filled_take {n : Nat} (led : Nat) (leds : List Nat) :
    fillFirst led (filled n (leds.take n)) = filled n ((leds ++ [led]).take n) := by
  by_cases h : leds.length < n
  . rw [List.take_of_length_le (Nat.le_of_lt h), fillFirst_filled led h, List.take_of_length_le]
    rw [List.length_append]
    exact h
  . have hlength : n ≤ leds.length := Nat.le_of_not_lt h
    rw [fillFirst_filled_of_le led (by simp [hlength]), List.take_append_of_le_length hlength]

@[simp]
theorem toList_assign {n : Nat} (slots : LedSlots n) (led : Nat) :
    (slots.assign led).toList = fillFirst led slots.toList := rfl

theorem toList_free (n : Nat) : (free n).toList = filled n [] := by
  simp [free, filled]

theorem toList_only {n : Nat} (led : Nat) (h : 0 < n) : (only n led).toList = filled n [led] := by
  unfold only
  rw [toList_assign, toList_free, fillFirst_filled led h]
  rfl

theorem mem_filled {n : Nat} {leds : List Nat} {led : Nat} :
    some led ∈ filled n leds ↔ led ∈ leds := by
  simp [filled]

theorem getElem?_filled {n i led : Nat} {leds : List Nat}
    (h : (filled n leds)[i]? = some (some led)) : leds[i]? = some led := by
  unfold filled at h
  rw [List.getElem?_append] at h
  split at h
  . simpa using h
  . rw [List.getElem?_replicate] at h
    split at h
    . cases h
    . cases h

end LedSlots

namespace DeviceConfig

/--
The LEDs of the relays are those at the places `shown`, in this order. They show the network status
as well, as far as there is room, unless another LED is there for that.
-/
structure LedsAssigned (config : DeviceConfig) (shown : List Nat) : Prop where
  nodup : shown.Nodup
  inRange : ∀ led ∈ shown, led < config.leds.length
  length_le : shown.length ≤ config.leds.length
  indicators : config.relayIndicators.toList = LedSlots.filled 5 shown
  dedicated : config.hasDedicatedLed = true →
    ∃ led, led ∉ shown ∧ led < config.leds.length
      ∧ config.networkLeds.toList = LedSlots.filled 4 [led]
  borrowed : config.hasDedicatedLed = false →
    config.networkLeds.toList = LedSlots.filled 4 (shown.take 4)

variable {config config' : DeviceConfig} {shown : List Nat}

theorem ledsAssigned_named (config : DeviceConfig)
    (hindicators : config.relayIndicators = .free 5) (hnetwork : config.networkLeds = .free 4)
    (hdedicated : config.hasDedicatedLed = false) : config.LedsAssigned [] where
  nodup := List.nodup_nil
  inRange := by simp
  length_le := Nat.zero_le _
  indicators := by rw [hindicators, LedSlots.toList_free]
  dedicated := by simp [hdedicated]
  borrowed := by
    intro _
    rw [hnetwork, LedSlots.toList_free]
    rfl

theorem LedsAssigned.not_mem (h : config.LedsAssigned shown) : config.leds.length ∉ shown :=
  fun hmem => Nat.lt_irrefl _ (h.inRange _ hmem)

theorem LedsAssigned.addStatusLed (h : config.LedsAssigned shown) (led : Led) :
    (config.addStatusLed led).LedsAssigned shown where
  nodup := h.nodup
  inRange := by
    intro place hmem
    simpa [DeviceConfig.addStatusLed] using Nat.lt_succ_of_lt (h.inRange place hmem)
  length_le := by
    simpa [DeviceConfig.addStatusLed] using Nat.le_succ_of_le h.length_le
  indicators := h.indicators
  dedicated := by
    intro _
    refine ⟨config.leds.length, h.not_mem, ?_, LedSlots.toList_only _ (by decide)⟩
    simp [DeviceConfig.addStatusLed]
  borrowed := by simp [DeviceConfig.addStatusLed]

theorem LedsAssigned.addIndicatorLed (h : config.LedsAssigned shown) (led : Led)
    (hroom : config.leds.length < 5) :
    (config.addIndicatorLed led).LedsAssigned (shown ++ [config.leds.length]) where
  nodup := by
    rw [← List.concat_eq_append]
    exact h.nodup.concat h.not_mem
  inRange := by
    intro place hmem
    rw [List.mem_append, List.mem_singleton] at hmem
    simp only [DeviceConfig.addIndicatorLed, List.length_append, List.length_singleton]
    cases hmem with
    | inl hold => exact Nat.lt_succ_of_lt (h.inRange place hold)
    | inr hnew => omega
  length_le := by
    simpa [DeviceConfig.addIndicatorLed] using h.length_le
  indicators := by
    have hlength : shown.length < 5 := Nat.lt_of_le_of_lt h.length_le hroom
    rw [← LedSlots.fillFirst_filled _ hlength, ← h.indicators]
    rfl
  dedicated := by
    intro hdedicated
    obtain ⟨place, hplace, hlt, hnetwork⟩ := h.dedicated hdedicated
    refine ⟨place, ?_, ?_, ?_⟩
    . rw [List.mem_append, List.mem_singleton, not_or]
      exact ⟨hplace, Nat.ne_of_lt hlt⟩
    . simpa [DeviceConfig.addIndicatorLed] using Nat.lt_succ_of_lt hlt
    . have hkept : (config.addIndicatorLed led).networkLeds = config.networkLeds := if_pos hdedicated
      rw [hkept, hnetwork]
  borrowed := by
    intro hdedicated
    have hassigned : (config.addIndicatorLed led).networkLeds
        = config.networkLeds.assign config.leds.length :=
      if_neg (Bool.eq_false_iff.mp hdedicated)
    rw [hassigned, LedSlots.toList_assign, h.borrowed hdedicated, LedSlots.fillFirst_filled_take]

theorem LedsAssigned.add {peripheral : Peripheral} (h : config.LedsAssigned shown)
    (hadd : config.add peripheral = .ok config') : ∃ shown, config'.LedsAssigned shown := by
  have heq := eq_extend_of_add hadd
  subst heq
  cases peripheral with
  | statusLed pin activeHigh => exact ⟨shown, h.addStatusLed ⟨pin, activeHigh⟩⟩
  | indicatorLed pin activeHigh =>
    exact ⟨_, h.addIndicatorLed ⟨pin, activeHigh⟩ (lt_of_add_led hadd)⟩
  | _ =>
    exact ⟨shown, h.nodup, h.inRange, h.length_le, h.indicators, h.dedicated, h.borrowed⟩

/-! ### Different LEDs -/

theorem LedsAssigned.place_of_relayIndicator? (h : config.LedsAssigned shown) {relay : Nat}
    {led : Led} (hled : config.relayIndicator? relay = some led) :
    ∃ place, shown[relay]? = some place ∧ config.leds[place]? = some led := by
  unfold relayIndicator? at hled
  rw [Option.bind_eq_some_iff] at hled
  obtain ⟨place, hplace, hget⟩ := hled
  refine ⟨place, ?_, hget⟩
  rw [Option.join_eq_some_iff, ← Vector.getElem?_toList, h.indicators] at hplace
  exact LedSlots.getElem?_filled hplace

theorem mem_leds_of_relayIndicator? {relay : Nat} {led : Led}
    (hled : config.relayIndicator? relay = some led) : led ∈ config.leds := by
  unfold relayIndicator? at hled
  rw [Option.bind_eq_some_iff] at hled
  obtain ⟨place, _, hget⟩ := hled
  exact List.mem_of_getElem? hget

theorem pin_ne_of_place_ne {first second : Nat} {led other : Led}
    (hnodup : (config.leds.map (·.pin)).Nodup) (hfirst : config.leds[first]? = some led)
    (hsecond : config.leds[second]? = some other) (hne : first ≠ second) : led.pin ≠ other.pin := by
  intro heq
  apply hne
  have hlt : first < (config.leds.map (·.pin)).length := by
    simpa using (List.getElem?_eq_some_iff.mp hfirst).1
  apply (List.getElem?_inj hlt hnodup).mp
  simp [hfirst, hsecond, heq]

theorem LedsAssigned.indicator_ne (h : config.LedsAssigned shown)
    (hnodup : (config.leds.map (·.pin)).Nodup) {relay other : Nat} {led shownLed : Led}
    (hled : config.relayIndicator? relay = some led)
    (hother : config.relayIndicator? other = some shownLed) (hne : relay ≠ other) :
    led.pin ≠ shownLed.pin := by
  obtain ⟨first, hfirst, hget⟩ := h.place_of_relayIndicator? hled
  obtain ⟨second, hsecond, hget'⟩ := h.place_of_relayIndicator? hother
  apply pin_ne_of_place_ne hnodup hget hget'
  rintro rfl
  have hlt : relay < shown.length := (List.getElem?_eq_some_iff.mp hfirst).1
  exact hne ((List.getElem?_inj hlt h.nodup).mp (hfirst.trans hsecond.symm))

theorem LedsAssigned.network_ne (h : config.LedsAssigned shown)
    (hnodup : (config.leds.map (·.pin)).Nodup) (hdedicated : config.hasDedicatedLed = true)
    {relay : Nat} {led other : Led} (hled : config.relayIndicator? relay = some led)
    (hother : other ∈ config.networkLedList) : led.pin ≠ other.pin := by
  obtain ⟨place, hplace, hget⟩ := h.place_of_relayIndicator? hled
  obtain ⟨status, hstatus, _, hnetwork⟩ := h.dedicated hdedicated
  unfold networkLedList at hother
  rw [hnetwork, List.mem_filterMap] at hother
  obtain ⟨slot, hslot, hbind⟩ := hother
  rw [Option.bind_eq_some_iff] at hbind
  obtain ⟨second, rfl, hget'⟩ := hbind
  rw [LedSlots.mem_filled, List.mem_singleton] at hslot
  subst hslot
  apply pin_ne_of_place_ne hnodup hget hget'
  rintro rfl
  exact hstatus (List.mem_of_getElem? hplace)

end DeviceConfig

end WallSwitch
