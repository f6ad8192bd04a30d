import Mathlib.Data.List.Flatten
import Mathlib.Data.List.Nodup
import Mathlib.Data.List.Pairwise
import WallSwitch.Proofs.RelayBank.Moves

/-!
This module contains the pins that the relays of a device are wired to, and what it means that they
do not get into each other's way. No move of a bank changes its wiring.
-/

namespace WallSwitch

def RelayDrive.coils (drive : RelayDrive) : List Pin :=
  if drive.isLatching then drive.pins else []

theorem RelayDrive.mem_pins_of_mem_coils {drive : RelayDrive} {pin : Pin} (h : pin ∈ drive.coils) :
    drive.isLatching = true ∧ pin ∈ drive.pins := by
  unfold coils at h
  split at h
  . next hlatching => exact ⟨hlatching, h⟩
  . simp at h

namespace DeviceConfig

def coils (config : DeviceConfig) : List Pin :=
  config.relays.flatMap RelayDrive.coils

def plainPins (config : DeviceConfig) : List Pin :=
  (config.relays.filter fun drive => !drive.isLatching).map fun drive => drive.pin

def indicatorPins (config : DeviceConfig) (drive : RelayDrive) : List Pin :=
  (config.relayIndicator? drive.index).toList.map fun led => led.pin

def pinsOf (config : DeviceConfig) (drive : RelayDrive) : List Pin :=
  drive.pins ++ config.indicatorPins drive

def relayPins (config : DeviceConfig) : List Pin :=
  config.relays.flatMap config.pinsOf

structure CoilsApart (config : DeviceConfig) : Prop where
  nodup : config.coils.Nodup
  plain : ∀ pin ∈ config.coils, pin ∉ config.plainPins
  indicator : ∀ pin ∈ config.coils, pin ∉ config.relays.flatMap config.indicatorPins

theorem disjoint_pinsOf {config : DeviceConfig} {drive other : RelayDrive}
    (hnodup : config.relayPins.Nodup) (hdrive : drive ∈ config.relays)
    (hother : other ∈ config.relays) (hne : drive ≠ other) :
    List.Disjoint (config.pinsOf drive) (config.pinsOf other) := by
  have hpairs := (List.nodup_flatMap.mp hnodup).2
  have hsymm : Std.Symm (Function.onFun List.Disjoint config.pinsOf) :=
    ⟨fun _ _ h => List.disjoint_symm h⟩
  exact hpairs.forall hdrive hother hne

theorem mem_pinsOf_of_mem_coils {config : DeviceConfig} {drive : RelayDrive} {pin : Pin}
    (h : pin ∈ drive.coils) : pin ∈ config.pinsOf drive :=
  List.mem_append_left _ (RelayDrive.mem_pins_of_mem_coils h).2

theorem coilsApart_of_nodup {config : DeviceConfig} (hnodup : config.relayPins.Nodup) :
    config.CoilsApart where
  nodup := by
    apply List.Nodup.sublist _ hnodup
    apply List.Sublist.flatMap_right
    intro drive _
    unfold RelayDrive.coils
    split
    . exact List.sublist_append_left drive.pins _
    . exact List.nil_sublist _
  plain := by
    intro pin hcoil hplain
    obtain ⟨drive, hdrive, hpin⟩ := List.mem_flatMap.mp hcoil
    simp only [plainPins, List.mem_map, List.mem_filter] at hplain
    obtain ⟨other, ⟨hother, hlatching⟩, rfl⟩ := hplain
    have hne : drive ≠ other := by
      rintro rfl
      simp [(RelayDrive.mem_pins_of_mem_coils hpin).1] at hlatching
    apply disjoint_pinsOf hnodup hdrive hother hne (mem_pinsOf_of_mem_coils hpin)
    simp [pinsOf, RelayDrive.pins]
  indicator := by
    intro pin hcoil hindicator
    obtain ⟨drive, hdrive, hpin⟩ := List.mem_flatMap.mp hcoil
    obtain ⟨other, hother, hled⟩ := List.mem_flatMap.mp hindicator
    by_cases heq : drive = other
    . subst heq
      have hown := (List.nodup_flatMap.mp hnodup).1 drive hdrive
      exact List.disjoint_of_nodup_append hown (RelayDrive.mem_pins_of_mem_coils hpin).2 hled
    . apply disjoint_pinsOf hnodup hdrive hother heq (mem_pinsOf_of_mem_coils hpin)
      exact List.mem_append_right _ hled

end DeviceConfig

namespace Relay

def pins (relay : Relay) : List Pin :=
  relay.drive.pins ++ relay.indicator?.toList.map fun led => led.pin

theorem coils_of_isLatching {relay : Relay} (h : relay.drive.isLatching = true) :
    relay.drive.coils = relay.drive.pins := by
  simp [RelayDrive.coils, h]

theorem coil_mem_pins (relay : Relay) : relay.coil ∈ relay.drive.pins := by
  unfold coil RelayDrive.pins
  cases relay.isOn <;> cases relay.drive.offPin? <;> simp

theorem mem_pins_iff {relay : Relay} {pin : Pin} :
    pin ∈ relay.pins
      ↔
    pin ∈ relay.drive.pins ∨ ∃ led, relay.indicator? = some led ∧ pin = led.pin := by
  simp [pins, eq_comm]

/-! ### The writes among the commands of a relay -/

variable {relay : Relay} {pin : Pin} {high : Bool}

@[simp]
theorem write_mem_release :
    .write pin high ∈ relay.release ↔ pin ∈ relay.drive.pins ∧ high = !relay.drive.activeHigh := by
  simp only [release, List.mem_map, Command.write.injEq]
  constructor
  . rintro ⟨other, hmem, rfl, rfl⟩
    exact ⟨hmem, rfl⟩
  . rintro ⟨hmem, rfl⟩
    exact ⟨pin, hmem, rfl, rfl⟩

@[simp]
theorem write_mem_indicate :
    .write pin high ∈ relay.indicate
      ↔
    ∃ led, relay.indicator? = some led ∧ pin = led.pin ∧ high = led.levelFor relay.isOn := by
  simp [indicate, Led.drive]

@[simp]
theorem write_mem_tell {i : Nat} : .write pin high ∉ relay.tell i := by
  simp [tell]

@[simp]
theorem write_mem_makeKnown {i : Nat} :
    .write pin high ∈ relay.makeKnown i
      ↔
    ∃ led, relay.indicator? = some led ∧ pin = led.pin ∧ high = led.levelFor relay.isOn := by
  simp [makeKnown]

theorem write_mem_driveCommands {i : Nat} {on : Bool} :
    .write pin high ∈ relay.driveCommands i on
      ↔
    (pin = relay.drive.pin ∧ high = (on == relay.drive.activeHigh))
      ∨ ∃ led, relay.indicator? = some led ∧ pin = led.pin ∧ high = led.levelFor on := by
  simp [driveCommands]

theorem write_mem_pulseCommands {i : Nat} {on : Bool} :
    .write pin high ∈ relay.pulseCommands i on
      ↔
    (pin ∈ relay.drive.pins ∧ high = !relay.drive.activeHigh)
      ∨ (pin = (relay.turned on).coil ∧ high = relay.drive.activeHigh)
      ∨ ∃ led, relay.indicator? = some led ∧ pin = led.pin ∧ high = led.levelFor on := by
  simp [pulseCommands]

theorem write_mem_postponeCommands {i : Nat} {on : Bool} :
    .write pin high ∈ relay.postponeCommands i on
      ↔
    (pin ∈ relay.drive.pins ∧ high = !relay.drive.activeHigh)
      ∨ ∃ led, relay.indicator? = some led ∧ pin = led.pin ∧ high = led.levelFor on := by
  simp [postponeCommands]

theorem write_mem_retryCommands {i : Nat} :
    Command.write pin high ∈ relay.retryCommands i
      ↔
    pin = relay.coil ∧ high = relay.drive.activeHigh := by
  simp [retryCommands]

@[simp]
theorem write_mem_setUp :
    .write pin high ∈ relay.setUp
      ↔
    (pin ∈ relay.drive.pins ∧ high = !relay.drive.activeHigh)
      ∨ ∃ led, relay.indicator? = some led ∧ pin = led.pin ∧ high = led.levelFor false := by
  simp [setUp, Led.setUp, Led.drive]

end Relay

namespace RelayBank

structure BuiltFrom (bank : RelayBank) (config : DeviceConfig) : Prop where
  drives : bank.relays.map Relay.drive = config.relays
  indicators : ∀ relay ∈ bank.relays, relay.indicator? = config.relayIndicator? relay.drive.index
  simultaneous : bank.simultaneous = config.simultaneousPulses

theorem builtFrom_ofConfig (config : DeviceConfig) : (ofConfig config).BuiltFrom config where
  drives := by
    unfold ofConfig
    rw [List.map_map]
    exact List.map_id _
  indicators := by
    intro relay hmem
    simp only [ofConfig, List.mem_map] at hmem
    obtain ⟨drive, _, rfl⟩ := hmem
    rfl
  simultaneous := rfl

theorem fresh_of_mem_ofConfig {config : DeviceConfig} {relay : Relay}
    (h : relay ∈ (ofConfig config).relays) : relay.isOn = false ∧ relay.pulse = .idle := by
  simp only [ofConfig, List.mem_map] at h
  obtain ⟨drive, _, rfl⟩ := h
  exact ⟨rfl, rfl⟩

namespace BuiltFrom

variable {bank : RelayBank} {config : DeviceConfig} {i j : Nat} {relay other : Relay} {pin : Pin}

theorem put (hbuilt : bank.BuiltFrom config) (hget : bank.get? i = some relay) (new : Relay)
    (hdrive : new.drive = relay.drive) (hindicator : new.indicator? = relay.indicator?) :
    (bank.put i new).BuiltFrom config where
  drives := by
    rw [← hbuilt.drives]
    unfold RelayBank.put
    apply List.ext_getElem?
    intro k
    simp only [List.map_set, List.getElem?_set, List.length_map, List.getElem?_map]
    split
    . next heq =>
      subst heq
      have hlt : i < bank.relays.length := lt_size_of_get? hget
      unfold get? at hget
      rw [if_pos hlt, hget, hdrive]
      rfl
    . rfl
  indicators := by
    intro each hmem
    cases List.mem_or_eq_of_mem_set hmem with
    | inl hold => exact hbuilt.indicators each hold
    | inr hnew =>
      rw [hnew, hindicator, hdrive]
      exact hbuilt.indicators relay (List.mem_of_getElem? hget)
  simultaneous := hbuilt.simultaneous

theorem yieldSupply (hbuilt : bank.BuiltFrom config) :
    (bank.yieldSupply i).BuiltFrom config := by
  unfold RelayBank.yieldSupply
  split
  . exact ⟨hbuilt.drives, hbuilt.indicators, hbuilt.simultaneous⟩
  . exact hbuilt

theorem move {target : Option Nat} {next : RelayBank} {commands : List Command}
    (hbuilt : bank.BuiltFrom config) (hmove : bank.Move target next commands) :
    next.BuiltFrom config := by
  cases hmove with
  | stay h => exact hbuilt
  | indicate => exact hbuilt
  | drive on hget hplain => exact hbuilt.put hget _ rfl rfl
  | pulse on hget hlatching h =>
    have := hbuilt.put hget ((Relay.turned _ on).withPulse .active) rfl rfl
    exact ⟨this.drives, this.indicators, this.simultaneous⟩
  | postpone on hget hlatching h => exact hbuilt.put hget _ rfl rfl
  | finish hget hpulse => exact (hbuilt.put hget (Relay.withPulse _ .idle) rfl rfl).yieldSupply
  | retry hget hpulse h =>
    have := hbuilt.put hget (Relay.withPulse _ .active) rfl rfl
    exact ⟨this.drives, this.indicators, this.simultaneous⟩
  | wait hget hpulse h => exact hbuilt

/-! ### Pins of different relays -/

theorem drive_at (hbuilt : bank.BuiltFrom config) (hget : bank.get? i = some relay) :
    config.relays[i]? = some relay.drive := by
  unfold get? at hget
  rw [← hbuilt.drives, List.getElem?_map, hget]
  rfl

theorem mem_relays (hbuilt : bank.BuiltFrom config) (hget : bank.get? i = some relay) :
    relay.drive ∈ config.relays :=
  List.mem_of_getElem? (hbuilt.drive_at hget)

theorem indicatorPins_eq (hbuilt : bank.BuiltFrom config) (hget : bank.get? i = some relay) :
    config.indicatorPins relay.drive = relay.indicator?.toList.map fun led => led.pin := by
  unfold DeviceConfig.indicatorPins
  rw [hbuilt.indicators relay (List.mem_of_getElem? hget)]

theorem not_mem_of_nodup (hbuilt : bank.BuiltFrom config) {pinsOf : RelayDrive → List Pin}
    (hnodup : (config.relays.flatMap pinsOf).Nodup) (hi : bank.get? i = some relay)
    (hj : bank.get? j = some other) (hij : i ≠ j) (hpin : pin ∈ pinsOf other.drive) :
    pin ∉ pinsOf relay.drive := by
  obtain ⟨hi', hrelay⟩ := List.getElem?_eq_some_iff.mp (hbuilt.drive_at hi)
  obtain ⟨hj', hother⟩ := List.getElem?_eq_some_iff.mp (hbuilt.drive_at hj)
  have hpairs := List.pairwise_iff_getElem.mp (List.nodup_flatMap.mp hnodup).2
  intro hmem
  cases Nat.lt_or_gt_of_ne hij with
  | inl hlt =>
    have hdisjoint := hpairs i j hi' hj' hlt
    rw [hrelay, hother] at hdisjoint
    exact hdisjoint hmem hpin
  | inr hgt =>
    have hdisjoint := hpairs j i hj' hi' hgt
    rw [hrelay, hother] at hdisjoint
    exact hdisjoint hpin hmem

theorem coil_ne_indicator {led : Led} (hbuilt : bank.BuiltFrom config)
    (hapart : config.CoilsApart) (hi : bank.get? i = some relay) (hj : bank.get? j = some other)
    (hpin : pin ∈ other.drive.coils) (hled : relay.indicator? = some led) : pin ≠ led.pin := by
  intro heq
  have hcoil : pin ∈ config.coils := List.mem_flatMap.mpr ⟨_, hbuilt.mem_relays hj, hpin⟩
  apply hapart.indicator pin hcoil
  rw [List.mem_flatMap]
  refine ⟨_, hbuilt.mem_relays hi, ?_⟩
  rw [hbuilt.indicatorPins_eq hi, hled, heq]
  simp

theorem coil_not_mem_pins (hbuilt : bank.BuiltFrom config) (hapart : config.CoilsApart)
    (hi : bank.get? i = some relay) (hj : bank.get? j = some other) (hij : i ≠ j)
    (hpin : pin ∈ other.drive.coils) : pin ∉ relay.pins := by
  unfold Relay.pins
  rw [List.mem_append, not_or]
  constructor
  . cases hlatching : relay.drive.isLatching with
    | true =>
      rw [← Relay.coils_of_isLatching hlatching]
      exact hbuilt.not_mem_of_nodup hapart.nodup hi hj hij hpin
    | false =>
      have hcoil : pin ∈ config.coils := List.mem_flatMap.mpr ⟨_, hbuilt.mem_relays hj, hpin⟩
      have hoff : relay.drive.offPin? = none := by
        simpa [RelayDrive.isLatching] using hlatching
      intro hmem
      apply hapart.plain pin hcoil
      simp only [RelayDrive.pins, hoff, Option.toList_none, List.mem_singleton] at hmem
      simp only [DeviceConfig.plainPins, List.mem_map, List.mem_filter]
      exact ⟨_, ⟨hbuilt.mem_relays hi, by simp [hlatching]⟩, hmem.symm⟩
  . intro hmem
    simp only [List.mem_map, Option.mem_toList] at hmem
    obtain ⟨led, hled, heq⟩ := hmem
    exact hbuilt.coil_ne_indicator hapart hi hj hpin hled heq.symm

/-! ### Different pins throughout -/

theorem pins_eq (hbuilt : bank.BuiltFrom config) (hget : bank.get? i = some relay) :
    relay.pins = config.pinsOf relay.drive := by
  unfold Relay.pins DeviceConfig.pinsOf
  rw [hbuilt.indicatorPins_eq hget]

theorem not_mem_pins (hbuilt : bank.BuiltFrom config) (hnodup : config.relayPins.Nodup)
    (hi : bank.get? i = some relay) (hj : bank.get? j = some other) (hij : i ≠ j)
    (hpin : pin ∈ other.pins) : pin ∉ relay.pins := by
  rw [hbuilt.pins_eq hi]
  rw [hbuilt.pins_eq hj] at hpin
  exact hbuilt.not_mem_of_nodup hnodup hi hj hij hpin

theorem pins_nodup (hbuilt : bank.BuiltFrom config) (hnodup : config.relayPins.Nodup)
    (hget : bank.get? i = some relay) : relay.pins.Nodup := by
  rw [hbuilt.pins_eq hget]
  exact (List.nodup_flatMap.mp hnodup).1 _ (hbuilt.mem_relays hget)

theorem led_not_mem_pins {led : Led} (hbuilt : bank.BuiltFrom config)
    (hnodup : config.relayPins.Nodup) (hget : bank.get? i = some relay)
    (hled : relay.indicator? = some led) : led.pin ∉ relay.drive.pins := by
  intro hmem
  apply List.disjoint_of_nodup_append (hbuilt.pins_nodup hnodup hget) hmem
  simp [hled]

end BuiltFrom

end RelayBank

end WallSwitch
