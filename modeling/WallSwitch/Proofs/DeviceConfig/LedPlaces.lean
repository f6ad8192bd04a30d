import WallSwitch.Proofs.DeviceConfig.StatusLed
import WallSwitch.RelayBank
import WallSwitch.StatusLight

/-!
This module contains which places LEDs are assigned to, in terms of the peripherals alone. In
whatever order the LEDs for the network status and those for the relays are added, the former are
known by the last of them and the latter by their order.
-/

namespace WallSwitch

inductive LedRole where
  | status
  | relay
deriving DecidableEq, Repr

def Peripheral.led? : Peripheral → Option (LedRole × Led)
  | .statusLed pin activeHigh => some (.status, ⟨pin, activeHigh⟩)
  | .indicatorLed pin activeHigh => some (.relay, ⟨pin, activeHigh⟩)
  | _ => none

namespace LedRole

def places (role : LedRole) (entries : List (LedRole × Led)) : List Nat :=
  entries.findIdxs fun entry => entry.1 = role

def leds (role : LedRole) (entries : List (LedRole × Led)) : List Led :=
  (entries.filter fun entry => entry.1 = role).map (·.2)

variable {role other : LedRole}

theorem places_concat_self (role : LedRole) (entries : List (LedRole × Led)) (led : Led) :
    role.places (entries ++ [(role, led)]) = role.places entries ++ [entries.length] := by
  simp [places, List.findIdxs_append]

theorem places_concat_of_ne (h : other ≠ role) (entries : List (LedRole × Led)) (led : Led) :
    role.places (entries ++ [(other, led)]) = role.places entries := by
  simp [places, List.findIdxs_append, h]

theorem map_places (role : LedRole) (entries : List (LedRole × Led)) :
    (role.places entries).map (fun place => (entries.map (·.2))[place]?)
      =
    (role.leds entries).map some := by
  induction entries with
  | nil => rfl
  | cons entry entries ih =>
    have hrest : (entries.findIdxs (fun entry => entry.1 = role) 1).map
        (fun place => ((entry :: entries).map (·.2))[place]?) = (role.leds entries).map some := by
      rw [List.findIdxs_start, List.map_map, ← ih]
      rfl
    unfold places leds
    rw [List.findIdxs_cons, List.filter_cons]
    split
    . exact congrArg (some entry.2 :: ·) hrest
    . exact hrest

theorem getElem?_places (role : LedRole) (entries : List (LedRole × Led)) (k : Nat) :
    (role.places entries)[k]?.bind (fun place => (entries.map (·.2))[place]?)
      =
    (role.leds entries)[k]? := by
  have hplaces := congrArg (·[k]?.bind id) (role.map_places entries)
  simpa [Option.bind_map, Function.comp_def] using hplaces

theorem filterMap_places (role : LedRole) (entries : List (LedRole × Led)) (n : Nat) :
    ((role.places entries).take n).filterMap (fun place => (entries.map (·.2))[place]?)
      =
    (role.leds entries).take n := by
  have hplaces := congrArg (fun leds => (leds.take n).filterMap id) (role.map_places entries)
  simpa [← List.map_take, List.filterMap_map] using hplaces

theorem getLast?_places {place : Nat} {entries : List (LedRole × Led)}
    (h : (role.places entries).getLast? = some place) :
    (entries.map (·.2))[place]? = (role.leds entries).getLast? := by
  have hplaces := congrArg (·.getLast?.bind id) (role.map_places entries)
  simpa [h, Option.bind_map, Function.comp_def] using hplaces

end LedRole

theorem LedSlots.getElem?_filled_of_lt {n k : Nat} {leds : List Nat} (h : k < n) :
    (filled n leds)[k]? = some leds[k]? := by
  unfold filled
  rw [List.getElem?_append]
  split
  . next hlt =>
    rw [List.length_map] at hlt
    rw [List.getElem?_map, List.getElem?_eq_getElem hlt]
    rfl
  . next hle =>
    rw [List.length_map] at hle ⊢
    rw [List.getElem?_replicate_of_lt (by omega), List.getElem?_eq_none (by omega)]

namespace DeviceConfig

structure LedsPlaced (config : DeviceConfig) (entries : List (LedRole × Led)) : Prop where
  leds : config.leds = entries.map (·.2)
  length_le : config.leds.length ≤ 5
  assigned : config.LedsAssigned (LedRole.relay.places entries)
  dedicated : ∀ place, (LedRole.status.places entries).getLast? = some place →
    config.hasDedicatedLed = true ∧ config.networkLeds.toList = LedSlots.filled 4 [place]
  borrowed : LedRole.status.places entries = [] → config.hasDedicatedLed = false

variable {config config' : DeviceConfig} {entries : List (LedRole × Led)} {peripheral : Peripheral}

namespace LedsPlaced

theorem length_leds (h : config.LedsPlaced entries) : config.leds.length = entries.length := by
  rw [h.leds, List.length_map]

theorem addStatusLed (h : config.LedsPlaced entries) (led : Led) (hroom : config.leds.length < 5) :
    (config.addStatusLed led).LedsPlaced (entries ++ [(.status, led)]) where
  leds := by simp [DeviceConfig.addStatusLed, h.leds]
  length_le := by simpa [DeviceConfig.addStatusLed] using Nat.succ_le_of_lt hroom
  assigned := by
    rw [LedRole.places_concat_of_ne (by decide)]
    exact h.assigned.addStatusLed led
  dedicated := by
    intro place hlast
    rw [LedRole.places_concat_self, List.getLast?_concat, ← h.length_leds] at hlast
    cases hlast
    exact ⟨rfl, LedSlots.toList_only _ (by decide)⟩
  borrowed := by simp [LedRole.places_concat_self]

theorem addIndicatorLed (h : config.LedsPlaced entries) (led : Led)
    (hroom : config.leds.length < 5) :
    (config.addIndicatorLed led).LedsPlaced (entries ++ [(.relay, led)]) where
  leds := by simp [DeviceConfig.addIndicatorLed, h.leds]
  length_le := by simpa [DeviceConfig.addIndicatorLed] using Nat.succ_le_of_lt hroom
  assigned := by
    rw [LedRole.places_concat_self, ← h.length_leds]
    exact h.assigned.addIndicatorLed led hroom
  dedicated := by
    intro place hlast
    rw [LedRole.places_concat_of_ne (by decide)] at hlast
    obtain ⟨hdedicated, hnetwork⟩ := h.dedicated place hlast
    have hkept : (config.addIndicatorLed led).networkLeds = config.networkLeds := if_pos hdedicated
    exact ⟨hdedicated, by rw [hkept, hnetwork]⟩
  borrowed := by
    rw [LedRole.places_concat_of_ne (by decide)]
    exact h.borrowed

theorem add (h : config.LedsPlaced entries) (hadd : config.add peripheral = .ok config') :
    config'.LedsPlaced (entries ++ [peripheral].filterMap Peripheral.led?) := by
  have heq := eq_extend_of_add hadd
  subst heq
  cases peripheral with
  | statusLed pin activeHigh => exact h.addStatusLed ⟨pin, activeHigh⟩ (of_reserve_bind hadd).2
  | indicatorLed pin activeHigh =>
    exact h.addIndicatorLed ⟨pin, activeHigh⟩ (of_reserve_bind hadd).2
  | _ =>
    change LedsPlaced _ (entries ++ [])
    rw [List.append_nil]
    exact ⟨h.leds, h.length_le, ⟨h.assigned.nodup, h.assigned.inRange, h.assigned.length_le,
      h.assigned.indicators, h.assigned.dedicated, h.assigned.borrowed⟩, h.dedicated, h.borrowed⟩

theorem foldlM_add {peripherals : List Peripheral} (h : config.LedsPlaced [])
    (hfold : peripherals.foldlM DeviceConfig.add config = .ok config') :
    config'.LedsPlaced (peripherals.filterMap Peripheral.led?) := by
  apply foldlM_add_induction_on (P := fun config before =>
    config.LedsPlaced (before.filterMap Peripheral.led?)) _ peripherals config [] hfold h
  intro config before peripheral config' hadd hbefore
  rw [List.filterMap_append]
  exact hbefore.add hadd

/-! ### What the LEDs show -/

theorem relayIndicators_eq (h : config.LedsPlaced entries) {k : Nat} (hk : k < 5) :
    config.relayIndicators[k]? = some (LedRole.relay.places entries)[k]? := by
  rw [← Vector.getElem?_toList, h.assigned.indicators, LedSlots.getElem?_filled_of_lt hk]

theorem relayIndicator?_eq (h : config.LedsPlaced entries) (k : Nat) :
    config.relayIndicator? k = (LedRole.relay.leds entries)[k]? := by
  unfold relayIndicator?
  by_cases hk : k < 5
  . rw [h.relayIndicators_eq hk, Option.join_some, h.leds]
    exact LedRole.relay.getElem?_places entries k
  . have hle : 5 ≤ k := Nat.le_of_not_lt hk
    have hfew : (LedRole.relay.leds entries).length ≤ 5 := by
      have hall := h.length_le
      rw [h.length_leds] at hall
      unfold LedRole.leds
      rw [List.length_map]
      exact Nat.le_trans (List.length_filter_le _ _) hall
    rw [Vector.getElem?_eq_none hle, List.getElem?_eq_none (Nat.le_trans hfew hle)]
    rfl

theorem networkLeds_eq_of_borrowed (h : config.LedsPlaced entries)
    (hnone : LedRole.status.places entries = []) {k : Nat} (hk : k < 4) :
    config.networkLeds[k]? = some (LedRole.relay.places entries)[k]? := by
  rw [← Vector.getElem?_toList, h.assigned.borrowed (h.borrowed hnone),
    LedSlots.getElem?_filled_of_lt hk, List.getElem?_take_of_lt hk]

theorem networkLedList_eq_of_filled (h : config.LedsPlaced entries) {places : List Nat}
    (hnetwork : config.networkLeds.toList = LedSlots.filled 4 places) :
    config.networkLedList = places.filterMap fun place => (entries.map (·.2))[place]? := by
  unfold networkLedList LedSlots.filled at *
  rw [hnetwork, h.leds]
  simp [List.filterMap_append, List.filterMap_map]

theorem networkLedList_eq_of_dedicated (h : config.LedsPlaced entries) {place : Nat}
    (hplace : (LedRole.status.places entries).getLast? = some place) :
    config.networkLedList = (LedRole.status.leds entries).getLast?.toList := by
  rw [h.networkLedList_eq_of_filled (h.dedicated place hplace).2, ← LedRole.getLast?_places hplace]
  rw [List.filterMap_cons, List.filterMap_nil]
  cases (entries.map (·.2))[place]? <;> rfl

theorem networkLedList_eq_of_borrowed (h : config.LedsPlaced entries)
    (hnone : LedRole.status.places entries = []) :
    config.networkLedList = (LedRole.relay.leds entries).take 4 := by
  rw [h.networkLedList_eq_of_filled (h.assigned.borrowed (h.borrowed hnone)),
    LedRole.filterMap_places]

end LedsPlaced

theorem ledsPlaced_named (manufacturer model : Bytes) :
    (named manufacturer model).LedsPlaced [] where
  leds := rfl
  length_le := Nat.zero_le _
  assigned := ledsAssigned_named _ rfl rfl rfl
  dedicated := by simp [LedRole.places]
  borrowed := fun _ => rfl

theorem indicator_ofConfig (hnumbered : config.Numbered) {i : Nat} {relay : Relay}
    (hget : (RelayBank.ofConfig config).get? i = some relay) :
    relay.indicator? = config.relayIndicator? i := by
  unfold RelayBank.ofConfig RelayBank.get? at hget
  rw [List.getElem?_map, Option.map_eq_some_iff] at hget
  obtain ⟨drive, hdrive, rfl⟩ := hget
  rw [← hnumbered.index_relay hdrive]
  rfl

/--
In whatever order peripherals are added to a configuration, its LEDs are those among them in this
order. The LED at place `k` among those for the relays shows relay `k`. If there are LEDs for the
network status, the last one of them alone shows it. If there are none, the first four LEDs of the
relays do. The relays of a device and its status light are given these LEDs and no others.
-/
theorem leds_assigned_in_order (manufacturer model : Bytes) (peripherals : List Peripheral)
    {config : DeviceConfig}
    (h : peripherals.foldlM add (named manufacturer model) = .ok config) :
    let entries := peripherals.filterMap Peripheral.led?
    let places := LedRole.relay.places entries
    let light := StatusLight.ofConfig config
    config.leds = entries.map (·.2)
      ∧ (∀ k < 5, config.relayIndicators[k]? = some places[k]?)
      ∧ (∀ k, config.relayIndicator? k = (LedRole.relay.leds entries)[k]?)
      ∧ (∀ place, (LedRole.status.places entries).getLast? = some place →
          config.networkLeds.toList = [some place, none, none, none]
            ∧ config.hasDedicatedLed = true
            ∧ light.leds = (LedRole.status.leds entries).getLast?.toList)
      ∧ (LedRole.status.places entries = [] →
          (∀ k < 4, config.networkLeds[k]? = some places[k]?)
            ∧ config.hasDedicatedLed = false
            ∧ light.leds = (LedRole.relay.leds entries).take 4)
      ∧ light.hasDedicatedLed = config.hasDedicatedLed
      ∧ ∀ i relay, (RelayBank.ofConfig config).get? i = some relay →
          relay.indicator? = (LedRole.relay.leds entries)[i]? := by
  intro entries places light
  have hplaced : config.LedsPlaced entries := (ledsPlaced_named manufacturer model).foldlM_add h
  have hnamed : (named manufacturer model).Numbered := ⟨rfl, rfl⟩
  have hnumbered : config.Numbered := hnamed.foldlM_add h
  refine ⟨hplaced.leds, fun k => hplaced.relayIndicators_eq, hplaced.relayIndicator?_eq, ?_, ?_,
    rfl, ?_⟩
  . intro place hplace
    obtain ⟨hdedicated, hnetwork⟩ := hplaced.dedicated place hplace
    exact ⟨hnetwork, hdedicated, hplaced.networkLedList_eq_of_dedicated hplace⟩
  . intro hnone
    exact ⟨fun k => hplaced.networkLeds_eq_of_borrowed hnone, hplaced.borrowed hnone,
      hplaced.networkLedList_eq_of_borrowed hnone⟩
  . intro i relay hget
    rw [indicator_ofConfig hnumbered hget, hplaced.relayIndicator?_eq]

theorem leds_assigned_in_order_mixed :
    let peripherals := [.indicatorLed (.line 2 0) true, .relay (.line 0 0) none,
      .statusLed (.line 3 0) true, .indicatorLed (.line 2 1) false, .statusLed (.line 3 1) false,
      .relay (.line 0 1) none, .indicatorLed (.line 2 2) true]
    ∃ config, peripherals.foldlM add (named [] []) = .ok config
      ∧ config.relayIndicators[1]? = some (some 2)
      ∧ config.relayIndicator? 1 = some ⟨.line 2 1, false⟩
      ∧ config.networkLeds.toList = [some 3, none, none, none]
      ∧ (StatusLight.ofConfig config).leds = [⟨.line 3 1, false⟩] := by
  intro peripherals
  refine ⟨_, rfl, ?_⟩
  obtain ⟨_, hplaces, hshown, hdedicated, _⟩ := leds_assigned_in_order [] [] peripherals rfl
  obtain ⟨hnetwork, _, hlight⟩ := hdedicated 3 (by decide)
  exact ⟨hplaces 1 (by decide), hshown 1, hnetwork, hlight⟩

end DeviceConfig

end WallSwitch
