import WallSwitch.Proofs.ConfigText.Refusal
import WallSwitch.Proofs.DeviceConfig.References

/-!
This module contains how the endpoints of switches and relays are found. Endpoints are numbered
without gaps, switches come first, and every configuration that peripherals were added to has room
for all that is on its endpoints.
-/

namespace WallSwitch

namespace DeviceConfig

theorem hasDedicatedLed_addAllIfRoom (manufacturer model : Bytes) (peripherals : List Peripheral) :
    ((named manufacturer model).addAllIfRoom peripherals).hasDedicatedLed = true
      ↔
    ∃ pin activeHigh,
      .statusLed pin activeHigh ∈ (named manufacturer model).accepted peripherals := by
  apply addAllIfRoom_induction (P := fun config before => config.hasDedicatedLed = true
    ↔ ∃ pin activeHigh, .statusLed pin activeHigh ∈ before)
  . intro config before peripheral config' hadd h
    rw [eq_extend_of_add hadd]
    cases peripheral with
    | statusLed pin activeHigh => exact iff_of_true rfl ⟨pin, activeHigh, by simp⟩
    | _ => simpa [extend, addButton, addSwitch, addIndicatorLed, addRelay] using h
  . simp [named, empty]

end DeviceConfig

namespace Topology

variable {config : DeviceConfig} {cluster : Cluster} {switches relays i j k : Nat}

def ownClusters (switches relays k : Nat) : List Cluster :=
  if k < switches then [.switchConfig k]
  else if k < switches + relays then [.onOff (k - switches), .groups]
  else []

theorem getElem?_peripheralClusters (h : config.Numbered) (k : Nat) :
    (peripheralClusters config)[k]?.getD []
      =
    ownClusters config.switches.length config.relays.length k := by
  unfold peripheralClusters ownClusters
  rw [List.getElem?_append, List.length_map]
  split
  . next hlt =>
    have hget : config.switches[k]? = some config.switches[k] := List.getElem?_eq_getElem hlt
    rw [List.getElem?_map, hget, Option.map_some, h.index_switch hget]
    rfl
  . rw [List.getElem?_map]
    split
    . next hlt =>
      have hget : config.relays[k - config.switches.length]? = some _ :=
        List.getElem?_eq_getElem (by omega)
      rw [hget, Option.map_some, h.index_relay hget]
      rfl
    . rw [List.getElem?_eq_none (by omega)]
      rfl

theorem layout_eq (h : config.Numbered) :
    layout config
      =
    (List.range config.endpointCount).map fun k =>
      ⟨k + 1, sharedClusters k ++ ownClusters config.switches.length config.relays.length k⟩ := by
  unfold layout
  simp only [getElem?_peripheralClusters h]

theorem length_clusters_le (switches relays k : Nat) :
    (sharedClusters k ++ ownClusters switches relays k).length ≤ Endpoint.maxClusters := by
  have hshared : (sharedClusters k).length ≤ 2 := by
    unfold sharedClusters
    split <;> simp
  have hown : (ownClusters switches relays k).length ≤ 2 := by
    unfold ownClusters
    split
    . simp
    . split <;> simp
  rw [List.length_append]
  exact Nat.add_le_add hshared hown

/-! ### Endpoints by their clusters -/

theorem switchConfig_mem_iff :
    .switchConfig i ∈ sharedClusters k ++ ownClusters switches relays k ↔ k = i ∧ i < switches := by
  have hshared : .switchConfig i ∉ sharedClusters k := by
    unfold sharedClusters
    split <;> simp
  rw [List.mem_append, or_iff_right hshared]
  unfold ownClusters
  split
  . rw [List.mem_singleton, Cluster.switchConfig.injEq]
    omega
  . split <;> simp <;> omega

theorem onOff_mem_iff :
    .onOff j ∈ sharedClusters k ++ ownClusters switches relays k
      ↔
    k = switches + j ∧ j < relays := by
  have hshared : .onOff j ∉ sharedClusters k := by
    unfold sharedClusters
    split <;> simp
  rw [List.mem_append, or_iff_right hshared]
  unfold ownClusters
  split
  . simp
    omega
  . split <;> simp <;> omega

theorem find?_layout {place : Nat} {present : Prop} [Decidable present] (h : config.Numbered)
    (hmem : ∀ k, cluster ∈ sharedClusters k
      ++ ownClusters config.switches.length config.relays.length k ↔ k = place ∧ present)
    (hplace : present → place < config.endpointCount) :
    ((layout config).find? fun endpoint => endpoint.has cluster).map (·.id)
      =
    if present then some (place + 1) else none := by
  rw [layout_eq h, List.find?_map, Option.map_map]
  split
  . next hpresent =>
    rw [Option.map_eq_some_iff]
    refine ⟨place, List.find?_range_eq_some.mpr ⟨?_, List.mem_range.mpr (hplace hpresent), ?_⟩, rfl⟩
    . simpa [Endpoint.has] using (hmem place).mpr ⟨rfl, hpresent⟩
    . intro k hlt
      have hnot := mt (hmem k).mp (by simp [Nat.ne_of_lt hlt])
      simpa [Endpoint.has] using hnot
  . next habsent =>
    rw [Option.map_eq_none_iff, List.find?_eq_none]
    intro k _
    have hnot := mt (hmem k).mp (by simp [habsent])
    simpa [Endpoint.has] using hnot

theorem switchEndpoint?_eq {topology : Topology} (h : config.Numbered)
    (hendpoints : topology.endpoints = layout config) (i : Nat) :
    topology.switchEndpoint? i = if i < config.switches.length then some (i + 1) else none := by
  unfold switchEndpoint? endpointOf?
  rw [hendpoints]
  apply find?_layout h fun k => switchConfig_mem_iff
  intro hlt
  unfold DeviceConfig.endpointCount
  omega

theorem relayEndpoint?_eq {topology : Topology} (h : config.Numbered)
    (hendpoints : topology.endpoints = layout config) (j : Nat) :
    topology.relayEndpoint? j
      =
    if j < config.relays.length then some (config.switches.length + j + 1) else none := by
  unfold relayEndpoint? endpointOf?
  rw [hendpoints]
  apply find?_layout h fun k => onOff_mem_iff
  intro hlt
  unfold DeviceConfig.endpointCount
  omega

/--
Whatever peripherals are added to a configuration, those that there is no room for being left out,
its endpoints are laid out: one for every switch and then one for every relay, numbered from one on,
and one even without any. They are found by the numbers of switches and relays, and what the
configuration says of the whole device is carried over.
-/
theorem laid_out_and_found (manufacturer model : Bytes) (peripherals : List Peripheral) :
    let config := (DeviceConfig.named manufacturer model).addAllIfRoom peripherals
    let switches := config.switches.length
    let relays := config.relays.length
    ∃ topology, ofConfig config = .ok topology
      ∧ topology.endpoints.length = max 1 (switches + relays)
      ∧ topology.endpoints.length ≤ maxEndpoints
      ∧ (∀ k endpoint, topology.endpoints[k]? = some endpoint → endpoint.id = k + 1
          ∧ endpoint.clusters = (if k = 0 then [.basic, .ota] else [])
            ++ (if k < switches then [.switchConfig k]
              else if k < switches + relays then [.onOff (k - switches), .groups]
              else [])
          ∧ endpoint.clusters.length ≤ Endpoint.maxClusters)
      ∧ (∀ i, topology.switchEndpoint? i = if i < switches then some (i + 1) else none)
      ∧ (∀ j, topology.relayEndpoint? j = if j < relays then some (switches + j + 1) else none)
      ∧ topology.manufacturer = config.manufacturer ∧ topology.model = config.model
      ∧ topology.imageType = config.imageType
      ∧ topology.statusLedExposed = config.hasDedicatedLed
      ∧ (topology.statusLedExposed = true ↔ ∃ pin activeHigh, .statusLed pin activeHigh
          ∈ (DeviceConfig.named manufacturer model).accepted peripherals) := by
  intro config switches relays
  have h := DeviceConfig.consistent_addAllIfRoom manufacturer model peripherals
  have hle : config.endpointCount ≤ maxEndpoints :=
    DeviceConfig.endpointCount_le_of_fits h.holds h.fits
  refine ⟨_, ofConfig_eq hle, ?_, ?_, ?_, switchEndpoint?_eq h.numbered rfl,
    relayEndpoint?_eq h.numbered rfl, rfl, rfl, rfl, rfl,
    DeviceConfig.hasDedicatedLed_addAllIfRoom manufacturer model peripherals⟩
  . simp [layout, DeviceConfig.endpointCount, switches, relays, Nat.max_comm]
  . simpa [layout] using hle
  . intro k endpoint hget
    rw [layout_eq h.numbered, List.getElem?_map, Option.map_eq_some_iff] at hget
    obtain ⟨place, hplace, rfl⟩ := hget
    have heq : place = k := by
      rw [List.getElem?_range (by simpa using (List.getElem?_eq_some_iff.mp hplace).1)] at hplace
      exact (Option.some.inj hplace).symm
    subst heq
    exact ⟨rfl, rfl, length_clusters_le _ _ _⟩

end Topology

end WallSwitch
