import WallSwitch.Topology

/-!
This module contains the layout of the endpoints of a device: what is attached where, and that the
tables are large enough for every configuration that keeps to its own bounds.
-/

namespace WallSwitch

namespace Endpoint

def withClusters (endpoint : Endpoint) (clusters : List Cluster) : Endpoint :=
  { endpoint with clusters := endpoint.clusters ++ clusters }

theorem foldlM_attach (clusters : List Cluster) :
    ∀ (endpoint : Endpoint), endpoint.clusters.length + clusters.length ≤ maxClusters →
      clusters.foldlM attach endpoint = .ok (endpoint.withClusters clusters) := by
  induction clusters with
  | nil =>
    intro endpoint _
    simp [withClusters]
    rfl
  | cons cluster clusters ih =>
    intro endpoint h
    rw [List.length_cons] at h
    have hattach : endpoint.attach cluster = .ok (endpoint.withClusters [cluster]) := by
      unfold attach
      rw [if_pos (by omega)]
      rfl
    rw [List.foldlM_cons, hattach]
    apply Eq.trans (ih _ _)
    . simp [withClusters]
    . simp only [withClusters, List.length_append, List.length_singleton]
      omega

end Endpoint

namespace Topology

def sharedClusters (i : Nat) : List Cluster :=
  if i = 0 then [.basic, .ota] else []

def sharedEndpoints (count : Nat) : List Endpoint :=
  (List.range count).map fun i => ⟨i + 1, sharedClusters i⟩

def layout (config : DeviceConfig) : List Endpoint :=
  (List.range config.endpointCount).map fun i =>
    ⟨i + 1, sharedClusters i ++ (peripheralClusters config)[i]?.getD []⟩

theorem attachAt_eq {endpoints : List Endpoint} {i : Nat} {endpoint : Endpoint}
    {clusters : List Cluster} (hget : endpoints[i]? = some endpoint)
    (h : endpoint.clusters.length + clusters.length ≤ Endpoint.maxClusters) :
    attachAt endpoints i clusters = .ok (endpoints.set i (endpoint.withClusters clusters)) := by
  unfold attachAt
  rw [hget]
  dsimp only
  rw [Endpoint.foldlM_attach clusters endpoint h]
  rfl

theorem attachFrom_eq (lists : List (List Cluster)) :
    ∀ (endpoints : List Endpoint) (i : Nat), i + lists.length ≤ endpoints.length →
      (∀ k endpoint clusters, endpoints[i + k]? = some endpoint → lists[k]? = some clusters →
        endpoint.clusters.length + clusters.length ≤ Endpoint.maxClusters) →
      ∃ attached, attachFrom endpoints i lists = .ok attached
        ∧ ∀ k, attached[k]?
          =
        endpoints[k]?.map fun endpoint =>
          if i ≤ k then endpoint.withClusters (lists[k - i]?.getD []) else endpoint := by
  induction lists with
  | nil =>
    intro endpoints i _ _
    refine ⟨endpoints, rfl, ?_⟩
    intro k
    simp [Endpoint.withClusters]
  | cons clusters lists ih =>
    intro endpoints i hlength hroom
    rw [List.length_cons] at hlength
    have hget : endpoints[i]? = some endpoints[i] := List.getElem?_eq_getElem (by omega)
    have hfirst := attachAt_eq hget (hroom 0 _ clusters hget rfl)
    -- The endpoints behind position `i` are still what they were.
    obtain ⟨attached, hrest, hattached⟩ := ih
      (endpoints.set i (endpoints[i].withClusters clusters)) (i + 1)
      (by rw [List.length_set]; omega)
      (by
        intro k endpoint more hendpoint hmore
        rw [List.getElem?_set_ne (by omega)] at hendpoint
        apply hroom (k + 1) endpoint more _ hmore
        rw [← hendpoint]
        congr 1
        omega)
    refine ⟨attached, ?_, ?_⟩
    . unfold attachFrom
      rw [hfirst]
      exact hrest
    . intro k
      rw [hattached]
      rcases Nat.lt_trichotomy k i with hlt | heq | hgt
      . have hnot : ¬ i ≤ k := by omega
        have hnext : ¬ i + 1 ≤ k := by omega
        simp only [List.getElem?_set_ne (Nat.ne_of_gt hlt), hnot, hnext, if_false]
      . subst heq
        have hnext : ¬ k + 1 ≤ k := by omega
        rw [List.getElem?_set_self (by omega), hget]
        simp [hnext]
      . have hnext : i + 1 ≤ k := hgt
        have hk : k - i = k - (i + 1) + 1 := by omega
        simp only [List.getElem?_set_ne (Nat.ne_of_lt hgt), hnext, Nat.le_of_lt hgt, if_true, hk,
          List.getElem?_cons_succ]

theorem length_peripheralClusters (config : DeviceConfig) :
    (peripheralClusters config).length = config.switches.length + config.relays.length := by
  simp [peripheralClusters]

theorem length_le_two_of_mem {config : DeviceConfig} {clusters : List Cluster}
    (h : clusters ∈ peripheralClusters config) : clusters.length ≤ 2 := by
  simp only [peripheralClusters, List.mem_append, List.mem_map] at h
  rcases h with ⟨_, _, rfl⟩ | ⟨_, _, rfl⟩ <;> simp

theorem attachAt_blank {count : Nat} (h : 0 < count) :
    attachAt ((List.range count).map fun i => ⟨i + 1, []⟩) 0 [.basic, .ota]
      =
    .ok (sharedEndpoints count) := by
  have hfirst : ((List.range count).map fun i => (⟨i + 1, []⟩ : Endpoint))[0]? = some ⟨1, []⟩ := by
    simp [h]
  rw [attachAt_eq hfirst (by decide)]
  congr 1
  apply List.ext_getElem?
  intro k
  unfold sharedEndpoints sharedClusters
  rw [List.getElem?_set, List.getElem?_map, List.getElem?_map]
  by_cases hk : k = 0
  . subst hk
    simp [h, Endpoint.withClusters]
  . by_cases hlt : k < count
    . simp [hk, Ne.symm hk, hlt]
    . simp [Ne.symm hk, hlt]

theorem attachFrom_sharedEndpoints (config : DeviceConfig) :
    attachFrom (sharedEndpoints config.endpointCount) 0 (peripheralClusters config)
      =
    .ok (layout config) := by
  have hlength : (peripheralClusters config).length ≤ config.endpointCount := by
    rw [length_peripheralClusters]
    unfold DeviceConfig.endpointCount
    omega
  obtain ⟨attached, hattach, hattached⟩ := attachFrom_eq (peripheralClusters config)
    (sharedEndpoints config.endpointCount) 0
    (by simpa [sharedEndpoints] using hlength)
    (by
      intro k endpoint clusters hendpoint hclusters
      have hsize := length_le_two_of_mem (List.mem_of_getElem? hclusters)
      have hmem := List.mem_of_getElem? hendpoint
      simp only [sharedEndpoints, List.mem_map] at hmem
      obtain ⟨i, _, rfl⟩ := hmem
      have hshared : (sharedClusters i).length ≤ 2 := by
        unfold sharedClusters
        split <;> simp
      exact Nat.add_le_add hshared hsize)
  rw [hattach]
  congr 1
  apply List.ext_getElem?
  intro k
  rw [hattached]
  unfold sharedEndpoints layout
  by_cases hlt : k < config.endpointCount
  . simp [hlt, Endpoint.withClusters]
  . simp [hlt]

theorem ofConfig_eq {config : DeviceConfig} (h : config.endpointCount ≤ maxEndpoints) :
    ofConfig config
      =
    .ok {
      endpoints := layout config
      manufacturer := config.manufacturer
      model := config.model
      statusLedExposed := config.hasDedicatedLed
      imageType := config.imageType } := by
  have hblank : blankEndpoints config.endpointCount
      = .ok ((List.range config.endpointCount).map fun i => ⟨i + 1, []⟩) := if_pos h
  have hpos : 0 < config.endpointCount := by
    unfold DeviceConfig.endpointCount
    omega
  simp only [ofConfig, bind, Except.bind, hblank, attachAt_blank hpos,
    attachFrom_sharedEndpoints]
  rfl

end Topology

end WallSwitch
