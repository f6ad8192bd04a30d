import WallSwitch.DeviceConfig.Basic

/-!
This module contains what a device shows to the network: its endpoints and the clusters on them.
-/

namespace WallSwitch

inductive Cluster where
  /-- Who made the device. -/
  | basic
  /-- Takes firmware images. -/
  | ota
  /-- The settings of this switch. -/
  | switchConfig (switch : Nat)
  /-- Switches this relay. -/
  | onOff (relay : Nat)
  | groups
deriving DecidableEq, Repr

namespace Cluster

def id : Cluster → UInt16
  | .basic => 0x0000
  | .groups => 0x0004
  | .onOff _ => 0x0006
  | .switchConfig _ => 0x0007
  | .ota => 0x0019

/--
Whether the device answers on this cluster. It asks for firmware images itself.
-/
def isServer : Cluster → Bool
  | .ota => false
  | _ => true

end Cluster

/--
An endpoint, with its clusters in the order in which they were attached.
-/
structure Endpoint where
  id : Nat
  clusters : List Cluster
deriving DecidableEq, Repr

namespace Endpoint

def profileId : UInt16 := 0x0104

def deviceId : UInt16 := 0xFFFF

def maxClusters : Nat := 4

def has (endpoint : Endpoint) (cluster : Cluster) : Bool :=
  endpoint.clusters.contains cluster

def attach (endpoint : Endpoint) (cluster : Cluster) : Except ConfigError Endpoint :=
  if endpoint.clusters.length < maxClusters then
    .ok { endpoint with clusters := endpoint.clusters ++ [cluster] }
  else
    .error .topologyOverflow

end Endpoint

/--
The endpoints of a device and what its basic cluster says about it.
-/
structure Topology where
  endpoints : List Endpoint
  manufacturer : Bytes
  model : Bytes
  /-- Whether the status LED can be set over the network. -/
  statusLedExposed : Bool
  imageType : Option UInt32
deriving DecidableEq, Repr

namespace Topology

def maxEndpoints : Nat := 10

def blankEndpoints (count : Nat) : Except ConfigError (List Endpoint) :=
  if count ≤ maxEndpoints then
    .ok ((List.range count).map fun i => ⟨i + 1, []⟩)
  else
    .error .topologyOverflow

def attachAt (endpoints : List Endpoint) (i : Nat) (clusters : List Cluster) :
    Except ConfigError (List Endpoint) :=
  match endpoints[i]? with
  | none => .error .topologyOverflow
  | some endpoint => do
    let endpoint ← clusters.foldlM Endpoint.attach endpoint
    return endpoints.set i endpoint

/--
The clusters that the peripherals put on the endpoints, in the order of the endpoints: those of the
switches first, those of the relays behind them.
-/
def peripheralClusters (config : DeviceConfig) : List (List Cluster) :=
  config.switches.map (fun switch => [.switchConfig switch.index])
    ++ config.relays.map (fun relay => [.onOff relay.index, .groups])

/--
Attaches each of the lists of clusters to an endpoint of its own, from position `i` on.
-/
def attachFrom (endpoints : List Endpoint) (i : Nat) :
    List (List Cluster) → Except ConfigError (List Endpoint)
  | [] => .ok endpoints
  | clusters :: more => do
    let endpoints ← attachAt endpoints i clusters
    attachFrom endpoints (i + 1) more

/--
Lays out the endpoints of a device. The first one carries what the whole device shares, besides
what its own switch or relay puts there.
-/
def ofConfig (config : DeviceConfig) : Except ConfigError Topology := do
  let endpoints ← blankEndpoints config.endpointCount
  let endpoints ← attachAt endpoints 0 [.basic, .ota]
  let endpoints ← attachFrom endpoints 0 (peripheralClusters config)
  return {
    endpoints := endpoints
    manufacturer := config.manufacturer
    model := config.model
    statusLedExposed := config.hasDedicatedLed
    imageType := config.imageType }

def endpoint? (topology : Topology) (id : Nat) : Option Endpoint :=
  topology.endpoints.find? fun endpoint => endpoint.id == id

def endpointOf? (topology : Topology) (cluster : Cluster) : Option Nat :=
  (topology.endpoints.find? fun endpoint => endpoint.has cluster).map (·.id)

def switchEndpoint? (topology : Topology) (switch : Nat) : Option Nat :=
  topology.endpointOf? (.switchConfig switch)

def relayEndpoint? (topology : Topology) (relay : Nat) : Option Nat :=
  topology.endpointOf? (.onOff relay)

end Topology

end WallSwitch
