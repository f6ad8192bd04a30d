import WallSwitch.DeviceConfig.Build
import WallSwitch.Topology

/-!
This module contains the way from a configuration text to a device configuration and its topology.
-/

namespace WallSwitch

/--
What a configuration text amounts to.
-/
structure Blueprint where
  config : DeviceConfig
  topology : Topology
deriving DecidableEq, Repr

/--
Reads a configuration text, and puts back the delimiters that the reader went over.
-/
def ConfigText.compile (text : ConfigText) : Except ConfigError Blueprint × ConfigText :=
  let (config, reader) := DeviceConfig.build text.reader
  let result := do
    let config ← config
    let topology ← Topology.ofConfig config
    return ⟨config, topology⟩
  (result, ConfigText.restore ⟨reader.text⟩ reader.cursor)

end WallSwitch
