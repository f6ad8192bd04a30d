import WallSwitch.ConfigText
import WallSwitch.DeviceConfig.Basic

/-!
This module contains the reading of a configuration text into a device configuration.
-/

namespace WallSwitch

namespace DeviceConfig

def takeName (reader : TextReader) (tooLong : Nat → ConfigError) :
    Except ConfigError Bytes × TextReader :=
  let (entry, reader) := reader.next
  if entry.bytes.length ≤ maxNameLength then
    (.ok entry.bytes, reader)
  else
    (.error (tooLong entry.bytes.length), reader)

/--
Adds peripherals up to the first empty entry or the first one that there is no room for. Entries
that describe nothing are passed over.
-/
def addEntries (config : DeviceConfig) (reader : TextReader) :
    Except ConfigError DeviceConfig × TextReader :=
  go (reader.rest.length + 1) config reader
where
  /-- Every entry before the empty one uses up a byte, so `fuel` outlasts the text. -/
  go : Nat → DeviceConfig → TextReader → Except ConfigError DeviceConfig × TextReader
    | 0, config, reader => (.ok config, reader)
    | fuel + 1, config, reader =>
      let (entry, reader) := reader.next
      if entry.isEmpty then
        (.ok config, reader)
      else
        match Peripheral.ofEntry? entry with
        | none => go fuel config reader
        | some peripheral =>
          match config.add peripheral with
          | .ok config => go fuel config reader
          | .error error => (.error error, reader)

/--
Reads a configuration: the manufacturer, the model, then the peripherals.
-/
def build (reader : TextReader) : Except ConfigError DeviceConfig × TextReader :=
  match takeName reader .manufacturerTooLong with
  | (.error error, reader) => (.error error, reader)
  | (.ok manufacturer, reader) =>
    match takeName reader .modelTooLong with
    | (.error error, reader) => (.error error, reader)
    | (.ok model, reader) =>
      addEntries { empty with manufacturer := manufacturer, model := model } reader

end DeviceConfig

end WallSwitch
