import WallSwitch.Entry
import WallSwitch.Pin

/-!
This module contains what a single entry of a configuration text describes, and the reading of
entries.
-/

namespace WallSwitch

inductive Peripheral where
  /-- A button; a long press on it resets the device. -/
  | button (pin : Pin) (pull : Pull)
  /-- A wall switch. -/
  | switch (pin : Pin) (pull : Pull)
  /-- An LED that only shows the network status. -/
  | statusLed (pin : Pin) (activeHigh : Bool)
  /-- An LED that shows the state of a relay. -/
  | indicatorLed (pin : Pin) (activeHigh : Bool)
  /-- A relay; one with a second pin is bi-stable. -/
  | relay (pin : Pin) (offPin? : Option Pin)
  /-- The kind of firmware image that the device takes. -/
  | imageType (value : UInt32)
  /-- Bi-stable relays may be pulsed at the same time. -/
  | simultaneousPulses
  /-- The switches so far are momentary. -/
  | momentarySwitches
deriving DecidableEq, Repr

namespace Peripheral

def leadingNumber (bytes : Bytes) : UInt32 :=
  (bytes.takeWhile Bytes.isDigit).foldl
    (fun n digit => n * 10 + UInt32.ofNat (Bytes.digitValue digit)) 0

def pullOf (payload : Bytes) : Pull :=
  .ofByte (payload[2]?.getD terminator)

/--
Whether an LED is lit by a high level. A letter `i` behind the pin says that it is not.
-/
def activeHighOf (payload : Bytes) : Bool :=
  payload[2]?.getD terminator != 0x69

/--
The second pin of a relay. Anything behind the first pin announces one, which may be invalid.
-/
def offPinOf? (payload : Bytes) : Option Pin :=
  match payload.drop 2 with
  | [] => none
  | rest => some (.ofBytes rest)

/--
The mark of simultaneous pulses, the only tag that has more than one byte.
-/
def simultaneousMark : Bytes := Bytes.ascii "SLP"

/--
Reads an entry by its tag. Entries with another tag, like the empty one, describe nothing; pins and
letters that cannot be read are invalid, but do not invalidate the entry.
-/
def ofEntry? (entry : Entry) : Option Peripheral :=
  let payload := entry.payload
  if entry.startsWith simultaneousMark then
    some .simultaneousPulses
  else if entry.tag = 0x42 then
    some (.button (.ofBytes payload) (pullOf payload))
  else if entry.tag = 0x53 then
    some (.switch (.ofBytes payload) (pullOf payload))
  else if entry.tag = 0x4C then
    some (.statusLed (.ofBytes payload) (activeHighOf payload))
  else if entry.tag = 0x49 then
    some (.indicatorLed (.ofBytes payload) (activeHighOf payload))
  else if entry.tag = 0x52 then
    some (.relay (.ofBytes payload) (offPinOf? payload))
  else if entry.tag = 0x69 then
    some (.imageType (leadingNumber payload))
  else if entry.tag = 0x4D then
    some .momentarySwitches
  else
    none

end Peripheral

end WallSwitch
