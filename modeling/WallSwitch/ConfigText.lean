import WallSwitch.ConfigError
import WallSwitch.TextReader

/-!
This module contains configuration texts: entries with a semicolon behind each, read in place and
put back afterwards.
-/

namespace WallSwitch

/--
The configuration memory of a device.
-/
structure ConfigText where
  bytes : Bytes
deriving DecidableEq, Repr

namespace ConfigText

/--
The byte behind each entry, a semicolon.
-/
def delimiter : UInt8 := 0x3B

def maxLength : Nat := 256

def empty : ConfigText := ⟨[]⟩

def builtIn : ConfigText := ⟨Bytes.ascii "unknown;TS0012-CUSTOM;"⟩

def ofBytes (bytes : Bytes) : Except ConfigError ConfigText :=
  let cut := bytes.takeWhile (· != terminator)
  if cut.length ≤ maxLength then .ok ⟨cut⟩ else .error (.configTooLong cut.length)

def isEmpty (text : ConfigText) : Bool :=
  text.bytes.isEmpty

def reader (text : ConfigText) : TextReader :=
  .start text.bytes delimiter

def restore (text : ConfigText) (cursor : Nat) : ConfigText :=
  ⟨(text.bytes.take cursor).map (fun b => if b = terminator then delimiter else b)
    ++ text.bytes.drop cursor⟩

end ConfigText

end WallSwitch
