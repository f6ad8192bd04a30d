import WallSwitch.Bytes

/-!
This module contains the entries of a configuration text.
-/

namespace WallSwitch

/--
The byte that stands for the end of a text. It is also what `Entry.byteAt` finds past the end.
-/
def terminator : UInt8 := 0

/--
One entry of a configuration text: a tag byte and what comes with it.
-/
structure Entry where
  bytes : Bytes
deriving DecidableEq, Repr

namespace Entry

def isEmpty (entry : Entry) : Bool :=
  entry.bytes.isEmpty

def byteAt (entry : Entry) (i : Nat) : UInt8 :=
  entry.bytes[i]?.getD terminator

def tag (entry : Entry) : UInt8 :=
  entry.byteAt 0

def payload (entry : Entry) : Bytes :=
  entry.bytes.tail.dropWhile (· == 0x20)

def startsWith (entry : Entry) (start : Bytes) : Bool :=
  start.isPrefixOf entry.bytes

end Entry

end WallSwitch
