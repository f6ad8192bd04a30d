import WallSwitch.Bytes

/-!
This module contains the pins of the board: how they are named, and how they are set up and
watched.
-/

namespace WallSwitch

/--
A pin of the board. A pin specification that cannot be read denotes the invalid pin, which is no
pin of any board but is handled like the others until it is used.
-/
inductive Pin where
  | invalid
  /-- Pin `number` of one of the ports `A` to `D`. -/
  | line (port : Fin 4) (number : Fin 9)
deriving DecidableEq, Inhabited, Repr

namespace Pin

def ofPortNumber (port number : Nat) : Pin :=
  if hp : port < 4 then
    if hn : number < 9 then .line ⟨port, hp⟩ ⟨number, hn⟩ else .invalid
  else
    .invalid

/--
Reads a pin specification such as `B3`: a port letter and a digit. Further bytes are left to other
readers.
-/
def ofBytes : Bytes → Pin
  | letter :: digit :: _ =>
    if 0x41 ≤ letter && 0x30 ≤ digit then
      ofPortNumber (letter.toNat - 0x41) (digit.toNat - 0x30)
    else
      .invalid
  | _ => .invalid

def isValid : Pin → Bool
  | .invalid => false
  | .line .. => true

def port? : Pin → Option Nat
  | .invalid => none
  | .line port _ => some port

def number? : Pin → Option Nat
  | .invalid => none
  | .line _ number => some number

/--
The packed form of a pin: the port in the upper byte, the number in the lower one.
-/
def raw : Pin → UInt16
  | .invalid => 0xFFFF
  | .line port number => UInt16.ofNat (256 * port + number)

protected def toString : Pin → String
  | .invalid => "invalid"
  | .line port number => String.singleton (Char.ofNat (0x41 + port)) ++ toString number.val

instance : ToString Pin := ⟨Pin.toString⟩

end Pin

/--
The resistor that an input pin is held by.
-/
inductive Pull where
  | up
  | down
  | floating
  /-- A missing or unknown pull letter, which the board is left to deal with. -/
  | invalid
deriving DecidableEq, Inhabited, Repr

def Pull.ofByte (letter : UInt8) : Pull :=
  if letter = 0x75 ∨ letter = 0x55 then .up
  else if letter = 0x64 then .down
  else if letter = 0x66 then .floating
  else .invalid

inductive PinMode where
  | input (pull : Pull)
  | output
deriving DecidableEq, Repr

inductive Edge where
  | rising
  | falling
deriving DecidableEq, Repr

namespace Edge

def towards (high : Bool) : Edge :=
  if high then .rising else .falling

def leaving (high : Bool) : Edge :=
  .towards !high

end Edge

inductive PinFault where
  | invalidPin
  | unsupported
deriving DecidableEq, Repr

def PinFault.message : PinFault → String
  | .invalidPin => "InvalidPin"
  | .unsupported => "Unsupported"

end WallSwitch
