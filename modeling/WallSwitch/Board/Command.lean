import WallSwitch.Agenda
import WallSwitch.Settings.Store
import WallSwitch.Topology

/-!
This module contains what the parts of a device ask of the board and of the network, and what the
trace of a board holds.
-/

namespace WallSwitch

inductive NetworkStatus where
  | notJoined
  | joining
  | joined
deriving DecidableEq, Repr

inductive PressAction where
  | released
  | press
  | longPress
  /-- A toggle switch was flipped to its closed position. -/
  | positionOn
  /-- A toggle switch was flipped to its open position. -/
  | positionOff
deriving DecidableEq, Repr

inductive OnOff where
  | on
  | off
  | toggle
deriving DecidableEq, Repr

def OnOff.ofState (on : Bool) : OnOff :=
  if on then .on else .off

/--
A demand that is made without waiting for an answer.
-/
inductive Command where
  | configure (pin : Pin) (mode : PinMode)
  | write (pin : Pin) (high : Bool)
  | enableInterrupt (pin : Pin)
  | disableInterrupt (pin : Pin)
  /-- Chooses the edge that interrupts. -/
  | armInterrupt (pin : Pin) (edge : Edge)
  | schedule (task : Task) (delay : Nat)
  | cancel (task : Task)
  /-- Writes an item of the settings memory. -/
  | save (key : Nat) (item : Bytes)
  /-- Erases the settings memory. -/
  | erase
  | leaveNetwork
  | restart
  /-- Gives the network its endpoints. -/
  | announce (topology : Topology)
  | setImageType (value : UInt32)
  | report (switch : Nat) (action : PressAction)
  /-- Sends a command to the devices bound to a switch. -/
  | sendBound (switch : Nat) (command : OnOff)
  /-- Tells the observer of a relay, known by `param`, of the new state. -/
  | notify (relay : Nat) (on : Bool) (param : Nat)
  /-- Writes a remark into the trace. -/
  | remark (text : String)
deriving DecidableEq, Repr

inductive Fault where
  | pin (fault : PinFault)
  | store (error : StoreError)
deriving DecidableEq, Repr

def Fault.message : Fault → String
  | .pin fault => fault.message
  | .store error => error.message

/--
What the trace of a board holds.
-/
inductive Event where
  | command (command : Command) (fault : Option Fault)
  | read (pin : Pin) (high : Bool)
  /-- An item of the settings memory was read: its length, or why not. -/
  | load (key : Nat) (answer : Except StoreError Nat)
  | fire (task : Task) (due : Nat)

end WallSwitch
