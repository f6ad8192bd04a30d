import WallSwitch.Board.Basic
import WallSwitch.Board.Step

/-!
This module contains the watching of pins, which turns the bursts of edges of bouncing contacts into
one notification for every pin that is watched. The first edge masks all pins and puts a pass off by
a short pause. The pass reads the pins until two readings in a row agree, unmasks them, each armed for
the edge that leaves its level, and notifies.
-/

namespace WallSwitch

/--
A pin that is watched, and what comes with its notifications.
-/
structure Watched (α : Type) where
  pin : Pin
  payload : α
deriving DecidableEq, Repr

structure Notification (α : Type) where
  pin : Pin
  high : Bool
  payload : α
deriving DecidableEq, Repr

inductive WatchError where
  | tableFull
  | invalidPin
deriving DecidableEq, Repr

def WatchError.message : WatchError → String
  | .tableFull => "TableFull"
  | .invalidPin => "InvalidPin"

/--
What is watched, and how far the passes are.
-/
structure PinWatcher (α : Type) where
  /-- The pins that are watched, each in a place of its own. -/
  slots : Vector (Option (Watched α)) 16
  /-- The pause before the next pass, in milliseconds. -/
  pause : Nat
  /-- The number of passes. -/
  passes : UInt32

namespace PinWatcher

variable {α : Type}

def settleTries : Nat := 50

def empty : PinWatcher α :=
  ⟨Vector.replicate 16 none, 3, 0⟩

def watched (watcher : PinWatcher α) : List (Watched α) :=
  watcher.slots.toList.filterMap id

def pins (watcher : PinWatcher α) : List Pin :=
  watcher.watched.map (·.pin)

def size (watcher : PinWatcher α) : Nat :=
  watcher.watched.length

def slotOf? (watcher : PinWatcher α) (pin : Pin) : Option Nat :=
  watcher.slots.toList.findIdx? fun slot => slot.any (·.pin == pin)

def freeSlot? (watcher : PinWatcher α) : Option Nat :=
  watcher.slots.toList.findIdx? (·.isNone)

def watches (watcher : PinWatcher α) (pin : Pin) : Bool :=
  (watcher.slotOf? pin).isSome

def place (watcher : PinWatcher α) (pin : Pin) : Except WatchError Nat :=
  if !pin.isValid then
    .error .invalidPin
  else
    match (watcher.slotOf? pin).or watcher.freeSlot? with
    | some i => .ok i
    | none => .error .tableFull

def arm (pin : Pin) (high : Bool) : Command :=
  .armInterrupt pin (.leaving high)

/--
Watches a pin from now on. One that is watched already gets a new payload.
-/
def watch (watcher : PinWatcher α) (board : Board) (pin : Pin) (payload : α) :
    Except WatchError (PinWatcher α × Board) :=
  (watcher.place pin).map fun i =>
    let (high, board) := board.read pin
    ({ watcher with slots := watcher.slots.setIfInBounds i (some ⟨pin, payload⟩) },
      board.performAll [arm pin high, .enableInterrupt pin])

/--
Watches a pin no longer. The answer is whether it was watched.
-/
def unwatch (pin : Pin) : Request (PinWatcher α) Bool := fun watcher =>
  match watcher.slotOf? pin with
  | none => (false, watcher, [])
  | some i =>
    (true, { watcher with slots := watcher.slots.setIfInBounds i none }, [.disableInterrupt pin])

def nextPause (pause : Nat) : Nat :=
  pause * 3 % 7

/--
Takes the first edge of a burst: masks all pins and puts off a pass.
-/
def onEdge : Step (PinWatcher α) := fun watcher =>
  ({ watcher with pause := nextPause watcher.pause },
    watcher.pins.map .disableInterrupt ++ [.schedule .settle watcher.pause])

/--
Reads pins until a reading agrees with the one before it, at most `tries` times, and arms them for
each reading before the next. The answer is the last reading.
-/
def settle (pins : List Pin) : Nat → List Bool → Board → List Bool × Board
  | 0, levels, board => (levels, board)
  | tries + 1, levels, board =>
    let (again, board) := (board.performAll (pins.zipWith arm levels)).readAll pins
    if again = levels then (levels, board) else settle pins tries again board

def notifications (watcher : PinWatcher α) (levels : List Bool) : List (Notification α) :=
  watcher.watched.zipWith (fun watched high => ⟨watched.pin, high, watched.payload⟩) levels

def pass (watcher : PinWatcher α) (board : Board) :
    List (Notification α) × PinWatcher α × Board :=
  let (levels, board) := board.readAll watcher.pins
  let (levels, board) := settle watcher.pins settleTries levels board
  (watcher.notifications levels,
    { watcher with passes := watcher.passes + 1 },
    board.performAll (watcher.pins.map .enableInterrupt))

end PinWatcher

end WallSwitch
