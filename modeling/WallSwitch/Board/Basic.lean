import WallSwitch.Board.Command
import WallSwitch.PinMap
import WallSwitch.Settings.Memory

/-!
This module contains the board that a device runs on: its pins with their levels and interrupts, its
agenda, its settings memory and its view of the network. Whatever is asked of it goes into its trace.
-/

namespace WallSwitch

/--
What a board holds apart from the device that runs on it.
-/
structure Board where
  levels : PinMap Bool
  /-- The levels that the next reads of a pin will find, for a contact that bounces. -/
  bounces : PinMap (List Bool)
  interruptEnabled : PinMap Bool
  armedEdge : PinMap (Option Edge)
  /-- The pins that cannot be configured. -/
  unsupported : List Pin
  agenda : Agenda
  network : NetworkStatus
  memory : SettingsMemory
  /-- What happened, with the time, the last first. -/
  trace : List (Nat × Event)

namespace Board

def idle (unsupported : List Pin) (network : NetworkStatus) (memory : SettingsMemory) : Board where
  levels := .const false
  bounces := .const []
  interruptEnabled := .const false
  armedEdge := .const none
  unsupported := unsupported
  agenda := .empty
  network := network
  memory := memory
  trace := []

def now (board : Board) : Nat :=
  board.agenda.now

def level (board : Board) (pin : Pin) : Bool :=
  board.levels.get pin

def record (board : Board) (event : Event) : Board :=
  { board with trace := (board.now, event) :: board.trace }

def history (board : Board) : List (Nat × Event) :=
  board.trace.reverse

/-! ### Commands -/

def pinFault? (board : Board) (pin : Pin) : Option PinFault :=
  if !pin.isValid then some .invalidPin
  else if board.unsupported.contains pin then some .unsupported
  else none

def execute (board : Board) : Command → Option Fault × Board
  | .configure pin _ => ((board.pinFault? pin).map .pin, board)
  | .write pin high => (none, { board with levels := board.levels.set pin high })
  | .enableInterrupt pin =>
    (none, { board with interruptEnabled := board.interruptEnabled.set pin true })
  | .disableInterrupt pin =>
    (none, { board with interruptEnabled := board.interruptEnabled.set pin false })
  | .armInterrupt pin edge =>
    (none, { board with armedEdge := board.armedEdge.set pin (some edge) })
  | .schedule task delay => (none, { board with agenda := board.agenda.schedule task delay })
  | .cancel task => (none, { board with agenda := board.agenda.cancel task })
  | .save key item =>
    match board.memory.write key item with
    | .ok memory => (none, { board with memory := memory })
    | .error error => (some (.store error), board)
  | .erase =>
    match board.memory.erase with
    | .ok memory => (none, { board with memory := memory })
    | .error error => (some (.store error), board)
  | .leaveNetwork | .restart | .announce _ | .setImageType _ | .report .. | .sendBound ..
  | .notify .. | .remark _ => (none, board)

def attempt (board : Board) (command : Command) : Option Fault × Board :=
  let (fault, board) := board.execute command
  (fault, board.record (.command command fault))

def perform (board : Board) (command : Command) : Board :=
  (board.attempt command).2

def performAll (board : Board) (commands : List Command) : Board :=
  commands.foldl perform board

@[simp]
theorem performAll_nil (board : Board) : board.performAll [] = board := rfl

@[simp]
theorem performAll_cons (board : Board) (command : Command) (commands : List Command) :
    board.performAll (command :: commands) = (board.perform command).performAll commands := rfl

@[simp]
theorem performAll_append (board : Board) (first second : List Command) :
    board.performAll (first ++ second) = (board.performAll first).performAll second := by
  simp [performAll]

/-! ### Reading -/

/--
Reads the level of a pin. A pin that bounces takes the next of its levels first.
-/
def read (board : Board) (pin : Pin) : Bool × Board :=
  match board.bounces.get pin with
  | [] => (board.level pin, board.record (.read pin (board.level pin)))
  | high :: later =>
    let board := { board with
      bounces := board.bounces.set pin later
      levels := board.levels.set pin high }
    (high, board.record (.read pin high))

def readAll (board : Board) : List Pin → List Bool × Board
  | [] => ([], board)
  | pin :: pins =>
    let (high, board) := board.read pin
    let (levels, board) := readAll board pins
    (high :: levels, board)

def load (board : Board) (key room : Nat) : Except StoreError Bytes × Board :=
  let answer := board.memory.read key room
  (answer, board.record (.load key (answer.map List.length)))

/-! ### From outside -/

def setLevel (board : Board) (pin : Pin) (high : Bool) : Board :=
  { board with levels := board.levels.set pin high }

def setBounces (board : Board) (pin : Pin) (levels : List Bool) : Board :=
  { board with bounces := board.bounces.set pin levels }

def interrupts (board : Board) (pin : Pin) (high : Bool) : Bool :=
  board.interruptEnabled.get pin && board.level pin != high
    && board.armedEdge.get pin == some (.towards high)

def begin (board : Board) (task : Task) (due : Nat) : Board :=
  let board := { board with agenda := (board.agenda.cancel task).goTo due }
  board.record (.fire task due)

def goTo (board : Board) (time : Nat) : Board :=
  { board with agenda := board.agenda.goTo time }

/--
Switches the board off and on again. Levels, time, network and settings last.
-/
def powerCycle (board : Board) : Board :=
  { board with
    bounces := .const []
    interruptEnabled := .const false
    armedEdge := .const none
    agenda := { board.agenda with pending := [] } }

end Board

end WallSwitch
