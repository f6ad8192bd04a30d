import WallSwitch.Board.Basic
import WallSwitch.Board.Step

/-!
This module contains parts that are wired to a board: what they ask for is carried out there, and the
board calls them when an input changes or a task is due.
-/

namespace WallSwitch

/--
A part together with the board that it is wired to.
-/
structure Wired (σ : Type) where
  part : σ
  board : Board

namespace Wired

variable {σ : Type}

def step (wired : Wired σ) (next : Step σ) : Wired σ where
  part := next.state wired.part
  board := wired.board.performAll (next.commands wired.part)

@[simp]
theorem part_step (wired : Wired σ) (next : Step σ) :
    (wired.step next).part = next.state wired.part := rfl

@[simp]
theorem board_step (wired : Wired σ) (next : Step σ) :
    (wired.step next).board = wired.board.performAll (next.commands wired.part) := rfl

theorem step_andThen (wired : Wired σ) (first second : Step σ) :
    wired.step (first.andThen second) = (wired.step first).step second := by
  simp [step]

/--
Changes the level of a pin from outside. If that interrupts, `onEdge` is run.
-/
def input (wired : Wired σ) (onEdge : Wired σ → Wired σ) (pin : Pin) (high : Bool) : Wired σ :=
  let changed := { wired with board := wired.board.setLevel pin high }
  if wired.board.interrupts pin high then onEdge changed else changed

/--
Runs the tasks that are due by the time `limit`, those that tasks put off to before then included,
but no more than `fuel` of them.
-/
def runTasks (fire : Task → Wired σ → Wired σ) (limit : Nat) : Nat → Wired σ → Wired σ
  | 0, wired => wired
  | fuel + 1, wired =>
    match wired.board.agenda.next? limit with
    | none => wired
    | some (task, due) =>
      runTasks fire limit fuel (fire task { wired with board := wired.board.begin task due })

/--
More tasks than can run at one time. There are a dozen of them: a settling pass, a reset, and the
pulses and holds of five relays and five buttons. None of them puts itself off to the time that it
runs at, and only a settling pass puts another one off to that time.
-/
def tasksPerMs : Nat := 32

def run (wired : Wired σ) (fire : Task → Wired σ → Wired σ) (ms : Nat) : Wired σ :=
  let limit := wired.board.now + ms
  let ran := runTasks fire limit (tasksPerMs * (ms + 1)) wired
  { ran with board := ran.board.goTo limit }

end Wired

end WallSwitch
