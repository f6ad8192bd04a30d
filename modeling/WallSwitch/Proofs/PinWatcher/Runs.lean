import WallSwitch.Board.Wired
import WallSwitch.Proofs.Board.Passing
import WallSwitch.Proofs.PinWatcher.Settling

/-!
This module contains watchers in use on a board. Pins are watched and let go in any order, levels
change with and without an interrupt, and passes are made when they are due or at any other time.
-/

namespace WallSwitch

inductive WatcherCall (α : Type) where
  | watch (pin : Pin) (payload : α)
  | unwatch (pin : Pin)
  /-- An edge interrupts. -/
  | onEdge
  | pass
deriving DecidableEq, Repr

inductive WatcherUse (α : Type) where
  | call (asked : WatcherCall α)
  /-- A level changes from outside, which interrupts if the pin is armed for that. -/
  | input (pin : Pin) (high : Bool)
  /-- A level changes, and nothing interrupts. -/
  | setLevel (pin : Pin) (high : Bool)
  /-- The next reads of a pin are to find these levels. -/
  | setBounces (pin : Pin) (levels : List Bool)
  /-- Some milliseconds pass. -/
  | wait (ms : Nat)
deriving DecidableEq, Repr

namespace PinWatcher

variable {α : Type}

def call (wired : Wired (PinWatcher α)) : WatcherCall α → Wired (PinWatcher α)
  | .watch pin payload =>
    match wired.part.watch wired.board pin payload with
    | .ok (watcher, board) => ⟨watcher, board⟩
    | .error _ => wired
  | .unwatch pin => wired.step (unwatch pin).step
  | .onEdge => wired.step onEdge
  | .pass =>
    let (_, watcher, board) := wired.part.pass wired.board
    ⟨watcher, board⟩

def fire (task : Task) (wired : Wired (PinWatcher α)) : Wired (PinWatcher α) :=
  match task with
  | .settle => call wired .pass
  | .relayPulse _ | .buttonHold _ | .reset => wired

def input (wired : Wired (PinWatcher α)) (pin : Pin) (high : Bool) : Wired (PinWatcher α) :=
  Wired.input wired (fun wired => call wired .onEdge) pin high

def run (wired : Wired (PinWatcher α)) (ms : Nat) : Wired (PinWatcher α) :=
  Wired.run wired fire ms

def use (wired : Wired (PinWatcher α)) : WatcherUse α → Wired (PinWatcher α)
  | .call asked => call wired asked
  | .input pin high => input wired pin high
  | .setLevel pin high => { wired with board := wired.board.setLevel pin high }
  | .setBounces pin levels => { wired with board := wired.board.setBounces pin levels }
  | .wait ms => run wired ms

def used (wired : Wired (PinWatcher α)) (uses : List (WatcherUse α)) : Wired (PinWatcher α) :=
  uses.foldl use wired

variable {wired : Wired (PinWatcher α)} {pin : Pin} {payload : α}

theorem call_watch_of_ok {watcher : PinWatcher α} {board : Board}
    (h : wired.part.watch wired.board pin payload = .ok (watcher, board)) :
    call wired (.watch pin payload) = ⟨watcher, board⟩ := by
  simp only [call, h]

theorem call_watch_of_error {error : WatchError}
    (h : wired.part.watch wired.board pin payload = .error error) :
    call wired (.watch pin payload) = wired := by
  simp only [call, h]

theorem used_append (wired : Wired (PinWatcher α)) (first second : List (WatcherUse α)) :
    used wired (first ++ second) = used (used wired first) second :=
  List.foldl_append

theorem used_invariant {Invariant : Wired (PinWatcher α) → Prop}
    (huse : ∀ wired asked, Invariant wired → Invariant (use wired asked))
    (uses : List (WatcherUse α)) (h : Invariant wired) : Invariant (used wired uses) :=
  List.foldlRecOn uses use h fun wired hwired asked _ => huse wired asked hwired

/-! ### What is watched -/

theorem watched_input (wired : Wired (PinWatcher α)) (pin : Pin) (high : Bool) :
    (input wired pin high).part.watched = wired.part.watched := by
  unfold input Wired.input
  dsimp only
  split
  . rfl
  . rfl

theorem watched_fire (task : Task) (wired : Wired (PinWatcher α)) :
    (fire task wired).part.watched = wired.part.watched := by
  cases task <;> rfl

theorem watched_run (wired : Wired (PinWatcher α)) (ms : Nat) :
    (run wired ms).part.watched = wired.part.watched := by
  let Kept (next : Wired (PinWatcher α)) : Prop := next.part.watched = wired.part.watched
  refine Wired.runTasks_invariant Kept ?_ _ wired rfl
  intro next task due h _
  exact (watched_fire task _).trans h

end PinWatcher

end WallSwitch
