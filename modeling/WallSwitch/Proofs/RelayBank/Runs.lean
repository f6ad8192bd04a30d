import WallSwitch.Board.Wired
import WallSwitch.Proofs.Board.Levels
import WallSwitch.Proofs.RelayBank.Wiring

/-!
This module contains relays at work on a board: they are set up, and then calls from outside, tasks
of the board and the passing of time follow each other in any order.
-/

namespace WallSwitch

inductive BankEvent where
  | call (asked : BankCall)
  /-- The board takes a task off its agenda and runs it, at whatever time. -/
  | fire (task : Task) (time : Nat)
  | goTo (time : Nat)
deriving DecidableEq, Repr

namespace BankEvent

def call? : BankEvent → Option BankCall
  | .call asked => some asked
  | .fire (.relayPulse i) _ => some (.continuePulse i)
  | .fire .settle _ | .fire (.buttonHold _) _ | .fire .reset _ | .goTo _ => none

def step (event : BankEvent) : Step RelayBank :=
  match event.call? with
  | some asked => asked.step
  | none => .skip

def target? (event : BankEvent) : Option Nat :=
  event.call?.bind BankCall.target?

def onBoard : BankEvent → Board → Board
  | .call _, board => board
  | .fire task time, board => board.begin task time
  | .goTo time, board => board.goTo time

theorem move (event : BankEvent) (bank : RelayBank) :
    bank.Move event.target? (event.step.state bank) (event.step.commands bank) := by
  unfold target? step
  cases event.call? with
  | none =>
    apply RelayBank.Move.stay
    intro i hi
    simp at hi
  | some asked => exact asked.move bank

@[simp]
theorem level_onBoard (event : BankEvent) (board : Board) (pin : Pin) :
    (event.onBoard board).level pin = board.level pin := by
  cases event <;> rfl

end BankEvent

namespace RelayBank

def started (bank : RelayBank) (board : Board) : Wired RelayBank :=
  Wired.step ⟨bank, board⟩ setUp

def happen (wired : Wired RelayBank) (event : BankEvent) : Wired RelayBank :=
  Wired.step ⟨wired.part, event.onBoard wired.board⟩ event.step

def after (wired : Wired RelayBank) (events : List BankEvent) : Wired RelayBank :=
  events.foldl happen wired

@[simp]
theorem after_nil (wired : Wired RelayBank) : after wired [] = wired := rfl

@[simp]
theorem after_cons (wired : Wired RelayBank) (event : BankEvent) (events : List BankEvent) :
    after wired (event :: events) = after (happen wired event) events := rfl

theorem after_invariant (Invariant : Wired RelayBank → Prop)
    (hhappen : ∀ wired event, Invariant wired → Invariant (happen wired event))
    (events : List BankEvent) :
    ∀ wired, Invariant wired → Invariant (after wired events) := by
  induction events with
  | nil =>
    intro wired h
    exact h
  | cons event events ih =>
    intro wired h
    exact ih (happen wired event) (hhappen wired event h)

theorem after_append (wired : Wired RelayBank) (first second : List BankEvent) :
    after wired (first ++ second) = after (after wired first) second := by
  simp [after]

theorem BuiltFrom.happen {config : DeviceConfig} {wired : Wired RelayBank}
    (hbuilt : wired.part.BuiltFrom config) (event : BankEvent) :
    (happen wired event).part.BuiltFrom config :=
  hbuilt.move (event.move wired.part)

theorem builtFrom_after (config : DeviceConfig) (board : Board) (events : List BankEvent) :
    (after ((ofConfig config).started board) events).part.BuiltFrom config := by
  apply after_invariant fun wired => wired.part.BuiltFrom config
  . intro wired event h
    exact h.happen event
  . exact builtFrom_ofConfig config

end RelayBank

end WallSwitch
