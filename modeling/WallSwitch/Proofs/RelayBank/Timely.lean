import WallSwitch.Proofs.Board.Passing
import WallSwitch.Proofs.RelayBank.Runs

/-!
This module contains relays in use: they are asked for something, or time passes and the board runs
what is due in the meantime. A use comes down to events, each of which happens on time.
-/

namespace WallSwitch

/--
Whether users may ask for it. The next step of a pulse is only taken when the board runs the task.
-/
def BankCall.isCommand : BankCall → Bool
  | .continuePulse _ => false
  | _ => true

inductive BankUse where
  | command (asked : BankCall) (h : asked.isCommand = true)
  /-- Some milliseconds pass. -/
  | wait (ms : Nat)
deriving DecidableEq

namespace RelayBank

def fire (task : Task) (wired : Wired RelayBank) : Wired RelayBank :=
  match task with
  | .relayPulse i => wired.step (continuePulse i)
  | .settle | .buttonHold _ | .reset => wired

def run (wired : Wired RelayBank) (ms : Nat) : Wired RelayBank :=
  Wired.run wired fire ms

def use (wired : Wired RelayBank) : BankUse → Wired RelayBank
  | .command asked _ => wired.step asked.step
  | .wait ms => run wired ms

def used (wired : Wired RelayBank) (uses : List BankUse) : Wired RelayBank :=
  uses.foldl use wired

/-! ### The events of a use -/

/--
The tasks that the board runs up to the time `limit`, but no more than `fuel` of them.
-/
def firings (limit : Nat) : Nat → Wired RelayBank → List BankEvent
  | 0, _ => []
  | fuel + 1, wired =>
    match wired.board.agenda.next? limit with
    | none => []
    | some (task, due) => .fire task due :: firings limit fuel (happen wired (.fire task due))

def eventsOfUse (wired : Wired RelayBank) : BankUse → List BankEvent
  | .command asked _ => [.call asked]
  | .wait ms =>
    let limit := wired.board.now + ms
    firings limit (Wired.tasksPerMs * (ms + 1)) wired ++ [.goTo limit]

def eventsOf (wired : Wired RelayBank) : List BankUse → List BankEvent
  | [] => []
  | asked :: uses => eventsOfUse wired asked ++ eventsOf (use wired asked) uses

variable {wired : Wired RelayBank}

theorem fire_begin (wired : Wired RelayBank) (task : Task) (due : Nat) :
    fire task ⟨wired.part, wired.board.begin task due⟩ = happen wired (.fire task due) := by
  cases task <;> rfl

theorem after_firings (limit fuel : Nat) :
    ∀ wired, after wired (firings limit fuel wired) = Wired.runTasks fire limit fuel wired := by
  induction fuel with
  | zero =>
    intro wired
    rfl
  | succ fuel ih =>
    intro wired
    unfold firings Wired.runTasks
    cases hnext : wired.board.agenda.next? limit with
    | none => rfl
    | some first =>
      dsimp only
      rw [after_cons, ih, ← fire_begin]

theorem after_eventsOfUse (wired : Wired RelayBank) (asked : BankUse) :
    after wired (eventsOfUse wired asked) = use wired asked := by
  cases asked with
  | command asked h => rfl
  | wait ms =>
    rw [eventsOfUse, after_append, after_firings]
    rfl

theorem after_eventsOf (uses : List BankUse) :
    ∀ wired, after wired (eventsOf wired uses) = used wired uses := by
  induction uses with
  | nil =>
    intro wired
    rfl
  | cons asked uses ih =>
    intro wired
    rw [eventsOf, after_append, after_eventsOfUse, ih]
    rfl

/-! ### Events on time -/

/--
Users only give commands. The board runs the task that is due next, at the time at which it is due,
and lets no time pass in which a task is due.
-/
def IsTimely (wired : Wired RelayBank) : BankEvent → Prop
  | .call asked => asked.isCommand = true
  | .fire task time => wired.board.agenda.next? time = some (task, time)
  | .goTo time => wired.board.now ≤ time ∧ wired.board.agenda.next? time = none

def Timely (wired : Wired RelayBank) : List BankEvent → Prop
  | [] => True
  | event :: events => IsTimely wired event ∧ Timely (happen wired event) events

theorem timely_append {first second : List BankEvent} :
    ∀ {wired : Wired RelayBank}, Timely wired (first ++ second)
      ↔ Timely wired first ∧ Timely (after wired first) second := by
  induction first with
  | nil => simp [Timely]
  | cons event events ih =>
    intro wired
    simp only [List.cons_append, Timely, after_cons, ih, and_assoc]

theorem Timely.of_prefix {moment events : List BankEvent} (h : Timely wired events)
    (hmoment : moment <+: events) : Timely wired moment := by
  obtain ⟨rest, rfl⟩ := hmoment
  exact (timely_append.mp h).1

theorem Timely.invariant {Invariant : Wired RelayBank → Prop}
    (hhappen : ∀ wired event, IsTimely wired event → Invariant wired →
      Invariant (happen wired event)) {events : List BankEvent} :
    ∀ {wired : Wired RelayBank}, Timely wired events → Invariant wired →
      Invariant (after wired events) := by
  induction events with
  | nil =>
    intro wired _ h
    exact h
  | cons event events ih =>
    intro wired htimely h
    exact ih htimely.2 (hhappen wired event htimely.1 h)

theorem timely_firings (limit fuel : Nat) : ∀ wired, Timely wired (firings limit fuel wired) := by
  induction fuel with
  | zero =>
    intro wired
    trivial
  | succ fuel ih =>
    intro wired
    unfold firings
    split
    . trivial
    . next task due hnext => exact ⟨Agenda.next?_self hnext, ih _⟩

end RelayBank

end WallSwitch
