/-!
This module contains the agenda of a board: the tasks that are to run later, each at most once.
-/

namespace WallSwitch

inductive Task where
  /-- The next step of the pulse of this relay. -/
  | relayPulse (relay : Nat)
  /-- The reading of the inputs after a burst of edges. -/
  | settle
  /-- The end of the long-press time of this button. -/
  | buttonHold (button : Nat)
  /-- The reset that was asked for. -/
  | reset
deriving DecidableEq, Repr

/--
The time, in milliseconds, and the tasks to come with the times at which they are due, the one
scheduled last at the end.
-/
structure Agenda where
  now : Nat
  pending : List (Task × Nat)
deriving DecidableEq, Repr

namespace Agenda

def empty : Agenda := ⟨0, []⟩

def cancel (agenda : Agenda) (task : Task) : Agenda :=
  { agenda with pending := agenda.pending.filter fun entry => entry.1 != task }

/--
Puts `task` off for `delay` milliseconds, whatever it was put off for before.
-/
def schedule (agenda : Agenda) (task : Task) (delay : Nat) : Agenda :=
  let others := agenda.cancel task
  { others with pending := others.pending ++ [(task, agenda.now + delay)] }

def earliest? : List (Task × Nat) → Option (Task × Nat)
  | [] => none
  | entry :: entries =>
    match earliest? entries with
    | none => some entry
    | some other => if other.2 < entry.2 then some other else some entry

def next? (agenda : Agenda) (limit : Nat) : Option (Task × Nat) :=
  (earliest? agenda.pending).filter fun entry => entry.2 ≤ limit

def goTo (agenda : Agenda) (time : Nat) : Agenda :=
  { agenda with now := time }

end Agenda

end WallSwitch
