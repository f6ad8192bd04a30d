import WallSwitch.Board.Step

/-!
This module contains resets that wait for their time. There is one at most: a later one takes the
place of an earlier one.
-/

namespace WallSwitch

inductive ResetKind where
  /-- Starts the device again. -/
  | reboot
  /-- Erases the settings, leaves the network and starts the device again. -/
  | full
deriving DecidableEq, Repr

def ResetKind.commands : ResetKind → List Command
  | .reboot => [.restart]
  | .full => [.erase, .leaveNetwork, .restart]

/--
The reset that waits, if any.
-/
structure ResetTimer where
  pending : Option ResetKind
deriving DecidableEq, Repr

namespace ResetTimer

def standardDelay : Nat := 300

def idle : ResetTimer := ⟨none⟩

/--
Has a reset wait for `delay` milliseconds, or for the standard delay if that is zero.
-/
def schedule (kind : ResetKind) (delay : Nat) : Step ResetTimer := fun _ =>
  (⟨some kind⟩, [.schedule .reset (if delay = 0 then standardDelay else delay)])

def cancel : Step ResetTimer := fun _ =>
  (idle, [.cancel .reset])

def fire : Step ResetTimer := fun timer =>
  (idle, timer.pending.toList.flatMap ResetKind.commands)

end ResetTimer

end WallSwitch
