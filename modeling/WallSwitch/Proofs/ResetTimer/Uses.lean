import WallSwitch.Proofs.ResetTimer.History

/-!
This module contains timers on their own: resets are asked for and called off, and time passes, in any
order. A log that knows nothing of tasks says what comes of it.
-/

namespace WallSwitch

namespace ResetTimer

inductive ResetUse where
  | schedule (kind : ResetKind) (delay : Nat)
  | cancel
  | wait (ms : Nat)
deriving DecidableEq, Repr

def fired (wired : Wired ResetTimer) (time : Nat) : Wired ResetTimer :=
  Wired.step ⟨wired.part, wired.board.begin .reset time⟩ fire

def run (wired : Wired ResetTimer) (ms : Nat) : Wired ResetTimer :=
  wired.run (fun _ wired => wired.step fire) ms

def use (wired : Wired ResetTimer) : ResetUse → Wired ResetTimer
  | .schedule kind delay => wired.step (ResetTimer.schedule kind delay)
  | .cancel => wired.step ResetTimer.cancel
  | .wait ms => run wired ms

def used (wired : Wired ResetTimer) (uses : List ResetUse) : Wired ResetTimer :=
  uses.foldl use wired

end ResetTimer

structure ResetLog where
  now : Nat
  history : List ResetEvent

namespace ResetLog

def note (log : ResetLog) : ResetTimer.ResetUse → ResetLog
  | .schedule kind delay => { log with history := .asked kind log.now delay :: log.history }
  | .cancel => { log with history := .calledOff :: log.history }
  | .wait ms =>
    match ResetEvent.latest? log.history with
    | none => { log with now := log.now + ms }
    | some (_, due) =>
      ⟨log.now + ms, if due ≤ log.now + ms then .fired due :: log.history else log.history⟩

def noted (log : ResetLog) (uses : List ResetTimer.ResetUse) : ResetLog :=
  uses.foldl note log

end ResetLog

namespace ResetTimer

structure Logged (wired : Wired ResetTimer) (before : List (Nat × Command)) (log : ResetLog) :
    Prop where
  now : wired.board.now = log.now
  alone : ∀ task, task ≠ .reset → wired.board.due task = []
  follows : wired.part.Follows wired.board before log.history

variable {wired : Wired ResetTimer} {log : ResetLog} {before : List (Nat × Command)}

theorem now_fired (wired : Wired ResetTimer) (time : Nat) : (fired wired time).board.now = time :=
  Board.now_performAll _ _

theorem due_fired (h : ∀ task, task ≠ .reset → wired.board.due task = []) (time : Nat) (task : Task) :
    (fired wired time).board.due task = [] := by
  have hnone : (wired.board.begin .reset time).due task = [] := by
    by_cases htask : task = .reset
    . rw [htask, Board.due_begin_self]
    . rw [Board.due_begin_of_ne (Ne.symm htask), h task htask]
  refine (Board.due_performAll_of_topic ?_ _).trans hnone
  intro command hmem heq
  have htopic := topic_fire command hmem
  rw [heq] at htopic
  cases task <;> simp [Task.topic] at htopic

namespace Logged

theorem run_eq (h : Logged wired before log) (ms : Nat) :
    (∀ waiting ∈ ResetEvent.latest? log.history, log.now + ms < waiting.2)
        ∧ run wired ms = { wired with board := wired.board.goTo (log.now + ms) }
      ∨ ∃ kind due, ResetEvent.latest? log.history = some (kind, due) ∧ due ≤ log.now + ms
        ∧ due ∈ wired.board.due .reset
        ∧ run wired ms
          = { fired wired due with board := (fired wired due).board.goTo (log.now + ms) } := by
  rw [← h.now]
  cases hnext : wired.board.agenda.next? (wired.board.now + ms) with
  | none =>
    refine .inl ⟨?_, Wired.run_of_none hnext⟩
    rintro ⟨kind, due⟩ hlatest
    have hmem : due ∈ wired.board.due .reset := by
      rw [h.follows.due, hlatest]
      exact List.mem_singleton_self due
    exact Agenda.lt_of_next?_eq_none hnext hmem
  | some first =>
    obtain ⟨task, due⟩ := first
    have hmem : due ∈ wired.board.due task := Agenda.mem_due_of_next? hnext
    have htask : task = .reset := by
      by_contra hne
      rw [h.alone task hne] at hmem
      cases hmem
    subst htask
    obtain ⟨kind, hlatest⟩ := h.follows.exists_latest?_of_mem_due hmem
    have hidle : (fired wired due).board.agenda.pending = [] :=
      Agenda.pending_eq_nil_of_due fun task => due_fired h.alone due task
    exact .inr ⟨kind, due, hlatest, Agenda.le_of_next? hnext, hmem, Wired.run_of_next? rfl hnext hidle⟩

theorem schedule (h : Logged wired before log) (kind : ResetKind) (delay : Nat) :
    Logged (use wired (.schedule kind delay)) before (log.note (.schedule kind delay)) where
  now := (wired.board.now_performAll _).trans h.now
  alone := by
    intro task htask
    refine (Board.due_performAll_of_topic ?_ _).trans (h.alone task htask)
    exact List.forall_mem_singleton.mpr (Task.topic_ne_reset htask).symm
  follows := by
    have hfollows := h.follows.schedule kind delay
    rw [h.now] at hfollows
    exact hfollows

theorem cancel (h : Logged wired before log) :
    Logged (use wired .cancel) before (log.note .cancel) where
  now := (wired.board.now_performAll _).trans h.now
  alone := by
    intro task htask
    refine (Board.due_performAll_of_topic ?_ _).trans (h.alone task htask)
    exact List.forall_mem_singleton.mpr (Task.topic_ne_reset htask).symm
  follows := h.follows.cancel

theorem goTo (h : Logged wired before log) (time : Nat) :
    Logged { wired with board := wired.board.goTo time } before { log with now := time } where
  now := rfl
  alone := h.alone
  follows := h.follows.congr rfl rfl

theorem fired (h : Logged wired before log) {due : Nat} (hdue : due ∈ wired.board.due .reset) :
    Logged (fired wired due) before ⟨due, .fired due :: log.history⟩ where
  now := now_fired wired due
  alone := fun task _ => due_fired h.alone due task
  follows := h.follows.fire hdue

theorem wait (h : Logged wired before log) (ms : Nat) :
    Logged (use wired (.wait ms)) before (log.note (.wait ms)) := by
  change Logged (run wired ms) before (log.note (.wait ms))
  unfold ResetLog.note
  rcases h.run_eq ms with ⟨hlater, hrun⟩ | ⟨kind, due, hlatest, hle, hdue, hrun⟩
  . rw [hrun]
    cases hlatest : ResetEvent.latest? log.history with
    | none => exact h.goTo _
    | some waiting =>
      have hnot := Nat.not_le.mpr (hlater waiting hlatest)
      dsimp only
      rw [if_neg hnot]
      exact h.goTo _
  . rw [hrun, hlatest]
    dsimp only
    rw [if_pos hle]
    exact (h.fired hdue).goTo _

theorem use (h : Logged wired before log) (asked : ResetUse) :
    Logged (use wired asked) before (log.note asked) := by
  cases asked with
  | schedule kind delay => exact h.schedule kind delay
  | cancel => exact h.cancel
  | wait ms => exact h.wait ms

theorem used (uses : List ResetUse) :
    ∀ {wired : Wired ResetTimer} {log : ResetLog}, Logged wired before log →
      Logged (used wired uses) before (log.noted uses) := by
  induction uses with
  | nil =>
    intro wired log h
    exact h
  | cons asked uses ih =>
    intro wired log h
    exact ih (h.use asked)

theorem memory_use (h : Logged wired before log) (hpending : wired.part.pending ≠ some .full)
    (asked : ResetUse) : (ResetTimer.use wired asked).board.memory = wired.board.memory := by
  cases asked with
  | schedule kind delay => rfl
  | cancel => rfl
  | wait ms =>
    change (run wired ms).board.memory = wired.board.memory
    rcases h.run_eq ms with ⟨_, hrun⟩ | ⟨kind, due, _, _, _, hrun⟩
    . rw [hrun]
      rfl
    . rw [hrun]
      exact memory_fire hpending _

end Logged

theorem logged_idle {board : Board} (hidle : board.agenda.pending = []) :
    Logged ⟨.idle, board⟩ board.resetOrders ⟨board.now, []⟩ where
  now := rfl
  alone := fun task _ => Board.due_of_idle hidle task
  follows := follows_nil rfl (Board.due_of_idle hidle .reset)

end ResetTimer

end WallSwitch
