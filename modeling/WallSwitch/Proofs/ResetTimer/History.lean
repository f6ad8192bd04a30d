import WallSwitch.Proofs.Board.Passing
import WallSwitch.Proofs.Settings.Kept
import WallSwitch.ResetTimer

/-!
This module contains what becomes of the resets that are asked for. The one that was asked for last is
carried out when its time has come, and no other one ever is.
-/

namespace WallSwitch

/-! ### Histories -/

inductive ResetEvent where
  /-- A reset was asked for at this time. -/
  | asked (kind : ResetKind) (time delay : Nat)
  | calledOff
  /-- The task of the reset was run at this time. -/
  | fired (time : Nat)
deriving DecidableEq, Repr

namespace ResetEvent

-- Histories have their last event first, like traces.

/--
The reset that a history leaves waiting, and when it is due. Only the last event counts.
-/
def latest? : List ResetEvent → Option (ResetKind × Nat)
  | .asked kind time delay :: _ => some (kind, time + if delay = 0 then 300 else delay)
  | _ => none

/--
The commands that a history comes down to, with their times, the first one first. When a reset fires,
the one that waited is carried out as a whole.
-/
def carriedOut : List ResetEvent → List (Nat × Command)
  | [] => []
  | .fired time :: earlier =>
    carriedOut earlier
      ++ (latest? earlier).toList.flatMap fun waiting => waiting.1.commands.map (time, ·)
  | _ :: earlier => carriedOut earlier

def OnTime (history : List ResetEvent) : Prop :=
  ∀ later time earlier, history = later ++ .fired time :: earlier →
    ∃ kind, latest? earlier = some (kind, time)

variable {history : List ResetEvent} {event : ResetEvent}

theorem onTime_nil : OnTime [] := by
  intro later time earlier h
  simp at h

theorem OnTime.cons (h : OnTime history)
    (hevent : ∀ time, event = .fired time → ∃ kind, latest? history = some (kind, time)) :
    OnTime (event :: history) := by
  intro later time earlier heq
  cases later with
  | nil =>
    obtain ⟨rfl, rfl⟩ := List.cons.inj heq
    exact hevent time rfl
  | cons first later => exact h later time earlier (List.cons.inj heq).2

end ResetEvent

/-! ### Commands -/

def Command.isForReset : Command → Bool
  | .erase | .leaveNetwork | .restart => true
  | _ => false

theorem Command.isForReset_of_topic {command : Command}
    (h : command.topic ∉ [.erasure, .device]) : command.isForReset = false := by
  cases command with
  | erase | leaveNetwork | restart => exact absurd (by simp [topic]) h
  | _ => rfl

theorem Task.topic_ne_reset {task : Task} (h : task ≠ .reset) : task.topic ≠ .reset := by
  cases task with
  | reset => exact absurd rfl h
  | _ => nofun

theorem ResetKind.isForReset_commands (kind : ResetKind) :
    ∀ command ∈ kind.commands, command.isForReset = true := by
  cases kind <;> decide

theorem ResetKind.topic_commands (kind : ResetKind) :
    ∀ command ∈ kind.commands, command.topic = .erasure ∨ command.topic = .device := by
  cases kind <;> decide

namespace Board

def resetOrders (board : Board) : List (Nat × Command) :=
  board.orders.filter fun order => order.2.isForReset

variable {board : Board} {commands : List Command}

theorem resetOrders_performAll (commands : List Command) (board : Board) :
    (board.performAll commands).resetOrders
      =
    board.resetOrders ++ (commands.filter (·.isForReset)).map (board.now, ·) := by
  unfold resetOrders
  rw [orders_performAll, List.filter_append, List.filter_map]
  rfl

theorem resetOrders_performAll_of_topic
    (h : ∀ command ∈ commands, command.topic ∉ [.erasure, .device]) (board : Board) :
    (board.performAll commands).resetOrders = board.resetOrders := by
  have hnone : commands.filter (·.isForReset) = [] := by
    rw [List.filter_eq_nil_iff]
    intro command hmem
    rw [Command.isForReset_of_topic (h command hmem)]
    exact Bool.false_ne_true
  rw [resetOrders_performAll, hnone, List.map_nil, List.append_nil]

theorem resetOrders_begin (board : Board) (task : Task) (time : Nat) :
    (board.begin task time).resetOrders = board.resetOrders := by
  rw [resetOrders, orders_begin]
  rfl

end Board

namespace ResetTimer

variable {timer : ResetTimer} {board board' : Board} {before : List (Nat × Command)}
variable {history : List ResetEvent} {kind : ResetKind}

theorem topic_fire : ∀ command ∈ fire.commands timer,
    command.topic = .erasure ∨ command.topic = .device := by
  intro command hmem
  obtain ⟨kind, _, hkind⟩ := List.mem_flatMap.mp hmem
  exact kind.topic_commands command hkind

theorem memory_fire (h : timer.pending ≠ some .full) (board : Board) :
    (board.performAll (fire.commands timer)).memory = board.memory := by
  obtain ⟨pending⟩ := timer
  cases pending with
  | none => rfl
  | some kind =>
    cases kind with
    | reboot => rfl
    | full => exact absurd rfl h

/-! ### Following a history -/

/--
The timer and its board are as the history says: the task of the reset is on the agenda as often and
for the time that the history leaves a reset waiting, and the commands to reset the device are, after
those that were given before, all that the history comes down to.
-/
structure Follows (timer : ResetTimer) (board : Board) (before : List (Nat × Command))
    (history : List ResetEvent) : Prop where
  pending : timer.pending = (ResetEvent.latest? history).map (·.1)
  due : board.due .reset = ((ResetEvent.latest? history).map (·.2)).toList
  orders : board.resetOrders = before ++ ResetEvent.carriedOut history
  onTime : ResetEvent.OnTime history

theorem follows_nil (hpending : timer.pending = none) (hdue : board.due .reset = []) :
    timer.Follows board board.resetOrders [] where
  pending := hpending
  due := hdue
  orders := (List.append_nil _).symm
  onTime := ResetEvent.onTime_nil

namespace Follows

theorem congr (h : timer.Follows board before history) (hdue : board'.due .reset = board.due .reset)
    (horders : board'.resetOrders = board.resetOrders) : timer.Follows board' before history :=
  ⟨h.pending, hdue.trans h.due, horders.trans h.orders, h.onTime⟩

theorem isSome_pending_iff (h : timer.Follows board before history) :
    timer.pending.isSome = true ↔ (board.due .reset).length = 1 := by
  rw [h.pending, h.due]
  cases ResetEvent.latest? history <;> simp

theorem schedule (h : timer.Follows board before history) (kind : ResetKind) (delay : Nat) :
    ((schedule kind delay).state timer).Follows
      (board.performAll ((ResetTimer.schedule kind delay).commands timer)) before
      (.asked kind board.now delay :: history) where
  pending := rfl
  due := board.due_perform_schedule .reset _
  orders := by
    rw [Board.resetOrders_performAll_of_topic, h.orders]
    . rfl
    . simp [ResetTimer.schedule, Step.commands, Command.topic, Task.topic]
  onTime := h.onTime.cons nofun

theorem cancel (h : timer.Follows board before history) :
    (cancel.state timer).Follows (board.performAll (ResetTimer.cancel.commands timer)) before
      (.calledOff :: history) where
  pending := rfl
  due := board.due_perform_cancel .reset
  orders := by
    rw [Board.resetOrders_performAll_of_topic, h.orders]
    . rfl
    . simp [ResetTimer.cancel, Step.commands, Command.topic, Task.topic]
  onTime := h.onTime.cons nofun

theorem exists_latest?_of_mem_due (h : timer.Follows board before history) {time : Nat}
    (hdue : time ∈ board.due .reset) : ∃ kind, ResetEvent.latest? history = some (kind, time) := by
  rw [h.due, Option.mem_toList, Option.map_eq_some_iff] at hdue
  obtain ⟨⟨kind, _⟩, hlatest, rfl⟩ := hdue
  exact ⟨kind, hlatest⟩

theorem fire (h : timer.Follows board before history) {time : Nat} (hdue : time ∈ board.due .reset) :
    (fire.state timer).Follows
      ((board.begin .reset time).performAll (ResetTimer.fire.commands timer)) before
      (.fired time :: history) := by
  obtain ⟨kind, hlatest⟩ := h.exists_latest?_of_mem_due hdue
  have hpending : timer.pending = some kind := by rw [h.pending, hlatest, Option.map_some]
  have hcommands : ResetTimer.fire.commands timer = kind.commands := by
    change timer.pending.toList.flatMap ResetKind.commands = kind.commands
    rw [hpending]
    exact List.append_nil _
  refine ⟨rfl, ?_, ?_, ?_⟩
  . rw [Board.due_performAll_of_topic, Board.due_begin_self]
    . rfl
    . intro command hmem heq
      have htopic := topic_fire command hmem
      rw [heq] at htopic
      simp [Task.topic] at htopic
  . have hall : kind.commands.filter (·.isForReset) = kind.commands :=
      List.filter_eq_self.mpr kind.isForReset_commands
    have hnow : (board.begin .reset time).now = time := rfl
    rw [Board.resetOrders_performAll, Board.resetOrders_begin, hcommands, hall, hnow, h.orders,
      ResetEvent.carriedOut, hlatest, List.append_assoc]
    simp
  . apply h.onTime.cons
    intro other heq
    cases heq
    exact ⟨kind, hlatest⟩

end Follows

end ResetTimer

end WallSwitch
