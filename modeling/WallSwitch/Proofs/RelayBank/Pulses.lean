import WallSwitch.Proofs.RelayBank.Timely

/-!
This module contains the pulses of relays: how the trace of a board shows them, and what an event
does to the pulse of a relay and to the task that goes on with it.
-/

namespace WallSwitch

def Command.task? : Command → Option Task
  | .schedule task _ | .cancel task => some task
  | _ => none

theorem Command.schedule_not_mem_of_task? {commands : List Command} {task : Task} {delay : Nat}
    (h : ∀ command ∈ commands, command.task? ≠ some task) : .schedule task delay ∉ commands :=
  fun hmem => h _ hmem rfl

structure Pulse where
  began : Nat
  pin : Pin
  high : Bool
deriving DecidableEq, Repr

def Pulse.ofEntry? : Nat × Event → Option Pulse
  | (time, .command (.write pin high) _) => some ⟨time, pin, high⟩
  | _ => none

def Event.putsOffEnd (i : Nat) : Event → Bool
  | .command order _ => order = .schedule (.relayPulse i) RelayBank.pulseMs
  | _ => false

namespace Board

/--
A pulse begins when a pin is written to and right after that the end of the pulse is put on the
agenda.
-/
def pulsesIn (i : Nat) : List (Nat × Event) → List Pulse
  | [] => []
  | entry :: older =>
    if entry.2.putsOffEnd i then (older.head?.bind Pulse.ofEntry?).toList ++ pulsesIn i older
    else pulsesIn i older

def pulses (board : Board) (i : Nat) : List Pulse :=
  pulsesIn i board.trace

variable {board : Board} {command : Command} {commands first last : List Command} {task : Task}
variable {i : Nat} {pin : Pin} {high : Bool}

theorem due_perform_of_task? (h : command.task? ≠ some task) (board : Board) :
    (board.perform command).due task = board.due task := by
  cases command with
  | schedule other delay =>
    apply Agenda.due_schedule_of_ne
    rintro rfl
    exact h rfl
  | cancel other =>
    apply Agenda.due_cancel_of_ne
    rintro rfl
    exact h rfl
  | save key item =>
    obtain ⟨_, _, hsave⟩ := board.exists_perform_save key item
    rw [hsave]
    rfl
  | erase =>
    obtain ⟨_, _, herase⟩ := board.exists_perform_erase
    rw [herase]
    rfl
  | _ => rfl

theorem due_performAll_of_task? (h : ∀ command ∈ commands, command.task? ≠ some task)
    (board : Board) : (board.performAll commands).due task = board.due task := by
  apply performAll_keeps (f := fun board => board.due task)
  intro command hmem board
  exact due_perform_of_task? (h command hmem) board

theorem due_performAll_of_last_schedule (board : Board) (first : List Command) {delay : Nat}
    (h : ∀ command ∈ last, command.task? ≠ some task) :
    (board.performAll (first ++ .schedule task delay :: last)).due task = [board.now + delay] := by
  rw [performAll_append, performAll_cons, due_performAll_of_task? h, due_perform_schedule,
    now_performAll]

theorem pulses_perform_of_ne (h : command ≠ .schedule (.relayPulse i) RelayBank.pulseMs)
    (board : Board) : (board.perform command).pulses i = board.pulses i := by
  obtain ⟨fault, htrace⟩ := board.trace_perform command
  unfold pulses
  rw [htrace, pulsesIn, if_neg]
  simpa [Event.putsOffEnd] using h

theorem pulses_performAll_of_not_mem
    (h : .schedule (.relayPulse i) RelayBank.pulseMs ∉ commands) (board : Board) :
    (board.performAll commands).pulses i = board.pulses i := by
  apply performAll_keeps (f := fun board => board.pulses i)
  intro command hmem board
  apply pulses_perform_of_ne
  rintro rfl
  exact h hmem

theorem pulses_perform_pulse (board : Board) (i : Nat) (pin : Pin) (high : Bool) :
    ((board.perform (.write pin high)).perform
      (.schedule (.relayPulse i) RelayBank.pulseMs)).pulses i
      =
    ⟨board.now, pin, high⟩ :: board.pulses i := by
  obtain ⟨_, hwrite⟩ := board.trace_perform (.write pin high)
  obtain ⟨_, hschedule⟩ := (board.perform (.write pin high)).trace_perform
    (.schedule (.relayPulse i) RelayBank.pulseMs)
  unfold pulses
  rw [hschedule, hwrite]
  simp [pulsesIn, Event.putsOffEnd, Pulse.ofEntry?]

theorem pulses_performAll_pulse (board : Board)
    (hfirst : .schedule (.relayPulse i) RelayBank.pulseMs ∉ first)
    (hlast : .schedule (.relayPulse i) RelayBank.pulseMs ∉ last) :
    (board.performAll
      (first ++ .write pin high :: .schedule (.relayPulse i) RelayBank.pulseMs :: last)).pulses i
      =
    ⟨board.now, pin, high⟩ :: board.pulses i := by
  rw [performAll_append, performAll_cons, performAll_cons, pulses_performAll_of_not_mem hlast,
    pulses_perform_pulse, now_performAll, pulses_performAll_of_not_mem hfirst]

@[simp]
theorem pulses_begin (board : Board) (task : Task) (time : Nat) :
    (board.begin task time).pulses i = board.pulses i := rfl

end Board

namespace Relay

variable {relay : Relay} {command : Command} {i j : Nat}

theorem task?_of_mem_release (h : command ∈ relay.release) : command.task? = none := by
  obtain ⟨pin, _, rfl⟩ := List.mem_map.mp h
  rfl

theorem task?_of_mem_makeKnown (h : command ∈ relay.makeKnown i) : command.task? = none := by
  rw [makeKnown, List.mem_append] at h
  cases h with
  | inl hindicate =>
    obtain ⟨led, _, hdrive⟩ := List.mem_flatMap.mp hindicate
    rw [List.mem_singleton.mp hdrive]
    rfl
  | inr htell =>
    obtain ⟨param, _, rfl⟩ := List.mem_map.mp htell
    rfl

theorem task?_of_mem_driveCommands {on : Bool} (h : command ∈ relay.driveCommands i on) :
    command.task? = none := by
  rw [driveCommands, List.mem_cons] at h
  rcases h with rfl | hknown
  . rfl
  . exact task?_of_mem_makeKnown hknown

theorem task?_of_mem_pulseCommands {on : Bool} (h : command ∈ relay.pulseCommands i on) :
    command.task? = none ∨ command.task? = some (.relayPulse i) := by
  simp only [pulseCommands, List.mem_append, List.mem_cons, List.not_mem_nil, or_false] at h
  rcases h with (hrelease | rfl) | rfl | rfl | hknown
  . exact .inl (task?_of_mem_release hrelease)
  . exact .inr rfl
  . exact .inl rfl
  . exact .inr rfl
  . exact .inl (task?_of_mem_makeKnown hknown)

theorem task?_of_mem_postponeCommands {on : Bool} (h : command ∈ relay.postponeCommands i on) :
    command.task? = none ∨ command.task? = some (.relayPulse i) := by
  simp only [postponeCommands, List.mem_append, List.mem_cons, List.not_mem_nil, or_false] at h
  rcases h with (hrelease | rfl | rfl) | hknown
  . exact .inl (task?_of_mem_release hrelease)
  . exact .inr rfl
  . exact .inr rfl
  . exact .inl (task?_of_mem_makeKnown hknown)

theorem task?_of_mem_retryCommands (h : command ∈ relay.retryCommands i) :
    command.task? = none ∨ command.task? = some (.relayPulse i) := by
  simp only [retryCommands, List.mem_cons, List.not_mem_nil, or_false] at h
  rcases h with rfl | rfl
  . exact .inl rfl
  . exact .inr rfl

theorem endOfPulse_not_mem_postponeCommands {on : Bool} :
    .schedule (.relayPulse i) RelayBank.pulseMs ∉ relay.postponeCommands i on := by
  intro hmem
  simp only [postponeCommands, List.mem_append, List.mem_cons, List.not_mem_nil, or_false] at hmem
  rcases hmem with (hrelease | hcancel | hretry) | hknown
  . have htask := task?_of_mem_release hrelease
    contradiction
  . contradiction
  . rw [Command.schedule.injEq] at hretry
    exact absurd hretry.2 (by decide)
  . have htask := task?_of_mem_makeKnown hknown
    contradiction

/-! ### Tasks and pulses after the commands of a relay -/

theorem task?_ne_of_mem_release (task : Task) :
    ∀ command ∈ relay.release, command.task? ≠ some task := by
  intro command hmem
  simp [task?_of_mem_release hmem]

theorem task?_ne_of_mem_makeKnown (i : Nat) (task : Task) :
    ∀ command ∈ relay.makeKnown i, command.task? ≠ some task := by
  intro command hmem
  simp [task?_of_mem_makeKnown hmem]

theorem task?_ne_of_mem_driveCommands (i : Nat) (on : Bool) (task : Task) :
    ∀ command ∈ relay.driveCommands i on, command.task? ≠ some task := by
  intro command hmem
  simp [task?_of_mem_driveCommands hmem]

section

variable (board : Board) (relay : Relay) (i : Nat) (on : Bool)

theorem due_pulseCommands :
    (board.performAll (relay.pulseCommands i on)).due (.relayPulse i)
      =
    [board.now + RelayBank.pulseMs] := by
  rw [pulseCommands, List.append_cons, Board.due_performAll_of_last_schedule]
  exact task?_ne_of_mem_makeKnown i _

theorem postponeCommands_eq :
    relay.postponeCommands i on
      =
    relay.release ++ [.cancel (.relayPulse i)]
      ++ .schedule (.relayPulse i) RelayBank.retryMs :: (relay.turned on).makeKnown i := by
  simp [postponeCommands]

theorem due_postponeCommands :
    (board.performAll (relay.postponeCommands i on)).due (.relayPulse i)
      =
    [board.now + RelayBank.retryMs] := by
  rw [postponeCommands_eq, Board.due_performAll_of_last_schedule]
  exact task?_ne_of_mem_makeKnown i _

theorem due_retryCommands :
    (board.performAll (relay.retryCommands i)).due (.relayPulse i)
      =
    [board.now + RelayBank.pulseMs] :=
  board.due_performAll_of_last_schedule [.write relay.coil relay.drive.activeHigh] (by simp)

theorem pulses_pulseCommands :
    (board.performAll (relay.pulseCommands i on)).pulses i
      =
    ⟨board.now, (relay.turned on).coil, relay.drive.activeHigh⟩ :: board.pulses i := by
  apply Board.pulses_performAll_pulse
  . rw [List.mem_append, not_or]
    exact ⟨Command.schedule_not_mem_of_task? (task?_ne_of_mem_release _), by simp⟩
  . exact Command.schedule_not_mem_of_task? (task?_ne_of_mem_makeKnown i _)

theorem pulses_retryCommands :
    (board.performAll (relay.retryCommands i)).pulses i
      =
    ⟨board.now, relay.coil, relay.drive.activeHigh⟩ :: board.pulses i :=
  board.pulses_perform_pulse i relay.coil relay.drive.activeHigh

end

/-! ### Passages -/

/--
What an event means for relay `i`: the relay afterwards, the times at which its task is due then, and
its pulses up to then.
-/
inductive Passage (i : Nat) (relay : Relay) (wired : Wired RelayBank) (event : BankEvent) :
    Relay → List Nat → List Pulse → Prop where
  /-- The event is about other relays, or about none. -/
  | spare (htarget : event.target? ≠ some i) (hfire : ∀ time, event ≠ .fire (.relayPulse i) time) :
    Passage i relay wired event relay (wired.board.due (.relayPulse i)) (wired.board.pulses i)
  | drive (on : Bool) (htarget : event.target? = some i)
      (hplain : relay.drive.isLatching = false) :
    Passage i relay wired event (relay.turned on) (wired.board.due (.relayPulse i))
      (wired.board.pulses i)
  | pulse (on : Bool) (htarget : event.target? = some i) (hlatching : relay.drive.isLatching = true)
      (hfree : wired.part.isBlocked i = false) :
    Passage i relay wired event ((relay.turned on).withPulse .active)
      [wired.board.now + RelayBank.pulseMs]
      (⟨wired.board.now, (relay.turned on).coil, relay.drive.activeHigh⟩ :: wired.board.pulses i)
  | postpone (on : Bool) (htarget : event.target? = some i)
      (hlatching : relay.drive.isLatching = true) (hblocked : wired.part.isBlocked i = true) :
    Passage i relay wired event ((relay.turned on).withPulse .waiting)
      [wired.board.now + RelayBank.retryMs] (wired.board.pulses i)
  /-- There is no pulse to go on with. -/
  | rest {time : Nat} (hevent : event = .fire (.relayPulse i) time) (hpulse : relay.pulse = .idle) :
    Passage i relay wired event relay [] (wired.board.pulses i)
  | finish {time : Nat} (hevent : event = .fire (.relayPulse i) time)
      (hpulse : relay.pulse = .active) :
    Passage i relay wired event (relay.withPulse .idle) [] (wired.board.pulses i)
  | retry {time : Nat} (hevent : event = .fire (.relayPulse i) time)
      (hpulse : relay.pulse = .waiting) (hfree : wired.part.isBlocked i = false) :
    Passage i relay wired event (relay.withPulse .active) [time + RelayBank.pulseMs]
      (⟨time, relay.coil, relay.drive.activeHigh⟩ :: wired.board.pulses i)
  | wait {time : Nat} (hevent : event = .fire (.relayPulse i) time)
      (hpulse : relay.pulse = .waiting) (hblocked : wired.part.isBlocked i = true) :
    Passage i relay wired event relay [time + RelayBank.retryMs] (wired.board.pulses i)

end Relay

namespace RelayBank

variable {bank next : RelayBank} {wired : Wired RelayBank} {event : BankEvent} {i j : Nat}
variable {relay : Relay} {commands : List Command} {time : Nat}

/-! ### Going on with a pulse -/

theorem continuePulse_of_none (hget : bank.get? i = none) : continuePulse i bank = (bank, []) := by
  simp [continuePulse, Step.choose, pulse?, hget, Step.skip]

theorem continuePulse_of_idle (hget : bank.get? i = some relay) (hpulse : relay.pulse = .idle) :
    continuePulse i bank = (bank, []) := by
  simp [continuePulse, Step.choose, pulse?, hget, hpulse, Step.skip]

theorem continuePulse_of_active (hget : bank.get? i = some relay) (hpulse : relay.pulse = .active) :
    continuePulse i bank
      =
    ((bank.put i (relay.withPulse .idle)).yieldSupply i, relay.release) := by
  simp [continuePulse, Step.choose, pulse?, hget, hpulse, finishPulse_eq hget]

theorem continuePulse_of_isBlocked (hget : bank.get? i = some relay)
    (hpulse : relay.pulse = .waiting) (h : bank.isBlocked i = true) :
    continuePulse i bank = (bank, [.schedule (.relayPulse i) retryMs]) := by
  simp [continuePulse, Step.choose, pulse?, hget, hpulse, beginPulse_of_isBlocked hget h,
    Relay.withPulse_self hpulse, put_self hget]

theorem continuePulse_of_not_isBlocked (hget : bank.get? i = some relay)
    (hpulse : relay.pulse = .waiting) (h : bank.isBlocked i = false) :
    continuePulse i bank
      =
    ((bank.put i (relay.withPulse .active)).holding i, relay.retryCommands i) := by
  simp [continuePulse, Step.choose, pulse?, hget, hpulse, beginPulse_of_not_isBlocked hget h]

/-! ### Passages of relays -/

theorem happen_call {asked : BankCall} (h : asked.step wired.part = (next, commands)) :
    happen wired (.call asked) = ⟨next, wired.board.performAll commands⟩ := by
  simp [happen, Wired.step, Step.state, Step.commands, BankEvent.step, BankEvent.call?,
    BankEvent.onBoard, h]

theorem happen_fire (h : continuePulse i wired.part = (next, commands)) (time : Nat) :
    happen wired (.fire (.relayPulse i) time)
      =
    ⟨next, (wired.board.begin (.relayPulse i) time).performAll commands⟩ := by
  simp [happen, Wired.step, Step.state, Step.commands, BankEvent.step, BankEvent.call?,
    BankEvent.onBoard, BankCall.step, h]

def SparesAt (bank : RelayBank) (i : Nat) (next : RelayBank) (commands : List Command) : Prop :=
  next.get? i = bank.get? i ∧ ∀ command ∈ commands, command.task? ≠ some (.relayPulse i)

theorem sparesAt_of_ne (hne : j ≠ i) (hnext : next.get? i = bank.get? i)
    (h : ∀ command ∈ commands, command.task? = none ∨ command.task? = some (.relayPulse j)) :
    bank.SparesAt i next commands := by
  refine ⟨hnext, ?_⟩
  intro command hmem heq
  rcases h command hmem with hnone | hother
  . rw [hnone] at heq
    contradiction
  . rw [hother, Option.some.injEq, Task.relayPulse.injEq] at heq
    exact hne heq

theorem sparesAt_set (hne : j ≠ i) (bank : RelayBank) (on : Bool) :
    bank.SparesAt i ((set j on).state bank) ((set j on).commands bank) := by
  have hmove := bank.move_set j on
  revert hmove
  generalize (set j on).state bank = next
  generalize (set j on).commands bank = commands
  intro hmove
  cases hmove with
  | stay => exact ⟨rfl, by simp⟩
  | drive on hget hplain =>
    exact sparesAt_of_ne hne (get?_put_of_ne hne) fun command hmem =>
      .inl (Relay.task?_of_mem_driveCommands hmem)
  | pulse on hget hlatching h =>
    exact sparesAt_of_ne hne (get?_put_of_ne hne) fun command => Relay.task?_of_mem_pulseCommands
  | postpone on hget hlatching h =>
    exact sparesAt_of_ne hne (get?_put_of_ne hne) fun command => Relay.task?_of_mem_postponeCommands

theorem sparesAt_continuePulse (hne : j ≠ i) (bank : RelayBank) :
    bank.SparesAt i ((continuePulse j).state bank) ((continuePulse j).commands bank) := by
  unfold Step.state Step.commands
  cases hget : bank.get? j with
  | none =>
    rw [continuePulse_of_none hget]
    exact ⟨rfl, by simp⟩
  | some relay =>
    cases hpulse : relay.pulse with
    | idle =>
      rw [continuePulse_of_idle hget hpulse]
      exact ⟨rfl, by simp⟩
    | active =>
      rw [continuePulse_of_active hget hpulse]
      apply sparesAt_of_ne hne
      . rw [get?_yieldSupply, get?_put_of_ne hne]
      . intro command hmem
        exact .inl (Relay.task?_of_mem_release hmem)
    | waiting =>
      cases h : bank.isBlocked j with
      | true =>
        rw [continuePulse_of_isBlocked hget hpulse h]
        apply sparesAt_of_ne hne rfl
        intro command hmem
        rw [List.mem_singleton.mp hmem]
        exact .inr rfl
      | false =>
        rw [continuePulse_of_not_isBlocked hget hpulse h]
        exact sparesAt_of_ne hne (get?_put_of_ne hne) fun command =>
          Relay.task?_of_mem_retryCommands

theorem due_onBoard {task : Task} (h : ∀ time, event ≠ .fire task time) (board : Board) :
    (event.onBoard board).due task = board.due task := by
  cases event with
  | call asked => rfl
  | fire other time =>
    apply Board.due_begin_of_ne
    rintro rfl
    exact h time rfl
  | goTo time => rfl

theorem pulses_onBoard (event : BankEvent) (board : Board) (i : Nat) :
    (event.onBoard board).pulses i = board.pulses i := by
  cases event <;> rfl

theorem SparesAt.passage (hget : wired.part.get? i = some relay)
    (hspares : wired.part.SparesAt i (event.step.state wired.part) (event.step.commands wired.part))
    (htarget : event.target? ≠ some i) (hfire : ∀ time, event ≠ .fire (.relayPulse i) time) :
    ∃ new, (happen wired event).part.get? i = some new
      ∧ relay.Passage i wired event new ((happen wired event).board.due (.relayPulse i))
        ((happen wired event).board.pulses i) := by
  refine ⟨relay, hspares.1.trans hget, ?_⟩
  unfold happen
  rw [Wired.board_step, Board.due_performAll_of_task? hspares.2,
    Board.pulses_performAll_of_not_mem (Command.schedule_not_mem_of_task? hspares.2),
    due_onBoard hfire, pulses_onBoard]
  exact .spare htarget hfire

theorem exists_passage_of_set (hget : wired.part.get? i = some relay) {asked : BankCall} {on : Bool}
    (hstep : asked.step wired.part = set j on wired.part) (htarget : asked.target? = some j) :
    ∃ new, (happen wired (.call asked)).part.get? i = some new
      ∧ relay.Passage i wired (.call asked) new
        ((happen wired (.call asked)).board.due (.relayPulse i))
        ((happen wired (.call asked)).board.pulses i) := by
  by_cases hij : j = i
  . subst hij
    cases hlatching : relay.drive.isLatching with
    | false =>
      have hnone := relay.task?_ne_of_mem_driveCommands j on (.relayPulse j)
      rw [set_of_plain on hget hlatching] at hstep
      rw [happen_call hstep, Board.due_performAll_of_task? hnone,
        Board.pulses_performAll_of_not_mem (Command.schedule_not_mem_of_task? hnone)]
      exact ⟨_, get?_put_self hget _, .drive on htarget hlatching⟩
    | true =>
      cases h : wired.part.isBlocked j with
      | false =>
        rw [set_of_not_isBlocked on hget hlatching h] at hstep
        rw [happen_call hstep, Relay.due_pulseCommands, Relay.pulses_pulseCommands]
        exact ⟨_, get?_put_self hget _, .pulse on htarget hlatching h⟩
      | true =>
        rw [set_of_isBlocked on hget hlatching h] at hstep
        rw [happen_call hstep, Relay.due_postponeCommands,
          Board.pulses_performAll_of_not_mem Relay.endOfPulse_not_mem_postponeCommands]
        exact ⟨_, get?_put_self hget _, .postpone on htarget hlatching h⟩
  . apply SparesAt.passage hget
    . have hspares := sparesAt_set hij wired.part on
      unfold Step.state Step.commands at hspares
      rw [← hstep] at hspares
      exact hspares
    . simpa [BankEvent.target?, BankEvent.call?, htarget] using hij
    . simp

theorem exists_passage_of_fire (hget : wired.part.get? i = some relay) (time : Nat) :
    ∃ new, (happen wired (.fire (.relayPulse j) time)).part.get? i = some new
      ∧ relay.Passage i wired (.fire (.relayPulse j) time) new
        ((happen wired (.fire (.relayPulse j) time)).board.due (.relayPulse i))
        ((happen wired (.fire (.relayPulse j) time)).board.pulses i) := by
  by_cases hij : j = i
  . subst hij
    cases hpulse : relay.pulse with
    | idle =>
      rw [happen_fire (continuePulse_of_idle hget hpulse), Board.performAll_nil,
        Board.due_begin_self, Board.pulses_begin]
      exact ⟨_, hget, .rest rfl hpulse⟩
    | active =>
      have hnone := relay.task?_ne_of_mem_release (.relayPulse j)
      rw [happen_fire (continuePulse_of_active hget hpulse), Board.due_performAll_of_task? hnone,
        Board.pulses_performAll_of_not_mem (Command.schedule_not_mem_of_task? hnone),
        Board.due_begin_self, Board.pulses_begin]
      exact ⟨_, get?_yieldSupply.trans (get?_put_self hget _), .finish rfl hpulse⟩
    | waiting =>
      cases h : wired.part.isBlocked j with
      | false =>
        rw [happen_fire (continuePulse_of_not_isBlocked hget hpulse h), Relay.due_retryCommands,
          Relay.pulses_retryCommands]
        exact ⟨_, get?_put_self hget _, .retry rfl hpulse h⟩
      | true =>
        rw [happen_fire (continuePulse_of_isBlocked hget hpulse h), Board.performAll_cons,
          Board.performAll_nil, Board.due_perform_schedule,
          Board.pulses_perform_of_ne (by simp [retryMs, pulseMs])]
        exact ⟨_, hget, .wait rfl hpulse h⟩
  . apply SparesAt.passage hget
    . exact sparesAt_continuePulse hij wired.part
    . simp [BankEvent.target?, BankEvent.call?, BankCall.target?]
    . intro other heq
      rw [BankEvent.fire.injEq, Task.relayPulse.injEq] at heq
      exact hij heq.1

theorem exists_passage (hget : wired.part.get? i = some relay)
    (hasked : ∀ j, event ≠ .call (.continuePulse j)) :
    ∃ new due pulses, (happen wired event).part.get? i = some new
      ∧ (happen wired event).board.due (.relayPulse i) = due
      ∧ (happen wired event).board.pulses i = pulses
      ∧ relay.Passage i wired event new due pulses := by
  suffices hpassage : ∃ new, (happen wired event).part.get? i = some new
      ∧ relay.Passage i wired event new ((happen wired event).board.due (.relayPulse i))
        ((happen wired event).board.pulses i) by
    obtain ⟨new, hnew, hpassage⟩ := hpassage
    exact ⟨new, _, _, hnew, rfl, rfl, hpassage⟩
  have hskip (hstep : event.step = .skip) (htarget : event.target? ≠ some i)
      (hfire : ∀ time, event ≠ .fire (.relayPulse i) time) := by
    apply SparesAt.passage hget _ htarget hfire
    rw [hstep]
    exact ⟨rfl, by simp⟩
  cases event with
  | call asked =>
    cases asked with
    | set j on => exact exists_passage_of_set hget rfl rfl
    | turnOn j => exact exists_passage_of_set hget rfl rfl
    | turnOff j => exact exists_passage_of_set hget rfl rfl
    | toggle j => exact exists_passage_of_set hget rfl rfl
    | indicateAll =>
      apply SparesAt.passage hget _ (by simp [BankEvent.target?, BankEvent.call?, BankCall.target?])
      . simp
      . refine ⟨rfl, ?_⟩
        intro command hmem
        obtain ⟨shown, _, hindicate⟩ := List.mem_flatMap.mp hmem
        have hknown : command ∈ shown.makeKnown i := List.mem_append_left _ hindicate
        exact shown.task?_ne_of_mem_makeKnown i _ command hknown
    | continuePulse j => exact absurd rfl (hasked j)
  | fire task time =>
    cases task with
    | relayPulse j => exact exists_passage_of_fire hget time
    | settle => exact hskip rfl (by simp [BankEvent.target?, BankEvent.call?]) (by simp)
    | buttonHold button => exact hskip rfl (by simp [BankEvent.target?, BankEvent.call?]) (by simp)
    | reset => exact hskip rfl (by simp [BankEvent.target?, BankEvent.call?]) (by simp)
  | goTo time => exact hskip rfl (by simp [BankEvent.target?, BankEvent.call?]) (by simp)

end RelayBank

end WallSwitch
