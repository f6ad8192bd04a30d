import Mathlib.Algebra.GroupWithZero.Nat
import Mathlib.Algebra.Order.BigOperators.Group.Finset
import WallSwitch.Proofs.RelayBank.Pulses

/-!
This module contains the timers of pulses. A relay has a task on the agenda exactly as long as there
is something to go on with, and the task is due when it should be. The agenda of a bank holds nothing
else, so that the board runs all that is due while time passes.
-/

namespace WallSwitch

namespace BankEvent

theorem target?_fire (task : Task) (time : Nat) : (fire task time).target? = none := by
  cases task <;> rfl

theorem onBoard_of_target? {i : Nat} (event : BankEvent) (h : event.target? = some i)
    (board : Board) : event.onBoard board = board := by
  cases event with
  | call asked => rfl
  | fire task time =>
    rw [target?_fire] at h
    cases h
  | goTo time => cases h

end BankEvent

namespace Relay

/--
The task of relay `i` agrees with its pulse.
-/
structure Timed (i : Nat) (relay : Relay) (board : Board) : Prop where
  plain : relay.drive.isLatching = false → relay.pulse = .idle
  idle : relay.pulse = .idle → board.due (.relayPulse i) = []
  waiting : relay.pulse = .waiting → ∃ due, board.due (.relayPulse i) = [due]
    ∧ board.now ≤ due ∧ due ≤ board.now + RelayBank.retryMs
  active : relay.pulse = .active → ∃ began older,
    board.due (.relayPulse i) = [began + RelayBank.pulseMs]
      ∧ board.pulses i = ⟨began, relay.coil, relay.drive.activeHigh⟩ :: older
      ∧ began ≤ board.now ∧ board.now ≤ began + RelayBank.pulseMs

variable {i : Nat} {relay new : Relay} {board : Board} {due : Nat}

theorem Timed.idle_of_due_eq_nil (h : relay.Timed i board)
    (hdue : board.due (.relayPulse i) = []) : relay.pulse = .idle := by
  cases hpulse : relay.pulse with
  | idle => rfl
  | waiting =>
    obtain ⟨_, hsome, _⟩ := h.waiting hpulse
    rw [hdue] at hsome
    contradiction
  | active =>
    obtain ⟨_, _, hsome, _⟩ := h.active hpulse
    rw [hdue] at hsome
    contradiction

theorem Timed.isLatching (h : relay.Timed i board) (hpulse : relay.pulse ≠ .idle) :
    relay.drive.isLatching = true := by
  by_contra hplain
  exact hpulse (h.plain (by simpa using hplain))

theorem Timed.exists_due (h : relay.Timed i board) (hpulse : relay.pulse ≠ .idle) :
    ∃ due, board.due (.relayPulse i) = [due]
      ∧ board.now ≤ due ∧ due ≤ board.now + RelayBank.pulseMs := by
  cases hstate : relay.pulse with
  | idle => exact absurd hstate hpulse
  | waiting =>
    obtain ⟨due, hdue, hnow, hle⟩ := h.waiting hstate
    exact ⟨due, hdue, hnow, Nat.le_trans hle (Nat.add_le_add_left (by decide) _)⟩
  | active =>
    obtain ⟨began, _, hdue, _, hbegan, hnow⟩ := h.active hstate
    exact ⟨_, hdue, hnow, Nat.add_le_add_right hbegan _⟩

theorem Timed.due_cases (h : relay.Timed i board) :
    board.due (.relayPulse i) = [] ∨ ∃ due, board.due (.relayPulse i) = [due]
      ∧ board.now ≤ due := by
  cases hpulse : relay.pulse with
  | idle => exact .inl (h.idle hpulse)
  | _ =>
    obtain ⟨due, hdue, hnow, _⟩ := h.exists_due (by simp [hpulse])
    exact .inr ⟨due, hdue, hnow⟩

theorem Timed.passage {wired : Wired RelayBank} {event : BankEvent} {dues : List Nat}
    {pulses : List Pulse} (h : relay.Timed i wired.board)
    (hpassage : relay.Passage i wired event new dues pulses)
    (hdues : board.due (.relayPulse i) = dues) (hpulses : board.pulses i = pulses)
    (hnow : board.now = (event.onBoard wired.board).now) (hle : wired.board.now ≤ board.now)
    (hdue : ∀ due ∈ wired.board.due (.relayPulse i), board.now ≤ due) : new.Timed i board := by
  have htarget (h : event.target? = some i) : board.now = wired.board.now := by
    rw [hnow, event.onBoard_of_target? h]
  have hfire {time : Nat} (h : event = .fire (.relayPulse i) time) : board.now = time := by
    rw [hnow, h]
    rfl
  -- Only a relay that is spared keeps its task; all others have the one that the passage gives them.
  cases hpassage with
  | spare htarget' hfire' =>
    refine ⟨h.plain, ?_, ?_, ?_⟩
    . intro hpulse
      rw [hdues, h.idle hpulse]
    . intro hpulse
      obtain ⟨due, hold, _, hretry⟩ := h.waiting hpulse
      refine ⟨due, hdues.trans hold, hdue due (by simp [hold]), ?_⟩
      exact Nat.le_trans hretry (Nat.add_le_add_right hle _)
    . intro hpulse
      obtain ⟨began, older, hold, hbegun, hbegan, _⟩ := h.active hpulse
      exact ⟨began, older, hdues.trans hold, hpulses.trans hbegun, Nat.le_trans hbegan hle,
        hdue _ (by simp [hold])⟩
  | drive on _ hplain =>
    have hidle := h.plain hplain
    refine ⟨fun _ => hidle, fun _ => hdues.trans (h.idle hidle), ?_, ?_⟩
    . simp [hidle]
    . simp [hidle]
  | pulse on htarget' hlatching hfree =>
    refine ⟨by simp [hlatching], by simp, by simp, ?_⟩
    intro _
    exact ⟨_, _, hdues, hpulses, by rw [htarget htarget'], by rw [htarget htarget']; omega⟩
  | postpone on htarget' hlatching hblocked =>
    refine ⟨by simp [hlatching], by simp, ?_, by simp⟩
    intro _
    exact ⟨_, hdues, by rw [htarget htarget']; omega, by rw [htarget htarget']⟩
  | rest hevent hpulse => exact ⟨h.plain, fun _ => hdues, by simp [hpulse], by simp [hpulse]⟩
  | finish hevent hpulse => exact ⟨fun _ => rfl, fun _ => hdues, by simp, by simp⟩
  | retry hevent hpulse hfree =>
    refine ⟨?_, by simp, by simp, ?_⟩
    . intro hplain
      rw [h.plain hplain] at hpulse
      contradiction
    . intro _
      exact ⟨_, _, hdues, hpulses, by rw [hfire hevent], by rw [hfire hevent]; omega⟩
  | wait hevent hpulse hblocked =>
    refine ⟨h.plain, by simp [hpulse], ?_, by simp [hpulse]⟩
    intro _
    exact ⟨_, hdues, by rw [hfire hevent]; omega, by rw [hfire hevent]⟩

end Relay

namespace RelayBank

structure Timed (wired : Wired RelayBank) : Prop where
  relays : ∀ i relay, wired.part.get? i = some relay → relay.Timed i wired.board
  tasks : ∀ task time, time ∈ wired.board.due task →
    ∃ i relay, task = .relayPulse i ∧ wired.part.get? i = some relay
  waiting : ∀ i relay, wired.part.get? i = some relay → relay.pulse = .waiting →
    wired.part.simultaneous = false

variable {bank next : RelayBank} {wired : Wired RelayBank} {event : BankEvent} {i j : Nat}
variable {relay new : Relay} {commands : List Command} {target : Option Nat} {task : Task}
variable {time limit : Nat}

theorem IsTimely.asked_ne (htimely : IsTimely wired event) (j : Nat) :
    event ≠ .call (.continuePulse j) := by
  rintro rfl
  cases htimely

theorem simultaneous_of_isBlocked (h : bank.isBlocked i = true) : bank.simultaneous = false := by
  unfold isBlocked at h
  simp only [Bool.and_eq_true, Bool.not_eq_true'] at h
  exact h.2

theorem simultaneous_of_passage {due : List Nat} {pulses : List Pulse}
    (hpassage : relay.Passage i wired event new due pulses)
    (h : relay.pulse = .waiting → wired.part.simultaneous = false)
    (hwaiting : new.pulse = .waiting) : wired.part.simultaneous = false := by
  cases hpassage with
  | spare => exact h hwaiting
  | drive => exact h hwaiting
  | pulse => contradiction
  | postpone on htarget hlatching hblocked => exact simultaneous_of_isBlocked hblocked
  | rest => exact h hwaiting
  | finish => contradiction
  | retry => contradiction
  | wait => exact h hwaiting

theorem Move.simultaneous_eq (hmove : bank.Move target next commands) :
    next.simultaneous = bank.simultaneous := by
  cases hmove with
  | finish =>
    unfold yieldSupply
    split <;> rfl
  | _ => rfl

theorem Move.task? (hmove : bank.Move target next commands) :
    ∀ command ∈ commands, command.task? = none
      ∨ ∃ i relay, bank.get? i = some relay ∧ command.task? = some (.relayPulse i) := by
  intro command hmem
  cases hmove with
  | stay => cases hmem
  | indicate =>
    obtain ⟨relay, _, hindicate⟩ := List.mem_flatMap.mp hmem
    have hknown : command ∈ relay.makeKnown 0 := List.mem_append_left _ hindicate
    exact .inl (Relay.task?_of_mem_makeKnown hknown)
  | drive on hget hplain => exact .inl (Relay.task?_of_mem_driveCommands hmem)
  | pulse on hget hlatching h =>
    exact (Relay.task?_of_mem_pulseCommands hmem).imp_right fun htask => ⟨_, _, hget, htask⟩
  | postpone on hget hlatching h =>
    exact (Relay.task?_of_mem_postponeCommands hmem).imp_right fun htask => ⟨_, _, hget, htask⟩
  | finish hget hpulse => exact .inl (Relay.task?_of_mem_release hmem)
  | retry hget hpulse h =>
    exact (Relay.task?_of_mem_retryCommands hmem).imp_right fun htask => ⟨_, _, hget, htask⟩
  | wait hget hpulse h =>
    rw [List.mem_singleton.mp hmem]
    exact .inr ⟨_, _, hget, rfl⟩

@[simp]
theorem size_happen (wired : Wired RelayBank) (event : BankEvent) :
    (happen wired event).part.size = wired.part.size :=
  (event.move wired.part).size_eq

theorem exists_get?_of_happen (h : (happen wired event).part.get? i = some new) :
    ∃ relay, wired.part.get? i = some relay := by
  have hlt := lt_size_of_get? h
  rw [size_happen] at hlt
  exact exists_of_lt_size hlt

theorem now_happen (wired : Wired RelayBank) (event : BankEvent) :
    (happen wired event).board.now = (event.onBoard wired.board).now :=
  Board.now_performAll _ _

namespace Timed

theorem now_le_of_mem_due (h : Timed wired) (hmem : time ∈ wired.board.due task) :
    wired.board.now ≤ time := by
  obtain ⟨i, relay, rfl, hget⟩ := h.tasks task time hmem
  rcases (h.relays i relay hget).due_cases with hdue | ⟨due, hdue, hnow⟩
  . rw [hdue] at hmem
    cases hmem
  . rw [hdue, List.mem_singleton] at hmem
    rw [hmem]
    exact hnow

theorem now_le_happen (h : Timed wired) (htimely : IsTimely wired event) :
    wired.board.now ≤ (happen wired event).board.now := by
  rw [now_happen]
  cases event with
  | call asked => exact Nat.le_refl _
  | fire task time => exact h.now_le_of_mem_due (Agenda.mem_due_of_next? htimely)
  | goTo time => exact htimely.1

theorem now_happen_le (h : Timed wired) (htimely : IsTimely wired event)
    (hmem : time ∈ wired.board.due task) : (happen wired event).board.now ≤ time := by
  rw [now_happen]
  cases event with
  | call asked => exact h.now_le_of_mem_due hmem
  | fire fired due => exact Agenda.le_of_next?_of_mem_due htimely hmem
  | goTo limit => exact Nat.le_of_lt (Agenda.lt_of_next?_eq_none htimely.2 hmem)

theorem tasks_happen (h : Timed wired) (htimely : IsTimely wired event)
    (hmem : time ∈ (happen wired event).board.due task) :
    ∃ i new, task = .relayPulse i ∧ (happen wired event).part.get? i = some new := by
  by_cases hown : ∃ i relay, task = .relayPulse i ∧ wired.part.get? i = some relay
  . obtain ⟨i, relay, htask, hget⟩ := hown
    obtain ⟨new, _, _, hnew, _⟩ := exists_passage hget htimely.asked_ne
    exact ⟨i, new, htask, hnew⟩
  . -- Commands are about the tasks of relays only, so the task was on the agenda before.
    have hspared : ∀ command ∈ event.step.commands wired.part, command.task? ≠ some task := by
      intro command hcommand htask
      rcases (event.move wired.part).task? command hcommand with hnone | ⟨i, relay, hget, hrelay⟩
      . rw [hnone] at htask
        contradiction
      . exact hown ⟨i, relay, Option.some.inj (htask.symm.trans hrelay), hget⟩
    unfold happen at hmem
    rw [Wired.board_step, Board.due_performAll_of_task? hspared] at hmem
    have hbefore : time ∈ wired.board.due task := by
      cases event with
      | call asked => exact hmem
      | fire fired due => exact Board.due_begin_subset _ _ _ _ hmem
      | goTo limit => exact hmem
    exact absurd (h.tasks task time hbefore) hown

theorem happen (h : Timed wired) (htimely : IsTimely wired event) :
    Timed (RelayBank.happen wired event) where
  relays := by
    intro i new hnew
    obtain ⟨relay, hget⟩ := exists_get?_of_happen hnew
    obtain ⟨other, due, pulses, hother, hdue, hpulses, hpassage⟩ :=
      exists_passage hget htimely.asked_ne
    rw [Option.some.inj (hnew.symm.trans hother)]
    exact (h.relays i relay hget).passage hpassage hdue hpulses (now_happen wired event)
      (h.now_le_happen htimely) fun due hmem => h.now_happen_le htimely hmem
  tasks := fun task time hmem => h.tasks_happen htimely hmem
  waiting := by
    intro i new hnew hwaiting
    obtain ⟨relay, hget⟩ := exists_get?_of_happen hnew
    obtain ⟨other, _, _, hother, _, _, hpassage⟩ := exists_passage hget htimely.asked_ne
    rw [← Option.some.inj (hnew.symm.trans hother)] at hpassage
    have hsame : (RelayBank.happen wired event).part.simultaneous = wired.part.simultaneous :=
      (event.move wired.part).simultaneous_eq
    rw [hsame]
    exact simultaneous_of_passage hpassage (h.waiting i relay hget) hwaiting

theorem after (h : Timed wired) {events : List BankEvent} (htimely : Timely wired events) :
    Timed (RelayBank.after wired events) :=
  htimely.invariant (fun _ _ htimely h => h.happen htimely) h

end Timed

/-! ### The start -/

theorem task?_of_mem_setUp {command : Command} (h : command ∈ setUp.commands bank) :
    command.task? = none := by
  obtain ⟨relay, _, hsetUp⟩ := List.mem_flatMap.mp h
  simp only [Relay.setUp, List.mem_append, List.mem_map, List.mem_flatMap, Led.setUp, Led.drive,
    List.mem_cons, List.not_mem_nil, or_false] at hsetUp
  rcases hsetUp with (⟨pin, _, rfl⟩ | hrelease) | ⟨led, _, rfl | rfl⟩
  . rfl
  . exact Relay.task?_of_mem_release hrelease
  . rfl
  . rfl

theorem timed_started (config : DeviceConfig) {board : Board} (h : board.agenda.pending = []) :
    Timed ((ofConfig config).started board) := by
  have hnone (task : Task) : ((ofConfig config).started board).board.due task = [] := by
    unfold started
    rw [Wired.board_step, Board.due_performAll_of_task?]
    . simp [Board.due, Agenda.due, h]
    . intro command hmem
      simp [task?_of_mem_setUp hmem]
  have hidle (i : Nat) (relay : Relay) (hget : (ofConfig config).get? i = some relay) :
      relay.pulse = .idle :=
    (fresh_of_mem_ofConfig (List.mem_of_getElem? hget)).2
  refine ⟨?_, ?_, ?_⟩
  . intro i relay hget
    have hpulse := hidle i relay hget
    exact ⟨fun _ => hpulse, fun _ => hnone _, by simp [hpulse], by simp [hpulse]⟩
  . intro task time hmem
    rw [hnone] at hmem
    cases hmem
  . intro i relay hget hwaiting
    rw [hidle i relay hget] at hwaiting
    contradiction

@[simp]
theorem size_started (config : DeviceConfig) (board : Board) :
    ((ofConfig config).started board).part.size = config.relays.length :=
  List.length_map _

/-! ### The tasks that are due by a time -/

/--
An upper bound of the number of tasks that run up to the time `limit`: a relay has at most one of
them in each millisecond.
-/
def tasksUntil (limit : Nat) (wired : Wired RelayBank) : Nat :=
  ∑ i ∈ Finset.range wired.part.size,
    ((wired.board.due (.relayPulse i)).map fun due => limit + 1 - due).sum

theorem due_happen_fire_of_ne (hne : i ≠ j) (time : Nat) :
    (happen wired (.fire (.relayPulse i) time)).board.due (.relayPulse j)
      =
    wired.board.due (.relayPulse j) := by
  have hspares := (sparesAt_continuePulse hne wired.part).2
  exact (Board.due_performAll_of_task? hspares _).trans
    (Board.due_begin_of_ne (by simpa using hne) _ _)

theorem due_happen_fire (hget : wired.part.get? i = some relay) (time : Nat) :
    (happen wired (.fire (.relayPulse i) time)).board.due (.relayPulse i) = []
      ∨ ∃ delay, 0 < delay
        ∧ (happen wired (.fire (.relayPulse i) time)).board.due (.relayPulse i) = [time + delay] := by
  have hasked (j : Nat) : BankEvent.fire (.relayPulse i) time ≠ .call (.continuePulse j) := by simp
  obtain ⟨new, due, pulses, _, hdue, _, hpassage⟩ := exists_passage hget hasked
  rw [hdue]
  cases hpassage with
  | spare htarget hfire => exact absurd rfl (hfire time)
  | drive on htarget | pulse on htarget | postpone on htarget => cases htarget
  | rest | finish => exact .inl rfl
  | retry hevent =>
    cases hevent
    exact .inr ⟨_, by decide, rfl⟩
  | wait hevent =>
    cases hevent
    exact .inr ⟨_, by decide, rfl⟩

theorem tasksUntil_happen_lt (h : Timed wired)
    (hnext : wired.board.agenda.next? limit = some (task, time)) :
    tasksUntil limit (happen wired (.fire task time)) < tasksUntil limit wired := by
  have hmem : time ∈ wired.board.due task := Agenda.mem_due_of_next? hnext
  have hlimit := Agenda.le_of_next? hnext
  obtain ⟨i, relay, rfl, hget⟩ := h.tasks task time hmem
  have hown : (((happen wired (.fire (.relayPulse i) time)).board.due (.relayPulse i)).map
      fun due => limit + 1 - due).sum
      < ((wired.board.due (.relayPulse i)).map fun due => limit + 1 - due).sum := by
    rcases (h.relays i relay hget).due_cases with hnone | ⟨due, hdue, _⟩
    . rw [hnone] at hmem
      cases hmem
    . rw [hdue, List.mem_singleton] at hmem
      subst hmem
      -- The task was the only one of its relay, and comes back only for a later time.
      rcases due_happen_fire hget time with hnext | ⟨delay, hdelay, hnext⟩
      . rw [hdue, hnext]
        simp
        omega
      . rw [hdue, hnext]
        simp
        omega
  unfold tasksUntil
  rw [size_happen]
  apply Finset.sum_lt_sum
  . intro j _
    by_cases hij : i = j
    . subst hij
      exact Nat.le_of_lt hown
    . rw [due_happen_fire_of_ne hij]
  . exact ⟨i, Finset.mem_range.mpr (lt_size_of_get? hget), hown⟩

theorem tasksUntil_le (h : Timed wired) (ms : Nat) :
    tasksUntil (wired.board.now + ms) wired ≤ wired.part.size * (ms + 1) := by
  unfold tasksUntil
  have hbound : ∀ i ∈ Finset.range wired.part.size,
      ((wired.board.due (.relayPulse i)).map fun due => wired.board.now + ms + 1 - due).sum
        ≤ ms + 1 := by
    intro i hmem
    have hget : wired.part.get? i = some _ :=
      List.getElem?_eq_getElem (Finset.mem_range.mp hmem)
    rcases (h.relays i _ hget).due_cases with hdue | ⟨due, hdue, hnow⟩
    . simp [hdue]
    . simp [hdue]
      omega
  have hsum := Finset.sum_le_card_nsmul _ _ _ hbound
  simpa using hsum

/-! ### Runs -/

theorem next?_runTasks (h : Timed wired) (hsize : wired.part.size ≤ DeviceConfig.capacity .relays)
    (ms : Nat) {fuel : Nat} (hfuel : Wired.tasksPerMs * (ms + 1) ≤ fuel) :
    (Wired.runTasks fire (wired.board.now + ms) fuel wired).board.agenda.next?
      (wired.board.now + ms) = none := by
  apply Wired.next?_runTasks Timed (tasksUntil (wired.board.now + ms))
  . intro wired task due h hnext
    rw [fire_begin]
    exact ⟨h.happen (Agenda.next?_self hnext), tasksUntil_happen_lt h hnext⟩
  . exact h
  . calc
      tasksUntil (wired.board.now + ms) wired
      _ ≤ wired.part.size * (ms + 1) := tasksUntil_le h ms
      _ ≤ Wired.tasksPerMs * (ms + 1) :=
        Nat.mul_le_mul_right _ (Nat.le_trans hsize (by decide))
      _ ≤ fuel := hfuel

theorem now_runTasks_le (fuel : Nat) (h : wired.board.now ≤ limit) :
    (Wired.runTasks fire limit fuel wired).board.now ≤ limit := by
  apply Wired.runTasks_invariant fun wired => wired.board.now ≤ limit
  . intro wired task due _ hnext
    rw [fire_begin, now_happen]
    exact Agenda.le_of_next? hnext
  . exact h

theorem timely_eventsOfUse (h : Timed wired)
    (hsize : wired.part.size ≤ DeviceConfig.capacity .relays) (asked : BankUse) :
    Timely wired (eventsOfUse wired asked) := by
  cases asked with
  | command asked hcommand => exact ⟨hcommand, trivial⟩
  | wait ms =>
    rw [eventsOfUse, timely_append, after_firings]
    refine ⟨timely_firings _ _ _, ⟨?_, ?_⟩, trivial⟩
    . exact now_runTasks_le _ (Nat.le_add_right _ ms)
    . exact next?_runTasks h hsize ms (Nat.le_refl _)

theorem size_after (events : List BankEvent) (wired : Wired RelayBank) :
    (after wired events).part.size = wired.part.size := by
  apply after_invariant fun other => other.part.size = wired.part.size
  . intro other event h
    rw [size_happen, h]
  . rfl

theorem timely_eventsOf (uses : List BankUse) :
    ∀ {wired : Wired RelayBank}, Timed wired →
      wired.part.size ≤ DeviceConfig.capacity .relays → Timely wired (eventsOf wired uses) := by
  induction uses with
  | nil =>
    intro wired _ _
    trivial
  | cons asked uses ih =>
    intro wired h hsize
    have htimely := timely_eventsOfUse h hsize asked
    rw [eventsOf, timely_append, ← after_eventsOfUse]
    refine ⟨htimely, ih (h.after htimely) ?_⟩
    rw [size_after]
    exact hsize

end RelayBank

end WallSwitch
