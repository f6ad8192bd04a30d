import WallSwitch.Proofs.Board.Readings

/-!
This module contains what the commands that a board is given are about: only those about a task
change when it is due, and only those about the inputs change what interrupts. The trace of the board
tells which commands it was given, and when.
-/

namespace WallSwitch

namespace Agenda

def due (agenda : Agenda) (task : Task) : List Nat :=
  (agenda.pending.filter fun entry => entry.1 == task).map (·.2)

variable {agenda : Agenda} {task other : Task}

theorem mem_due {time : Nat} : time ∈ agenda.due task ↔ (task, time) ∈ agenda.pending := by
  simp [due]

@[simp]
theorem due_cancel_self : (agenda.cancel task).due task = [] := by
  simp [due, cancel, List.filter_filter]

theorem due_cancel_of_ne (h : task ≠ other) : (agenda.cancel task).due other = agenda.due other := by
  unfold due cancel
  rw [List.filter_filter]
  congr 1
  apply List.filter_congr
  intro entry _
  by_cases hentry : entry.1 = other
  . simp [hentry, h.symm]
  . simp [hentry]

theorem due_schedule (delay : Nat) :
    (agenda.schedule task delay).due other
      =
    (agenda.cancel task).due other ++ if task = other then [agenda.now + delay] else [] := by
  unfold due schedule
  rw [List.filter_append, List.map_append]
  by_cases h : task = other <;> simp [h]

@[simp]
theorem due_schedule_self (delay : Nat) :
    (agenda.schedule task delay).due task = [agenda.now + delay] := by
  rw [due_schedule, due_cancel_self, if_pos rfl]
  rfl

theorem due_schedule_of_ne (h : task ≠ other) (delay : Nat) :
    (agenda.schedule task delay).due other = agenda.due other := by
  rw [due_schedule, due_cancel_of_ne h, if_neg h, List.append_nil]

theorem mem_of_earliest? : ∀ {entries : List (Task × Nat)} {entry : Task × Nat},
    earliest? entries = some entry → entry ∈ entries
  | [], _, h => by cases h
  | first :: entries, entry, h => by
    unfold earliest? at h
    split at h
    . rw [Option.some.inj h]
      exact List.mem_cons_self
    . next other hother =>
      split at h
      . cases h
        exact List.mem_cons_of_mem first (mem_of_earliest? hother)
      . rw [Option.some.inj h]
        exact List.mem_cons_self

theorem mem_due_of_next? {limit time : Nat} (h : agenda.next? limit = some (task, time)) :
    time ∈ agenda.due task := by
  rw [mem_due]
  exact mem_of_earliest? (Option.filter_eq_some_iff.mp h).1

end Agenda

inductive Topic where
  /-- Relays and LEDs. -/
  | outputs
  /-- Settings that are kept. -/
  | settings
  /-- The erasing of all settings. -/
  | erasure
  /-- The watching of pins. -/
  | inputs
  /-- The time for which this button is held. -/
  | hold (button : Nat)
  /-- The reset that waits. -/
  | reset
  /-- What this switch tells others. -/
  | switch (i : Nat)
  /-- The device as a whole. -/
  | device
deriving DecidableEq, Repr

def Task.topic : Task → Topic
  | .relayPulse _ => .outputs
  | .settle => .inputs
  | .buttonHold button => .hold button
  | .reset => .reset

namespace Command

def topic : Command → Topic
  | .configure .. | .write .. | .notify .. => .outputs
  | .enableInterrupt _ | .disableInterrupt _ | .armInterrupt .. => .inputs
  | .schedule task _ | .cancel task => task.topic
  | .save .. => .settings
  | .erase => .erasure
  | .report switch _ | .sendBound switch _ => .switch switch
  | .leaveNetwork | .restart | .announce _ | .setImageType _ | .remark _ => .device

def reported? (i : Nat) : Command → Option PressAction
  | .report switch action => if switch = i then some action else none
  | _ => none

def sent? (i : Nat) : Command → Option OnOff
  | .sendBound switch command => if switch = i then some command else none
  | _ => none

def reports (i : Nat) (commands : List Command) : List PressAction :=
  commands.filterMap (reported? i)

def sends (i : Nat) (commands : List Command) : List OnOff :=
  commands.filterMap (sent? i)

variable {command : Command} {commands more : List Command} {i : Nat}

@[simp]
theorem reports_nil : reports i [] = [] := rfl

@[simp]
theorem sends_nil : sends i [] = [] := rfl

@[simp]
theorem reports_append : reports i (commands ++ more) = reports i commands ++ reports i more :=
  List.filterMap_append

@[simp]
theorem sends_append : sends i (commands ++ more) = sends i commands ++ sends i more :=
  List.filterMap_append

theorem reports_of_topic (h : ∀ command ∈ commands, command.topic ≠ .switch i) :
    reports i commands = [] := by
  apply List.filterMap_eq_nil_iff.mpr
  intro command hmem
  cases command with
  | report switch action =>
    apply if_neg
    rintro rfl
    exact h _ hmem rfl
  | _ => rfl

theorem sends_of_topic (h : ∀ command ∈ commands, command.topic ≠ .switch i) :
    sends i commands = [] := by
  apply List.filterMap_eq_nil_iff.mpr
  intro command hmem
  cases command with
  | sendBound switch bound =>
    apply if_neg
    rintro rfl
    exact h _ hmem rfl
  | _ => rfl

end Command

def Event.command? : Event → Option Command
  | .command order _ => some order
  | _ => none

namespace Board

def due (board : Board) (task : Task) : List Nat :=
  board.agenda.due task

theorem due_of_idle {board : Board} (hidle : board.agenda.pending = []) (task : Task) :
    board.due task = [] := by
  unfold due Agenda.due
  rw [hidle]
  rfl

def orders (board : Board) : List (Nat × Command) :=
  board.history.filterMap fun entry => entry.2.command?.map fun command => (entry.1, command)

def reports (board : Board) (i : Nat) : List PressAction :=
  Command.reports i (board.orders.map (·.2))

def sends (board : Board) (i : Nat) : List OnOff :=
  Command.sends i (board.orders.map (·.2))

def erasures (board : Board) : List Nat :=
  (board.orders.filter fun order => order.2 = .erase).map (·.1)

variable {board : Board} {command : Command} {commands : List Command} {task other : Task}

/-! ### Tasks -/

theorem now_perform (board : Board) (command : Command) :
    (board.perform command).now = board.now := by
  cases command with
  | save key item =>
    obtain ⟨_, _, hsave⟩ := board.exists_perform_save key item
    rw [hsave]
    rfl
  | erase =>
    obtain ⟨_, _, herase⟩ := board.exists_perform_erase
    rw [herase]
    rfl
  | _ => rfl

@[simp]
theorem now_performAll (board : Board) (commands : List Command) :
    (board.performAll commands).now = board.now :=
  board.performAll_keeps fun command _ board => board.now_perform command

@[simp]
theorem due_perform_schedule (board : Board) (task : Task) (delay : Nat) :
    (board.perform (.schedule task delay)).due task = [board.now + delay] :=
  Agenda.due_schedule_self delay

@[simp]
theorem due_perform_cancel (board : Board) (task : Task) :
    (board.perform (.cancel task)).due task = [] :=
  Agenda.due_cancel_self

theorem due_perform_of_topic (h : command.topic ≠ task.topic) (board : Board) :
    (board.perform command).due task = board.due task := by
  cases command with
  | schedule other delay =>
    apply Agenda.due_schedule_of_ne
    rintro rfl
    exact h rfl
  | cancel other =>
    apply Agenda.due_cancel_of_ne
    rintro rfl
    exact h rfl
  | save key item =>
    obtain ⟨_, _, hsave⟩ := board.exists_perform_save key item
    rw [hsave]
    rfl
  | erase =>
    obtain ⟨_, _, herase⟩ := board.exists_perform_erase
    rw [herase]
    rfl
  | _ => rfl

theorem due_performAll_of_topic (h : ∀ command ∈ commands, command.topic ≠ task.topic)
    (board : Board) : (board.performAll commands).due task = board.due task := by
  apply performAll_keeps (f := fun board => board.due task)
  intro command hmem board
  exact due_perform_of_topic (h command hmem) board

@[simp]
theorem due_begin_self (board : Board) (task : Task) (time : Nat) :
    (board.begin task time).due task = [] :=
  Agenda.due_cancel_self

theorem due_begin_of_ne (h : task ≠ other) (board : Board) (time : Nat) :
    (board.begin task time).due other = board.due other :=
  Agenda.due_cancel_of_ne h

theorem due_begin_subset (board : Board) (task other : Task) (time : Nat) :
    (board.begin task time).due other ⊆ board.due other := by
  by_cases h : task = other
  . subst h
    simp
  . rw [due_begin_of_ne h]
    exact List.Subset.refl _

theorem agenda_read (board : Board) (pin : Pin) : (board.read pin).2.agenda = board.agenda := by
  unfold read
  split <;> rfl

theorem due_read (board : Board) (pin : Pin) (task : Task) :
    (board.read pin).2.due task = board.due task :=
  congrArg (Agenda.due · task) (board.agenda_read pin)

/-! ### Interrupts -/

def interruption (board : Board) : PinMap Bool × PinMap (Option Edge) :=
  (board.interruptEnabled, board.armedEdge)

theorem interruption_perform_of_topic (h : command.topic ≠ .inputs) (board : Board) :
    (board.perform command).interruption = board.interruption := by
  cases command with
  | enableInterrupt | disableInterrupt | armInterrupt => exact absurd rfl h
  | save key item =>
    obtain ⟨_, _, hsave⟩ := board.exists_perform_save key item
    rw [hsave]
    rfl
  | erase =>
    obtain ⟨_, _, herase⟩ := board.exists_perform_erase
    rw [herase]
    rfl
  | _ => rfl

/-! ### Orders -/

theorem orders_record {event : Event} (h : event.command? = none) (board : Board) :
    (board.record event).orders = board.orders := by
  simp [orders, history, record, h]

theorem orders_perform (board : Board) (command : Command) :
    (board.perform command).orders = board.orders ++ [(board.now, command)] := by
  obtain ⟨fault, htrace⟩ := board.trace_perform command
  unfold orders history
  rw [htrace, List.reverse_cons, List.filterMap_append]
  rfl

theorem orders_performAll (commands : List Command) :
    ∀ (board : Board),
      (board.performAll commands).orders = board.orders ++ commands.map (board.now, ·) := by
  induction commands with
  | nil =>
    intro board
    simp
  | cons command commands ih =>
    intro board
    rw [performAll_cons, ih, orders_perform, now_perform]
    simp

theorem orders_read (board : Board) (pin : Pin) : (board.read pin).2.orders = board.orders := by
  unfold read
  split
  . exact orders_record rfl _
  . exact orders_record rfl _

theorem orders_load (board : Board) (key room : Nat) :
    (board.load key room).2.orders = board.orders :=
  orders_record rfl board

theorem orders_begin (board : Board) (task : Task) (time : Nat) :
    (board.begin task time).orders = board.orders :=
  orders_record rfl _

theorem reports_performAll (commands : List Command) (board : Board) (i : Nat) :
    (board.performAll commands).reports i = board.reports i ++ Command.reports i commands := by
  unfold reports
  rw [orders_performAll, List.map_append, Command.reports_append, List.map_map]
  simp [Function.comp_def]

theorem sends_performAll (commands : List Command) (board : Board) (i : Nat) :
    (board.performAll commands).sends i = board.sends i ++ Command.sends i commands := by
  unfold sends
  rw [orders_performAll, List.map_append, Command.sends_append, List.map_map]
  simp [Function.comp_def]

theorem erasures_perform_of_ne (h : command ≠ .erase) (board : Board) :
    (board.perform command).erasures = board.erasures := by
  unfold erasures
  rw [orders_perform, List.filter_append]
  simp [h]

theorem erasures_performAll_of_topic (h : ∀ command ∈ commands, command.topic ≠ .erasure)
    (board : Board) : (board.performAll commands).erasures = board.erasures := by
  apply performAll_keeps
  intro command hmem board
  apply erasures_perform_of_ne
  rintro rfl
  exact h _ hmem rfl

end Board

end WallSwitch
