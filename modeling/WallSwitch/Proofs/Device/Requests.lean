import WallSwitch.Proofs.Device.Topics
import WallSwitch.Proofs.Device.Turns

/-!
This module contains what the events of a run make a device ask of its board before its buttons take
their turns, and what they leave alone.
-/

namespace WallSwitch

def DeviceEvent.topics : DeviceEvent → List Topic
  | .call .onEdge | .input .. | .fire .settle _ => [.inputs]
  | .call _ => [.outputs, .settings]
  | .reconfigure _ => [.settings, .reset]
  | .fire (.relayPulse _) _ => [.outputs]
  | .fire (.buttonHold _) _ | .board _ => []
  | .fire .reset _ => [.erasure, .device]

section Topics

variable {event : DeviceEvent}

theorem DeviceEvent.switch_not_mem_topics (i : Nat) : .switch i ∉ event.topics := by
  unfold topics
  split <;> simp

theorem DeviceEvent.hold_not_mem_topics (button : Nat) : .hold button ∉ event.topics := by
  unfold topics
  split <;> simp

end Topics

namespace Controller

variable {controller : Controller}

theorem topic_call {asked : DeviceCall} :
    ∀ command ∈ asked.step.commands controller,
      command.topic ∈ (DeviceEvent.call asked).topics := by
  intro command hmem
  cases asked with
  | setRelay i on => simpa [DeviceEvent.topics] using topic_setRelay command hmem
  | toggleRelay i => simpa [DeviceEvent.topics] using topic_setRelay command hmem
  | onStatus status => simp [DeviceEvent.topics, topic_onStatus command hmem]
  | chooseStatusLed on =>
    change command ∈ (chooseStatusLed on).commands controller at hmem
    rw [chooseStatusLed, Step.commands_andThen, List.mem_append] at hmem
    cases hmem with
    | inl hlight =>
      have htopic : command.topic = .outputs := StatusLight.topic_refresh command hlight
      simp [DeviceEvent.topics, htopic]
    | inr hsave => simp [DeviceEvent.topics, Record.topic_save command hsave]
  | changeSwitch i change =>
    rw [DeviceCall.step_changeSwitch] at hmem
    simp [DeviceEvent.topics, topic_changeSwitch command hmem]
  | bank asked =>
    simp [DeviceEvent.topics, (asked.move controller.relays).topic command hmem]
  | observe i param =>
    rw [DeviceCall.commands_observe] at hmem
    cases hmem
  | onEdge => simp [DeviceEvent.topics, PinWatcher.topic_onEdge command hmem]

/-! ### What a device keeps in mind -/

def notes (controller : Controller) :
    Contacts × Vector Bool 5 × List (Watched Nat) × ResetTimer :=
  (controller.contacts, controller.longPressed, controller.watcher.watched, controller.resets)

theorem notes_setRelay {i : Nat} {on : Bool} :
    ((setRelay i on).state controller).notes = controller.notes := by
  unfold setRelay
  rw [Step.state_choose]
  split <;> rfl

theorem notes_call (asked : DeviceCall) :
    (asked.step.state controller).notes = controller.notes := by
  cases asked with
  | setRelay i on => exact notes_setRelay
  | toggleRelay i => exact notes_setRelay
  | onStatus status =>
    simp only [DeviceCall.step, onStatus, Step.state_andThen]
    split <;> rfl
  | changeSwitch i change =>
    obtain ⟨config, hstate⟩ := controller.exists_state_changeSwitch i fun switch => change.apply switch
    rw [DeviceCall.step_changeSwitch, hstate]
    rfl
  | _ => rfl

end Controller

namespace Device

variable {device : Device} {event : DeviceEvent}

theorem receive_keeps {β : Type} {f : Board → β}
    (hcommand : ∀ command : Command, command.topic ∈ event.topics →
      ∀ board : Board, f (board.perform command) = f board)
    (hread : ∀ pin, ∀ board : Board, f (board.read pin).2 = f board)
    (hbegin : ∀ task time, event = .fire task time →
      ∀ board : Board, f (board.begin task time) = f board)
    (hboard : ∀ change : BoardEvent, ∀ board : Board, f (change.on board) = f board)
    (device : Device) : f (device.receive event).board = f device.board := by
  have hcommands {commands : List Command} (board : Board)
      (h : ∀ command ∈ commands, command.topic ∈ event.topics) :
      f (board.performAll commands) = f board :=
    board.performAll_keeps fun command hmem board => hcommand command (h command hmem) board
  cases event with
  | call asked => exact hcommands _ Controller.topic_call
  | reconfigure bytes =>
    simp only [receive, happen, reconfigure]
    cases ConfigText.ofBytes bytes with
    | error error => rfl
    | ok text =>
      apply hcommands
      intro command hmem
      simpa [DeviceEvent.topics] using Controller.topic_acceptText command hmem
  | fire task time =>
    cases task with
    | relayPulse i =>
      refine (hcommands _ ?_).trans (hbegin _ _ rfl device.board)
      intro command hmem
      exact List.mem_singleton.mpr
        ((device.part.relays.move_continuePulse i).topic command hmem)
    | settle =>
      refine Eq.trans ?_ (hbegin _ _ rfl device.board)
      apply PinWatcher.pass_keeps _ _ hread
      . exact fun pin edge => hcommand _ List.mem_cons_self
      . exact fun pin => hcommand _ List.mem_cons_self
    | buttonHold i => exact hbegin _ _ rfl device.board
    | reset =>
      refine (hcommands _ ?_).trans (hbegin _ _ rfl device.board)
      intro command hmem
      simpa [DeviceEvent.topics] using Controller.topic_fireReset command hmem
  | input pin high =>
    have hchanged := hboard (.setLevel pin high) device.board
    simp only [receive, happen, input, Wired.input]
    split
    . refine (hcommands _ ?_).trans hchanged
      intro command hmem
      exact List.mem_singleton.mpr (PinWatcher.topic_onEdge command hmem)
    . exact hchanged
  | board change => exact hboard change device.board

theorem orders_on (change : BoardEvent) (board : Board) : (change.on board).orders = board.orders := by
  cases change <;> rfl

theorem due_on (change : BoardEvent) (board : Board) (task : Task) :
    (change.on board).due task = board.due task := by
  cases change <;> rfl

theorem receive_keeps_of_orders {β : Type} {f : List (Nat × Command) → β}
    (h : ∀ command : Command, command.topic ∈ event.topics → ∀ orders time,
      f (orders ++ [(time, command)]) = f orders) (device : Device) :
    f (device.receive event).board.orders = f device.board.orders := by
  apply receive_keeps (f := fun board => f board.orders)
  . intro command htopic board
    rw [Board.orders_perform]
    exact h command htopic board.orders board.now
  . intro pin board
    rw [Board.orders_read]
  . intro task time _ board
    rw [Board.orders_begin]
  . intro change board
    rw [orders_on]

theorem topic_ne_switch {command : Command} (h : command.topic ∈ event.topics) (i : Nat) :
    command.topic ≠ .switch i := by
  intro heq
  exact DeviceEvent.switch_not_mem_topics i (heq ▸ h)

theorem reports_receive (device : Device) (event : DeviceEvent) (i : Nat) :
    (device.receive event).board.reports i = device.board.reports i := by
  apply receive_keeps_of_orders (f := fun orders => Command.reports i (orders.map (·.2)))
  intro command htopic orders time
  have hnone : Command.reports i [command] = [] :=
    Command.reports_of_topic (List.forall_mem_singleton.mpr (topic_ne_switch htopic i))
  rw [List.map_append, Command.reports_append, List.map_singleton, hnone, List.append_nil]

theorem sends_receive (device : Device) (event : DeviceEvent) (i : Nat) :
    (device.receive event).board.sends i = device.board.sends i := by
  apply receive_keeps_of_orders (f := fun orders => Command.sends i (orders.map (·.2)))
  intro command htopic orders time
  have hnone : Command.sends i [command] = [] :=
    Command.sends_of_topic (List.forall_mem_singleton.mpr (topic_ne_switch htopic i))
  rw [List.map_append, Command.sends_append, List.map_singleton, hnone, List.append_nil]

theorem erasures_receive (device : Device) (h : .erasure ∉ event.topics) :
    (device.receive event).board.erasures = device.board.erasures := by
  apply receive_keeps_of_orders
    (f := fun orders => (orders.filter fun order => order.2 = .erase).map (·.1))
  intro command htopic orders time
  have hne : command ≠ .erase := by
    rintro rfl
    exact h htopic
  rw [List.filter_append, List.filter_singleton]
  simp [hne]

theorem due_receive {task : Task} (device : Device) (htopic : task.topic ∉ event.topics)
    (htask : ∀ time, event ≠ .fire task time) :
    (device.receive event).board.due task = device.board.due task := by
  apply receive_keeps (f := fun board => board.due task)
  . intro command hcommand board
    apply Board.due_perform_of_topic
    rintro heq
    exact htopic (heq ▸ hcommand)
  . intro pin board
    exact board.due_read pin task
  . rintro other time rfl board
    apply Board.due_begin_of_ne
    rintro rfl
    exact htask time rfl
  . intro change board
    exact due_on change board task

theorem due_hold_receive_subset (device : Device) (event : DeviceEvent) (button : Nat) :
    (device.receive event).board.due (.buttonHold button)
      ⊆ device.board.due (.buttonHold button) := by
  by_cases hfire : ∃ time, event = .fire (.buttonHold button) time
  . obtain ⟨time, rfl⟩ := hfire
    exact Board.due_begin_subset ..
  . rw [due_receive device (DeviceEvent.hold_not_mem_topics button) (not_exists.mp hfire)]
    exact List.Subset.refl _

theorem exists_fire_of_held_mem_prompts {button : Nat}
    (h : .held button ∈ device.prompts event) :
    (∃ time, event = .fire (.buttonHold button) time) ∧ device.prompts event = [.held button] := by
  cases event with
  | fire task time =>
    cases task with
    | settle =>
      obtain ⟨_, _, heq⟩ := List.mem_map.mp h
      cases heq
    | buttonHold other =>
      cases List.mem_singleton.mp h
      exact ⟨⟨time, rfl⟩, rfl⟩
    | _ => cases h
  | _ => cases h

/-! ### What is kept in mind -/

theorem receive_keeps_part {β : Type} {f : Controller → β}
    (hnotes : ∀ controller next : Controller, next.notes = controller.notes → f next = f controller)
    (hcontacts : ∀ time, event = .fire .settle time →
      ∀ (controller : Controller) (contacts : Contacts),
        f { controller with contacts := contacts } = f controller)
    (hresets : .reset ∈ event.topics ∨ .erasure ∈ event.topics →
      ∀ (controller : Controller) (resets : ResetTimer),
        f { controller with resets := resets } = f controller)
    (device : Device) : f (device.receive event).part = f device.part := by
  cases event with
  | call asked => exact hnotes _ _ (Controller.notes_call asked)
  | reconfigure bytes =>
    simp only [receive, happen, reconfigure]
    cases ConfigText.ofBytes bytes with
    | error error => rfl
    | ok text =>
      refine (hresets ?_ { device.part with text := text } _).trans (hnotes _ _ rfl)
      simp [DeviceEvent.topics]
  | fire task time =>
    cases task with
    | relayPulse i => exact hnotes _ _ rfl
    | settle =>
      exact (hcontacts time rfl (device.begun .settle time).passed.part _).trans (hnotes _ _ rfl)
    | buttonHold i => rfl
    | reset =>
      apply hresets
      simp [DeviceEvent.topics]
  | input pin high =>
    simp only [receive, happen, input, Wired.input]
    split
    . exact hnotes _ _ rfl
    . rfl
  | board change => rfl

theorem longPressed_receive (device : Device) (event : DeviceEvent) :
    (device.receive event).part.longPressed = device.part.longPressed :=
  receive_keeps_part (fun _ _ h => congrArg (fun notes => notes.2.1) h) (fun _ _ _ _ => rfl)
    (fun _ _ _ => rfl) device

theorem watched_receive (device : Device) (event : DeviceEvent) :
    (device.receive event).part.watcher.watched = device.part.watcher.watched :=
  receive_keeps_part (fun _ _ h => congrArg (fun notes => notes.2.2.1) h) (fun _ _ _ _ => rfl)
    (fun _ _ _ => rfl) device

theorem contacts_receive (device : Device) (h : ∀ time, event ≠ .fire .settle time) :
    (device.receive event).part.contacts = device.part.contacts :=
  receive_keeps_part (fun _ _ h => congrArg (fun notes => notes.1) h)
    (fun time hsettle => absurd hsettle (h time)) (fun _ _ _ => rfl) device

theorem resets_receive (device : Device) (hreset : .reset ∉ event.topics)
    (herasure : .erasure ∉ event.topics) :
    (device.receive event).part.resets = device.part.resets :=
  receive_keeps_part (fun _ _ h => congrArg (fun notes => notes.2.2.2) h) (fun _ _ _ _ => rfl)
    (fun h => (h.elim hreset herasure).elim) device

end Device

end WallSwitch
