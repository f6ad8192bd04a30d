import WallSwitch.Proofs.Device.Requests

/-!
This module contains what is true of a device that was just started: nothing waits but perhaps a
reboot and pulses of relays, and nothing is left of the buttons that were held before.
-/

namespace WallSwitch

def Command.isForJoining : Command → Bool
  | .enableInterrupt _ | .armInterrupt .. | .setImageType _ | .leaveNetwork => true
  | _ => false

def Command.isForStart (command : Command) : Bool :=
  command.isForJoining || command.topic ∈ [.outputs, .settings, .reset]

def Command.isForSetUp : Command → Bool
  | .enableInterrupt _ | .armInterrupt .. | .setImageType _ => true
  | command => command.topic = .outputs

theorem Command.isForSetUp_of_topic {command : Command} (h : command.topic = .outputs) :
    command.isForSetUp = true := by
  unfold isForSetUp
  split
  . rfl
  . rfl
  . rfl
  . exact decide_eq_true h

theorem Command.isForStart_of_topic {command : Command}
    (h : command.topic ∈ [.outputs, .settings, .reset]) : command.isForStart = true := by
  unfold isForStart
  rw [decide_eq_true h, Bool.or_true]

theorem Command.isForStart_of_isForSetUp {command : Command} (h : command.isForSetUp = true) :
    command.isForStart = true := by
  unfold isForSetUp at h
  split at h
  . rfl
  . rfl
  . rfl
  . apply isForStart_of_topic
    simp [of_decide_eq_true h]

/-! ### The board -/

section Boards

variable {β : Type} {f : Board → β}
variable (hcommand : ∀ command : Command, command.isForStart = true →
  ∀ board : Board, f (board.perform command) = f board)
variable (hsetUp : ∀ command : Command, command.isForSetUp = true →
  ∀ board : Board, f (board.perform command) = f board)
variable (hread : ∀ pin, ∀ board : Board, f (board.read pin).2 = f board)
variable (hload : ∀ key room, ∀ board : Board, f (board.load key room).2 = f board)

section

include hsetUp hread

theorem PinWatcher.start_keeps_watch {α : Type} {watcher next : PinWatcher α}
    {board board' : Board} {pin : Pin} {payload : α}
    (h : watcher.watch board pin payload = .ok (next, board')) : f board' = f board := by
  rw [board_watch h]
  exact (hsetUp _ rfl _).trans ((hsetUp _ rfl _).trans (hread pin board))

end

namespace Device

section Outputs

variable (houtputs : ∀ command : Command, command.topic = .outputs →
  ∀ board : Board, f (board.perform command) = f board)
include houtputs

theorem start_keeps_step {next : Step Controller} {device : Device}
    (h : ∀ command ∈ next.commands device.part, command.topic = .outputs) :
    f (device.step next).board = f device.board := by
  apply Board.performAll_keeps
  intro command hmem
  exact houtputs command (h command hmem)

include hload

theorem start_keeps_recallRelays (device : Device) :
    f device.recallRelays.board = f device.board := by
  refine List.foldlRecOn (motive := fun next : Device => f next.board = f device.board) _ _ rfl ?_
  intro next hnext i _
  have hloaded : f (next.board.loadRecord RelayRecord (Key.relay i)).2 = f device.board :=
    (hload _ _ _).trans hnext
  unfold recallRelay
  dsimp only
  split
  . split
    . exact (start_keeps_step houtputs (next.part.relays.move_set i true).topic).trans hloaded
    . exact hloaded
  . exact hloaded

end Outputs

section Quiet

variable (hquiet : ∀ command : Command, command.topic ∈ [.outputs, .settings, .reset] →
  ∀ board : Board, f (board.perform command) = f board)
include hload hquiet

variable (hleave : ∀ board : Board, f (board.perform .leaveNetwork) = f board)
include hleave

theorem start_keeps_compareRole (device : Device) (status : NetworkStatus) (role : Role) :
    f ((device.step (Controller.onStatus status)).compareRole role).board = f device.board := by
  have hshown : f (device.step (Controller.onStatus status)).board = f device.board := by
    apply start_keeps_step _ Controller.topic_onStatus
    intro command htopic
    apply hquiet
    simp [htopic]
  rw [compareRole_eq]
  refine (Board.compareRole_keeps hload ?_ hleave role _ _).trans hshown
  intro command htopic
  exact hquiet command (List.mem_cons_of_mem _ htopic)

variable (hannounce : ∀ topology, ∀ board : Board, f (board.perform (.announce topology)) = f board)
include hannounce

theorem start_keeps_from_readied (device : Device) (role : Role) :
    f (device.start role).board = f device.readied.board := by
  have hrecalled : f device.recalled.board = f device.readied.board := by
    refine (start_keeps_recallRelays hload ?_ _).trans (hannounce _ _)
    intro command htopic
    apply hquiet
    simp [htopic]
  rw [start_eq]
  exact (start_keeps_compareRole hload hquiet hleave _ _ role).trans hrecalled

end Quiet

section SetUp

include hsetUp

theorem start_keeps_announceImageType (device : Device) :
    f (device.step Controller.announceImageType).board = f device.board := by
  apply Board.performAll_keeps
  intro command hmem board
  obtain ⟨value, _, rfl⟩ := List.mem_map.mp hmem
  exact hsetUp _ rfl board

include hload

theorem start_keeps_prepared (device : Device) : f device.prepared.board = f device.board := by
  have houtputs (command : Command) (htopic : command.topic = .outputs) :=
    hsetUp command (Command.isForSetUp_of_topic htopic)
  have hrelays : f ((device.step Controller.announceImageType).step
      (Controller.onRelays RelayBank.setUp)).board = f device.board :=
    (start_keeps_step houtputs RelayBank.topic_setUp).trans
      (start_keeps_announceImageType hsetUp device)
  have hleds : f (((device.step Controller.announceImageType).step
      (Controller.onRelays RelayBank.setUp)).step Controller.setUpLeds).board = f device.board := by
    refine (start_keeps_step houtputs ?_).trans hrelays
    intro command hmem
    obtain ⟨led, _, hsetUp⟩ := List.mem_flatMap.mp hmem
    exact Led.topic_of_mem_setUp hsetUp
  unfold prepared
  generalize ((device.step Controller.announceImageType).step
    (Controller.onRelays RelayBank.setUp)).step Controller.setUpLeds = lit at hleds ⊢
  have hloaded : f (lit.board.loadRecord BasicRecord Key.basic).2 = f device.board :=
    (hload _ _ _).trans hleds
  unfold loadStatusLed
  dsimp only
  split
  . exact (start_keeps_step houtputs StatusLight.topic_refresh).trans hloaded
  . exact hloaded

include hread

theorem start_keeps_readied (device : Device) : f device.readied.board = f device.board := by
  have hprepared := start_keeps_prepared hsetUp hload device
  rw [readied_eq]
  generalize device.prepared = prepared at hprepared ⊢
  have hcontacts : f prepared.setUpContacts.board = f device.board :=
    (Contacts.setUpAll_keeps (fun _ _ => hsetUp _ rfl) (fun _ _ => hread _) _).trans hprepared
  refine List.foldlRecOn (motive := fun next : Device => f next.board = f device.board) _ _
    hcontacts ?_
  intro next hnext i _
  unfold watchButton
  split
  . exact hnext
  . split
    . next hwatch => exact (PinWatcher.start_keeps_watch hsetUp hread hwatch).trans hnext
    . exact hnext

variable (hannounce : ∀ topology, ∀ board : Board, f (board.perform (.announce topology)) = f board)
include hannounce

theorem start_keeps_recalled (device : Device) : f device.recalled.board = f device.board := by
  refine (start_keeps_recallRelays hload ?_ _).trans
    ((hannounce _ _).trans (start_keeps_readied hsetUp hread hload device))
  intro command htopic
  exact hsetUp command (Command.isForSetUp_of_topic htopic)

end SetUp

include hcommand hread hload

variable (hannounce : ∀ topology, ∀ board : Board, f (board.perform (.announce topology)) = f board)
include hannounce

theorem start_keeps (device : Device) (role : Role) :
    f (device.start role).board = f device.board := by
  have hquiet (command : Command) (htopic : command.topic ∈ [.outputs, .settings, .reset]) :=
    hcommand command (Command.isForStart_of_topic htopic)
  have hsetUp (command : Command) (h : command.isForSetUp = true) :=
    hcommand command (Command.isForStart_of_isForSetUp h)
  exact (start_keeps_from_readied hload hquiet (hcommand _ rfl) hannounce device role).trans
    (start_keeps_readied hsetUp hread hload device)

theorem boot_keeps {board : Board} {role : Role} {device : Device}
    (h : boot board role = .ok device) : f device.board = f board := by
  obtain ⟨blueprint, _, hdevice⟩ := exists_of_boot h
  rw [hdevice]
  exact (start_keeps hcommand hread hload hannounce _ _).trans
    ((Board.loadSwitches_keeps hload _ _).trans
      (Board.lookUp_keeps hload (fun _ _ => hcommand _ rfl) board))

end Device

end Boards

namespace Device

variable {board : Board} {role : Role} {device : Device}

theorem due_of_boot {task : Task} (h : boot board role = .ok device)
    (hidle : board.agenda.pending = [])
    (htask : task.topic ∉ [.outputs, .settings, .reset, .device]) : device.board.due task = [] := by
  have hkept : device.board.due task = board.due task := by
    apply boot_keeps (f := fun board => board.due task) _ _ _ _ h
    . intro command hstart board
      unfold Command.isForStart at hstart
      rw [Bool.or_eq_true, decide_eq_true_eq] at hstart
      rcases hstart with hjoining | hmem
      . cases command with
        | enableInterrupt pin => rfl
        | armInterrupt pin edge => rfl
        | setImageType value => rfl
        | leaveNetwork => rfl
        | _ => cases hjoining
      . apply Board.due_perform_of_topic
        intro heq
        rw [heq] at hmem
        have hmore : task.topic ∈ [.outputs, .settings, .reset] ++ [.device] :=
          List.mem_append_left _ hmem
        exact htask hmore
    . intro pin board
      exact board.due_read pin task
    . intro key room board
      rfl
    . intro topology board
      rfl
  rw [hkept, Board.due_of_idle hidle]

theorem erasures_of_boot (h : boot board role = .ok device) :
    device.board.erasures = board.erasures := by
  apply boot_keeps _ _ _ _ h
  . intro command hstart board
    apply Board.erasures_perform_of_ne
    rintro rfl
    cases hstart
  . intro pin board
    unfold Board.erasures
    rw [Board.orders_read]
  . intro key room board
    unfold Board.erasures
    rw [Board.orders_load]
  . intro topology board
    apply Board.erasures_perform_of_ne
    nofun

/-! ### The parts -/

theorem notes_recalled (device : Device) :
    device.recalled.part.notes = device.readied.part.notes := by
  have hannounced (next : Device) :
      (next.step Controller.announceTopology).part.notes = next.part.notes := rfl
  unfold recalled
  rw [recallRelays_keeps_part (f := Controller.notes) (fun _ _ => rfl), hannounced]

/--
What waits in a controller: contact events that nobody has looked at, long presses that have not
ended, and the reset.
-/
def waiting (controller : Controller) : List ContactEvent × Vector Bool 5 × ResetTimer :=
  (controller.contacts.queue, controller.longPressed, controller.resets)

theorem waiting_readied (device : Device) : waiting device.readied.part = waiting device.part := by
  have hcontacts (next : Device) : waiting next.setUpContacts.part = waiting next.part := rfl
  rw [readied_eq, watchButtons_keeps_part (f := waiting) (fun _ _ => rfl), hcontacts,
    prepared_keeps_part (f := waiting) (fun _ _ => rfl)]

theorem resets_compareRole (board : Board) (role : Role) (timer : ResetTimer) :
    (board.compareRole role timer).2.1 = timer
      ∨ (board.compareRole role timer).2.1 = ⟨some .reboot⟩ := by
  unfold Board.compareRole
  dsimp only
  split
  . split
    . exact .inl rfl
    . exact .inr rfl
  . exact .inl rfl

theorem part_start (device : Device) (role : Role) :
    (device.start role).part.contacts = device.readied.part.contacts
      ∧ (device.start role).part.longPressed = device.readied.part.longPressed
      ∧ (device.start role).part.watcher.watched = device.readied.part.watcher.watched
      ∧ ((device.start role).part.resets = device.readied.part.resets
        ∨ (device.start role).part.resets = ⟨some .reboot⟩) := by
  have hnotes := notes_recalled device
  rw [start_eq, compareRole_eq]
  generalize device.recalled = recalled at hnotes ⊢
  generalize device.readied = readied at hnotes ⊢
  have hshown : (recalled.step (Controller.onStatus recalled.board.network)).part.notes
      = readied.part.notes :=
    (Controller.notes_call (.onStatus recalled.board.network)).trans hnotes
  generalize recalled.step _ = shown at hshown ⊢
  refine ⟨congrArg Prod.fst hshown, congrArg (fun notes => notes.2.1) hshown,
    congrArg (fun notes => notes.2.2.1) hshown, ?_⟩
  have hresets : shown.part.resets = readied.part.resets :=
    congrArg (fun notes => notes.2.2.2) hshown
  rw [← hresets]
  exact resets_compareRole shown.board role shown.part.resets

theorem waiting_start {fresh : Device}
    (h : waiting fresh.part = ([], Vector.replicate 5 false, .idle)) (role : Role) :
    (fresh.start role).part.contacts.queue = []
      ∧ (fresh.start role).part.longPressed = Vector.replicate 5 false
      ∧ (fresh.start role).part.resets.pending ≠ some .full := by
  rw [← waiting_readied] at h
  obtain ⟨hcontacts, hlongPressed, _, hresets⟩ := part_start fresh role
  generalize fresh.readied = readied at h hcontacts hlongPressed hresets
  have hidle : readied.part.resets = .idle := congrArg (fun waiting => waiting.2.2) h
  rw [hcontacts, hlongPressed]
  refine ⟨congrArg Prod.fst h, congrArg (fun waiting => waiting.2.1) h, ?_⟩
  rcases hresets with hsame | hreboot
  . rw [hsame, hidle]
    decide
  . rw [hreboot]
    decide

theorem waiting_of_boot (h : boot board role = .ok device) :
    device.part.contacts.queue = [] ∧ device.part.longPressed = Vector.replicate 5 false
      ∧ device.part.resets.pending ≠ some .full := by
  obtain ⟨blueprint, _, hdevice⟩ := exists_of_boot h
  rw [hdevice]
  exact waiting_start rfl role

end Device

end WallSwitch
