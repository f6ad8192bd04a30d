import WallSwitch.Proofs.Device.Answers
import WallSwitch.Proofs.Device.Fresh
import WallSwitch.Proofs.Device.StartChecks
import WallSwitch.Proofs.ResetTimer.Uses

/-!
This module contains the resets that a device asks for: when it starts in another role, when it is given
another configuration text, and when a button that is there for it was held. They all go to one timer,
and the last one counts.
-/

namespace WallSwitch

def SettingsMemory.isOfOtherRole (memory : SettingsMemory) (role : Role) : Bool :=
  !memory.unreadable.contains Key.role
    && (memory.store.record? RoleRecord Key.role).any fun record => record.role != role.code

theorem SettingsMemory.isOfOtherRole_congr {memory next : SettingsMemory}
    (hunreadable : next.unreadable = memory.unreadable)
    (hget : next.store.get? Key.role = memory.store.get? Key.role) (role : Role) :
    next.isOfOtherRole role = memory.isOfOtherRole role := by
  unfold isOfOtherRole
  rw [hunreadable, Store.record?_congr hget]

theorem Board.isChange_compareRole (board : Board) (role : Role) (timer : ResetTimer) :
    (board.compareRole role timer).1.isChange = board.memory.isOfOtherRole role := by
  unfold SettingsMemory.isOfOtherRole
  rcases board.compareRole_cases role timer with ⟨hload, h⟩ | ⟨code, hload, hne, h⟩ | ⟨hnone, h⟩
  . obtain ⟨hread, hfound⟩ := loadRecord_eq_ok_iff.mp hload
    simp [h, hfound, RoleCheck.isChange]
  . obtain ⟨hread, hfound⟩ := loadRecord_eq_ok_iff.mp hload
    simp [h, hread, hfound, hne, RoleCheck.isChange]
  . rw [h]
    symm
    by_contra hfound
    simp only [RoleCheck.isChange, Bool.not_eq_false, Bool.and_eq_true, Bool.not_eq_true',
      List.contains_eq_mem, decide_eq_false_iff_not, Option.any_eq_true] at hfound
    obtain ⟨hread, record, hrecord, _⟩ := hfound
    exact hnone record (loadRecord_eq_ok_iff.mpr ⟨hread, hrecord⟩)

theorem Board.reset_compareRole (board : Board) (role : Role) (timer : ResetTimer) :
    (board.compareRole role timer).2.1
        = (if board.memory.isOfOtherRole role then ⟨some .reboot⟩ else timer)
      ∧ (board.compareRole role timer).2.2.due .reset
        = if board.memory.isOfOtherRole role then [board.now + 2000] else board.due .reset := by
  rw [← isChange_compareRole board role timer]
  obtain ⟨_, hresets, hdue⟩ := board.left_iff_changed role timer
  exact ⟨hresets, hdue⟩

namespace Device

open ResetTimer

/--
What an event does to the reset that waits in a device.
-/
def resetEvent? (device : Device) : DeviceEvent → Option ResetEvent
  | .reconfigure bytes =>
    match ConfigText.ofBytes bytes with
    | .ok _ => some (.asked .reboot device.board.now 0)
    | .error _ => none
  | .fire (.buttonHold i) time =>
    if device.part.contacts.action? i = some .factoryReset ∧ device.part.contacts.isClosed i then
      some (.asked .full time 0)
    else
      none
  | .fire .reset time => some (.fired time)
  | _ => none

/--
What becomes of a history in a run, the last event first.
-/
def resetHistory (device : Device) : List DeviceEvent → List ResetEvent → List ResetEvent
  | [], history => history
  | event :: events, history =>
    resetHistory (device.happen event) events ((device.resetEvent? event).toList ++ history)

def startHistory (board : Board) (role : Role) : List ResetEvent :=
  if board.memory.isOfOtherRole role then [.asked .reboot board.now 2000] else []

/--
The reset that waits in the device, and its board, are as the history says.
-/
def FollowsResets (device : Device) (before : List (Nat × Command)) (history : List ResetEvent) :
    Prop :=
  device.part.resets.Follows device.board before history

variable {device : Device} {event : DeviceEvent} {prompt : Prompt} {board : Board} {role : Role}
variable {before : List (Nat × Command)} {history : List ResetEvent}

/-! ### Turns -/

theorem resetOrders_prompt (h : device.part.Matched) :
    (device.step prompt.step).board.resetOrders = device.board.resetOrders := by
  rw [board_step]
  apply Board.resetOrders_performAll_of_topic
  intro command hmem
  exact Prompt.topics_apart _ (Prompt.topic_mem_topics h command hmem)

theorem FollowsResets.dealWith_moved (prompts : List Prompt)
    (hmoved : ∀ prompt ∈ prompts, ∀ i, prompt ≠ .held i) :
    ∀ {device : Device}, device.part.Matched → device.FollowsResets before history →
      (device.dealWith prompts).FollowsResets before history := by
  induction prompts with
  | nil =>
    intro device _ h
    exact h
  | cons prompt prompts ih =>
    intro device hmatched h
    rw [List.forall_mem_cons] at hmoved
    obtain ⟨hresets, hdue⟩ := keeps_reset_prompt hmatched fun i hheld => absurd hheld (hmoved.1 i)
    have hnext : (device.step prompt.step).FollowsResets before history := by
      unfold FollowsResets
      rw [hresets]
      exact h.congr hdue (resetOrders_prompt hmatched)
    exact ih hmoved.2 (hmatched.congr (wiring_prompt device prompt)) hnext

theorem FollowsResets.held (h : device.FollowsResets before history) (hmatched : device.part.Matched)
    (i : Nat) :
    (device.step (Prompt.held i).step).FollowsResets before
      ((device.resetEvent? (.fire (.buttonHold i) device.board.now)).toList ++ history) := by
  by_cases hasks : device.part.contacts.action? i = some .factoryReset
      ∧ device.part.contacts.isClosed i = true
  . have hevent : device.resetEvent? (.fire (.buttonHold i) device.board.now)
        = some (.asked .full device.board.now 0) := if_pos hasks
    have hstep := Prompt.held_of_factoryReset hasks.1
    rw [if_pos hasks.2] at hstep
    unfold FollowsResets
    rw [hevent, part_step, board_step, Step.state, Step.commands, hstep]
    exact Follows.schedule h .full 0
  -- A button that is not there for resets, or was let go, does not touch the one that waits.
  . have hevent : device.resetEvent? (.fire (.buttonHold i) device.board.now) = none := if_neg hasks
    have hnone (j : Nat) (hheld : Prompt.held i = .held j)
        (haction : device.part.contacts.action? j = some .factoryReset) :
        ¬ device.part.contacts.isClosed j = true := by
      cases hheld
      exact fun hclosed => hasks ⟨haction, hclosed⟩
    obtain ⟨hresets, hdue⟩ := keeps_reset_prompt hmatched hnone
    unfold FollowsResets
    rw [hevent, hresets]
    exact Follows.congr h hdue (resetOrders_prompt hmatched)

/-! ### Events -/

theorem resetOrders_receive (device : Device) (h : .erasure ∉ event.topics) :
    (device.receive event).board.resetOrders = device.board.resetOrders := by
  have hdevice : .device ∉ event.topics := by
    unfold DeviceEvent.topics at h ⊢
    split <;> simp_all
  apply receive_keeps_of_orders (f := fun orders => orders.filter fun order => order.2.isForReset)
  intro command htopic orders time
  have hother : command.isForReset = false := by
    apply Command.isForReset_of_topic
    simp only [List.mem_cons, List.not_mem_nil, or_false]
    rintro (heq | heq)
    . exact h (heq ▸ htopic)
    . exact hdevice (heq ▸ htopic)
  rw [List.filter_append, List.filter_singleton]
  simp [hother]

theorem FollowsResets.receive_other (h : device.FollowsResets before history)
    (hreset : .reset ∉ event.topics) (herasure : .erasure ∉ event.topics) :
    (device.receive event).FollowsResets before history := by
  have hdue : (device.receive event).board.due .reset = device.board.due .reset := by
    apply device.due_receive hreset
    rintro time rfl
    simp [DeviceEvent.topics] at herasure
  unfold FollowsResets
  rw [resets_receive device hreset herasure]
  exact h.congr hdue (resetOrders_receive device herasure)

theorem FollowsResets.reconfigure (h : device.FollowsResets before history) (bytes : Bytes) :
    (device.happen (.reconfigure bytes)).FollowsResets before
      ((device.resetEvent? (.reconfigure bytes)).toList ++ history) := by
  simp only [happen, Device.reconfigure, resetEvent?]
  cases ConfigText.ofBytes bytes with
  | error error => exact h
  | ok text =>
    have hapart : ∀ command ∈ [Command.save Key.config text.bytes],
        command.topic ∉ [.erasure, .device] := by
      simp [Command.topic]
    have hsaved : device.part.resets.Follows (device.board.perform (.save Key.config text.bytes))
        before history := by
      apply Follows.congr h
      . exact Board.due_perform_of_topic (by simp [Command.topic, Task.topic]) _
      . exact Board.resetOrders_performAll_of_topic hapart _
    have hasked := hsaved.schedule .reboot 0
    rw [Board.now_perform] at hasked
    exact hasked

theorem FollowsResets.happen (h : device.FollowsResets before history)
    (hmatched : device.part.Matched) (htimely : device.IsTimely event) :
    (device.happen event).FollowsResets before ((device.resetEvent? event).toList ++ history) := by
  have hother (htopics : .reset ∉ event.topics ∧ .erasure ∉ event.topics)
      (hhold : ∀ i time, event ≠ .fire (.buttonHold i) time) :
      (device.happen event).FollowsResets before history := by
    rw [happen_eq]
    apply FollowsResets.dealWith_moved
    . rintro _ hmem i rfl
      obtain ⟨⟨time, hevent⟩, _⟩ := exists_fire_of_held_mem_prompts hmem
      exact hhold i time hevent
    . exact hmatched.congr (device.wiring_receive event)
    . exact h.receive_other htopics.1 htopics.2
  cases event with
  | reconfigure bytes => exact h.reconfigure bytes
  | fire task time =>
    cases task with
    | reset => exact Follows.fire h htimely
    | buttonHold i =>
      have hbegun : (device.begun (.buttonHold i) time).FollowsResets before history :=
        Follows.congr h (Board.due_begin_of_ne (by simp) _ _) (Board.resetOrders_begin ..)
      exact hbegun.held hmatched i
    | relayPulse i => exact hother (by simp [DeviceEvent.topics]) (by simp)
    | settle => exact hother (by simp [DeviceEvent.topics]) (by simp)
  | call asked => cases asked <;> exact hother (by simp [DeviceEvent.topics]) (by simp)
  | input pin high => exact hother (by simp [DeviceEvent.topics]) (by simp)
  | board change => exact hother (by simp [DeviceEvent.topics]) (by simp)

theorem FollowsResets.after (events : List DeviceEvent) :
    ∀ {device : Device} {history : List ResetEvent}, device.FollowsResets before history →
      device.part.Matched → device.Timely events →
      (device.after events).FollowsResets before (device.resetHistory events history) := by
  induction events with
  | nil =>
    intro device history h _ _
    exact h
  | cons event events ih =>
    intro device history h hmatched htimely
    exact ih (h.happen hmatched htimely.1) (hmatched.congr (device.wiring_after [event])) htimely.2

/-! ### Starting -/

theorem resets_of_notes {controller next : Controller} (h : next.notes = controller.notes) :
    next.resets = controller.resets :=
  congrArg (fun notes => notes.2.2.2) h

theorem resets_of_waiting {controller next : Controller} (h : waiting next = waiting controller) :
    next.resets = controller.resets :=
  congrArg (fun waiting => waiting.2.2) h

theorem resets_recalled (device : Device) : device.recalled.part.resets = device.part.resets :=
  (resets_of_notes (notes_recalled device)).trans (resets_of_waiting (waiting_readied device))

theorem resets_onStatus (device : Device) (status : NetworkStatus) :
    (device.step (Controller.onStatus status)).part.resets = device.part.resets :=
  resets_of_notes (Controller.notes_call (.onStatus status))

def roleView (board : Board) : SettingsMemory × Nat × List Nat :=
  (board.memory, board.now, board.due .reset)

theorem roleView_perform {command : Command} (h : command.isForSetUp = true) (board : Board) :
    roleView (board.perform command) = roleView board := by
  have hapart : command.isForMemory = false ∧ command.topic ≠ Task.reset.topic := by
    unfold Command.isForSetUp at h
    split at h
    . exact ⟨rfl, nofun⟩
    . exact ⟨rfl, nofun⟩
    . exact ⟨rfl, nofun⟩
    . have htopic := of_decide_eq_true h
      exact ⟨Command.isForMemory_of_topic (by simp [htopic]), by simp [htopic, Task.topic]⟩
  unfold roleView
  rw [Board.memory_of_kept_eq (board.kept_perform hapart.1), Board.now_perform,
    Board.due_perform_of_topic hapart.2]

theorem roleView_shown (device : Device) (status : NetworkStatus) :
    roleView (device.recalled.step (Controller.onStatus status)).board = roleView device.board := by
  have hrecalled : roleView device.recalled.board = roleView device.board := by
    apply start_keeps_recalled (fun _ => roleView_perform)
    . intro pin board
      unfold roleView
      rw [Board.memory_of_kept_eq (board.kept_read pin), Board.due_read, Board.now, Board.agenda_read]
      rfl
    . intro key room board
      rfl
    . intro topology board
      rfl
  refine Eq.trans ?_ hrecalled
  apply start_keeps_step _ Controller.topic_onStatus
  intro command htopic
  exact roleView_perform (Command.isForSetUp_of_topic htopic)

theorem follows_start {fresh : Device} (hidle : fresh.part.resets = .idle)
    (hdue : fresh.board.due .reset = []) (role : Role) :
    (fresh.start role).FollowsResets (fresh.start role).board.resetOrders
      (startHistory fresh.board role) := by
  have hview := roleView_shown fresh fresh.recalled.board.network
  have hresets := resets_onStatus fresh.recalled fresh.recalled.board.network
  rw [resets_recalled, hidle] at hresets
  rw [start_eq, compareRole_eq]
  generalize fresh.recalled.step (Controller.onStatus fresh.recalled.board.network) = shown
    at hview hresets ⊢
  simp only [roleView, Prod.mk.injEq] at hview
  obtain ⟨hmemory, hnow, hsame⟩ := hview
  obtain ⟨hcompared, hreset⟩ := shown.board.reset_compareRole role shown.part.resets
  rw [hmemory, hresets] at hcompared
  rw [hmemory, hnow, hsame, hdue, hresets] at hreset
  unfold startHistory FollowsResets
  dsimp only
  rw [hresets]
  generalize shown.board.compareRole role .idle = compared at hcompared hreset ⊢
  split
  . next hother =>
    rw [if_pos hother] at hcompared hreset
    rw [hcompared]
    exact ⟨rfl, hreset, (List.append_nil _).symm, ResetEvent.onTime_nil.cons nofun⟩
  . next hother =>
    rw [if_neg hother] at hcompared hreset
    rw [hcompared]
    exact follows_nil rfl hreset

theorem lookUp_keeps_reset (board : Board) (switches : List Switch) (role : Role) :
    let looked := (board.updateVersion.2.loadConfigText.2.loadSwitches switches).2
    looked.memory.isOfOtherRole role = board.memory.isOfOtherRole role
      ∧ looked.now = board.now ∧ looked.due .reset = board.due .reset := by
  have hupdated : (board.updateVersion.2.now, board.updateVersion.2.due .reset)
      = (board.now, board.due .reset) := by
    apply Board.updateVersion_keeps (f := fun board => (board.now, board.due .reset))
    . intro key room board
      rfl
    . intro key item board
      rw [Board.now_perform, Board.due_perform_of_topic (by simp [Command.topic, Task.topic])]
  have hrole : board.updateVersion.2.memory.isOfOtherRole role = board.memory.isOfOtherRole role :=
    SettingsMemory.isOfOtherRole_congr board.unreadable_updateVersion
      (board.get?_updateVersion (by decide)) role
  have hloaded : roleView (board.updateVersion.2.loadConfigText.2.loadSwitches switches).2
      = roleView board.updateVersion.2 :=
    (Board.loadSwitches_keeps (f := roleView) (fun _ _ _ => rfl) switches _).trans
      (Board.loadConfigText_keeps (f := roleView) (fun _ _ _ => rfl) _)
  simp only [roleView, Prod.mk.injEq] at hupdated hloaded
  obtain ⟨hmemory, hnow, hdue⟩ := hloaded
  exact ⟨by rw [hmemory, hrole], hnow.trans hupdated.1, hdue.trans hupdated.2⟩

theorem follows_of_boot (h : boot board role = .ok device) (hidle : board.agenda.pending = []) :
    device.FollowsResets device.board.resetOrders (startHistory board role) := by
  obtain ⟨blueprint, _, hdevice⟩ := exists_of_boot h
  obtain ⟨hrole, hnow, hdue⟩ :=
    lookUp_keeps_reset board blueprint.config.switches role
  have hhistory : startHistory (board.updateVersion.2.loadConfigText.2.loadSwitches
      blueprint.config.switches).2 role = startHistory board role := by
    unfold startHistory
    rw [hrole, hnow]
  rw [hdevice, ← hhistory]
  exact follows_start rfl (hdue.trans (Board.due_of_idle hidle .reset)) role

theorem memory_fireReset (h : device.part.resets.pending ≠ some .full) (time : Nat) :
    (device.happen (.fire .reset time)).board.memory = device.board.memory :=
  memory_fire h _

/--
However resets are asked for, one waits just when the agenda holds one task for it. When that is run,
the reset that was asked for last is carried out, at its time and once, and the ones before it never
are; after that, and when it is called off, none is until another one is asked for. A reboot leaves the
settings memory alone, and the network. All that holds of a device, which asks when it starts in another
role, when it is given another configuration text, and when a button that is there for it was held, and
of a timer on its own.
-/
theorem latest_reset_wins :
    (∀ (board : Board) (role : Role) (device : Device) (events : List DeviceEvent),
        board.agenda.pending = [] → boot board role = .ok device → device.Timely events →
        let last := device.after events
        (last.part.resets.pending.isSome = true ↔ (last.board.due .reset).length = 1)
          ∧ last.part.resets.Follows last.board device.board.resetOrders
            (device.resetHistory events (startHistory board role))
          ∧ (last.part.resets.pending ≠ some .full → ∀ time,
            (last.happen (.fire .reset time)).board.memory = last.board.memory))
      ∧ ∀ (board : Board) (uses : List ResetUse), board.agenda.pending = [] →
        let last := used ⟨.idle, board⟩ uses
        let log := (ResetLog.mk board.now []).noted uses
        (last.part.pending.isSome = true ↔ (last.board.due .reset).length = 1)
          ∧ last.board.now = log.now
          ∧ last.part.Follows last.board board.resetOrders log.history
          ∧ (last.part.pending ≠ some .full → ∀ asked,
            (use last asked).board.memory = last.board.memory) := by
  refine ⟨?_, ?_⟩
  . intro board role device events hidle hboot htimely last
    have h : last.FollowsResets _ _ :=
      (follows_of_boot hboot hidle).after events (matched_of_boot hboot) htimely
    exact ⟨h.isSome_pending_iff, h, memory_fireReset⟩
  . intro board uses hidle last log
    have h : Logged last board.resetOrders log := (logged_idle hidle).used uses
    exact ⟨h.follows.isSome_pending_iff, h.now, h.follows, h.memory_use⟩

/--
A device is to reboot for its new role, then it is to be reset because of a button, and then it is given
another text: all that comes of it is a reboot for the text.
-/
theorem latest_reset_wins_over_two :
    let store : Store := ⟨16, 256, [(Key.config, Bytes.ascii "Acme;ACME-1;BC0d;"),
      (Key.role, Record.item (⟨Role.endDevice.code⟩ : RoleRecord))]⟩
    let board := Board.idle [] .joined (.sound store)
    let events := [.input (.line 2 0) true, .fire .settle 3, .fire (.buttonHold 0) 2003,
      .board (.goTo 2100), .reconfigure (Bytes.ascii "Acme;ACME-1;"), .fire .reset 2400]
    ∃ device, boot board .router = .ok device ∧ device.Timely events
      ∧ device.resetHistory events (startHistory board .router)
        = [.fired 2400, .asked .reboot 2100 0, .asked .full 2003 0, .asked .reboot 0 2000]
      ∧ (device.after events).board.resetOrders = device.board.resetOrders ++ [(2400, .restart)]
      ∧ (device.after events).part.resets.pending = none
      ∧ (device.after events).board.due .reset = [] := by
  intro store board events
  have hfacts : (boot board .router).toOption.map (fun device =>
      (decide (device.Timely events), device.resetHistory events (startHistory board .router))) =
        some (true,
          [.fired 2400, .asked .reboot 2100 0, .asked .full 2003 0, .asked .reboot 0 2000]) := by
    decide +kernel
  obtain ⟨device, hboot, hdevice⟩ := exists_of_map_boot hfacts
  simp only [Prod.mk.injEq, decide_eq_true_eq] at hdevice
  obtain ⟨htimely, hhistory⟩ := hdevice
  obtain ⟨_, hfollows, _⟩ := latest_reset_wins.1 board .router device events rfl hboot htimely
  rw [hhistory] at hfollows
  exact ⟨device, hboot, htimely, hhistory, hfollows.orders, hfollows.pending, hfollows.due⟩

end Device

end WallSwitch
