import WallSwitch.Proofs.Device.Watching

/-!
This module contains the proof that a device loses no flip of its contacts: whatever happens, either
its pins are to be read, or its contacts are noted as they are and every button interrupts as soon as
it moves.
-/

namespace WallSwitch

namespace Contacts

theorem contact_onLevel {contacts : Contacts} {i j : Nat} {high : Bool} {contact : Contact}
    (h : (contacts.onLevel i high).contacts[j]? = some contact) :
    ∃ old, contacts.contacts[j]? = some old ∧ contact.button = old.button
      ∧ contact.closed = if i = j then Contact.closedAt old.button.pull high else old.closed := by
  unfold onLevel at h
  split at h
  . next hnone =>
    refine ⟨contact, h, rfl, ?_⟩
    rw [if_neg]
    rintro rfl
    rw [h] at hnone
    cases hnone
  . next old hget =>
    dsimp only at h
    split at h
    . next hsame =>
      refine ⟨contact, h, rfl, ?_⟩
      split
      . next heq =>
        subst heq
        rw [Option.some.inj (h.symm.trans hget)]
        exact hsame.symm
      . rfl
    -- The contact has moved, whether or not there was room to note that.
    . have hset : (contacts.contacts.set i { old with
          closed := Contact.closedAt old.button.pull high })[j]? = some contact := by
        unfold enqueue at h
        split at h <;> exact h
      rw [List.getElem?_set] at hset
      split at hset
      . next heq =>
        subst heq
        rw [if_pos (List.getElem?_eq_some_iff.mp hget).1] at hset
        refine ⟨old, hget, ?_⟩
        rw [← Option.some.inj hset, if_pos rfl]
        exact ⟨rfl, rfl⟩
      . next hne => exact ⟨contact, hset, rfl, (if_neg hne).symm⟩

theorem contact_notifications {i : Nat} {contact : Contact} (high : Bool)
    (notifications : List (Notification Nat))
    (honly : ∀ notification ∈ notifications, notification.payload = i → notification.high = high) :
    ∀ contacts : Contacts, (notifications.foldl
        (fun contacts notification => contacts.onLevel notification.payload notification.high)
        contacts).contacts[i]? = some contact →
      ∃ old, contacts.contacts[i]? = some old ∧ contact.button = old.button
        ∧ ((∃ notification ∈ notifications, notification.payload = i)
            ∨ old.closed = Contact.closedAt old.button.pull high →
          contact.closed = Contact.closedAt contact.button.pull high) := by
  induction notifications with
  | nil =>
    intro contacts h
    exact ⟨contact, h, rfl, by simp⟩
  | cons notification notifications ih =>
    intro contacts h
    rw [List.forall_mem_cons] at honly
    obtain ⟨next, hnext, hbutton, hclosed⟩ := ih honly.2 _ h
    obtain ⟨old, hold, hsame, hmoved⟩ := contact_onLevel hnext
    refine ⟨old, hold, hbutton.trans hsame, ?_⟩
    intro hknown
    apply hclosed
    rw [hmoved, hsame]
    by_cases hpayload : notification.payload = i
    . right
      rw [if_pos hpayload, honly.1 hpayload]
    . rw [if_neg hpayload]
      refine hknown.imp_left ?_
      rintro ⟨other, hmem, hother⟩
      rcases List.mem_cons.mp hmem with rfl | hlater
      . exact absurd hother hpayload
      . exact ⟨other, hlater, hother⟩

end Contacts

namespace Board

variable {board : Board}

theorem readAll_of_steady (pins : List Pin) :
    ∀ board : Board, (∀ pin ∈ pins, board.bounces.get pin = []) →
      (board.readAll pins).1 = pins.map board.level ∧ (board.readAll pins).2.SameInputs board := by
  induction pins with
  | nil =>
    intro board _
    exact ⟨rfl, rfl, rfl⟩
  | cons pin pins ih =>
    intro board hsteady
    rw [List.forall_mem_cons] at hsteady
    obtain ⟨hlevels, hinputs⟩ := ih (board.record (.read pin (board.level pin))) hsteady.2
    unfold readAll
    rw [read_of_steady hsteady.1]
    exact ⟨congrArg _ hlevels, hinputs.levels, hinputs.bounces⟩

end Board

namespace PinWatcher

variable {α : Type} {watcher : PinWatcher α} {board : Board} {pin : Pin}

theorem attention_onEdge (hpin : pin ∈ watcher.pins) (board : Board) :
    let noticed := (board.performAll (onEdge.commands watcher)).attention pin
    noticed.bounces = board.bounces.get pin ∧ noticed.enabled = false ∧ noticed.passes ≠ [] := by
  have hcommands : board.performAll (onEdge.commands watcher)
      = (board.performAll (watcher.pins.map .disableInterrupt)).perform
        (.schedule .settle watcher.pause) := board.performAll_append _ [_]
  have hmasked := Board.interruptEnabled_disableAll watcher.pins pin board
  rw [decide_eq_false (not_not.mpr hpin), Bool.false_and] at hmasked
  have hinputs : (board.performAll (watcher.pins.map .disableInterrupt)).SameInputs board :=
    Board.sameInputs_performAll (by simp) board
  rw [hcommands, ← hinputs.bounces]
  generalize board.performAll (watcher.pins.map .disableInterrupt) = masked at hmasked
  refine ⟨rfl, hmasked, ?_⟩
  change (masked.agenda.schedule .settle watcher.pause).due .settle ≠ []
  simp

theorem attempted_of_steady {pins : List Pin} {first : Board}
    (hsteady : ∀ pin ∈ pins, board.bounces.get pin = []) (hfirst : first.SameInputs board) :
    (attempted pins (pins.map board.level) first).1 = pins.map board.level
      ∧ (attempted pins (pins.map board.level) first).2.SameInputs board := by
  obtain ⟨hlevels, hinputs⟩ := Board.readAll_of_steady pins board hsteady
  obtain ⟨htried, hread⟩ := ((sameInputs_arm first).trans hfirst).readAll pins
  exact ⟨htried.trans hlevels, hread.trans hinputs⟩

theorem pass_of_steady (hnodup : watcher.pins.Nodup)
    (hsteady : ∀ pin ∈ watcher.pins, board.bounces.get pin = []) :
    (watcher.pass board).1 = watcher.watched.map
        (fun watched => ⟨watched.pin, board.level watched.pin, watched.payload⟩)
      ∧ ∀ pin ∈ watcher.pins, (watcher.pass board).2.2.attention pin
        = { board.attention pin with
            enabled := true, armed := some (.leaving (board.level pin)) } := by
  have hpasses : (watcher.pass board).2.2.due .settle = board.due .settle :=
    watcher.pass_keeps (f := fun board => board.due .settle) (fun _ _ _ => rfl) (fun _ _ => rfl)
      (fun pin board => board.due_read pin .settle) board
  obtain ⟨hlevels, hfirst⟩ := Board.readAll_of_steady watcher.pins board hsteady
  -- The first try reads what was read before, and so it is the last one.
  obtain ⟨htried, hinputs⟩ := attempted_of_steady hsteady hfirst
  have harmed := armed_attempted (watcher.pins.map board.level) (board.readAll watcher.pins).2 hnodup
  unfold pass settleTries at hpasses ⊢
  dsimp only at hpasses ⊢
  rw [hlevels, settle_succ, if_pos htried] at hpasses ⊢
  generalize (attempted watcher.pins _ _).2 = settled at hinputs harmed hpasses
  refine ⟨?_, ?_⟩
  . unfold notifications pins
    rw [List.map_map, List.zipWith_map_right, List.zipWith_self]
    rfl
  . intro pin hpin
    have henabled := interruptEnabled_performAll watcher.pins settled pin
    rw [decide_eq_true hpin, Bool.true_or] at henabled
    have hkept : (settled.performAll (watcher.pins.map .enableInterrupt)).SameInputs board :=
      (Board.sameInputs_performAll (by simp) settled).trans hinputs
    have hedge : (settled.performAll (watcher.pins.map .enableInterrupt)).armedEdge.get pin
        = settled.armedEdge.get pin := Board.armedEdge_performAll_of_not_armed (by simp) settled
    have hmem : (pin, board.level pin) ∈ watcher.pins.zip (watcher.pins.map board.level) := by
      rw [← List.map_prod_left_eq_zip]
      exact List.mem_map_of_mem hpin
    rw [harmed _ hmem] at hedge
    unfold Board.attention
    rw [henabled, hedge, hpasses, hkept.bounces]
    congr 1
    exact congrArg (fun levels => levels.get pin) hkept.levels

end PinWatcher

/--
A level of a button only changes from outside, where the device can notice, and no contact bounces.
-/
def DeviceEvent.SparesButtons (config : DeviceConfig) : DeviceEvent → Prop
  | .board (.setLevel pin _) | .board (.setBounces pin _) => pin ∉ config.buttons.map (·.pin)
  | _ => True

instance (config : DeviceConfig) : DecidablePred (DeviceEvent.SparesButtons config)
  | .board (.setLevel pin _) | .board (.setBounces pin _) =>
    inferInstanceAs (Decidable (pin ∉ config.buttons.map (·.pin)))
  | .call _ | .reconfigure _ | .fire .. | .input .. | .board (.setNetwork _)
  | .board (.setFaults ..) | .board (.goTo _) => .isTrue trivial

namespace Device

open Controller

variable {device next : Device} {config : DeviceConfig} {event : DeviceEvent} {prompt : Prompt}
variable {button : Button} {board : Board} {role : Role} {events : List DeviceEvent}

/-! ### What is none of the buttons' business -/

theorem builtFrom_receive (h : device.part.BuiltFrom config) (event : DeviceEvent) :
    (device.receive event).part.BuiltFrom config := by
  cases event with
  | fire task time =>
    cases task with
    | settle =>
      have hbegun : (device.begun .settle time).part.BuiltFrom config := h
      have hnoted := (builtFrom_passed hbegun).reaction (reacts_takeNotifications
        ((device.begun .settle time).part.watcher.pass (device.begun .settle time).board).1)
      exact ⟨hnoted.relays, hnoted.leds, hnoted.dedicated, hnoted.buttons, hnoted.watched⟩
    | buttonHold i => exact h
    | _ => exact builtFrom_happen h _
  | _ => exact builtFrom_happen h _

theorem attention_begin (pin : Pin) {task : Task} (htask : task ≠ .settle) (time : Nat)
    (board : Board) : (board.begin task time).attention pin = board.attention pin := by
  unfold Board.attention
  rw [Board.due_begin_of_ne htask]
  rfl

theorem attention_receive (hapart : config.ButtonsApart) (hbutton : button ∈ config.buttons)
    (hbuilt : device.part.BuiltFrom config) (hspares : event.SparesButtons config)
    (hinputs : .inputs ∉ event.topics) :
    (device.receive event).board.attention button.pin = device.board.attention button.pin := by
  have houtputs := hapart.outputs button hbutton
  cases event with
  | call asked =>
    apply attention_performAll_of_covers houtputs (.call hbuilt asked)
    intro command hmem htopic
    exact hinputs (htopic ▸ topic_call command hmem)
  | reconfigure bytes =>
    simp only [receive, happen, reconfigure]
    cases ConfigText.ofBytes bytes with
    | error error => rfl
    | ok text =>
      apply Board.attention_performAll_of_topic
      intro command hmem
      rcases topic_acceptText command hmem with h | h <;> simp [h]
  | fire task time =>
    have hbegun (htask : task ≠ .settle) := attention_begin button.pin htask time device.board
    cases task with
    | relayPulse i =>
      have hmove := device.part.relays.move_continuePulse i
      refine Eq.trans ?_ (hbegun (by simp))
      apply attention_performAll_of_covers houtputs (.move hbuilt.relays hmove)
      intro command hmem
      simp [hmove.topic command hmem]
    | settle => simp [DeviceEvent.topics] at hinputs
    | buttonHold i => exact hbegun (by simp)
    | reset =>
      refine Eq.trans ?_ (hbegun (by simp))
      apply Board.attention_performAll_of_topic
      intro command hmem
      rcases topic_fireReset command hmem with h | h <;> simp [h]
  | input pin high => simp [DeviceEvent.topics] at hinputs
  | board change =>
    have hne {pin : Pin} (hpin : pin ∉ config.buttons.map (·.pin)) : pin ≠ button.pin := by
      rintro rfl
      exact hpin (List.mem_map_of_mem hbutton)
    cases change with
    | setLevel pin high => exact Board.attention_setLevel_of_ne (hne hspares) high
    | setBounces pin levels => exact Board.attention_setBounces_of_ne (hne hspares) levels
    | _ => rfl

/-! ### Staying alert -/

theorem Alert.button_mem (h : device.Alert config) {contact : Contact}
    (hmem : contact ∈ device.part.contacts.contacts) : contact.button ∈ config.buttons := by
  rw [← h.built.buttons]
  exact List.mem_map_of_mem hmem

theorem Alert.steady (h : device.Alert config) {pin : Pin} (hpin : pin ∈ device.part.watcher.pins) :
    device.board.bounces.get pin = [] := by
  obtain ⟨watched, hwatched, rfl⟩ := List.mem_map.mp hpin
  obtain ⟨button, hbutton, hsame⟩ := Option.map_eq_some_iff.mp (h.watches.known watched hwatched)
  obtain ⟨contact, hget, rfl⟩ := Option.map_eq_some_iff.mp hbutton
  rw [← hsame]
  exact (h.notices contact (List.mem_of_getElem? hget)).steady

theorem Alert.keep (h : device.Alert config) (hwiring : next.part.wiring = device.part.wiring)
    (hbuilt : next.part.BuiltFrom config)
    (hwatched : next.part.watcher.watched = device.part.watcher.watched)
    (hnotices : ∀ contact ∈ next.part.contacts.contacts,
      (next.board.attention contact.button.pin).Notices contact) : next.Alert config where
  matched := h.matched.congr hwiring
  built := hbuilt
  watches := h.watches.congr (button?_congr hwiring) hwatched
  notices := hnotices

theorem Alert.onEdge (h : device.Alert config) (board : Board)
    (hsteady : ∀ contact ∈ device.part.contacts.contacts, board.bounces.get contact.button.pin = []) :
    (onEdge ⟨device.part, board⟩).Alert config := by
  refine h.keep ?_ ?_ ?_ ?_
  . rfl
  . exact h.built.call .onEdge
  . rfl
  intro contact hmem
  obtain ⟨i, hget⟩ := List.getElem?_of_mem hmem
  have hwatched := h.watches.every i contact.button (congrArg (Option.map Contact.button) hget)
  obtain ⟨hbounces, henabled, hpasses⟩ := PinWatcher.attention_onEdge
    (List.mem_map_of_mem (f := (·.pin)) hwatched) board
  rw [hsteady contact hmem] at hbounces
  exact ⟨hbounces, fun hnone => absurd hnone hpasses, fun _ => henabled⟩

theorem level_eq_of_awaits {pin : Pin} {high : Bool} (hawaits : (board.attention pin).Awaits)
    (hquiet : board.interrupts pin high = false) : board.level pin = high := by
  obtain ⟨henabled, harmed⟩ := hawaits
  change board.interruptEnabled.get pin = true at henabled
  change board.armedEdge.get pin = some (.leaving (board.level pin)) at harmed
  unfold Board.interrupts at hquiet
  rw [henabled, harmed] at hquiet
  revert hquiet
  cases board.level pin <;> cases high <;> decide

theorem Alert.input (h : device.Alert config) (pin : Pin) (high : Bool) :
    (device.input pin high).Alert config := by
  have hsteady : ∀ contact ∈ device.part.contacts.contacts,
      (device.board.setLevel pin high).bounces.get contact.button.pin = [] :=
    fun contact hmem => (h.notices contact hmem).steady
  unfold Device.input Wired.input
  dsimp only
  split
  . exact h.onEdge _ hsteady
  . next hquiet =>
    -- A pin that awaits a change did not change, or else it would interrupt. One that is masked is
    -- read later.
    rw [Bool.not_eq_true] at hquiet
    refine h.keep ?_ ?_ ?_ ?_
    . rfl
    . exact h.built
    . rfl
    intro contact hmem
    have hnotices := h.notices contact hmem
    by_cases hpin : pin = contact.button.pin
    . subst hpin
      refine ⟨hnotices.steady, ?_, hnotices.masked⟩
      intro hpasses
      obtain ⟨hawaits, hclosed⟩ := hnotices.idle hpasses
      have hlevel := level_eq_of_awaits hawaits hquiet
      have hsame : (device.board.setLevel contact.button.pin high).attention contact.button.pin
          = device.board.attention contact.button.pin := by
        unfold Board.attention
        congr 1
        exact (PinMap.get_set_self ..).trans hlevel.symm
      exact hsame ▸ ⟨hawaits, hclosed⟩
    . have hsame : (device.board.setLevel pin high).attention contact.button.pin
          = device.board.attention contact.button.pin := Board.attention_setLevel_of_ne hpin high
      exact hsame ▸ hnotices

theorem Alert.settle (h : device.Alert config) (time : Nat) :
    (device.receive (.fire .settle time)).Alert config := by
  have hwiring := device.wiring_receive (.fire .settle time)
  refine h.keep hwiring (builtFrom_receive h.built _) (watched_receive device _) ?_
  intro contact hmem
  obtain ⟨i, hget⟩ := List.getElem?_of_mem hmem
  have hbutton : device.part.contacts.button? i = some contact.button := by
    rw [← button?_congr hwiring]
    exact congrArg (Option.map Contact.button) hget
  have hwatched := h.watches.every i contact.button hbutton
  have hsteady : ∀ pin ∈ device.part.watcher.pins,
      (device.board.begin .settle time).bounces.get pin = [] := fun pin hpin => h.steady hpin
  have hlevels : ∀ notification ∈ device.part.watcher.watched.map (fun watched =>
      (⟨watched.pin, (device.board.begin .settle time).level watched.pin, watched.payload⟩ :
        Notification Nat)),
      notification.payload = i →
        notification.high = (device.board.begin .settle time).level contact.button.pin := by
    intro notification hnotification hpayload
    obtain ⟨watched, hmem, rfl⟩ := List.mem_map.mp hnotification
    have hknown := h.watches.known watched hmem
    dsimp only at hpayload
    rw [hpayload, hbutton] at hknown
    rw [← Option.some.inj hknown]
  -- The pass notifies of every button, at the level that it arms the pin for.
  obtain ⟨hfound, hattention⟩ := PinWatcher.pass_of_steady h.watches.nodup hsteady
  have hnext := hattention contact.button.pin (List.mem_map_of_mem (f := (·.pin)) hwatched)
  change (device.receive (.fire .settle time)).board.attention contact.button.pin = _ at hnext
  have hcontacts : (device.receive (.fire .settle time)).part.contacts.contacts
      = ((device.part.watcher.pass (device.board.begin .settle time)).1.foldl
        (fun contacts notification => contacts.onLevel notification.payload notification.high)
        device.part.contacts).contacts := rfl
  rw [hcontacts, hfound] at hget
  obtain ⟨_, _, _, hclosed⟩ := Contacts.contact_notifications _ _ hlevels _ hget
  rw [hnext]
  refine ⟨?_, ?_, ?_⟩
  . exact hsteady _ (List.mem_map_of_mem (f := (·.pin)) hwatched)
  . intro _
    refine ⟨⟨rfl, rfl⟩, ?_⟩
    apply hclosed
    left
    exact ⟨_, List.mem_map_of_mem hwatched, rfl⟩
  . intro hpasses
    exact absurd (Agenda.due_cancel_self) hpasses

theorem Alert.receive (h : device.Alert config) (hapart : config.ButtonsApart)
    (hspares : event.SparesButtons config) : (device.receive event).Alert config := by
  by_cases hinputs : .inputs ∈ event.topics
  . cases event with
    | call asked =>
      cases asked with
      | onEdge => exact h.onEdge device.board fun contact hmem => (h.notices contact hmem).steady
      | _ => simp [DeviceEvent.topics] at hinputs
    | fire task time =>
      cases task with
      | settle => exact h.settle time
      | _ => simp [DeviceEvent.topics] at hinputs
    | input pin high => exact h.input pin high
    | _ => simp [DeviceEvent.topics] at hinputs
  . have hcontacts : (device.receive event).part.contacts = device.part.contacts := by
      apply contacts_receive
      rintro time rfl
      simp [DeviceEvent.topics] at hinputs
    refine h.keep (device.wiring_receive event) (builtFrom_receive h.built event)
      (watched_receive device event) ?_
    intro contact hmem
    rw [hcontacts] at hmem
    rw [attention_receive hapart (h.button_mem hmem) h.built hspares hinputs]
    exact h.notices contact hmem

theorem Alert.turn (h : device.Alert config) (hapart : config.ButtonsApart) (prompt : Prompt) :
    (device.step prompt.step).Alert config := by
  have hreaction := reacts_prompt device.part prompt
  refine h.keep (wiring_prompt device prompt) (h.built.reaction hreaction)
    (congrArg PinWatcher.watched (watcher_prompt h.matched)) ?_
  intro contact hmem
  rw [contacts_prompt h.matched] at hmem
  have hattention : (device.step prompt.step).board.attention contact.button.pin
      = device.board.attention contact.button.pin := by
    apply attention_performAll_of_covers (hapart.outputs _ (h.button_mem hmem))
      (.reaction h.built hreaction)
    intro command hcommand htopic
    have hmem := Prompt.topic_mem_topics h.matched command hcommand
    rw [htopic] at hmem
    unfold Prompt.topics at hmem
    split at hmem <;> simp at hmem
  rw [hattention]
  exact h.notices contact hmem

theorem alert_after (hboot : boot board role = .ok device) (hidle : board.agenda.pending = [])
    (hsteady : ∀ pin, board.bounces.get pin = []) (hapart : device.part.config.ButtonsApart)
    (hspares : ∀ event ∈ events, event.SparesButtons device.part.config) :
    (device.after events).Alert device.part.config :=
  turns_induction (P := fun next _ _ => next.Alert device.part.config)
    (fun _ _ _ hspares h => h.receive hapart hspares) (fun _ prompt _ _ h => h.turn hapart prompt)
    events device [] (along_of_forall (fun _ => hspares) device) (alert_of_boot hboot hidle hsteady hapart)

/--
As long as no pins are to be read, every button interrupts as soon as it leaves its level, and its
contact is noted as it is. As long as the pins are to be read, no button interrupts. All that the
device does for its contacts it does in turns, and the last turn of a button is about the position that
its contact is noted in.
-/
theorem no_flip_lost (hboot : boot board role = .ok device) (hidle : board.agenda.pending = [])
    (hsteady : ∀ pin, board.bounces.get pin = []) (hapart : device.part.config.ButtonsApart)
    (hspares : ∀ event ∈ events, event.SparesButtons device.part.config) {i : Nat}
    (hbutton : device.part.config.buttons[i]? = some button) :
    let last := device.after events
    (last.board.due .settle = [] →
        last.board.interruptEnabled.get button.pin = true
          ∧ last.board.armedEdge.get button.pin = some (.leaving (last.board.level button.pin))
          ∧ last.part.contacts.isClosed i
            = Contact.closedAt button.pull (last.board.level button.pin))
      ∧ (last.board.due .settle ≠ [] → last.board.interruptEnabled.get button.pin = false)
      ∧ device.Along TakesTurns events
      ∧ (Prompt.positions i ((device.turns events).map (·.prompt))).getLastD
          (device.part.contacts.isClosed i)
        = last.part.contacts.isClosed i := by
  intro last
  have halert : last.Alert device.part.config :=
    alert_after hboot hidle hsteady hapart hspares
  rw [← halert.built.buttons, List.getElem?_map, Option.map_eq_some_iff] at hbutton
  obtain ⟨contact, hget, rfl⟩ := hbutton
  have hnotices := halert.notices contact (List.mem_of_getElem? hget)
  refine ⟨?_, hnotices.masked, device.along_takesTurns events,
    (attends_of_boot hboot).getLastD_positions events i⟩
  intro hnone
  obtain ⟨⟨henabled, harmed⟩, hclosed⟩ := hnotices.idle hnone
  refine ⟨henabled, harmed, ?_⟩
  unfold Contacts.isClosed
  rw [hget]
  exact hclosed

theorem no_flip_lost_of_two_buttons :
    let store : Store := ⟨16, 256, [(Key.config, Bytes.ascii "Acme;ACME-1;BC0d;SB1u;RC2;")]⟩
    let board := Board.idle [] .joined (.sound store)
    let pin := Pin.line 1 1
    let events := [.input (.line 2 0) true, .input pin true, .input (.line 2 0) false,
      .fire .settle 3, .call (.setRelay 0 true)]
    ∃ device, boot board .router = .ok device
      ∧ device.part.config.ButtonsApart
      ∧ (∀ event ∈ events, event.SparesButtons device.part.config)
      ∧ device.part.config.buttons[1]? = some ⟨pin, .up, .switch 0⟩
      ∧ device.part.contacts.isClosed 1 = true
      ∧ (device.after events).board.due .settle = []
      ∧ (device.after events).board.interruptEnabled.get pin = true
      ∧ (device.after events).board.armedEdge.get pin = some .falling
      ∧ (device.after events).part.contacts.isClosed 1 = false := by
  intro store board pin events
  have hfacts : (boot board .router).toOption.map (fun device =>
      decide (device.part.config.ButtonsApart
        ∧ (∀ event ∈ events, event.SparesButtons device.part.config)
        ∧ device.part.config.buttons[1]? = some ⟨pin, .up, .switch 0⟩
        ∧ device.part.contacts.isClosed 1 = true
        ∧ (device.after events).board.due .settle = []
        ∧ (device.after events).board.level pin = true)) = some true := by
    decide +kernel
  obtain ⟨device, hboot, hdevice⟩ := exists_of_map_boot hfacts
  rw [decide_eq_true_eq] at hdevice
  obtain ⟨hapart, hspares, hbutton, hclosed, hnone, hlevel⟩ := hdevice
  have hsteady (pin : Pin) : board.bounces.get pin = [] := PinMap.get_const [] pin
  obtain ⟨henabled, harmed, hopen⟩ :=
    (no_flip_lost hboot rfl hsteady hapart hspares hbutton).1 hnone
  rw [hlevel] at harmed hopen
  exact ⟨device, hboot, hapart, hspares, hbutton, hclosed, hnone, henabled, harmed, hopen⟩

end Device

end WallSwitch
