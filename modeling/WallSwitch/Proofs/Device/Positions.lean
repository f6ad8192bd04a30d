import WallSwitch.Proofs.Device.Answers
import WallSwitch.Proofs.Device.Fresh

/-!
This module contains the proof that the buttons of a device take a turn for every change of their
contacts: closed and open alternate in their turns, and the last turn of a button has the position
that its contact is noted in.
-/

namespace WallSwitch

def Alternates (now : Bool) : List Bool → Bool → Prop
  | [], final => final = now
  | next :: rest, final => next = !now ∧ Alternates next rest final

section Alternating

variable {now final : Bool} {first second : List Bool}

theorem alternates_append :
    Alternates now (first ++ second) final
      ↔ ∃ middle, Alternates now first middle ∧ Alternates middle second final := by
  induction first generalizing now with
  | nil => simp [Alternates]
  | cons next rest ih =>
    simp only [List.cons_append, Alternates, ih]
    constructor
    . rintro ⟨hnext, middle, hrest, hsecond⟩
      exact ⟨middle, ⟨hnext, hrest⟩, hsecond⟩
    . rintro ⟨middle, ⟨hnext, hrest⟩, hsecond⟩
      exact ⟨hnext, middle, hrest, hsecond⟩

theorem Alternates.getLastD_eq (h : Alternates now first final) : first.getLastD now = final := by
  induction first generalizing now with
  | nil => exact h.symm
  | cons next rest ih =>
    rw [List.getLastD_cons]
    exact ih h.2

end Alternating

namespace Prompt

def position? (i : Nat) : Prompt → Option Bool
  | .moved event => if event.index = i then some event.closed else none
  | .held _ => none

def positions (i : Nat) (prompts : List Prompt) : List Bool :=
  prompts.filterMap (position? i)

variable {i : Nat} {prompts more : List Prompt} {prompt : Prompt}

@[simp]
theorem positions_nil : positions i [] = [] := rfl

@[simp]
theorem positions_append :
    positions i (prompts ++ more) = positions i prompts ++ positions i more :=
  List.filterMap_append

@[simp]
theorem positions_moved_self (closed : Bool) :
    positions i (.moved ⟨i, closed⟩ :: prompts) = closed :: positions i prompts :=
  List.filterMap_cons_some (if_pos rfl)

theorem positions_of_button_ne (h : prompt.button ≠ i) :
    positions i (prompt :: prompts) = positions i prompts := by
  apply List.filterMap_cons_none
  cases prompt with
  | moved event => exact if_neg h
  | held button => rfl

@[simp]
theorem positions_held (button : Nat) : positions i (.held button :: prompts) = positions i prompts :=
  List.filterMap_cons_none rfl

end Prompt

namespace Contacts

/--
The change that is noted when button `i` has this level, if its contact moved.
-/
def change? (contacts : Contacts) (i : Nat) (high : Bool) : Option ContactEvent :=
  contacts.contacts[i]?.bind fun contact =>
    let closed := Contact.closedAt contact.button.pull high
    if closed = contact.closed then none else some ⟨i, closed⟩

variable {contacts : Contacts} {i : Nat} {high : Bool} {event : ContactEvent}

theorem index_of_change? (h : contacts.change? i high = some event) : event.index = i := by
  obtain ⟨contact, _, hchange⟩ := Option.bind_eq_some_iff.mp h
  dsimp only at hchange
  split at hchange
  . cases hchange
  . rw [← Option.some.inj hchange]

theorem queue_onLevel (contacts : Contacts) (i : Nat) (high : Bool)
    (hroom : contacts.change? i high ≠ none → contacts.queue.length < queueLength) :
    (contacts.onLevel i high).queue = contacts.queue ++ (contacts.change? i high).toList := by
  unfold onLevel
  split
  . next hget => simp [change?, hget]
  . next contact hget =>
    dsimp only
    split
    . next hsame => simp [change?, hget, hsame]
    . next hmoved =>
      have hchange : contacts.change? i high
          = some ⟨i, Contact.closedAt contact.button.pull high⟩ := by
        simp [change?, hget, hmoved]
      unfold enqueue
      dsimp only
      rw [if_pos (hroom (by simp [hchange])), hchange]
      rfl

theorem alternates_onLevel (contacts : Contacts) (i : Nat) (high : Bool) (button : Nat) :
    Alternates (contacts.isClosed button)
      (Prompt.positions button ((contacts.change? i high).toList.map .moved))
      ((contacts.onLevel i high).isClosed button) := by
  unfold onLevel
  split
  . next hget => simp [change?, hget, Alternates]
  . next contact hget =>
    dsimp only
    split
    . next hsame => simp [change?, hget, hsame, Alternates]
    . next hmoved =>
      have hchange : contacts.change? i high
          = some ⟨i, Contact.closedAt contact.button.pull high⟩ := by
        simp [change?, hget, hmoved]
      have hclosed (queued : Contacts) (event : ContactEvent) :
          (enqueue queued event).isClosed button = queued.isClosed button := by
        unfold enqueue
        split <;> rfl
      rw [hchange, Option.toList_some, List.map_singleton, hclosed]
      unfold isClosed
      by_cases hbutton : i = button
      . subst hbutton
        rw [List.getElem?_set_self (List.getElem?_eq_some_iff.mp hget).1, hget,
          Prompt.positions_moved_self]
        exact ⟨Bool.eq_not.mpr hmoved, rfl⟩
      . rw [List.getElem?_set_ne hbutton, Prompt.positions_of_button_ne (by exact hbutton)]
        rfl

def notified (contacts : Contacts) (notifications : List (Notification Nat)) : Contacts :=
  notifications.foldl
    (fun contacts notification => contacts.onLevel notification.payload notification.high) contacts

theorem exists_events_notified (notifications : List (Notification Nat)) :
    ∀ contacts : Contacts, contacts.queue.length + notifications.length ≤ queueLength →
      ∃ events, (contacts.notified notifications).queue = contacts.queue ++ events
        ∧ (events.map (·.index)).Sublist (notifications.map (·.payload))
        ∧ ∀ button, Alternates (contacts.isClosed button)
          (Prompt.positions button (events.map .moved))
          ((contacts.notified notifications).isClosed button) := by
  induction notifications with
  | nil =>
    intro contacts _
    exact ⟨[], (List.append_nil _).symm, .slnil, fun _ => rfl⟩
  | cons notification notifications ih =>
    intro contacts hroom
    rw [List.length_cons] at hroom
    -- Each level takes up one place at most, which leaves room for the others.
    have hqueue := contacts.queue_onLevel notification.payload notification.high fun _ => by omega
    have hfirst := contacts.alternates_onLevel notification.payload notification.high
    have hindex : ((contacts.change? notification.payload notification.high).toList.map
        (·.index)).Sublist [notification.payload] := by
      cases hchange : contacts.change? notification.payload notification.high with
      | none => exact List.nil_sublist _
      | some event =>
        rw [Option.toList_some, List.map_singleton, index_of_change? hchange]
    have hfew := hindex.length_le
    rw [List.length_map, List.length_singleton] at hfew
    obtain ⟨events, hqueue', hindices, hsecond⟩ := ih
      (contacts.onLevel notification.payload notification.high) (by
        rw [hqueue, List.length_append]
        omega)
    refine ⟨(contacts.change? notification.payload notification.high).toList ++ events, ?_, ?_, ?_⟩
    . rw [← List.append_assoc, ← hqueue]
      exact hqueue'
    . rw [List.map_append]
      exact hindex.append hindices
    . intro button
      rw [List.map_append, Prompt.positions_append]
      exact alternates_append.mpr ⟨_, hfirst button, hsecond button⟩

end Contacts

namespace Device

open Controller

/--
The device has looked at all contact events, and all that a pass can notify of finds room among them.
-/
structure Attends (device : Device) : Prop where
  matched : device.part.Matched
  queue : device.part.contacts.queue = []
  few : device.part.watcher.watched.length ≤ Contacts.queueLength

variable {device : Device} {event : DeviceEvent} {prompt : Prompt} {board : Board} {role : Role}

theorem payloads_notifications (watcher : PinWatcher Nat) (levels : List Bool) :
    ((watcher.notifications levels).map (·.payload)).Sublist
      (watcher.watched.map (·.payload)) := by
  unfold PinWatcher.notifications
  induction watcher.watched generalizing levels with
  | nil => exact .slnil
  | cons first watched ih =>
    cases levels with
    | nil => exact List.nil_sublist _
    | cons high levels => exact (ih levels).cons_cons first.payload

theorem payloads_pass (watcher : PinWatcher Nat) (board : Board) :
    ((watcher.pass board).1.map (·.payload)).Sublist (watcher.watched.map (·.payload)) := by
  unfold PinWatcher.pass
  dsimp only
  exact payloads_notifications watcher _

theorem length_notifications_le (watcher : PinWatcher Nat) (board : Board) :
    (watcher.pass board).1.length ≤ watcher.watched.length := by
  have hlength := (payloads_pass watcher board).length_le
  rw [List.length_map, List.length_map] at hlength
  exact hlength

theorem Attends.exists_noted (h : device.Attends) :
    (device.noted.part.contacts.queue.map (·.index)).Sublist
        ((device.part.watcher.pass device.board).1.map (·.payload))
      ∧ ∀ button, Alternates (device.part.contacts.isClosed button)
        (Prompt.positions button (device.noted.part.contacts.queue.map .moved))
        (device.noted.part.contacts.isClosed button) := by
  have hroom : device.part.contacts.queue.length
      + (device.part.watcher.pass device.board).1.length ≤ Contacts.queueLength := by
    rw [h.queue]
    have hlength := length_notifications_le device.part.watcher device.board
    have hfew := h.few
    simp only [List.length_nil]
    omega
  obtain ⟨events, hqueue, hindices, halternates⟩ := Contacts.exists_events_notified _ _ hroom
  rw [h.queue, List.nil_append] at hqueue
  have hnoted : device.noted.part.contacts.queue = events := hqueue
  rw [hnoted]
  exact ⟨hindices, halternates⟩

theorem Attends.receive (h : device.Attends) (event : DeviceEvent) :
    (device.receive event).Attends
      ∧ ∀ button, Alternates (device.part.contacts.isClosed button)
        (Prompt.positions button (device.prompts event))
        ((device.receive event).part.contacts.isClosed button) := by
  have hmatched := h.matched.congr (device.wiring_receive event)
  have hfew : (device.receive event).part.watcher.watched.length ≤ Contacts.queueLength := by
    rw [watched_receive]
    exact h.few
  by_cases hsettle : ∃ time, event = .fire .settle time
  . obtain ⟨time, rfl⟩ := hsettle
    have hbegun : (device.begun .settle time).Attends := ⟨h.matched, h.queue, h.few⟩
    exact ⟨⟨hmatched, rfl, hfew⟩, hbegun.exists_noted.2⟩
  . have hcontacts := device.contacts_receive (not_exists.mp hsettle)
    refine ⟨⟨hmatched, by rw [hcontacts, h.queue], hfew⟩, ?_⟩
    intro button
    have hnone : Prompt.positions button (device.prompts event) = [] := by
      unfold prompts
      split
      . exact absurd ⟨_, rfl⟩ hsettle
      . rfl
      . rfl
    rw [hcontacts, hnone]
    rfl

theorem Attends.turn (h : device.Attends) (prompt : Prompt) : (device.step prompt.step).Attends where
  matched := h.matched.congr (wiring_prompt device prompt)
  queue := by
    rw [contacts_prompt h.matched]
    exact h.queue
  few := by
    rw [watcher_prompt h.matched]
    exact h.few

/--
The turns so far and the prompts that are left go from the positions at the start to those that are
noted.
-/
structure Accounted (start : Nat → Bool) (device : Device) (prompts : List Prompt)
    (turns : List Turn) : Prop where
  attends : device.Attends
  alternates : ∀ button, Alternates (start button)
    (Prompt.positions button (turns.map (·.prompt) ++ prompts))
    (device.part.contacts.isClosed button)

variable {start : Nat → Bool} {prompts : List Prompt} {turns : List Turn}

theorem Accounted.receive_into {next : Device} (h : Accounted start device [] turns)
    (hnext : next.Attends ∧ ∀ button, Alternates (device.part.contacts.isClosed button)
      (Prompt.positions button prompts) (next.part.contacts.isClosed button)) :
    Accounted start next prompts turns := by
  refine ⟨hnext.1, ?_⟩
  intro button
  have hdealt := h.alternates button
  rw [List.append_nil] at hdealt
  rw [Prompt.positions_append]
  exact alternates_append.mpr ⟨_, hdealt, hnext.2 button⟩

theorem Accounted.turn (h : Accounted start device (prompt :: prompts) turns) :
    Accounted start (device.step prompt.step) prompts (turns ++ [⟨device, prompt⟩]) := by
  refine ⟨h.attends.turn prompt, ?_⟩
  intro button
  rw [contacts_prompt h.attends.matched, List.map_append, List.map_singleton, List.append_assoc]
  exact h.alternates button

theorem Attends.accounted_after (h : device.Attends) (events : List DeviceEvent) :
    Accounted device.part.contacts.isClosed (device.after events) [] (device.turns events) :=
  turns_induction (fun _ event _ _ hnext => hnext.receive_into (hnext.attends.receive event))
    (fun _ _ _ _ hnext => hnext.turn)
    events device [] (along_of_forall (fun _ _ _ => trivial) device) ⟨h, fun _ => rfl⟩

theorem Attends.getLastD_positions (h : device.Attends) (events : List DeviceEvent) (button : Nat) :
    (Prompt.positions button ((device.turns events).map (·.prompt))).getLastD
        (device.part.contacts.isClosed button)
      =
    (device.after events).part.contacts.isClosed button := by
  have halternates := (h.accounted_after events).alternates button
  rw [List.append_nil] at halternates
  exact halternates.getLastD_eq

end Device

end WallSwitch
