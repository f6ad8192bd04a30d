import WallSwitch.Proofs.RelayBank.Changes
import WallSwitch.Proofs.RelayBank.Runs

/-!
This module contains the contacts of bi-stable relays. A contact stays where the last pulse put it,
and unless a pulse is put off this is where the state of the relay says that it is.
-/

namespace WallSwitch

def RelayDrive.driven? (drive : RelayDrive) : Event → Option Pin
  | .command (.write pin high) _ =>
    if pin ∈ drive.pins ∧ high = drive.activeHigh then some pin else none
  | _ => none

namespace Board

def lastDriven? (board : Board) (drive : RelayDrive) : Option Pin :=
  board.trace.findSome? fun entry => drive.driven? entry.2

variable {drive : RelayDrive} {pin : Pin}

theorem lastDriven_perform_of_ne (board : Board) {command : Command}
    (h : ∀ pin ∈ drive.pins, command ≠ .write pin drive.activeHigh) :
    (board.perform command).lastDriven? drive = board.lastDriven? drive := by
  obtain ⟨fault, htrace⟩ := board.trace_perform command
  have hnone : drive.driven? (.command command fault) = none := by
    cases command with
    | write pin high =>
      apply if_neg
      rintro ⟨hpin, rfl⟩
      exact h pin hpin rfl
    | _ => rfl
  unfold lastDriven?
  rw [htrace, List.findSome?_cons, hnone]

theorem lastDriven_perform_write (board : Board) (hpin : pin ∈ drive.pins) :
    (board.perform (.write pin drive.activeHigh)).lastDriven? drive = some pin := by
  obtain ⟨fault, htrace⟩ := board.trace_perform (.write pin drive.activeHigh)
  unfold lastDriven?
  rw [htrace, List.findSome?_cons]
  simp [RelayDrive.driven?, hpin]

theorem lastDriven_performAll_of_not_written {commands : List Command} :
    ∀ (board : Board), (∀ pin ∈ drive.pins, .write pin drive.activeHigh ∉ commands) →
      (board.performAll commands).lastDriven? drive = board.lastDriven? drive := by
  induction commands with
  | nil =>
    intro board _
    rfl
  | cons command commands ih =>
    intro board h
    rw [performAll_cons, ih, lastDriven_perform_of_ne]
    . intro pin hpin heq
      exact h pin hpin (by rw [heq]; exact List.mem_cons_self)
    . intro pin hpin hmem
      exact h pin hpin (List.mem_cons_of_mem command hmem)

theorem lastDriven_performAll_of_last_write (board : Board) (first : List Command)
    {last : List Command} (hpin : pin ∈ drive.pins)
    (h : ∀ pin ∈ drive.pins, .write pin drive.activeHigh ∉ last) :
    (board.performAll (first ++ .write pin drive.activeHigh :: last)).lastDriven? drive
      =
    some pin := by
  rw [performAll_append, performAll_cons, lastDriven_performAll_of_not_written _ h]
  exact lastDriven_perform_write _ hpin

end Board

namespace Relay

/--
Unless its pulse is put off, the coil for the state of the relay was driven last.
-/
def ContactFollows (relay : Relay) (board : Board) : Prop :=
  relay.drive.isLatching = true → relay.pulse ≠ .waiting →
    board.lastDriven? relay.drive = some relay.coil

variable {i : Nat} {relay new : Relay} {board : Board} {target : Option Nat}
variable {commands : List Command}

theorem Change.contactFollows (hchange : relay.Change i target new commands)
    (hled : ∀ led, relay.indicator? = some led → led.pin ∉ relay.drive.pins)
    (h : target = some i ∨ relay.ContactFollows board) :
    new.ContactFollows (board.performAll commands) := by
  intro hlatching hwaiting
  -- A command drives the coil for the new state, or puts that off. What comes without a command
  -- drives the coil for the old state, or none.
  cases hchange with
  | drive on hplain =>
    rw [drive_turned, hplain] at hlatching
    contradiction
  | pulse on _ =>
    apply Board.lastDriven_performAll_of_last_write _ _ (relay.turned on).coil_mem_pins
    intro pin hpin hmem
    simp only [List.mem_cons, reduceCtorEq, false_or, write_mem_makeKnown] at hmem
    obtain ⟨led, hindicator, rfl, _⟩ := hmem
    exact hled led hindicator hpin
  | postpone on _ =>
    rw [pulse_withPulse] at hwaiting
    contradiction
  | finish hpulse =>
    have hcontact := h.resolve_left (by simp) hlatching (by simp [hpulse])
    rw [Board.lastDriven_performAll_of_not_written]
    . exact hcontact
    . intro pin _ hmem
      have hhigh := (write_mem_release.mp hmem).2
      simp at hhigh
  | retry hpulse =>
    apply Board.lastDriven_performAll_of_last_write _ [] relay.coil_mem_pins
    simp

end Relay

namespace RelayBank

def ContactFollows (bank : RelayBank) (i : Nat) (board : Board) : Prop :=
  ∀ relay, bank.get? i = some relay → relay.ContactFollows board

variable {config : DeviceConfig} {bank next : RelayBank} {board : Board} {commands : List Command}
variable {i : Nat} {target : Option Nat}

theorem ContactFollows.onBoard (hcontact : bank.ContactFollows i board) (event : BankEvent) :
    bank.ContactFollows i (event.onBoard board) := by
  intro relay hget hlatching hwaiting
  have h := hcontact relay hget hlatching hwaiting
  cases event <;> exact h

theorem Move.contactFollows (hmove : bank.Move target next commands)
    (hbuilt : bank.BuiltFrom config) (hnodup : config.relayPins.Nodup)
    (h : target = some i ∨ bank.ContactFollows i board) :
    next.ContactFollows i (board.performAll commands) := by
  intro new hnext
  rcases hmove.before hnext with ⟨relay, hget, hchange⟩ | ⟨hget, htarget, hspares⟩
  . apply hchange.contactFollows
    . intro led hled
      exact hbuilt.led_not_mem_pins hnodup hget hled
    . exact h.imp_right fun hcontact => hcontact relay hget
  . intro hlatching hwaiting
    rw [Board.lastDriven_performAll_of_not_written]
    . exact h.resolve_left htarget new hget hlatching hwaiting
    . intro pin hpin
      exact hbuilt.drive_not_written hnodup hget hspares hpin _

theorem contactFollows_after {wired : Wired RelayBank} (hbuilt : wired.part.BuiltFrom config)
    (hnodup : config.relayPins.Nodup) {events : List BankEvent}
    (h : ∃ event ∈ events, event.target? = some i) :
    (after wired events).part.ContactFollows i (after wired events).board := by
  obtain ⟨event, hmem, htarget⟩ := h
  obtain ⟨first, last, rfl⟩ := List.append_of_mem hmem
  -- Nothing is known of the contact before the command, but the command makes the invariant hold,
  -- and every later event preserves it.
  have hbefore := after_invariant (fun wired => wired.part.BuiltFrom config)
    (fun _ event h => h.happen event) first wired hbuilt
  rw [after_append, after_cons]
  have hafter := after_invariant
    (fun wired => wired.part.BuiltFrom config ∧ wired.part.ContactFollows i wired.board)
    (fun wired event h => ⟨h.1.happen event,
      (event.move wired.part).contactFollows h.1 hnodup (.inr (h.2.onBoard event))⟩)
    last (happen (after wired first) event)
    ⟨hbefore.happen event,
      (event.move (after wired first).part).contactFollows hbefore hnodup (.inl htarget)⟩
  exact hafter.2

end RelayBank

end WallSwitch
