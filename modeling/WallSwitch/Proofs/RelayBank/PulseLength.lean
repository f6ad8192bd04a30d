import WallSwitch.Proofs.RelayBank.Coils
import WallSwitch.Proofs.RelayBank.Timers

/-!
This module contains the length of pulses. A coil that is driven is released exactly as late as the
pulse is long, unless its relay is switched again before that. What is asked of other relays makes no
difference.
-/

namespace WallSwitch

namespace RelayBank

structure PulsedSince (wired : Wired RelayBank) (i : Nat) (relay : Relay) (began : Nat) :
    Prop where
  get : wired.part.get? i = some relay
  pulse : relay.pulse = .active
  due : wired.board.due (.relayPulse i) = [began + pulseMs]
  last : ∃ older, wired.board.pulses i = ⟨began, relay.coil, relay.drive.activeHigh⟩ :: older
  began_le : began ≤ wired.board.now
  now_le : wired.board.now ≤ began + pulseMs

/--
Among the events, the pulse of relay `i` ends when it is due. The relay rests from then on.
-/
def EndsIn (wired : Wired RelayBank) (i : Nat) (relay : Relay) (began : Nat)
    (events : List BankEvent) : Prop :=
  ∃ first last, events = first ++ .fire (.relayPulse i) (began + pulseMs) :: last
    ∧ PulsedSince (after wired first) i relay began
    ∧ (continuePulse i).commands (after wired first).part = relay.release
    ∧ (after wired events).part.get? i = some (relay.withPulse .idle)

variable {wired : Wired RelayBank} {event : BankEvent} {events : List BankEvent} {i began : Nat}
variable {relay : Relay}

theorem Timed.pulsedSince (h : Timed wired) (hget : wired.part.get? i = some relay)
    (hpulse : relay.pulse = .active) (hdue : wired.board.due (.relayPulse i) = [began + pulseMs]) :
    PulsedSince wired i relay began := by
  obtain ⟨other, older, hother, hlast, hbegan, hnow⟩ := (h.relays i relay hget).active hpulse
  have heq : other = began := by
    rw [hdue, List.cons.injEq] at hother
    exact Nat.add_right_cancel hother.1.symm
  subst heq
  exact ⟨hget, hpulse, hdue, ⟨older, hlast⟩, hbegan, hnow⟩

theorem Timed.exists_pulsedSince (h : Timed wired) (hget : wired.part.get? i = some relay)
    (hpulse : relay.pulse = .active) : ∃ began, PulsedSince wired i relay began := by
  obtain ⟨began, older, hdue, hlast, hbegan, hnow⟩ := (h.relays i relay hget).active hpulse
  exact ⟨began, hget, hpulse, hdue, ⟨older, hlast⟩, hbegan, hnow⟩

theorem pulsedSince_of_pulses_ne (h : Timed wired) (htimely : IsTimely wired event)
    (hget : wired.part.get? i = some relay)
    (hne : (happen wired event).board.pulses i ≠ wired.board.pulses i) :
    ∃ new, (happen wired event).part.get? i = some new
      ∧ PulsedSince (happen wired event) i new (happen wired event).board.now := by
  have hafter := h.happen htimely
  obtain ⟨new, due, pulses, hnew, hdue, hpulses, hpassage⟩ :=
    exists_passage hget htimely.asked_ne
  refine ⟨new, hnew, ?_⟩
  have hnow := now_happen wired event
  rw [hpulses] at hne
  cases hpassage with
  | pulse on htarget =>
    apply hafter.pulsedSince hnew rfl
    rw [hdue, hnow, event.onBoard_of_target? htarget]
  | retry hevent =>
    subst hevent
    apply hafter.pulsedSince hnew rfl
    rw [hdue, hnow]
    rfl
  | _ => exact absurd rfl hne

theorem PulsedSince.commands_eq (h : PulsedSince wired i relay began) :
    (continuePulse i).commands wired.part = relay.release := by
  unfold Step.commands
  rw [continuePulse_of_active h.get h.pulse]

theorem PulsedSince.happen (hsince : PulsedSince wired i relay began) (h : Timed wired)
    (htimely : IsTimely wired event) (htarget : event.target? ≠ some i) :
    PulsedSince (happen wired event) i relay began
      ∨ event = .fire (.relayPulse i) (began + pulseMs)
        ∧ (RelayBank.happen wired event).part.get? i = some (relay.withPulse .idle) := by
  have hafter := h.happen htimely
  obtain ⟨new, due, _, hnew, hdue, _, hpassage⟩ := exists_passage hsince.get htimely.asked_ne
  cases hpassage with
  | spare => exact .inl (hafter.pulsedSince hnew hsince.pulse (hdue.trans hsince.due))
  | drive on hcalled => exact absurd hcalled htarget
  | pulse on hcalled => exact absurd hcalled htarget
  | postpone on hcalled => exact absurd hcalled htarget
  | finish hevent hpulse =>
    subst hevent
    have hmem := Agenda.mem_due_of_next? htimely
    rw [← Board.due, hsince.due, List.mem_singleton] at hmem
    subst hmem
    exact .inr ⟨rfl, hnew⟩
  | rest hevent hpulse | retry hevent hpulse | wait hevent hpulse =>
    rw [hsince.pulse] at hpulse
    contradiction

theorem get?_happen_of_idle (hget : wired.part.get? i = some relay) (hpulse : relay.pulse = .idle)
    (htimely : IsTimely wired event) (htarget : event.target? ≠ some i) :
    (happen wired event).part.get? i = some relay := by
  obtain ⟨new, _, _, hnew, _, _, hpassage⟩ := exists_passage hget htimely.asked_ne
  cases hpassage with
  | spare => exact hnew
  | rest => exact hnew
  | drive on hcalled => exact absurd hcalled htarget
  | pulse on hcalled => exact absurd hcalled htarget
  | postpone on hcalled => exact absurd hcalled htarget
  | finish hevent hactive =>
    rw [hpulse] at hactive
    contradiction
  | retry hevent hwaiting | wait hevent hwaiting =>
    rw [hpulse] at hwaiting
    contradiction

theorem get?_after_of_idle (hpulse : relay.pulse = .idle) :
    ∀ {wired : Wired RelayBank}, wired.part.get? i = some relay → Timely wired events →
      (∀ event ∈ events, event.target? ≠ some i) →
      (after wired events).part.get? i = some relay := by
  induction events with
  | nil =>
    intro wired hget _ _
    exact hget
  | cons event events ih =>
    intro wired hget htimely htarget
    rw [List.forall_mem_cons] at htarget
    exact ih (get?_happen_of_idle hget hpulse htimely.1 htarget.1) htimely.2 htarget.2

theorem EndsIn.cons (h : EndsIn (happen wired event) i relay began events) :
    EndsIn wired i relay began (event :: events) := by
  obtain ⟨first, last, rfl, hsince, hcommands, hidle⟩ := h
  exact ⟨event :: first, last, rfl, hsince, hcommands, hidle⟩

theorem PulsedSince.after :
    ∀ {wired : Wired RelayBank}, PulsedSince wired i relay began → Timed wired →
      Timely wired events → (∀ event ∈ events, event.target? ≠ some i) →
      PulsedSince (after wired events) i relay began ∨ EndsIn wired i relay began events := by
  induction events with
  | nil =>
    intro wired hsince _ _ _
    exact .inl hsince
  | cons event events ih =>
    intro wired hsince h htimely htarget
    rw [List.forall_mem_cons] at htarget
    rcases hsince.happen h htimely.1 htarget.1 with hlater | ⟨rfl, hidle⟩
    . exact (ih hlater (h.happen htimely.1) htimely.2 htarget.2).imp_right .cons
    . right
      refine ⟨[], events, rfl, hsince, hsince.commands_eq, ?_⟩
      rw [after_cons]
      exact get?_after_of_idle rfl hidle htimely.2 htarget.2

/-! ### Commands for the relay itself -/

theorem releases_first_of_set {bank : RelayBank} (hget : bank.get? i = some relay)
    (hlatching : relay.drive.isLatching = true) (on : Bool) :
    relay.release <+: (set i on).commands bank := by
  unfold Step.commands
  cases h : bank.isBlocked i with
  | false =>
    rw [set_of_not_isBlocked on hget hlatching h, Relay.pulseCommands, List.append_assoc]
    exact List.prefix_append relay.release _
  | true =>
    rw [set_of_isBlocked on hget hlatching h, Relay.postponeCommands, List.append_assoc]
    exact List.prefix_append relay.release _

theorem releases_first_of_target? (hget : wired.part.get? i = some relay)
    (hlatching : relay.drive.isLatching = true) (htarget : event.target? = some i) :
    relay.release <+: event.step.commands wired.part := by
  cases event with
  | call asked =>
    cases asked with
    | set j on =>
      cases htarget
      exact releases_first_of_set hget hlatching on
    | turnOn j =>
      cases htarget
      exact releases_first_of_set hget hlatching true
    | turnOff j =>
      cases htarget
      exact releases_first_of_set hget hlatching false
    | toggle j =>
      cases htarget
      exact releases_first_of_set hget hlatching !wired.part.isOn i
    | indicateAll | continuePulse => cases htarget
  | fire task time =>
    rw [BankEvent.target?_fire] at htarget
    cases htarget
  | goTo time => cases htarget

/-! ### Coils -/

theorem PulsedSince.level_coil (hsince : PulsedSince wired i relay began) (h : Timed wired)
    (hfollow : wired.part.CoilsFollow wired.board) :
    wired.board.level relay.coil = relay.drive.activeHigh := by
  have hlatching := (h.relays i relay hsince.get).isLatching (by simp [hsince.pulse])
  have hcoil : relay.coil ∈ relay.drive.coils := by
    rw [Relay.coils_of_isLatching hlatching]
    exact relay.coil_mem_pins
  exact (hfollow i relay hsince.get relay.coil hcoil).mpr ⟨hsince.pulse, rfl⟩

theorem EndsIn.level_eq (h : EndsIn wired i relay began events)
    (hfollow : (after wired events).part.CoilsFollow (RelayBank.after wired events).board) :
    ∀ pin ∈ relay.drive.coils,
      (RelayBank.after wired events).board.level pin = !relay.drive.activeHigh := by
  intro pin hpin
  obtain ⟨_, _, _, _, _, hget⟩ := h
  have hlevel := hfollow i _ hget pin hpin
  rw [Bool.eq_not]
  simpa using hlevel

/-! ### Runs -/

/--
At every moment while a bank is used, the task of a relay and its pulse agree: there is none if the
relay rests, one to try again soon if it waits, and one to end the pulse in time if it is at one. A
pulse ends exactly when it is due, unless the relay is switched again before that, which ends it at
once. A coil is only driven for a pulse.
-/
theorem pulses_end_on_time (config : DeviceConfig) (board : Board) (uses : List BankUse)
    (moment : List BankEvent) (hsize : config.relays.length ≤ DeviceConfig.capacity .relays)
    (hpending : board.agenda.pending = [])
    (hmoment : moment <+: eventsOf ((ofConfig config).started board) uses) :
    let start := (ofConfig config).started board
    let wired := after start moment
    ∀ i relay, wired.part.get? i = some relay →
      (wired.board.due (.relayPulse i)).length ≤ 1
        ∧ (relay.pulse = .idle ↔ wired.board.due (.relayPulse i) = [])
        ∧ (relay.pulse = .waiting → ∃ due, wired.board.due (.relayPulse i) = [due]
            ∧ wired.board.now ≤ due ∧ due ≤ wired.board.now + retryMs)
        ∧ (relay.pulse = .active → ∃ began, PulsedSince wired i relay began)
        ∧ (config.CoilsApart → ∀ pin ∈ relay.drive.coils,
            (wired.board.level pin = relay.drive.activeHigh
              ↔ relay.pulse = .active ∧ pin = relay.coil))
        ∧ (∀ event, moment ++ [event] <+: eventsOf start uses →
            let next := happen wired event
            next.board.pulses i ≠ wired.board.pulses i →
            ∃ new, next.part.get? i = some new ∧ PulsedSince next i new next.board.now)
        ∧ (∀ event : BankEvent, event.target? = some i → relay.drive.isLatching = true →
            relay.release <+: event.step.commands wired.part)
        ∧ ∀ began further, PulsedSince wired i relay began →
            moment ++ further <+: eventsOf start uses →
            (∀ event ∈ further, event.target? ≠ some i) →
            let later := after wired further
            (PulsedSince later i relay began
                ∧ (config.CoilsApart → later.board.level relay.coil = relay.drive.activeHigh))
              ∨ EndsIn wired i relay began further
                ∧ (config.CoilsApart → ∀ pin ∈ relay.drive.coils,
                    later.board.level pin = !relay.drive.activeHigh) := by
  intro start wired i relay hget
  have hstart : Timed start := timed_started config hpending
  have htimely : Timely start (eventsOf start uses) :=
    timely_eventsOf uses hstart (by rw [size_started]; exact hsize)
  have hat {events : List BankEvent} (h : events <+: eventsOf start uses) : Timely start events := by
    obtain ⟨rest, hrest⟩ := h
    rw [← hrest, timely_append] at htimely
    exact htimely.1
  have h : Timed wired := hstart.after (hat hmoment)
  refine ⟨?_, ⟨?_, (h.relays i relay hget).idle_of_due_eq_nil⟩, ?_, ?_, ?_, ?_, ?_, ?_⟩
  . rcases (h.relays i relay hget).due_cases with hdue | ⟨due, hdue, _⟩ <;> simp [hdue]
  . exact (h.relays i relay hget).idle
  . exact (h.relays i relay hget).waiting
  . exact h.exists_pulsedSince hget
  . intro hapart
    exact coilsFollow_after config hapart board moment i relay hget
  . intro event hevent next hne
    have hnext := (timely_append.mp (hat hevent)).2
    exact pulsedSince_of_pulses_ne h hnext.1 hget hne
  . intro event htarget hlatching
    exact releases_first_of_target? hget hlatching htarget
  . intro began further hsince hfurther htarget later
    have hlater := (timely_append.mp (hat hfurther)).2
    have hfollow (hapart : config.CoilsApart) : later.part.CoilsFollow later.board := by
      have hfollow := coilsFollow_after config hapart board (moment ++ further)
      rw [after_append] at hfollow
      exact hfollow
    rcases hsince.after h hlater htarget with hpulsed | hends
    . left
      exact ⟨hpulsed, fun hapart => hpulsed.level_coil (h.after hlater) (hfollow hapart)⟩
    . exact .inr ⟨hends, fun hapart => hends.level_eq (hfollow hapart)⟩

theorem pulses_end_on_time_two_relays :
    let config := (DeviceConfig.empty.addRelay (.line 0 0) (some (.line 0 1))).addRelay
      (.line 1 0) (some (.line 1 1))
    let board := Board.idle [] .notJoined (.sound (.empty 8 128))
    let start := (ofConfig config).started board
    let uses := [.command (.turnOn 0) rfl, .wait 30, .command (.turnOn 1) rfl, .wait 100]
    let moment := [BankEvent.call (.turnOn 0)]
    let further := [.goTo 30, .call (.turnOn 1), .fire (.relayPulse 1) 80, .fire (.relayPulse 0) 100,
      .fire (.relayPulse 1) 130, .goTo 130]
    config.relays.length ≤ DeviceConfig.capacity .relays ∧ board.agenda.pending = []
      ∧ moment ++ further = eventsOf start uses ∧ config.CoilsApart
      ∧ ∃ relay, (after start moment).part.get? 0 = some relay
        ∧ PulsedSince (after start moment) 0 relay 0
        ∧ EndsIn (after start moment) 0 relay 0 further
        ∧ ∀ pin ∈ relay.drive.coils, (after start (moment ++ further)).board.level pin = false := by
  intro config board start uses moment further
  have hall : moment ++ further = eventsOf start uses := by decide +kernel +revert
  have hapart : config.CoilsApart := ⟨by decide, by decide, by decide⟩
  have hsize : config.relays.length ≤ DeviceConfig.capacity .relays := by decide
  obtain ⟨_, _, _, _, _, _, _, hends⟩ :=
    pulses_end_on_time config board uses moment hsize rfl ⟨further, hall⟩ 0 _ rfl
  have hsince : PulsedSince (after start moment) 0 _ 0 :=
    ⟨rfl, rfl, rfl, ⟨_, rfl⟩, by decide, by decide⟩
  refine ⟨hsize, rfl, hall, hapart, _, rfl, hsince, ?_⟩
  rw [after_append]
  rcases hends 0 further hsince (by rw [hall]) (by decide) with ⟨hon, _⟩ | ⟨hended, hreleased⟩
  . exact absurd hon.now_le (by decide)
  . exact ⟨hended, hreleased hapart⟩

end RelayBank

end WallSwitch
