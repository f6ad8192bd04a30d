import WallSwitch.Proofs.RelayBank.Coils
import WallSwitch.Proofs.RelayBank.Pulses
import WallSwitch.Proofs.RelayBank.States

/-!
This module contains bursts: calls that switch the same relay while no time passes. Whatever the
bank and the board were like before, a burst ends as its last call does on its own.
-/

namespace WallSwitch

namespace Agenda

variable (agenda : Agenda) (task : Task) (delay : Nat)

theorem schedule_cancel :
    (agenda.cancel task).schedule task delay = agenda.schedule task delay := by
  simp [schedule, cancel, List.filter_filter]

theorem schedule_schedule (earlier : Nat) :
    (agenda.schedule task earlier).schedule task delay = agenda.schedule task delay := by
  simp [schedule, cancel, List.filter_filter]

end Agenda

namespace Board

variable {commands first last : List Command} {task : Task}

def untraced (board : Board) : Board :=
  { board with trace := [] }

/--
All that commands about the outputs leave as it is: they change levels and put tasks off.
-/
def background (board : Board) : Board :=
  { board with levels := .const false, agenda := .empty, trace := [] }

theorem background_performAll (h : ∀ command ∈ commands, command.topic = .outputs) (board : Board) :
    (board.performAll commands).background = board.background := by
  apply performAll_keeps
  intro command hmem board
  have htopic := h command hmem
  cases command with
  | configure | write | schedule | cancel | notify => rfl
  | _ => cases htopic

theorem untraced_eq {board other : Board} (hbackground : board.background = other.background)
    (hlevels : board.levels = other.levels) (hagenda : board.agenda = other.agenda) :
    board.untraced = other.untraced := by
  calc
    board.untraced
    _ = { board.background with levels := board.levels, agenda := board.agenda } := rfl
    _ = { other.background with levels := other.levels, agenda := other.agenda } := by
      rw [hbackground, hlevels, hagenda]
    _ = other.untraced := rfl

theorem agenda_perform_of_task? {command : Command} (h : command.task? = none) (board : Board) :
    (board.perform command).agenda = board.agenda := by
  cases command with
  | schedule | cancel => cases h
  | save key item =>
    obtain ⟨_, _, hsave⟩ := board.exists_perform_save key item
    rw [hsave]
  | erase =>
    obtain ⟨_, _, herase⟩ := board.exists_perform_erase
    rw [herase]
  | _ => rfl

theorem agenda_performAll_of_task? (h : ∀ command ∈ commands, command.task? = none)
    (board : Board) : (board.performAll commands).agenda = board.agenda := by
  apply performAll_keeps
  intro command hmem board
  exact agenda_perform_of_task? (h command hmem) board

theorem agenda_performAll_of_last_schedule (board : Board) (first : List Command) {delay : Nat}
    (hfirst : ∀ command ∈ first, command.task? = none ∨ command = .cancel task)
    (hlast : ∀ command ∈ last, command.task? = none) :
    (board.performAll (first ++ .schedule task delay :: last)).agenda
      =
    board.agenda.schedule task delay := by
  have hkept : (board.performAll first).agenda.schedule task delay
      = board.agenda.schedule task delay := by
    apply performAll_keeps (f := fun board => board.agenda.schedule task delay)
    intro command hmem board
    rcases hfirst command hmem with hnone | rfl
    . rw [agenda_perform_of_task? hnone]
    . exact board.agenda.schedule_cancel task delay
  rw [performAll_append, performAll_cons, agenda_performAll_of_task? hlast]
  exact hkept

end Board

structure Wired.EndsAs {σ : Type} (wired other : Wired σ) : Prop where
  part : wired.part = other.part
  board : wired.board.untraced = other.board.untraced

namespace Wired.EndsAs

variable {σ : Type} {first second third : Wired σ}

theorem trans (h : first.EndsAs second) (hnext : second.EndsAs third) : first.EndsAs third :=
  ⟨h.part.trans hnext.part, h.board.trans hnext.board⟩

theorem agenda (h : first.EndsAs second) : first.board.agenda = second.board.agenda := by
  have hagenda := congrArg Board.agenda h.board
  exact hagenda

theorem levels (h : first.EndsAs second) : first.board.levels = second.board.levels := by
  have hlevels := congrArg Board.levels h.board
  exact hlevels

end Wired.EndsAs

namespace Relay

variable (relay : Relay) (i : Nat) (on : Bool) (board : Board)

theorem level_makeKnown {relay : Relay} {led : Led} (hled : relay.indicator? = some led)
    (board : Board) :
    (board.performAll (relay.makeKnown i)).level led.pin = led.levelFor relay.isOn := by
  apply Board.level_performAll_of_writes
  . intro high hmem
    obtain ⟨shown, hshown, _, hhigh⟩ := write_mem_makeKnown.mp hmem
    rw [hhigh, Option.some.inj (hled.symm.trans hshown)]
  . exact .inl (write_mem_makeKnown.mpr ⟨led, hled, rfl, rfl⟩)

theorem agenda_driveCommands :
    (board.performAll (relay.driveCommands i on)).agenda = board.agenda :=
  board.agenda_performAll_of_task? fun _ => task?_of_mem_driveCommands

theorem agenda_pulseCommands :
    (board.performAll (relay.pulseCommands i on)).agenda
      =
    board.agenda.schedule (.relayPulse i) RelayBank.pulseMs := by
  rw [pulseCommands, List.append_cons, Board.agenda_performAll_of_last_schedule]
  . intro command hmem
    simp only [List.mem_append, List.mem_singleton] at hmem
    rcases hmem with (hrelease | hcancel) | rfl
    . exact .inl (task?_of_mem_release hrelease)
    . exact .inr hcancel
    . exact .inl rfl
  . exact fun _ => task?_of_mem_makeKnown

theorem agenda_postponeCommands :
    (board.performAll (relay.postponeCommands i on)).agenda
      =
    board.agenda.schedule (.relayPulse i) RelayBank.retryMs := by
  rw [postponeCommands_eq, Board.agenda_performAll_of_last_schedule]
  . intro command hmem
    rw [List.mem_append, List.mem_singleton] at hmem
    exact hmem.imp_left task?_of_mem_release
  . exact fun _ => task?_of_mem_makeKnown

namespace Change

variable {i : Nat} {relay new : Relay} {commands : List Command}

theorem pending (hchange : relay.Change i (some i) new commands)
    (hlatching : new.drive.isLatching = true) (board : Board) :
    (new.pulse = .active
        ∧ (board.performAll commands).due (.relayPulse i) = [board.now + RelayBank.pulseMs])
      ∨ (new.pulse = .waiting
        ∧ (board.performAll commands).due (.relayPulse i) = [board.now + RelayBank.retryMs]) := by
  cases hchange with
  | drive on hplain =>
    rw [drive_turned, hplain] at hlatching
    contradiction
  | pulse on => exact .inl ⟨rfl, due_pulseCommands _ _ _ _⟩
  | postpone on => exact .inr ⟨rfl, due_postponeCommands _ _ _ _⟩

theorem coil {pin : Pin} (hchange : relay.Change i (some i) new commands)
    (hpin : pin ∈ new.drive.coils) (hled : ∀ led, new.indicator? = some led → pin ≠ led.pin)
    (board : Board) :
    (board.performAll commands).level pin = new.drive.activeHigh
      ↔ new.pulse = .active ∧ pin = new.coil := by
  cases hchange with
  | drive on hplain =>
    have hlatching := (RelayDrive.mem_pins_of_mem_coils hpin).1
    rw [drive_turned, hplain] at hlatching
    contradiction
  | pulse on => exact coil_pulseCommands on board hpin hled
  | postpone on => exact coil_postponeCommands on board hpin hled

theorem shows {led : Led} (hchange : relay.Change i (some i) new commands)
    (hled : new.indicator? = some led) (board : Board) :
    (board.performAll commands).level led.pin = led.levelFor new.isOn := by
  cases hchange with
  | drive on =>
    rw [driveCommands, Board.performAll_cons]
    exact level_makeKnown i hled _
  | pulse on =>
    rw [pulseCommands, Board.performAll_append, Board.performAll_cons, Board.performAll_cons]
    exact level_makeKnown i hled _
  | postpone on =>
    rw [postponeCommands, Board.performAll_append]
    exact level_makeKnown i hled _

end Change

end Relay

namespace RelayBank

variable {wired : Wired RelayBank} {i : Nat}

@[simp]
theorem isBlocked_holding (bank : RelayBank) (i : Nat) : (bank.holding i).isBlocked i = false := by
  simp [isBlocked, holding]

theorem holding_put_holding (bank : RelayBank) (i : Nat) (first second : Relay) :
    (((bank.put i first).holding i).put i second).holding i = (bank.put i second).holding i := by
  simp [put, holding]

/-! ### Switching a relay twice -/

theorem set_set (bank : RelayBank) (i : Nat) (first last : Bool) :
    set i last ((set i first).state bank) = set i last bank := by
  unfold Step.state
  cases hget : bank.get? i with
  | none => rw [set_of_size_le (List.getElem?_eq_none_iff.mp hget)]
  | some relay =>
    cases hlatching : relay.drive.isLatching with
    | false =>
      have hlast := set_of_plain last (get?_put_self hget (relay.turned first)) hlatching
      rw [put_put] at hlast
      rw [set_of_plain first hget hlatching, set_of_plain last hget hlatching]
      exact hlast
    | true =>
      cases h : bank.isBlocked i with
      | false =>
        -- The relay holds the supply now, so it is not blocked when it is switched again.
        have hget' : ((bank.put i ((relay.turned first).withPulse .active)).holding i).get? i
            = some ((relay.turned first).withPulse .active) := get?_put_self hget _
        have hlast := set_of_not_isBlocked last hget' hlatching (isBlocked_holding _ i)
        rw [holding_put_holding] at hlast
        rw [set_of_not_isBlocked first hget hlatching h, set_of_not_isBlocked last hget hlatching h]
        exact hlast
      | true =>
        have hget' := get?_put_self hget ((relay.turned first).withPulse .waiting)
        have hlast := set_of_isBlocked last hget' hlatching (by rw [isBlocked_put, h])
        rw [put_put] at hlast
        rw [set_of_isBlocked first hget hlatching h, set_of_isBlocked last hget hlatching h]
        exact hlast

theorem agenda_set_set (bank : RelayBank) (i : Nat) (first last : Bool) (board : Board) :
    (board.performAll ((set i first).commands bank ++ (set i last).commands bank)).agenda
      =
    (board.performAll ((set i last).commands bank)).agenda := by
  unfold Step.commands
  rw [Board.performAll_append]
  cases hget : bank.get? i with
  | none =>
    rw [set_of_size_le (List.getElem?_eq_none_iff.mp hget)]
    rfl
  | some relay =>
    cases hlatching : relay.drive.isLatching with
    | false =>
      rw [set_of_plain first hget hlatching, set_of_plain last hget hlatching]
      simp only [Relay.agenda_driveCommands]
    | true =>
      cases h : bank.isBlocked i with
      | false =>
        rw [set_of_not_isBlocked first hget hlatching h, set_of_not_isBlocked last hget hlatching h]
        simp only [Relay.agenda_pulseCommands, Agenda.schedule_schedule]
      | true =>
        rw [set_of_isBlocked first hget hlatching h, set_of_isBlocked last hget hlatching h]
        simp only [Relay.agenda_postponeCommands, Agenda.schedule_schedule]

theorem levels_set_set (bank : RelayBank) (i : Nat) (first last : Bool) (board : Board) :
    (board.performAll ((set i first).commands bank ++ (set i last).commands bank)).levels
      =
    (board.performAll ((set i last).commands bank)).levels := by
  apply Board.levels_performAll_append
  intro pin high hmem
  obtain ⟨relay, hget, hpin⟩ := (bank.move_set i first).mem_pins_of_write hmem
  exact (bank.move_set i last).exists_write hget hpin

theorem set_endsAs (wired : Wired RelayBank) (i : Nat) (first last : Bool) :
    ((wired.step (set i first)).step (set i last)).EndsAs (wired.step (set i last)) := by
  have hset := wired.part.set_set i first last
  have htopic (on : Bool) := (wired.part.move_set i on).topic
  refine ⟨congrArg Prod.fst hset, ?_⟩
  rw [Wired.board_step, Wired.board_step, Wired.board_step, Wired.part_step,
    ← Board.performAll_append, show (set i last).commands ((set i first).state wired.part)
      = (set i last).commands wired.part from congrArg Prod.snd hset]
  apply Board.untraced_eq
  . rw [Board.background_performAll (htopic last), Board.background_performAll]
    intro command hmem
    exact (List.mem_append.mp hmem).elim (htopic first command) (htopic last command)
  . exact levels_set_set wired.part i first last wired.board
  . exact agenda_set_set wired.part i first last wired.board

/-! ### Bursts -/

theorem exists_step_of_target? {asked : BankCall} (h : asked.target? = some i)
    (wired : Wired RelayBank) : ∃ on, wired.step asked.step = wired.step (set i on) := by
  obtain ⟨on, hset, _⟩ := BankCall.exists_set h (Eq.refl (wired.part.get? i))
  refine ⟨on, ?_⟩
  unfold Wired.step Step.state Step.commands
  rw [hset]

theorem exists_endsAs_of_burst (calls : List BankCall) :
    ∀ (wired : Wired RelayBank), calls ≠ [] → (∀ asked ∈ calls, asked.target? = some i) →
      ∃ on, (after wired (calls.map .call)).EndsAs (wired.step (set i on)) := by
  induction calls with
  | nil =>
    intro wired h
    contradiction
  | cons asked calls ih =>
    intro wired _ htarget
    rw [List.forall_mem_cons] at htarget
    obtain ⟨first, hfirst⟩ := exists_step_of_target? htarget.1 wired
    have hstep : after wired ((asked :: calls).map .call)
        = after (wired.step (set i first)) (calls.map .call) := by
      rw [← hfirst]
      rfl
    rw [hstep]
    by_cases hcalls : calls = []
    . subst hcalls
      exact ⟨first, rfl, rfl⟩
    . obtain ⟨last, hlast⟩ := ih (wired.step (set i first)) hcalls htarget.2
      exact ⟨last, hlast.trans (set_endsAs wired i first last)⟩

theorem set_isOn_of_endsAs {later : Wired RelayBank} {on : Bool}
    (h : later.EndsAs (wired.step (set i on))) :
    later.EndsAs (wired.step (set i (later.part.isOn i))) := by
  by_cases hlt : i < wired.part.size
  . have hon : later.part.isOn i = on := by
      rw [h.part]
      exact isOn_set hlt on
    rw [hon]
    exact h
  . have hle := Nat.le_of_not_lt hlt
    have hsame (on : Bool) : wired.step (set i on) = wired := by
      unfold Wired.step Step.state Step.commands
      rw [set_of_size_le hle]
      rfl
    rw [hsame] at h ⊢
    exact h

/--
Of two calls that switch a relay at the same time, the first one might as well not have been made:
the bank, the level of every pin and the agenda are in the end what the second call alone makes of
them, whatever they were before. So any burst of calls ends as the one call does that switches the
relay to the state that it has then, and its LED shows this state. A bi-stable relay has exactly one
task on the agenda after that, and of its coils none is driven but the one for its state, at its
pulse; if its LED is on the pin of a coil, the LED has the pin.
-/
theorem last_call_decides (wired : Wired RelayBank) (i : Nat) :
    (∀ first last : Bool,
        ((wired.step (set i first)).step (set i last)).EndsAs (wired.step (set i last)))
      ∧ ∀ calls : List BankCall, calls ≠ [] → (∀ asked ∈ calls, asked.target? = some i) →
          let later := after wired (calls.map .call)
          later.EndsAs (wired.step (set i (later.part.isOn i)))
            ∧ ∀ relay, later.part.get? i = some relay →
                (∀ led, relay.indicator? = some led →
                    later.board.level led.pin = led.levelFor relay.isOn)
                  ∧ (relay.drive.isLatching = true →
                      (relay.pulse = .active
                          ∧ later.board.due (.relayPulse i) = [wired.board.now + pulseMs])
                        ∨ (relay.pulse = .waiting
                          ∧ later.board.due (.relayPulse i) = [wired.board.now + retryMs]))
                  ∧ ∀ pin ∈ relay.drive.coils,
                      (∀ led, relay.indicator? = some led → pin ≠ led.pin) →
                      (later.board.level pin = relay.drive.activeHigh
                        ↔ relay.pulse = .active ∧ pin = relay.coil) := by
  refine ⟨set_endsAs wired i, ?_⟩
  intro calls hcalls htarget later
  obtain ⟨on, hburst⟩ := exists_endsAs_of_burst calls wired hcalls htarget
  have hends := set_isOn_of_endsAs hburst
  refine ⟨hends, ?_⟩
  intro relay hget
  rw [hends.part] at hget
  obtain ⟨_, _, hchange⟩ := (wired.part.move_set i (later.part.isOn i)).exists_change hget
  unfold Board.due Board.level
  rw [hends.agenda, hends.levels]
  refine ⟨?_, ?_, ?_⟩
  . intro led hled
    exact hchange.shows hled wired.board
  . intro hlatching
    exact hchange.pending hlatching wired.board
  . intro pin hpin hled
    exact hchange.coil hpin hled wired.board

theorem last_call_decides_while_blocked :
    let config := (DeviceConfig.empty.addRelay (.line 0 0) (some (.line 0 1))).addRelay
      (.line 1 0) (some (.line 0 1))
    let start := (ofConfig config).started (.idle [] .notJoined (.sound (.empty 8 128)))
    let wired := after start [.call (.turnOn 0), .goTo 30]
    let calls := [BankCall.turnOn 1, .toggle 1, .toggle 1]
    let later := after wired (calls.map .call)
    calls ≠ [] ∧ (∀ asked ∈ calls, asked.target? = some 1)
      ∧ later.EndsAs (wired.step (set 1 true))
      ∧ later.part.pulse? 1 = some .waiting ∧ later.board.due (.relayPulse 1) = [80]
      ∧ later.board.level (.line 1 0) = false ∧ later.board.level (.line 0 1) = false := by
  intro config start wired calls later
  have htarget : ∀ asked ∈ calls, asked.target? = some 1 := by decide
  obtain ⟨hends, hrelay⟩ := (last_call_decides wired 1).2 calls (by decide) htarget
  have hon : later.part.isOn 1 = true := by decide +kernel
  have hget : later.part.get? 1
      = some ⟨⟨1, .line 1 0, some (.line 0 1), true⟩, true, .waiting, none, none⟩ := by
    decide +kernel
  obtain ⟨_, hpending, hcoils⟩ := hrelay _ hget
  have hdue : later.board.due (.relayPulse 1) = [80] := by
    rcases hpending rfl with ⟨hactive, _⟩ | ⟨_, hdue⟩
    . cases hactive
    . exact hdue
  have hreleased (pin : Pin) (hpin : pin ∈ [Pin.line 1 0, .line 0 1]) :
      later.board.level pin = false := by
    have hcoil := hcoils pin hpin (by simp)
    simpa using hcoil
  refine ⟨by decide, htarget, hon ▸ hends, ?_, hdue, hreleased _ (by simp), hreleased _ (by simp)⟩
  rw [pulse?, hget]
  rfl

end RelayBank

end WallSwitch
