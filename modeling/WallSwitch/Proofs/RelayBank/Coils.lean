import WallSwitch.Proofs.RelayBank.Changes
import WallSwitch.Proofs.RelayBank.Runs

/-!
This module contains what drives the coils of bi-stable relays: a coil is driven as long as the
relay is at its pulse and the coil is the one for the state of the relay, and at no other time.
-/

namespace WallSwitch

namespace Relay

/--
A coil is driven if and only if the relay is at its pulse, towards the state that the coil is for.
-/
def CoilsFollow (relay : Relay) (board : Board) : Prop :=
  ∀ pin ∈ relay.drive.coils,
    (board.level pin = relay.drive.activeHigh ↔ relay.pulse = .active ∧ pin = relay.coil)

variable {i : Nat} {relay new : Relay} {board : Board} {target : Option Nat}
variable {commands : List Command} {pin : Pin}

theorem not_driven_iff (hlevel : board.level pin = !relay.drive.activeHigh)
    (hpulse : new.pulse ≠ .active) :
    board.level pin = relay.drive.activeHigh ↔ new.pulse = .active ∧ pin = new.coil := by
  simp [hlevel, hpulse]

theorem driven_iff (hpulse : new.pulse = .active)
    (hcoil : board.level new.coil = relay.drive.activeHigh)
    (hother : pin ≠ new.coil → board.level pin = !relay.drive.activeHigh) :
    board.level pin = relay.drive.activeHigh ↔ new.pulse = .active ∧ pin = new.coil := by
  by_cases hpin : pin = new.coil
  . simp [hpin, hcoil, hpulse]
  . simp [hpin, hother hpin]

theorem level_of_release (hpin : pin ∈ relay.drive.coils) (hrelease : relay.release ⊆ commands)
    (honly : ∀ high, .write pin high ∈ commands → high = !relay.drive.activeHigh) :
    (board.performAll commands).level pin = !relay.drive.activeHigh := by
  apply Board.level_performAll_of_writes
  . exact honly
  . left
    apply hrelease
    rw [write_mem_release]
    exact ⟨(RelayDrive.mem_pins_of_mem_coils hpin).2, rfl⟩

theorem CoilsFollow.drive_coil (hfollow : relay.CoilsFollow board) (hpulse : relay.pulse ≠ .active)
    (hwrites : ∀ pin high, .write pin high ∈ commands →
      pin = relay.coil ∧ high = relay.drive.activeHigh)
    (hmem : .write relay.coil relay.drive.activeHigh ∈ commands) :
    (relay.withPulse .active).CoilsFollow (board.performAll commands) := by
  intro pin hpin
  apply driven_iff rfl
  . apply Board.level_performAll_of_writes
    . intro high hwrite
      exact (hwrites relay.coil high hwrite).2
    . exact .inl hmem
  . intro hne
    rw [Board.level_performAll_of_not_written]
    . have hlevel := hfollow pin hpin
      rw [Bool.eq_not]
      simpa [hpulse] using hlevel
    . intro high hwrite
      exact hne (hwrites pin high hwrite).1

theorem coil_pulseCommands (on : Bool) (board : Board) (hpin : pin ∈ relay.drive.coils)
    (hled : ∀ led, relay.indicator? = some led → pin ≠ led.pin) :
    let new := (relay.turned on).withPulse .active
    (board.performAll (relay.pulseCommands i on)).level pin = relay.drive.activeHigh
      ↔ new.pulse = .active ∧ pin = new.coil := by
  intro new
  by_cases hcoil : pin = new.coil
  . have hlevel : (board.performAll (relay.pulseCommands i on)).level pin
        = relay.drive.activeHigh := by
      rw [hcoil]
      apply Board.level_performAll_of_last_write
      intro level hmem
      simp only [List.mem_cons, reduceCtorEq, false_or, write_mem_makeKnown] at hmem
      obtain ⟨led, hindicator, heq, _⟩ := hmem
      exact absurd (hcoil.trans heq) (hled led hindicator)
    exact iff_of_true hlevel ⟨rfl, hcoil⟩
  . have hlevel : (board.performAll (relay.pulseCommands i on)).level pin
        = !relay.drive.activeHigh := by
      apply level_of_release hpin
      . intro command hcommand
        simp [pulseCommands, hcommand]
      . intro high hmem
        rcases write_mem_pulseCommands.mp hmem with hrelease | hdrive | ⟨led, hindicator, heq, _⟩
        . exact hrelease.2
        . exact absurd hdrive.1 hcoil
        . exact absurd heq (hled led hindicator)
    simp [hlevel, hcoil]

theorem coil_postponeCommands (on : Bool) (board : Board) (hpin : pin ∈ relay.drive.coils)
    (hled : ∀ led, relay.indicator? = some led → pin ≠ led.pin) :
    let new := (relay.turned on).withPulse .waiting
    (board.performAll (relay.postponeCommands i on)).level pin = relay.drive.activeHigh
      ↔ new.pulse = .active ∧ pin = new.coil := by
  apply not_driven_iff
  . apply level_of_release hpin
    . intro command hcommand
      simp [postponeCommands, hcommand]
    . intro high hmem
      rcases write_mem_postponeCommands.mp hmem with hrelease | ⟨led, hindicator, heq, _⟩
      . exact hrelease.2
      . exact absurd heq (hled led hindicator)
  . simp

theorem CoilsFollow.change (hfollow : relay.CoilsFollow board)
    (hchange : relay.Change i target new commands)
    (hled : ∀ pin ∈ relay.drive.coils, ∀ led, relay.indicator? = some led → pin ≠ led.pin) :
    new.CoilsFollow (board.performAll commands) := by
  cases hchange with
  | drive on hplain =>
    intro pin hpin
    have hlatching := (RelayDrive.mem_pins_of_mem_coils hpin).1
    rw [drive_turned, hplain] at hlatching
    contradiction
  | pulse on hlatching =>
    intro pin hpin
    exact coil_pulseCommands on board hpin (hled pin hpin)
  | postpone on hlatching =>
    intro pin hpin
    exact coil_postponeCommands on board hpin (hled pin hpin)
  | finish hpulse =>
    intro pin hpin
    apply not_driven_iff
    . apply level_of_release hpin (List.Subset.refl _)
      intro high hmem
      exact (write_mem_release.mp hmem).2
    . simp
  | retry hpulse =>
    apply hfollow.drive_coil
    . simp [hpulse]
    . intro pin high hmem
      exact write_mem_retryCommands.mp hmem
    . simp [retryCommands]

end Relay

namespace RelayBank

def CoilsFollow (bank : RelayBank) (board : Board) : Prop :=
  ∀ i relay, bank.get? i = some relay → relay.CoilsFollow board

variable {config : DeviceConfig} {bank next : RelayBank} {board : Board} {commands : List Command}
variable {i : Nat} {relay : Relay} {pin : Pin}

namespace CoilsFollow

theorem onBoard (hfollow : bank.CoilsFollow board) (event : BankEvent) :
    bank.CoilsFollow (event.onBoard board) := by
  intro i relay hget pin hpin
  rw [BankEvent.level_onBoard]
  exact hfollow i relay hget pin hpin

theorem move {target : Option Nat} (hfollow : bank.CoilsFollow board)
    (hbuilt : bank.BuiltFrom config) (hapart : config.CoilsApart)
    (hmove : bank.Move target next commands) : next.CoilsFollow (board.performAll commands) := by
  intro i new hnext
  rcases hmove.before hnext with ⟨relay, hget, hchange⟩ | ⟨hget, _, hspares⟩
  . apply (hfollow i relay hget).change hchange
    intro pin hpin led hled
    exact hbuilt.coil_ne_indicator hapart hget hget hpin hled
  . intro pin hpin
    rw [Board.level_performAll_of_not_written]
    . exact hfollow i new hget pin hpin
    . exact hbuilt.coil_not_written hapart hget hspares hpin

theorem happen {wired : Wired RelayBank} (hfollow : wired.part.CoilsFollow wired.board)
    (hbuilt : wired.part.BuiltFrom config) (hapart : config.CoilsApart) (event : BankEvent) :
    (happen wired event).part.CoilsFollow (RelayBank.happen wired event).board :=
  (hfollow.onBoard event).move hbuilt hapart (event.move wired.part)

end CoilsFollow

theorem coilsFollow_started (hbuilt : bank.BuiltFrom config) (hapart : config.CoilsApart)
    (hidle : ∀ relay ∈ bank.relays, relay.pulse = .idle) (board : Board) :
    (bank.started board).part.CoilsFollow (bank.started board).board := by
  intro i relay hget pin hpin
  have hmem := List.mem_of_getElem? hget
  have hrelay : relay.pulse ≠ .active := by
    rw [hidle relay hmem]
    simp
  apply Relay.not_driven_iff _ hrelay
  -- Whatever the levels were before, all writes to a coil while the bank is set up release it.
  apply Board.level_performAll_of_writes
  . intro high hwrite
    obtain ⟨other, hother, hsetUp⟩ := List.mem_flatMap.mp hwrite
    obtain ⟨j, hj⟩ := List.getElem?_of_mem hother
    rcases Relay.write_mem_setUp.mp hsetUp with hrelease | ⟨led, hled, heq, _⟩
    . by_cases hij : j = i
      . subst hij
        rw [Option.some.inj (hget.symm.trans hj)]
        exact hrelease.2
      . have hpins : pin ∈ other.pins := Relay.mem_pins_iff.mpr (.inl hrelease.1)
        exact absurd hpins (hbuilt.coil_not_mem_pins hapart hj hget hij hpin)
    . exact absurd heq (hbuilt.coil_ne_indicator hapart hj hget hpin hled)
  . left
    refine List.mem_flatMap.mpr ⟨relay, hmem, ?_⟩
    rw [Relay.write_mem_setUp]
    exact .inl ⟨(RelayDrive.mem_pins_of_mem_coils hpin).2, rfl⟩

theorem coilsFollow_after (config : DeviceConfig) (hapart : config.CoilsApart) (board : Board)
    (events : List BankEvent) :
    (after ((ofConfig config).started board) events).part.CoilsFollow
      (after ((ofConfig config).started board) events).board := by
  have hstart : (ofConfig config).BuiltFrom config := builtFrom_ofConfig config
  have hidle : ∀ relay ∈ (ofConfig config).relays, relay.pulse = .idle := by
    intro relay hmem
    obtain ⟨_, hpulse⟩ := fresh_of_mem_ofConfig hmem
    exact hpulse
  have h := after_invariant
    (fun wired => wired.part.BuiltFrom config ∧ wired.part.CoilsFollow wired.board)
    (fun _ event h => ⟨h.1.happen event, h.2.happen h.1 hapart event⟩)
    events ((ofConfig config).started board)
    ⟨hstart, coilsFollow_started hstart hapart hidle board⟩
  exact h.2

end RelayBank

end WallSwitch
