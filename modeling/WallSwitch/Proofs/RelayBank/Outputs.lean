import WallSwitch.Proofs.RelayBank.Coils
import WallSwitch.Proofs.RelayBank.Contact

/-!
This module contains the agreement of the outputs with the states of the relays: plain relays and
LEDs follow the state at once, and bi-stable relays follow it with their coils and their contacts.
-/

namespace WallSwitch

namespace Relay

def oppositeCoil (relay : Relay) : Pin :=
  if relay.isOn then relay.drive.offPin?.getD relay.drive.pin else relay.drive.pin

structure LevelsFollow (relay : Relay) (board : Board) : Prop where
  plain : relay.drive.isLatching = false →
    board.level relay.drive.pin = (relay.isOn == relay.drive.activeHigh) ∧ relay.pulse = .idle
  indicator : ∀ led, relay.indicator? = some led →
    board.level led.pin = (relay.isOn == led.activeHigh)

variable {i : Nat} {relay new : Relay} {board : Board} {target : Option Nat}
variable {commands : List Command} {led : Led}

theorem oppositeCoil_mem_pins (relay : Relay) : relay.oppositeCoil ∈ relay.drive.pins := by
  unfold oppositeCoil RelayDrive.pins
  cases relay.isOn <;> cases relay.drive.offPin? <;> simp

theorem oppositeCoil_ne (hlatching : relay.drive.isLatching = true)
    (hnodup : relay.drive.pins.Nodup) : relay.oppositeCoil ≠ relay.coil := by
  obtain ⟨offPin, hoff⟩ := Option.isSome_iff_exists.mp hlatching
  have hne : relay.drive.pin ≠ offPin := by
    simpa [RelayDrive.pins, hoff] using hnodup
  unfold oppositeCoil coil
  cases relay.isOn with
  | true => simpa [hoff] using hne.symm
  | false => simpa [hoff] using hne

theorem LevelsFollow.change_plain (hfollow : relay.LevelsFollow board)
    (hchange : relay.Change i target new commands)
    (hled : ∀ led, relay.indicator? = some led → led.pin ∉ relay.drive.pins)
    (hplain : relay.drive.isLatching = false) :
    (board.performAll commands).level relay.drive.pin = (new.isOn == relay.drive.activeHigh)
      ∧ new.pulse = .idle := by
  -- A plain relay never leaves its idle state, so no pulse of it can end or be tried again.
  have hidle := (hfollow.plain hplain).2
  cases hchange with
  | drive on _ =>
    refine ⟨?_, hidle⟩
    apply Board.level_performAll_of_writes
    . intro level hmem
      rcases write_mem_driveCommands.mp hmem with hdrive | ⟨led, hindicator, heq, _⟩
      . exact hdrive.2
      . have hown := hled led hindicator
        rw [← heq] at hown
        exact absurd List.mem_cons_self hown
    . exact .inl List.mem_cons_self
  | pulse on hlatching =>
    rw [hplain] at hlatching
    contradiction
  | postpone on hlatching =>
    rw [hplain] at hlatching
    contradiction
  | finish hpulse =>
    rw [hidle] at hpulse
    contradiction
  | retry hpulse =>
    rw [hidle] at hpulse
    contradiction

theorem LevelsFollow.change_indicator (hfollow : relay.LevelsFollow board)
    (hchange : relay.Change i target new commands) (hled : relay.indicator? = some led)
    (hown : led.pin ∉ relay.drive.pins) :
    (board.performAll commands).level led.pin = (new.isOn == led.activeHigh) := by
  apply Board.level_performAll_of_writes
  . intro high hmem
    obtain ⟨shown, hshown, _, hhigh⟩ := (hchange.write_mem hmem).resolve_left hown
    rw [hhigh, Option.some.inj (hled.symm.trans hshown)]
    rfl
  . apply (hchange.shows_or_keeps hled).imp_right
    intro heq
    rw [heq]
    exact hfollow.indicator led hled

theorem LevelsFollow.change (hfollow : relay.LevelsFollow board)
    (hchange : relay.Change i target new commands)
    (hled : ∀ led, relay.indicator? = some led → led.pin ∉ relay.drive.pins) :
    new.LevelsFollow (board.performAll commands) where
  plain := by
    rw [hchange.drive_eq]
    exact hfollow.change_plain hchange hled
  indicator := by
    intro led hindicator
    rw [hchange.indicator_eq] at hindicator
    exact hfollow.change_indicator hchange hindicator (hled led hindicator)

end Relay

namespace RelayBank

def LevelsFollow (bank : RelayBank) (board : Board) : Prop :=
  ∀ i relay, bank.get? i = some relay → relay.LevelsFollow board

variable {config : DeviceConfig} {bank next : RelayBank} {board : Board} {commands : List Command}
variable {i : Nat} {relay : Relay}

theorem LevelsFollow.onBoard (hfollow : bank.LevelsFollow board) (event : BankEvent) :
    bank.LevelsFollow (event.onBoard board) := by
  intro i relay hget
  constructor
  . rw [BankEvent.level_onBoard]
    exact (hfollow i relay hget).plain
  . intro led
    rw [BankEvent.level_onBoard]
    exact (hfollow i relay hget).indicator led

theorem levelsFollow_of_spares (hfollow : relay.LevelsFollow board)
    (hbuilt : bank.BuiltFrom config) (hnodup : config.relayPins.Nodup)
    (hget : bank.get? i = some relay) (hspares : bank.Spares i commands) :
    relay.LevelsFollow (board.performAll commands) where
  plain := by
    rw [Board.level_performAll_of_not_written]
    . exact hfollow.plain
    . exact hbuilt.drive_not_written hnodup hget hspares List.mem_cons_self
  indicator := by
    intro led hled
    apply Board.level_performAll_of_writes
    . intro high hmem
      exact hbuilt.indicator_written hnodup hget hspares hled hmem
    . exact .inr (hfollow.indicator led hled)

theorem LevelsFollow.move {target : Option Nat} (hfollow : bank.LevelsFollow board)
    (hbuilt : bank.BuiltFrom config) (hnodup : config.relayPins.Nodup)
    (hmove : bank.Move target next commands) : next.LevelsFollow (board.performAll commands) := by
  intro i new hnext
  rcases hmove.before hnext with ⟨relay, hget, hchange⟩ | ⟨hget, _, hspares⟩
  . apply (hfollow i relay hget).change hchange
    intro led hled
    exact hbuilt.led_not_mem_pins hnodup hget hled
  . exact levelsFollow_of_spares (hfollow i new hget) hbuilt hnodup hget hspares

theorem write_mem_setUp_iff {pin : Pin} {high : Bool} (hbuilt : bank.BuiltFrom config)
    (hnodup : config.relayPins.Nodup) (hget : bank.get? i = some relay) (hpin : pin ∈ relay.pins) :
    .write pin high ∈ setUp.commands bank ↔ .write pin high ∈ relay.setUp := by
  have hmem : relay ∈ bank.relays := List.mem_of_getElem? hget
  constructor
  . intro hwrite
    obtain ⟨other, hother, hsetUp⟩ := List.mem_flatMap.mp hwrite
    obtain ⟨j, hj⟩ := List.getElem?_of_mem hother
    by_cases hij : j = i
    . subst hij
      rw [Option.some.inj (hget.symm.trans hj)]
      exact hsetUp
    . have hpins : pin ∈ other.pins := by
        rw [Relay.mem_pins_iff]
        apply (Relay.write_mem_setUp.mp hsetUp).imp And.left
        rintro ⟨led, hled, heq, _⟩
        exact ⟨led, hled, heq⟩
      exact absurd hpins (hbuilt.not_mem_pins hnodup hj hget hij hpin)
  . intro hsetUp
    exact List.mem_flatMap.mpr ⟨relay, hmem, hsetUp⟩

theorem levelsFollow_started (hnodup : config.relayPins.Nodup) (board : Board) :
    ((ofConfig config).started board).part.LevelsFollow
      ((ofConfig config).started board).board := by
  have hbuilt : (ofConfig config).BuiltFrom config := builtFrom_ofConfig config
  intro i relay hget
  obtain ⟨hoff, hidle⟩ := fresh_of_mem_ofConfig (List.mem_of_getElem? hget)
  have hown led (hled : relay.indicator? = some led) : led.pin ∉ relay.drive.pins :=
    hbuilt.led_not_mem_pins hnodup hget hled
  constructor
  . intro _
    refine ⟨?_, hidle⟩
    have hdrive : relay.drive.pin ∈ relay.drive.pins := List.mem_cons_self
    have hpin : relay.drive.pin ∈ relay.pins := Relay.mem_pins_iff.mpr (.inl hdrive)
    rw [hoff, Bool.false_beq]
    -- All that is written to a pin of this relay is written for it, and it is off.
    apply Board.level_performAll_of_writes
    . intro high hwrite
      rw [write_mem_setUp_iff hbuilt hnodup hget hpin, Relay.write_mem_setUp] at hwrite
      rcases hwrite with hrelease | ⟨led, hled, heq, _⟩
      . exact hrelease.2
      . rw [heq] at hdrive
        exact absurd hdrive (hown led hled)
    . left
      rw [write_mem_setUp_iff hbuilt hnodup hget hpin, Relay.write_mem_setUp]
      exact .inl ⟨hdrive, rfl⟩
  . intro led hled
    have hpin : led.pin ∈ relay.pins := Relay.mem_pins_iff.mpr (.inr ⟨led, hled, rfl⟩)
    rw [hoff]
    apply Board.level_performAll_of_writes
    . intro high hwrite
      rw [write_mem_setUp_iff hbuilt hnodup hget hpin, Relay.write_mem_setUp] at hwrite
      obtain ⟨shown, hshown, _, hhigh⟩ := hwrite.resolve_left fun h => hown led hled h.1
      rw [hhigh, Option.some.inj (hled.symm.trans hshown)]
      rfl
    . left
      rw [write_mem_setUp_iff hbuilt hnodup hget hpin, Relay.write_mem_setUp]
      exact .inr ⟨led, hled, rfl, rfl⟩

theorem levelsFollow_after (config : DeviceConfig) (hnodup : config.relayPins.Nodup) (board : Board)
    (events : List BankEvent) :
    (after ((ofConfig config).started board) events).part.LevelsFollow
      (after ((ofConfig config).started board) events).board := by
  have h := after_invariant
    (fun wired => wired.part.BuiltFrom config ∧ wired.part.LevelsFollow wired.board)
    (fun wired event h => ⟨h.1.happen event,
      (h.2.onBoard event).move h.1 hnodup (event.move wired.part)⟩)
    events ((ofConfig config).started board)
    ⟨builtFrom_ofConfig config, levelsFollow_started hnodup board⟩
  exact h.2

/--
Whatever happens to a bank whose pins are all different, its outputs agree with its states: a plain
relay and every LED through their levels, and a bi-stable relay through the coil that is driven
during a pulse and, once it was switched, through the coil that was driven last.
-/
theorem outputs_follow_states (config : DeviceConfig) (hnodup : config.relayPins.Nodup)
    (board : Board) (events : List BankEvent) :
    let wired := after ((ofConfig config).started board) events
    wired.part.BuiltFrom config ∧ ∀ i relay, wired.part.get? i = some relay →
      (relay.drive.isLatching = true →
        (wired.board.level relay.coil = relay.drive.activeHigh ↔ relay.pulse = .active)
        ∧ wired.board.level relay.oppositeCoil = (!relay.drive.activeHigh)
        ∧ ((∃ event ∈ events, event.target? = some i) → relay.pulse = .idle →
          wired.board.lastDriven? relay.drive = some relay.coil))
      ∧ (relay.drive.isLatching = false →
        wired.board.level relay.drive.pin = (relay.isOn == relay.drive.activeHigh)
        ∧ relay.pulse = .idle)
      ∧ ∀ led, relay.indicator? = some led →
        wired.board.level led.pin = (relay.isOn == led.activeHigh) := by
  intro wired
  have hbuilt : wired.part.BuiltFrom config := builtFrom_after config board events
  refine ⟨hbuilt, ?_⟩
  intro i relay hget
  have hlevels : relay.LevelsFollow wired.board :=
    levelsFollow_after config hnodup board events i relay hget
  refine ⟨?_, hlevels.plain, hlevels.indicator⟩
  intro hlatching
  have hcoils : relay.CoilsFollow wired.board :=
    coilsFollow_after config (DeviceConfig.coilsApart_of_nodup hnodup) board events i relay hget
  rw [Relay.CoilsFollow, Relay.coils_of_isLatching hlatching] at hcoils
  refine ⟨?_, ?_, ?_⟩
  . simpa using hcoils relay.coil relay.coil_mem_pins
  . have hpins : relay.drive.pins.Nodup := (hbuilt.pins_nodup hnodup hget).of_append_left
    have hne := Relay.oppositeCoil_ne hlatching hpins
    have hlevel := hcoils relay.oppositeCoil relay.oppositeCoil_mem_pins
    rw [Bool.eq_not]
    simpa [hne] using hlevel
  . intro hcommanded hidle
    have hstart : ((ofConfig config).started board).part.BuiltFrom config :=
      builtFrom_ofConfig config
    have hcontact := contactFollows_after hstart hnodup hcommanded
    exact hcontact relay hget hlatching (by simp [hidle])

theorem outputs_follow_states_two_relays :
    let config := ((DeviceConfig.empty.addIndicatorLed ⟨.line 2 0, false⟩).addRelay (.line 0 0)
      (some (.line 0 1))).addRelay (.line 1 0) none
    let events := [.call (.turnOn 0), .fire (.relayPulse 0) 100, .call (.turnOn 1)]
    let wired := after
      ((ofConfig config).started (.idle [] .notJoined (.sound (.empty 8 128)))) events
    config.relayPins.Nodup
      ∧ wired.board.lastDriven? ⟨0, .line 0 0, some (.line 0 1), true⟩ = some (.line 0 0)
      ∧ wired.board.level (.line 0 1) = false
      ∧ wired.board.level (.line 2 0) = false
      ∧ wired.board.level (.line 1 0) = true := by
  intro config events wired
  have hnodup : config.relayPins.Nodup := by decide
  obtain ⟨_, h⟩ := outputs_follow_states config hnodup
    (.idle [] .notJoined (.sound (.empty 8 128))) events
  obtain ⟨hlatching, _, hled⟩ := h 0
    ⟨⟨0, .line 0 0, some (.line 0 1), true⟩, true, .idle, some ⟨.line 2 0, false⟩, none⟩ rfl
  obtain ⟨_, hplain, _⟩ := h 1 ⟨⟨1, .line 1 0, none, true⟩, true, .idle, none, none⟩ rfl
  have hcommanded : ∃ event ∈ events, event.target? = some 0 :=
    ⟨.call (.turnOn 0), List.mem_cons_self, rfl⟩
  exact ⟨hnodup, (hlatching rfl).2.2 hcommanded rfl, (hlatching rfl).2.1,
    hled ⟨.line 2 0, false⟩ rfl, (hplain rfl).1⟩

end RelayBank

end WallSwitch
