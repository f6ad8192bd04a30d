import WallSwitch.Proofs.RelayBank.Wiring

/-!
This module contains the moves of a bank as a single relay sees them: it is changed, in one of five
ways, or it is spared and the pins that are written are those of others.
-/

namespace WallSwitch

namespace Relay

inductive Change (i : Nat) (relay : Relay) : Option Nat → Relay → List Command → Prop where
  | drive (on : Bool) (hplain : relay.drive.isLatching = false) :
    Change i relay (some i) (relay.turned on) (relay.driveCommands i on)
  | pulse (on : Bool) (hlatching : relay.drive.isLatching = true) :
    Change i relay (some i) ((relay.turned on).withPulse .active) (relay.pulseCommands i on)
  | postpone (on : Bool) (hlatching : relay.drive.isLatching = true) :
    Change i relay (some i) ((relay.turned on).withPulse .waiting) (relay.postponeCommands i on)
  | finish (hpulse : relay.pulse = .active) :
    Change i relay none (relay.withPulse .idle) relay.release
  | retry (hpulse : relay.pulse = .waiting) :
    Change i relay none (relay.withPulse .active) (relay.retryCommands i)

namespace Change

variable {i : Nat} {relay new : Relay} {target : Option Nat} {commands : List Command}

theorem target_eq (hchange : relay.Change i target new commands) :
    target = some i ∨ target = none := by
  cases hchange with
  | drive => exact .inl rfl
  | pulse => exact .inl rfl
  | postpone => exact .inl rfl
  | finish => exact .inr rfl
  | retry => exact .inr rfl

theorem drive_eq (hchange : relay.Change i target new commands) : new.drive = relay.drive := by
  cases hchange <;> rfl

theorem indicator_eq (hchange : relay.Change i target new commands) :
    new.indicator? = relay.indicator? := by
  cases hchange <;> rfl

theorem write_mem {pin : Pin} {high : Bool} (hchange : relay.Change i target new commands)
    (hmem : .write pin high ∈ commands) :
    pin ∈ relay.drive.pins
      ∨ ∃ led, relay.indicator? = some led ∧ pin = led.pin ∧ high = led.levelFor new.isOn := by
  cases hchange with
  | drive on hplain =>
    rcases write_mem_driveCommands.mp hmem with hdrive | hshown
    . rw [hdrive.1]
      exact .inl List.mem_cons_self
    . exact .inr hshown
  | pulse on hlatching =>
    rcases write_mem_pulseCommands.mp hmem with hrelease | hdrive | hshown
    . exact .inl hrelease.1
    . rw [hdrive.1]
      exact .inl (relay.turned on).coil_mem_pins
    . exact .inr hshown
  | postpone on hlatching =>
    rcases write_mem_postponeCommands.mp hmem with hrelease | hshown
    . exact .inl hrelease.1
    . exact .inr hshown
  | finish hpulse => exact .inl (write_mem_release.mp hmem).1
  | retry hpulse =>
    rw [(write_mem_retryCommands.mp hmem).1]
    exact .inl relay.coil_mem_pins

theorem mem_pins_of_write {pin : Pin} {high : Bool} (hchange : relay.Change i target new commands)
    (hmem : .write pin high ∈ commands) : pin ∈ relay.pins := by
  rw [mem_pins_iff]
  apply (hchange.write_mem hmem).imp_right
  rintro ⟨led, hled, heq, _⟩
  exact ⟨led, hled, heq⟩

theorem shows_or_keeps {led : Led} (hchange : relay.Change i target new commands)
    (hled : relay.indicator? = some led) :
    .write led.pin (led.levelFor new.isOn) ∈ commands ∨ new.isOn = relay.isOn := by
  cases hchange with
  | drive on hplain => exact .inl (write_mem_driveCommands.mpr (.inr ⟨led, hled, rfl, rfl⟩))
  | pulse on hlatching =>
    exact .inl (write_mem_pulseCommands.mpr (.inr (.inr ⟨led, hled, rfl, rfl⟩)))
  | postpone on hlatching =>
    exact .inl (write_mem_postponeCommands.mpr (.inr ⟨led, hled, rfl, rfl⟩))
  | finish hpulse => exact .inr rfl
  | retry hpulse => exact .inr rfl

end Change

end Relay

namespace RelayBank

/--
The commands write to the pins of relays other than `j`, or show on an LED what it shows anyway.
-/
def Spares (bank : RelayBank) (j : Nat) (commands : List Command) : Prop :=
  ∀ pin high, .write pin high ∈ commands → ∃ i relay, bank.get? i = some relay
    ∧ ((i ≠ j ∧ pin ∈ relay.pins)
      ∨ ∃ led, relay.indicator? = some led ∧ pin = led.pin ∧ high = led.levelFor relay.isOn)

variable {bank next : RelayBank} {target : Option Nat} {commands : List Command}
variable {i j : Nat} {relay new changed : Relay}

theorem spares_of_no_write (h : ∀ pin high, .write pin high ∉ commands) :
    bank.Spares j commands := by
  intro pin high hmem
  exact absurd hmem (h pin high)

theorem spares_indicate : bank.Spares j (bank.relays.flatMap Relay.indicate) := by
  intro pin high hmem
  simp only [List.mem_flatMap, Relay.write_mem_indicate] at hmem
  obtain ⟨shown, hshown, hled⟩ := hmem
  obtain ⟨i, hget⟩ := List.getElem?_of_mem hshown
  exact ⟨i, shown, hget, .inr hled⟩

theorem before_of_change (hget : bank.get? i = some relay)
    (hchange : relay.Change i target changed commands)
    (hnext : next.get? j = some new) (hput : next.get? j = (bank.put i changed).get? j) :
    (∃ relay, bank.get? j = some relay ∧ relay.Change j target new commands)
      ∨ (bank.get? j = some new ∧ target ≠ some j ∧ bank.Spares j commands) := by
  rw [hput] at hnext
  by_cases hij : i = j
  . subst hij
    left
    rw [get?_put_self hget changed] at hnext
    rw [← Option.some.inj hnext]
    exact ⟨relay, hget, hchange⟩
  . right
    rw [get?_put_of_ne hij] at hnext
    refine ⟨hnext, ?_, ?_⟩
    . cases hchange.target_eq with
      | inl h => simpa [h] using hij
      | inr h => simp [h]
    . intro pin high hmem
      exact ⟨i, relay, hget, .inl ⟨hij, hchange.mem_pins_of_write hmem⟩⟩

theorem Move.before (hmove : bank.Move target next commands) (hnext : next.get? j = some new) :
    (∃ relay, bank.get? j = some relay ∧ relay.Change j target new commands)
      ∨ (bank.get? j = some new ∧ target ≠ some j ∧ bank.Spares j commands) := by
  cases hmove with
  | stay h =>
    -- The move is about a relay that does not exist, and relay `j` does.
    right
    refine ⟨hnext, ?_, spares_of_no_write (by simp)⟩
    intro htarget
    rw [h j htarget] at hnext
    contradiction
  | indicate => exact .inr ⟨hnext, by simp, spares_indicate⟩
  | drive on hget hplain => exact before_of_change hget (.drive on hplain) hnext rfl
  | pulse on hget hlatching h => exact before_of_change hget (.pulse on hlatching) hnext rfl
  | postpone on hget hlatching h => exact before_of_change hget (.postpone on hlatching) hnext rfl
  | finish hget hpulse => exact before_of_change hget (.finish hpulse) hnext get?_yieldSupply
  | retry hget hpulse h => exact before_of_change hget (.retry hpulse) hnext rfl
  | wait hget hpulse h => exact .inr ⟨hnext, by simp, spares_of_no_write (by simp)⟩

theorem Move.exists_change (hmove : bank.Move (some j) next commands)
    (hnext : next.get? j = some new) :
    ∃ relay, bank.get? j = some relay ∧ relay.Change j (some j) new commands := by
  apply (hmove.before hnext).resolve_right
  rintro ⟨_, hother, _⟩
  exact hother rfl

theorem Move.exists_relay_of_write {pin : Pin} {high : Bool} (hmove : bank.Move target next commands)
    (hmem : .write pin high ∈ commands) : ∃ relay ∈ bank.relays, pin ∈ relay.pins := by
  have hchanged {i : Nat} {relay new : Relay} {target : Option Nat} {commands : List Command}
      (hget : bank.get? i = some relay) (hchange : relay.Change i target new commands)
      (hmem : .write pin high ∈ commands) : ∃ relay ∈ bank.relays, pin ∈ relay.pins :=
    ⟨relay, List.mem_of_getElem? hget, hchange.mem_pins_of_write hmem⟩
  cases hmove with
  | stay => simp at hmem
  | indicate =>
    obtain ⟨relay, hrelay, hwrite⟩ := List.mem_flatMap.mp hmem
    obtain ⟨led, hled, hpin, _⟩ := Relay.write_mem_indicate.mp hwrite
    exact ⟨relay, hrelay, Relay.mem_pins_iff.mpr (.inr ⟨led, hled, hpin⟩)⟩
  | drive on hget hplain => exact hchanged hget (.drive on hplain) hmem
  | pulse on hget hlatching _ => exact hchanged hget (.pulse on hlatching) hmem
  | postpone on hget hlatching _ => exact hchanged hget (.postpone on hlatching) hmem
  | finish hget hpulse => exact hchanged hget (.finish hpulse) hmem
  | retry hget hpulse _ => exact hchanged hget (.retry hpulse) hmem
  | wait => simp at hmem

theorem Move.mem_pins_of_write {pin : Pin} {high : Bool}
    (hmove : bank.Move (some i) next commands) (hmem : .write pin high ∈ commands) :
    ∃ relay, bank.get? i = some relay ∧ pin ∈ relay.pins := by
  cases hmove with
  | stay => cases hmem
  | drive on hget hplain =>
    exact ⟨_, hget, (Relay.Change.drive on hplain).mem_pins_of_write hmem⟩
  | pulse on hget hlatching _ =>
    exact ⟨_, hget, (Relay.Change.pulse on hlatching).mem_pins_of_write hmem⟩
  | postpone on hget hlatching _ =>
    exact ⟨_, hget, (Relay.Change.postpone on hlatching).mem_pins_of_write hmem⟩

theorem Move.exists_write {pin : Pin} (hmove : bank.Move (some i) next commands)
    (hget : bank.get? i = some relay) (hpin : pin ∈ relay.pins) :
    ∃ high, .write pin high ∈ commands := by
  rw [Relay.mem_pins_iff] at hpin
  cases hmove with
  | stay h =>
    rw [h i rfl] at hget
    cases hget
  | drive on hsome hplain =>
    cases hget.symm.trans hsome
    rcases hpin with hdrive | ⟨led, hled, hpin⟩
    . have hoff : relay.drive.offPin? = none := by simpa [RelayDrive.isLatching] using hplain
      have hpin : pin = relay.drive.pin := by simpa [RelayDrive.pins, hoff] using hdrive
      exact ⟨_, Relay.write_mem_driveCommands.mpr (.inl ⟨hpin, rfl⟩)⟩
    . exact ⟨_, Relay.write_mem_driveCommands.mpr (.inr ⟨led, hled, hpin, rfl⟩)⟩
  | pulse on hsome hlatching h =>
    cases hget.symm.trans hsome
    rcases hpin with hdrive | ⟨led, hled, hpin⟩
    . exact ⟨_, Relay.write_mem_pulseCommands.mpr (.inl ⟨hdrive, rfl⟩)⟩
    . exact ⟨_, Relay.write_mem_pulseCommands.mpr (.inr (.inr ⟨led, hled, hpin, rfl⟩))⟩
  | postpone on hsome hlatching h =>
    cases hget.symm.trans hsome
    rcases hpin with hdrive | ⟨led, hled, hpin⟩
    . exact ⟨_, Relay.write_mem_postponeCommands.mpr (.inl ⟨hdrive, rfl⟩)⟩
    . exact ⟨_, Relay.write_mem_postponeCommands.mpr (.inr ⟨led, hled, hpin, rfl⟩)⟩

/-! ### Pins of relays that are spared -/

namespace BuiltFrom

variable {config : DeviceConfig} {pin : Pin} {led : Led}

theorem mem_relayPins_of_write {high : Bool} (hbuilt : bank.BuiltFrom config)
    (hmove : bank.Move target next commands) (hmem : .write pin high ∈ commands) :
    pin ∈ config.relayPins := by
  obtain ⟨relay, hrelay, hpin⟩ := hmove.exists_relay_of_write hmem
  obtain ⟨i, hget⟩ := List.getElem?_of_mem hrelay
  rw [hbuilt.pins_eq hget] at hpin
  exact List.mem_flatMap.mpr ⟨relay.drive, hbuilt.mem_relays hget, hpin⟩

theorem coil_not_written (hbuilt : bank.BuiltFrom config) (hapart : config.CoilsApart)
    (hget : bank.get? i = some relay) (hspares : bank.Spares i commands)
    (hpin : pin ∈ relay.drive.coils) (high : Bool) : .write pin high ∉ commands := by
  intro hmem
  obtain ⟨j, other, hj, hwritten | ⟨led, hled, heq, _⟩⟩ := hspares pin high hmem
  . exact hbuilt.coil_not_mem_pins hapart hj hget hwritten.1 hpin hwritten.2
  . exact hbuilt.coil_ne_indicator hapart hj hget hpin hled heq

theorem drive_not_written (hbuilt : bank.BuiltFrom config) (hnodup : config.relayPins.Nodup)
    (hget : bank.get? i = some relay) (hspares : bank.Spares i commands)
    (hpin : pin ∈ relay.drive.pins) (high : Bool) : .write pin high ∉ commands := by
  intro hmem
  have hpins : pin ∈ relay.pins := Relay.mem_pins_iff.mpr (.inl hpin)
  obtain ⟨j, other, hj, ⟨hne, hwritten⟩ | ⟨led, hled, heq, _⟩⟩ := hspares pin high hmem
  . exact hbuilt.not_mem_pins hnodup hj hget hne hpins hwritten
  . by_cases hij : j = i
    . subst hij
      rw [← Option.some.inj (hget.symm.trans hj)] at hled
      rw [heq] at hpin
      exact hbuilt.led_not_mem_pins hnodup hget hled hpin
    . apply hbuilt.not_mem_pins hnodup hj hget hij hpins
      exact Relay.mem_pins_iff.mpr (.inr ⟨led, hled, heq⟩)

theorem indicator_written {high : Bool} (hbuilt : bank.BuiltFrom config)
    (hnodup : config.relayPins.Nodup) (hget : bank.get? i = some relay)
    (hspares : bank.Spares i commands) (hled : relay.indicator? = some led)
    (hmem : .write led.pin high ∈ commands) : high = led.levelFor relay.isOn := by
  have hpins : led.pin ∈ relay.pins := Relay.mem_pins_iff.mpr (.inr ⟨led, hled, rfl⟩)
  obtain ⟨j, other, hj, ⟨hne, hwritten⟩ | ⟨shown, hshown, heq, hhigh⟩⟩ := hspares _ high hmem
  . exact absurd hwritten (hbuilt.not_mem_pins hnodup hj hget hne hpins)
  . by_cases hij : j = i
    . subst hij
      have hsame : relay = other := Option.some.inj (hget.symm.trans hj)
      subst hsame
      rw [hhigh, Option.some.inj (hled.symm.trans hshown)]
    . exact absurd (Relay.mem_pins_iff.mpr (.inr ⟨shown, hshown, heq⟩))
        (hbuilt.not_mem_pins hnodup hj hget hij hpins)

end BuiltFrom

end RelayBank

end WallSwitch
