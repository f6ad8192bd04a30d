import WallSwitch.Proofs.Board.Levels
import WallSwitch.Proofs.DeviceConfig.Extending
import WallSwitch.Proofs.RelayBank.Changes

/-!
This module contains the LEDs that show the relays, in a bank whose other pins may well get into each
other's way.
-/

namespace WallSwitch

structure DeviceConfig.IndicatorsApart (config : DeviceConfig) : Prop where
  distinct : ∀ i j led other, config.relayIndicator? i = some led →
    config.relayIndicator? j = some other → i ≠ j → led.pin ≠ other.pin
  drives : ∀ i led, config.relayIndicator? i = some led → ∀ drive ∈ config.relays,
    led.pin ∉ drive.pins

namespace RelayBank

variable {config : DeviceConfig} {bank next : RelayBank} {target : Option Nat}
variable {commands : List Command} {i j : Nat} {relay new : Relay} {led : Led}

namespace BuiltFrom

theorem indicator_eq (hbuilt : bank.BuiltFrom config) (hnumbered : config.Numbered)
    (hget : bank.get? i = some relay) : relay.indicator? = config.relayIndicator? i := by
  rw [hbuilt.indicators relay (List.mem_of_getElem? hget),
    hnumbered.index_relay (hbuilt.drive_at hget)]

theorem indicator_ne {other : Relay} {shown : Led} (hbuilt : bank.BuiltFrom config)
    (hnumbered : config.Numbered) (hapart : config.IndicatorsApart)
    (hi : bank.get? i = some relay) (hled : relay.indicator? = some led)
    (hj : bank.get? j = some other) (hshown : other.indicator? = some shown) (hij : i ≠ j) :
    led.pin ≠ shown.pin := by
  rw [hbuilt.indicator_eq hnumbered hi] at hled
  rw [hbuilt.indicator_eq hnumbered hj] at hshown
  exact hapart.distinct i j led shown hled hshown hij

theorem not_mem_drive {other : Relay} (hbuilt : bank.BuiltFrom config)
    (hnumbered : config.Numbered) (hapart : config.IndicatorsApart)
    (hi : bank.get? i = some relay) (hled : relay.indicator? = some led)
    (hj : bank.get? j = some other) : led.pin ∉ other.drive.pins := by
  rw [hbuilt.indicator_eq hnumbered hi] at hled
  exact hapart.drives i led hled other.drive (hbuilt.mem_relays hj)

end BuiltFrom

theorem Move.written_indicator {high : Bool} (hmove : bank.Move target next commands)
    (hbuilt : bank.BuiltFrom config) (hnumbered : config.Numbered)
    (hapart : config.IndicatorsApart) (hnext : next.get? i = some new)
    (hled : new.indicator? = some led) (hmem : .write led.pin high ∈ commands) :
    high = led.levelFor new.isOn := by
  -- What is written for the relay itself shows it. What is written for another relay goes to pins of
  -- that one, and no LED is among them.
  rcases hmove.before hnext with ⟨relay, hget, hchange⟩ | ⟨hget, _, hspares⟩
  . rw [hchange.indicator_eq] at hled
    rcases hchange.write_mem hmem with hdrive | ⟨shown, hshown, _, hhigh⟩
    . exact absurd hdrive (hbuilt.not_mem_drive hnumbered hapart hget hled hget)
    . rw [hled] at hshown
      cases hshown
      exact hhigh
  . obtain ⟨j, other, hj, ⟨hne, hpins⟩ | ⟨shown, hshown, hpin, hhigh⟩⟩ := hspares led.pin high hmem
    . rcases Relay.mem_pins_iff.mp hpins with hdrive | ⟨shown, hshown, hpin⟩
      . exact absurd hdrive (hbuilt.not_mem_drive hnumbered hapart hget hled hj)
      . exact absurd hpin (hbuilt.indicator_ne hnumbered hapart hget hled hj hshown hne.symm)
    . by_cases hij : i = j
      . subst hij
        cases hget.symm.trans hj
        cases hled.symm.trans hshown
        exact hhigh
      . exact absurd hpin (hbuilt.indicator_ne hnumbered hapart hget hled hj hshown hij)

theorem Move.level_indicator (hmove : bank.Move target next commands)
    (hbuilt : bank.BuiltFrom config) (hnumbered : config.Numbered)
    (hapart : config.IndicatorsApart) (hnext : next.get? i = some new)
    (hled : new.indicator? = some led) (board : Board) :
    (board.performAll commands).level led.pin = led.levelFor new.isOn
      ∨ ∃ relay, bank.get? i = some relay ∧ relay.indicator? = some led ∧ relay.isOn = new.isOn
        ∧ (board.performAll commands).level led.pin = board.level led.pin := by
  have hwritten (high : Bool) (hmem : .write led.pin high ∈ commands) :=
    hmove.written_indicator hbuilt hnumbered hapart hnext hled hmem
  by_cases h : .write led.pin (led.levelFor new.isOn) ∈ commands
  . exact .inl (Board.level_performAll_of_writes board hwritten (.inl h))
  . right
    have hlevel : (board.performAll commands).level led.pin = board.level led.pin := by
      apply Board.level_performAll_of_not_written
      intro high hmem
      exact h (hwritten high hmem ▸ hmem)
    rcases hmove.before hnext with ⟨relay, hget, hchange⟩ | ⟨hget, _, _⟩
    . rw [hchange.indicator_eq] at hled
      exact ⟨relay, hget, hled, ((hchange.shows_or_keeps hled).resolve_left h).symm, hlevel⟩
    . exact ⟨new, hget, hled, rfl, hlevel⟩

theorem level_indicateAll (hbuilt : bank.BuiltFrom config) (hnumbered : config.Numbered)
    (hapart : config.IndicatorsApart) (hget : bank.get? i = some relay)
    (hled : relay.indicator? = some led) (board : Board) :
    (board.performAll (indicateAll.commands bank)).level led.pin = led.levelFor relay.isOn := by
  have hmove : bank.Move none bank (indicateAll.commands bank) := .indicate
  apply Board.level_performAll_of_writes
  . intro high hmem
    exact hmove.written_indicator hbuilt hnumbered hapart hget hled hmem
  . left
    apply List.mem_flatMap.mpr
    exact ⟨relay, List.mem_of_getElem? hget, Relay.write_mem_indicate.mpr ⟨led, hled, rfl, rfl⟩⟩

end RelayBank

end WallSwitch
