import WallSwitch.Proofs.RelayBank.Coils

/-!
This module contains the mutual exclusion of pulses. The supply is held by the relay that is at its
pulse, and as long as simultaneous pulses are not allowed no two coils are driven, not even in
between the writes of a single call.
-/

namespace WallSwitch

def DeviceConfig.drivenCoils (config : DeviceConfig) (board : Board) : List Pin :=
  config.relays.flatMap fun drive =>
    drive.coils.filter fun pin => board.level pin == drive.activeHigh

namespace RelayBank

/--
The supply is held by a relay at its pulse. Without simultaneous pulses, there is no other one.
-/
structure SupplyHeld (bank : RelayBank) : Prop where
  active_of_holder : ∀ {i}, bank.holder? = some i →
    ∃ relay, bank.get? i = some relay ∧ relay.pulse = .active
  holder_of_active : bank.simultaneous = false → ∀ {i relay}, bank.get? i = some relay →
    relay.pulse = .active → bank.holder? = some i

variable {config : DeviceConfig} {bank : RelayBank} {board : Board} {commands : List Command}
variable {i j : Nat} {relay other : Relay} {pin : Pin}

theorem holder_of_not_isBlocked (h : bank.isBlocked i = false)
    (hsimultaneous : bank.simultaneous = false) (hholder : bank.holder? = some j) : j = i := by
  simpa [isBlocked, hholder, hsimultaneous] using h

namespace SupplyHeld

theorem put_of_pulse_eq (hheld : bank.SupplyHeld) (hget : bank.get? i = some relay) (new : Relay)
    (hpulse : new.pulse = relay.pulse) : (bank.put i new).SupplyHeld where
  active_of_holder := by
    intro j hholder
    obtain ⟨other, hj, hactive⟩ := hheld.active_of_holder hholder
    by_cases hij : i = j
    . subst hij
      rw [← Option.some.inj (hget.symm.trans hj), ← hpulse] at hactive
      exact ⟨new, get?_put_self hget new, hactive⟩
    . exact ⟨other, by rw [get?_put_of_ne hij, hj], hactive⟩
  holder_of_active := by
    intro hsimultaneous j other hj hactive
    by_cases hij : i = j
    . subst hij
      rw [get?_put_self hget new] at hj
      rw [← Option.some.inj hj, hpulse] at hactive
      exact hheld.holder_of_active hsimultaneous hget hactive
    . rw [get?_put_of_ne hij] at hj
      exact hheld.holder_of_active hsimultaneous hj hactive

theorem put_holding (hheld : bank.SupplyHeld) (hget : bank.get? i = some relay) (new : Relay)
    (h : bank.isBlocked i = false) (hpulse : new.pulse = .active) :
    ((bank.put i new).holding i).SupplyHeld where
  active_of_holder := by
    intro j hholder
    rw [← Option.some.inj hholder]
    exact ⟨new, get?_put_self hget new, hpulse⟩
  holder_of_active := by
    intro hsimultaneous j other hj hactive
    by_cases hij : i = j
    . rw [hij]
      rfl
    . have hj' : bank.get? j = some other := by
        rw [← get?_put_of_ne hij]
        exact hj
      have hholder := hheld.holder_of_active hsimultaneous hj' hactive
      exact absurd (holder_of_not_isBlocked h hsimultaneous hholder).symm hij

theorem put_yieldSupply (hheld : bank.SupplyHeld) (hget : bank.get? i = some relay) (new : Relay)
    (hpulse : new.pulse ≠ .active) : ((bank.put i new).yieldSupply i).SupplyHeld where
  active_of_holder := by
    intro j hholder
    rw [holder_yieldSupply, holder_put] at hholder
    split at hholder
    . contradiction
    . next hne =>
      have hij : i ≠ j := by
        intro heq
        rw [heq] at hne
        exact hne hholder
      obtain ⟨other, hj, hactive⟩ := hheld.active_of_holder hholder
      refine ⟨other, ?_, hactive⟩
      rw [get?_yieldSupply, get?_put_of_ne hij, hj]
  holder_of_active := by
    intro hsimultaneous j other hj hactive
    rw [get?_yieldSupply] at hj
    by_cases hij : i = j
    . subst hij
      rw [get?_put_self hget new] at hj
      rw [← Option.some.inj hj] at hactive
      exact absurd hactive hpulse
    . rw [get?_put_of_ne hij] at hj
      have hsimultaneous' : bank.simultaneous = false := by
        unfold yieldSupply at hsimultaneous
        split at hsimultaneous <;> exact hsimultaneous
      have hholder := hheld.holder_of_active hsimultaneous' hj hactive
      rw [holder_yieldSupply, holder_put, hholder, if_neg]
      intro heq
      exact hij (Option.some.inj heq).symm

theorem move {target : Option Nat} {next : RelayBank} (hheld : bank.SupplyHeld)
    (hmove : bank.Move target next commands) : next.SupplyHeld := by
  cases hmove with
  | stay h => exact hheld
  | indicate => exact hheld
  | @drive i relay on hget hplain => exact hheld.put_of_pulse_eq hget (relay.turned on) rfl
  | pulse on hget hlatching h => exact hheld.put_holding hget _ h rfl
  | @postpone i relay on hget hlatching h =>
    have hyield := hheld.put_yieldSupply hget ((relay.turned on).withPulse .waiting) (by simp)
    rw [yieldSupply_of_isBlocked (by rw [isBlocked_put, h])] at hyield
    exact hyield
  | finish hget hpulse => exact hheld.put_yieldSupply hget _ (by simp)
  | retry hget hpulse h => exact hheld.put_holding hget _ h rfl
  | wait hget hpulse h => exact hheld

end SupplyHeld

theorem supplyHeld_ofConfig (config : DeviceConfig) : (ofConfig config).SupplyHeld where
  active_of_holder := by
    intro i hholder
    simp [ofConfig] at hholder
  holder_of_active := by
    intro _ i relay hget hactive
    have hmem := List.mem_of_getElem? hget
    simp only [ofConfig, List.mem_map] at hmem
    obtain ⟨drive, _, rfl⟩ := hmem
    contradiction

/-! ### One coil at a time -/

def Driven (bank : RelayBank) (board : Board) (pin : Pin) : Prop :=
  ∃ i relay, bank.get? i = some relay ∧ pin ∈ relay.drive.coils
    ∧ board.level pin = relay.drive.activeHigh

def Exclusive (bank : RelayBank) (board : Board) : Prop :=
  ∀ p q, bank.Driven board p → bank.Driven board q → p = q

def Quiet (bank : RelayBank) (commands : List Command) : Prop :=
  ∀ pin high, .write pin high ∈ commands → ∀ i relay, bank.get? i = some relay →
    pin ∈ relay.drive.coils → high = !relay.drive.activeHigh

theorem level_of_quiet (hquiet : bank.Quiet commands) (hget : bank.get? i = some relay)
    (hpin : pin ∈ relay.drive.coils)
    (hlevel : (board.performAll commands).level pin = relay.drive.activeHigh) :
    board.level pin = relay.drive.activeHigh := by
  by_cases h : board.level pin = relay.drive.activeHigh
  . exact h
  . have hreleased : (board.performAll commands).level pin = !relay.drive.activeHigh := by
      apply Board.level_performAll_of_writes
      . intro high hmem
        exact hquiet pin high hmem i relay hget hpin
      . exact .inr (Bool.eq_not_of_ne h)
    rw [hlevel] at hreleased
    simp at hreleased

theorem Exclusive.of_quiet (hexclusive : bank.Exclusive board) (hquiet : bank.Quiet commands) :
    bank.Exclusive (board.performAll commands) := by
  intro p q hp hq
  obtain ⟨i, relay, hi, hpcoil, hplevel⟩ := hp
  obtain ⟨j, other, hj, hqcoil, hqlevel⟩ := hq
  apply hexclusive
  . exact ⟨i, relay, hi, hpcoil, level_of_quiet hquiet hi hpcoil hplevel⟩
  . exact ⟨j, other, hj, hqcoil, level_of_quiet hquiet hj hqcoil hqlevel⟩

namespace Quiet

theorem of_subset {some : List Command} (hquiet : bank.Quiet commands) (h : some ⊆ commands) :
    bank.Quiet some := by
  intro pin high hmem
  exact hquiet pin high (h hmem)

theorem append {more : List Command} (hquiet : bank.Quiet commands) (hmore : bank.Quiet more) :
    bank.Quiet (commands ++ more) := by
  intro pin high hmem
  cases List.mem_append.mp hmem with
  | inl h => exact hquiet pin high h
  | inr h => exact hmore pin high h

theorem of_no_write (h : ∀ pin high, .write pin high ∉ commands) : bank.Quiet commands := by
  intro pin high hmem
  exact absurd hmem (h pin high)

end Quiet

theorem quiet_of_writes (on : Bool) (hbuilt : bank.BuiltFrom config) (hapart : config.CoilsApart)
    (hget : bank.get? i = some relay)
    (hwrites : ∀ {pin high}, .write pin high ∈ commands →
      (pin ∈ relay.drive.pins ∧ high = !relay.drive.activeHigh)
        ∨ ∃ led, relay.indicator? = some led ∧ pin = led.pin ∧ high = led.levelFor on) :
    bank.Quiet commands := by
  intro pin high hmem j other hj hpin
  rcases hwrites hmem with hrelease | ⟨led, hled, heq, _⟩
  . by_cases hij : i = j
    . subst hij
      rw [← Option.some.inj (hget.symm.trans hj)]
      exact hrelease.2
    . have hpins : pin ∈ relay.pins := Relay.mem_pins_iff.mpr (.inl hrelease.1)
      exact absurd hpins (hbuilt.coil_not_mem_pins hapart hget hj hij hpin)
  . exact absurd heq (hbuilt.coil_ne_indicator hapart hget hj hpin hled)

theorem quiet_indicate (hbuilt : bank.BuiltFrom config) (hapart : config.CoilsApart) :
    bank.Quiet (bank.relays.flatMap Relay.indicate) := by
  intro pin high hmem j other hj hpin
  simp only [List.mem_flatMap, Relay.write_mem_indicate] at hmem
  obtain ⟨shown, hshown, led, hled, heq, _⟩ := hmem
  obtain ⟨k, hk⟩ := List.getElem?_of_mem hshown
  exact absurd heq (hbuilt.coil_ne_indicator hapart hk hj hpin hled)

theorem quiet_drive (hbuilt : bank.BuiltFrom config) (hapart : config.CoilsApart)
    (hget : bank.get? i = some relay) (hplain : relay.drive.isLatching = false) (level : Bool) :
    bank.Quiet [.write relay.drive.pin level] := by
  intro pin high hmem j other hj hpin
  rw [List.mem_singleton, Command.write.injEq] at hmem
  by_cases hij : i = j
  . subst hij
    have hlatching := (RelayDrive.mem_pins_of_mem_coils hpin).1
    rw [← Option.some.inj (hget.symm.trans hj), hplain] at hlatching
    contradiction
  . have hpins : pin ∈ relay.pins := by
      rw [Relay.mem_pins_iff, hmem.1]
      exact .inl List.mem_cons_self
    exact absurd hpins (hbuilt.coil_not_mem_pins hapart hget hj hij hpin)

theorem eq_of_driven_write {high : Bool} {p : Pin} (hnone : ∀ p, ¬ bank.Driven board p)
    (h : bank.Driven (board.perform (.write pin high)) p) : p = pin := by
  obtain ⟨i, relay, hget, hpin, hlevel⟩ := h
  rw [Board.level_perform_write] at hlevel
  split at hlevel
  . next heq => exact heq.symm
  . exact absurd ⟨i, relay, hget, hpin, hlevel⟩ (hnone p)

theorem exclusive_of_driven {first last given : List Command} {high : Bool}
    (hexclusive : bank.Exclusive board) (hfirst : bank.Quiet first) (hlast : bank.Quiet last)
    (hnone : ∀ p, ¬ bank.Driven (board.performAll first) p)
    (hgiven : given <+: first ++ .write pin high :: last) :
    bank.Exclusive (board.performAll given) := by
  obtain ⟨rest, hrest⟩ := hgiven
  -- The commands given so far stop in front of the write or behind it.
  rcases List.append_eq_append_iff.mp hrest with ⟨late, hfirst', _⟩ | ⟨early, rfl, hearly⟩
  . apply hexclusive.of_quiet
    apply hfirst.of_subset
    rw [hfirst']
    exact List.subset_append_left given late
  . cases early with
    | nil =>
      rw [List.append_nil]
      exact hexclusive.of_quiet hfirst
    | cons command early =>
      obtain ⟨rfl, rfl⟩ := List.cons_eq_cons.mp hearly
      rw [Board.performAll_append, Board.performAll_cons]
      apply Exclusive.of_quiet
      . intro p q hp hq
        rw [eq_of_driven_write hnone hp, eq_of_driven_write hnone hq]
      . apply hlast.of_subset
        exact List.subset_append_left early rest

/-! ### Every write of every move -/

theorem holder_of_driven (hheld : bank.SupplyHeld) (hsimultaneous : bank.simultaneous = false)
    (hfollow : bank.CoilsFollow board) (hget : bank.get? i = some relay)
    (hpin : pin ∈ relay.drive.coils) (hlevel : board.level pin = relay.drive.activeHigh) :
    bank.holder? = some i :=
  hheld.holder_of_active hsimultaneous hget ((hfollow i relay hget pin hpin).mp hlevel).1

theorem eq_of_level (hheld : bank.SupplyHeld) (hsimultaneous : bank.simultaneous = false)
    (hfollow : bank.CoilsFollow board) (h : bank.isBlocked i = false)
    (hget : bank.get? j = some other) (hpin : pin ∈ other.drive.coils)
    (hlevel : board.level pin = other.drive.activeHigh) : j = i := by
  have hholder := holder_of_driven hheld hsimultaneous hfollow hget hpin hlevel
  exact holder_of_not_isBlocked h hsimultaneous hholder

theorem exclusive_of_supplyHeld (hheld : bank.SupplyHeld)
    (hsimultaneous : bank.simultaneous = false) (hfollow : bank.CoilsFollow board) :
    bank.Exclusive board := by
  intro p q hp hq
  obtain ⟨i, relay, hi, hpcoil, hplevel⟩ := hp
  obtain ⟨j, other, hj, hqcoil, hqlevel⟩ := hq
  have hpholder := holder_of_driven hheld hsimultaneous hfollow hi hpcoil hplevel
  have hqholder := holder_of_driven hheld hsimultaneous hfollow hj hqcoil hqlevel
  have hij : i = j := Option.some.inj (hpholder.symm.trans hqholder)
  subst hij
  have hsame : relay = other := Option.some.inj (hi.symm.trans hj)
  subst hsame
  rw [((hfollow i relay hi p hpcoil).mp hplevel).2, ((hfollow i relay hj q hqcoil).mp hqlevel).2]

theorem Move.exclusive {target : Option Nat} {next : RelayBank} {given : List Command}
    (hmove : bank.Move target next commands) (hbuilt : bank.BuiltFrom config)
    (hapart : config.CoilsApart) (hheld : bank.SupplyHeld)
    (hsimultaneous : bank.simultaneous = false) (hfollow : bank.CoilsFollow board)
    (hgiven : given <+: commands) : bank.Exclusive (board.performAll given) := by
  -- Before the move there is at most one coil driven. This stays so if the move drives none, and
  -- the two moves that do drive one are not blocked.
  have hexclusive := exclusive_of_supplyHeld hheld hsimultaneous hfollow
  have hquiet (h : bank.Quiet commands) : bank.Exclusive (board.performAll given) :=
    hexclusive.of_quiet (h.of_subset hgiven.subset)
  cases hmove with
  | stay h => exact hquiet (.of_no_write (by simp))
  | indicate => exact hquiet (quiet_indicate hbuilt hapart)
  | @drive i relay on hget hplain =>
    have hknown : bank.Quiet ((relay.turned on).makeKnown i) := by
      apply quiet_of_writes on hbuilt hapart hget
      intro pin high hmem
      exact .inr (Relay.write_mem_makeKnown.mp hmem)
    exact hquiet ((quiet_drive hbuilt hapart hget hplain _).append hknown)
  | @pulse i relay on hget hlatching h =>
    have hfirst : bank.Quiet (relay.release ++ [.cancel (.relayPulse i)]) := by
      apply quiet_of_writes on hbuilt hapart hget
      intro pin high hmem
      left
      simpa using hmem
    have hlast :
        bank.Quiet (.schedule (.relayPulse i) pulseMs :: (relay.turned on).makeKnown i) := by
      apply quiet_of_writes on hbuilt hapart hget
      intro pin high hmem
      right
      simpa using hmem
    -- The coils of the relay itself have been released, and those of others are not driven because
    -- the relay is not blocked.
    apply exclusive_of_driven hexclusive hfirst hlast _ hgiven
    intro p hp
    obtain ⟨j, other, hj, hpin, hlevel⟩ := hp
    have hbefore := level_of_quiet hfirst hj hpin hlevel
    have hji := eq_of_level hheld hsimultaneous hfollow h hj hpin hbefore
    subst hji
    have hsame : relay = other := Option.some.inj (hget.symm.trans hj)
    subst hsame
    rw [Relay.level_of_release hpin (List.subset_append_left _ _)] at hlevel
    . simp at hlevel
    . intro high hmem
      exact hfirst p high hmem j relay hj hpin
  | postpone on hget hlatching h =>
    apply hquiet
    exact quiet_of_writes on hbuilt hapart hget Relay.write_mem_postponeCommands.mp
  | @finish i relay hget hpulse =>
    apply hquiet
    apply quiet_of_writes relay.isOn hbuilt hapart hget
    intro pin high hmem
    exact .inl (Relay.write_mem_release.mp hmem)
  | @retry i relay hget hpulse h =>
    have hnothing : bank.Quiet [] := .of_no_write (by simp)
    have hlast : bank.Quiet [.schedule (.relayPulse i) pulseMs] := .of_no_write (by simp)
    apply exclusive_of_driven hexclusive hnothing hlast _ hgiven
    intro p hp
    obtain ⟨j, other, hj, hpin, hlevel⟩ := hp
    have hji := eq_of_level hheld hsimultaneous hfollow h hj hpin hlevel
    subst hji
    have hactive := ((hfollow j other hj p hpin).mp hlevel).1
    rw [← Option.some.inj (hget.symm.trans hj), hpulse] at hactive
    contradiction
  | wait hget hpulse h => exact hquiet (.of_no_write (by simp))

theorem driven_of_mem_drivenCoils (hbuilt : bank.BuiltFrom config)
    (h : pin ∈ config.drivenCoils board) : bank.Driven board pin := by
  simp only [DeviceConfig.drivenCoils, List.mem_flatMap, List.mem_filter, beq_iff_eq] at h
  obtain ⟨drive, hdrive, hpin, hlevel⟩ := h
  rw [← hbuilt.drives, List.mem_map] at hdrive
  obtain ⟨relay, hrelay, rfl⟩ := hdrive
  obtain ⟨i, hget⟩ := List.getElem?_of_mem hrelay
  exact ⟨i, relay, hget, hpin, hlevel⟩

theorem length_drivenCoils_le_one (hbuilt : bank.BuiltFrom config) (hapart : config.CoilsApart)
    (hexclusive : bank.Exclusive board) : (config.drivenCoils board).length ≤ 1 := by
  have hnodup : (config.drivenCoils board).Nodup := by
    apply List.Nodup.sublist _ hapart.nodup
    apply List.Sublist.flatMap_right
    intro drive _
    exact List.filter_sublist
  cases h : config.drivenCoils board with
  | nil => simp
  | cons pin pins =>
    -- All driven coils are the first one, and none is listed twice.
    have hdriven p (hp : p ∈ pin :: pins) : bank.Driven board p := by
      rw [← h] at hp
      exact driven_of_mem_drivenCoils hbuilt hp
    have hsubset : pin :: pins ⊆ [pin] := by
      intro p hp
      rw [hexclusive p pin (hdriven p hp) (hdriven pin List.mem_cons_self)]
      exact List.mem_cons_self
    rw [h] at hnodup
    exact hnodup.length_le_of_subset hsubset

/-! ### Runs -/

theorem supplyHeld_after (config : DeviceConfig) (board : Board) (events : List BankEvent) :
    (after ((ofConfig config).started board) events).part.SupplyHeld := by
  apply after_invariant fun wired => wired.part.SupplyHeld
  . intro wired event h
    exact h.move (event.move wired.part)
  . exact supplyHeld_ofConfig config

/--
Whatever happens to a bank without simultaneous pulses, at most one coil is driven, also in between
the commands that it gives for one event, and the supply is held by the one relay at its pulse.
-/
theorem coils_driven_one_at_a_time (config : DeviceConfig) (board : Board)
    (events : List BankEvent) :
    let wired := after ((ofConfig config).started board) events
    (config.simultaneousPulses = false →
        (config.CoilsApart → ∀ (event : BankEvent) (given : List Command),
          given <+: event.step.commands wired.part →
          (config.drivenCoils ((event.onBoard wired.board).performAll given)).length ≤ 1)
        ∧ ∀ i, wired.part.holder? = some i ↔ wired.part.pulse? i = some .active)
      ∧ ∀ i, wired.part.holder? = some i → wired.part.pulse? i = some .active := by
  intro wired
  have hbuilt : wired.part.BuiltFrom config := builtFrom_after config board events
  have hheld : wired.part.SupplyHeld := supplyHeld_after config board events
  have hactive : ∀ i, wired.part.holder? = some i → wired.part.pulse? i = some .active := by
    intro i hholder
    obtain ⟨relay, hget, hpulse⟩ := hheld.active_of_holder hholder
    simp [pulse?, hget, hpulse]
  refine ⟨?_, hactive⟩
  intro hconfig
  have hsimultaneous : wired.part.simultaneous = false := hbuilt.simultaneous.trans hconfig
  constructor
  . intro hapart event given hgiven
    have hfollow := (coilsFollow_after config hapart board events).onBoard event
    have hmove := event.move wired.part
    apply length_drivenCoils_le_one hbuilt hapart
    exact hmove.exclusive hbuilt hapart hheld hsimultaneous hfollow hgiven
  . intro i
    constructor
    . exact hactive i
    . intro hpulse
      obtain ⟨relay, hget, hrelay⟩ := Option.map_eq_some_iff.mp hpulse
      exact hheld.holder_of_active hsimultaneous hget hrelay

theorem coils_driven_one_at_a_time_two_relays :
    let config := (DeviceConfig.empty.addRelay (.line 0 0) (some (.line 0 1))).addRelay
      (.line 1 0) (some (.line 1 1))
    let wired := after
      ((ofConfig config).started (.idle [] .notJoined (.sound (.empty 8 128))))
      [.call (.turnOn 0), .call (.turnOn 1), .fire (.relayPulse 0) 100]
    wired.part.pulse? 1 = some .waiting ∧ wired.part.holder? = none
      ∧ (config.drivenCoils
          ((BankEvent.fire (.relayPulse 1) 150).onBoard wired.board
            |>.performAll [.write (.line 1 0) true])).length ≤ 1 := by
  intro config wired
  have h := coils_driven_one_at_a_time config (.idle [] .notJoined (.sound (.empty 8 128)))
    [.call (.turnOn 0), .call (.turnOn 1), .fire (.relayPulse 0) 100]
  refine ⟨rfl, rfl, ?_⟩
  apply (h.1 rfl).1
  . exact ⟨by decide, by decide, by decide⟩
  . decide

end RelayBank

end WallSwitch
