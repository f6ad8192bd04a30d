import WallSwitch.Proofs.RelayBank.PulseExclusion
import WallSwitch.Proofs.RelayBank.Timers

/-!
This module contains the completion of pulses. Relays that wait for the supply just try again after a
while, and whoever tries first gets it. Still each of them comes to its pulse, and a bank that is left
alone for long enough comes to rest.
-/

namespace WallSwitch

namespace RelayBank

variable {config : DeviceConfig} {bank : RelayBank} {wired : Wired RelayBank} {i j : Nat}
variable {relay : Relay} {task : Task} {time limit since : Nat} {older : List Pulse}

/-! ### Relays that wait -/

def waiters (bank : RelayBank) : Nat :=
  bank.relays.countP fun relay => relay.pulse = .waiting

theorem waiters_put (hget : bank.get? i = some relay) (new : Relay) :
    (bank.put i new).waiters + (if relay.pulse = .waiting then 1 else 0)
      =
    bank.waiters + if new.pulse = .waiting then 1 else 0 := by
  obtain ⟨hlt, hrelay⟩ := List.getElem?_eq_some_iff.mp hget
  have hle := List.boole_getElem_le_countP (p := fun relay => relay.pulse = .waiting) hlt
  unfold waiters put
  rw [List.countP_set hlt]
  rw [hrelay] at hle ⊢
  simp only [decide_eq_true_eq] at hle ⊢
  omega

@[simp]
theorem waiters_yieldSupply : (bank.yieldSupply i).waiters = bank.waiters := by
  unfold yieldSupply
  split <;> rfl

@[simp]
theorem waiters_holding : (bank.holding i).waiters = bank.waiters := rfl

theorem waiters_pos (hget : bank.get? i = some relay) (hwaiting : relay.pulse = .waiting) :
    0 < bank.waiters :=
  List.countP_pos_iff.mpr ⟨relay, List.mem_of_getElem? hget, by simpa using hwaiting⟩

theorem waiters_le (hbuilt : bank.BuiltFrom config)
    (hlatching : ∀ i relay, bank.get? i = some relay → relay.pulse = .waiting →
      relay.drive.isLatching = true) :
    bank.waiters ≤ config.relays.countP RelayDrive.isLatching := by
  rw [← hbuilt.drives, List.countP_map]
  apply List.countP_mono_left
  intro relay hmem hwaiting
  obtain ⟨i, hget⟩ := List.getElem?_of_mem hmem
  exact hlatching i relay hget (by simpa using hwaiting)

theorem waiters_lt (hbuilt : bank.BuiltFrom config)
    (hlatching : ∀ i relay, bank.get? i = some relay → relay.pulse ≠ .idle →
      relay.drive.isLatching = true)
    (hget : bank.get? i = some relay) (hactive : relay.pulse = .active) :
    bank.waiters < config.relays.countP RelayDrive.isLatching := by
  -- If it did wait too, there would be one more, and still no more than can.
  have hone := waiters_put hget (relay.withPulse .waiting)
  have hle : (bank.put i (relay.withPulse .waiting)).waiters
      ≤ config.relays.countP RelayDrive.isLatching := by
    apply waiters_le (hbuilt.put hget (relay.withPulse .waiting) rfl rfl)
    intro j other hj hwaiting
    by_cases hij : i = j
    . subst hij
      rw [get?_put_self hget] at hj
      rw [← Option.some.inj hj, Relay.drive_withPulse]
      exact hlatching i relay hget (by simp [hactive])
    . rw [get?_put_of_ne hij] at hj
      exact hlatching j other hj (by simp [hwaiting])
  simp [hactive] at hone
  omega

/-! ### Coming to rest -/

/--
All pulses end by the time `limit`. The relay that is at its pulse leaves enough time to those that
wait, and if there is none, one of those takes its place before long.
-/
structure SettlesBy (limit : Nat) (wired : Wired RelayBank) : Prop where
  active : ∀ i relay due, wired.part.get? i = some relay → relay.pulse = .active →
    due ∈ wired.board.due (.relayPulse i) →
    due + (pulseMs + retryMs) * wired.part.waiters ≤ limit
  waiting : (∀ i relay, wired.part.get? i = some relay → relay.pulse ≠ .active) →
    ∀ i relay due, wired.part.get? i = some relay → relay.pulse = .waiting →
    due ∈ wired.board.due (.relayPulse i) →
    due + (pulseMs + retryMs) * wired.part.waiters ≤ limit + retryMs

theorem Timed.due_le (h : Timed wired) (hget : wired.part.get? i = some relay)
    (hmem : time ∈ wired.board.due (.relayPulse i)) : time ≤ wired.board.now + pulseMs := by
  by_cases hpulse : relay.pulse = .idle
  . rw [(h.relays i relay hget).idle hpulse] at hmem
    cases hmem
  . obtain ⟨due, hdue, _, hle⟩ := (h.relays i relay hget).exists_due hpulse
    rw [hdue, List.mem_singleton] at hmem
    rw [hmem]
    exact hle

theorem Timed.due_le_of_waiting (h : Timed wired) (hget : wired.part.get? i = some relay)
    (hwaiting : relay.pulse = .waiting) (hmem : time ∈ wired.board.due (.relayPulse i)) :
    time ≤ wired.board.now + retryMs := by
  obtain ⟨due, hdue, _, hle⟩ := (h.relays i relay hget).waiting hwaiting
  rw [hdue, List.mem_singleton] at hmem
  rw [hmem]
  exact hle

theorem Timed.settlesBy (h : Timed wired) (hbuilt : wired.part.BuiltFrom config) :
    SettlesBy (wired.board.now + (pulseMs + retryMs) * config.relays.countP RelayDrive.isLatching)
      wired where
  active := by
    intro i relay due hget hactive hmem
    have hlt := waiters_lt hbuilt (fun j other hj => (h.relays j other hj).isLatching) hget hactive
    have hle := Nat.mul_le_mul_left (pulseMs + retryMs) (Nat.succ_le_of_lt hlt)
    have hdue := h.due_le hget hmem
    rw [Nat.mul_succ] at hle
    omega
  waiting := by
    intro _ i relay due hget hwaiting hmem
    have hle : wired.part.waiters ≤ config.relays.countP RelayDrive.isLatching := by
      apply waiters_le hbuilt
      intro j other hj hpulse
      exact (h.relays j other hj).isLatching (by simp [hpulse])
    have hle := Nat.mul_le_mul_left (pulseMs + retryMs) hle
    have hdue := h.due_le_of_waiting hget hwaiting hmem
    omega

theorem get?_happen_fire_of_ne (hne : i ≠ j) (time : Nat) :
    (happen wired (.fire (.relayPulse i) time)).part.get? j = wired.part.get? j :=
  (sparesAt_continuePulse hne wired.part).1

theorem exists_active_of_isBlocked (hheld : bank.SupplyHeld) (h : bank.isBlocked i = true) :
    ∃ j relay, bank.get? j = some relay ∧ relay.pulse = .active := by
  cases hholder : bank.holder? with
  | none => simp [isBlocked, hholder] at h
  | some j => exact ⟨j, hheld.active_of_holder hholder⟩

namespace SettlesBy

theorem finish (hsettles : SettlesBy limit wired) (hget : wired.part.get? i = some relay)
    (hactive : relay.pulse = .active) (hmem : time ∈ wired.board.due (.relayPulse i))
    (hafter : Timed (happen wired (.fire (.relayPulse i) time))) :
    SettlesBy limit (happen wired (.fire (.relayPulse i) time)) := by
  have hlimit := hsettles.active i relay time hget hactive hmem
  have hnow := now_happen wired (.fire (.relayPulse i) time)
  have hpart : (happen wired (.fire (.relayPulse i) time)).part
      = (wired.part.put i (relay.withPulse .idle)).yieldSupply i := by
    rw [happen_fire (continuePulse_of_active hget hactive)]
  have hwaiters : (happen wired (.fire (.relayPulse i) time)).part.waiters = wired.part.waiters := by
    have hput := waiters_put hget (relay.withPulse .idle)
    rw [hpart, waiters_yieldSupply]
    simpa [hactive] using hput
  constructor
  . intro j other due hj hother hdue
    rw [hwaiters]
    have hne : i ≠ j := by
      rintro rfl
      rw [hpart, get?_yieldSupply, get?_put_self hget] at hj
      rw [← Option.some.inj hj] at hother
      contradiction
    rw [get?_happen_fire_of_ne hne] at hj
    rw [due_happen_fire_of_ne hne] at hdue
    exact hsettles.active j other due hj hother hdue
  . intro _ j other due hj hother hdue
    rw [hwaiters]
    have hle := hafter.due_le_of_waiting hj hother hdue
    rw [hnow] at hle
    change due ≤ time + retryMs at hle
    omega

theorem wait (hsettles : SettlesBy limit wired) (hheld : wired.part.SupplyHeld)
    (hget : wired.part.get? i = some relay) (hwaiting : relay.pulse = .waiting)
    (hblocked : wired.part.isBlocked i = true) (time : Nat) :
    SettlesBy limit (happen wired (.fire (.relayPulse i) time)) := by
  have hpart : (happen wired (.fire (.relayPulse i) time)).part = wired.part := by
    rw [happen_fire (continuePulse_of_isBlocked hget hwaiting hblocked)]
  constructor
  . intro j other due hj hother hdue
    rw [hpart] at hj ⊢
    have hne : i ≠ j := by
      rintro rfl
      rw [Option.some.inj (hget.symm.trans hj), hother] at hwaiting
      contradiction
    rw [due_happen_fire_of_ne hne] at hdue
    exact hsettles.active j other due hj hother hdue
  . intro hnone
    obtain ⟨j, other, hj, hother⟩ := exists_active_of_isBlocked hheld hblocked
    rw [hpart] at hnone
    exact absurd hother (hnone j other hj)

theorem retry (hsettles : SettlesBy limit wired) (hheld : wired.part.SupplyHeld)
    (hsimultaneous : wired.part.simultaneous = false) (hget : wired.part.get? i = some relay)
    (hwaiting : relay.pulse = .waiting) (hfree : wired.part.isBlocked i = false)
    (hmem : time ∈ wired.board.due (.relayPulse i)) :
    SettlesBy limit (happen wired (.fire (.relayPulse i) time)) := by
  have hnone : ∀ j other, wired.part.get? j = some other → other.pulse ≠ .active := by
    intro j other hj hother
    have hholder := hheld.holder_of_active hsimultaneous hj hother
    -- A relay that is not blocked has the supply, so it would be at its pulse itself.
    have hij := holder_of_not_isBlocked hfree hsimultaneous hholder
    subst hij
    rw [Option.some.inj (hget.symm.trans hj), hother] at hwaiting
    contradiction
  have hlimit := hsettles.waiting hnone i relay time hget hwaiting hmem
  have hstep := happen_fire (continuePulse_of_not_isBlocked hget hwaiting hfree) time
  have hwaiters : (happen wired (.fire (.relayPulse i) time)).part.waiters + 1
      = wired.part.waiters := by
    have hput := waiters_put hget (relay.withPulse .active)
    rw [hstep, waiters_holding]
    simpa [hwaiting] using hput
  have hnew : (happen wired (.fire (.relayPulse i) time)).part.get? i
      = some (relay.withPulse .active) := by
    rw [hstep]
    exact get?_put_self hget _
  constructor
  . intro j other due hj hother hdue
    by_cases hij : i = j
    . subst hij
      rw [hstep, Relay.due_retryCommands, List.mem_singleton] at hdue
      change due = time + pulseMs at hdue
      rw [← hwaiters, Nat.mul_succ] at hlimit
      omega
    . rw [get?_happen_fire_of_ne hij] at hj
      exact absurd hother (hnone j other hj)
  . intro hnone
    exact absurd rfl (hnone i _ hnew)

theorem happen (hsettles : SettlesBy limit wired) (h : Timed wired)
    (hheld : wired.part.SupplyHeld) (htimely : IsTimely wired (.fire task time)) :
    SettlesBy limit (happen wired (.fire task time)) := by
  have hmem : time ∈ wired.board.due task := Agenda.mem_due_of_next? htimely
  obtain ⟨i, relay, rfl, hget⟩ := h.tasks task time hmem
  cases hpulse : relay.pulse with
  | idle =>
    rw [(h.relays i relay hget).idle hpulse] at hmem
    cases hmem
  | active => exact hsettles.finish hget hpulse hmem (h.happen htimely)
  | waiting =>
    have hsimultaneous := h.waiting i relay hget hpulse
    cases hblocked : wired.part.isBlocked i with
    | true => exact hsettles.wait hheld hget hpulse hblocked time
    | false => exact hsettles.retry hheld hsimultaneous hget hpulse hblocked hmem

theorem idle (hsettles : SettlesBy limit wired) (h : Timed wired)
    (hnext : wired.board.agenda.next? limit = none) :
    ∀ i relay, wired.part.get? i = some relay → relay.pulse = .idle := by
  have hlate {i due : Nat} (hmem : due ∈ wired.board.due (.relayPulse i)) : limit < due :=
    Agenda.lt_of_next?_eq_none hnext hmem
  have hnone : ∀ i relay, wired.part.get? i = some relay → relay.pulse ≠ .active := by
    intro i relay hget hactive
    obtain ⟨due, hdue, _⟩ := (h.relays i relay hget).exists_due (by simp [hactive])
    have hmem : due ∈ wired.board.due (.relayPulse i) := by simp [hdue]
    have hlimit := hsettles.active i relay due hget hactive hmem
    have := hlate hmem
    omega
  intro i relay hget
  cases hpulse : relay.pulse with
  | idle => rfl
  | active => exact absurd hpulse (hnone i relay hget)
  | waiting =>
    obtain ⟨due, hdue, _⟩ := (h.relays i relay hget).exists_due (by simp [hpulse])
    have hmem : due ∈ wired.board.due (.relayPulse i) := by simp [hdue]
    have hlimit := hsettles.waiting hnone i relay due hget hpulse hmem
    have hround : pulseMs + retryMs ≤ (pulseMs + retryMs) * wired.part.waiters :=
      Nat.le_mul_of_pos_right _ (waiters_pos hget hpulse)
    have := hlate hmem
    omega

end SettlesBy

/-! ### Pulses that were waited for -/

/--
What has become of relay `i` without commands. It was `relay` at the time `since`, and had the pulses
`older`.
-/
inductive Proceeds (relay : Relay) (older : List Pulse) (since i : Nat) (wired : Wired RelayBank) :
    Prop where
  | same (pulse : PulseState) (hget : wired.part.get? i = some (relay.withPulse pulse))
    (h : pulse = .waiting ↔ relay.pulse = .waiting) (hpulses : wired.board.pulses i = older)
  /-- The relay has come to the pulse that it waited for. -/
  | pulsed (pulse : PulseState) (began : Nat)
    (hget : wired.part.get? i = some (relay.withPulse pulse)) (hwaiting : relay.pulse = .waiting)
    (h : pulse ≠ .waiting) (hbegan : since ≤ began)
    (hpulses : wired.board.pulses i = ⟨began, relay.coil, relay.drive.activeHigh⟩ :: older)

namespace Proceeds

theorem refl (hget : wired.part.get? i = some relay) (since : Nat) :
    Proceeds relay (wired.board.pulses i) since i wired :=
  .same relay.pulse hget Iff.rfl rfl

theorem happen (h : Proceeds relay older since i wired) (hsince : since ≤ time) :
    Proceeds relay older since i (RelayBank.happen wired (.fire task time)) := by
  have hasked (j : Nat) : BankEvent.fire task time ≠ .call (.continuePulse j) := by simp
  have htarget : (BankEvent.fire task time).target? ≠ some i := by
    simp [BankEvent.target?_fire]
  cases h with
  | same pulse hget h hpulses =>
    obtain ⟨new, _, later, hnew, _, hlater, hpassage⟩ := exists_passage hget hasked
    cases hpassage with
    | drive on hcalled | pulse on hcalled | postpone on hcalled => exact absurd hcalled htarget
    | spare | rest | wait => exact .same pulse hnew h (hlater.trans hpulses)
    | finish hevent hactive =>
      rw [Relay.pulse_withPulse] at hactive
      refine .same .idle hnew ?_ (hlater.trans hpulses)
      simp [← h, hactive]
    | retry hevent hwaiting =>
      cases hevent
      rw [hpulses] at hlater
      exact .pulsed .active time hnew (h.mp hwaiting) (by simp) hsince hlater
  | pulsed pulse began hget hwaiting h hbegan hpulses =>
    obtain ⟨new, _, later, hnew, _, hlater, hpassage⟩ := exists_passage hget hasked
    cases hpassage with
    | drive on hcalled | pulse on hcalled | postpone on hcalled => exact absurd hcalled htarget
    | spare | rest => exact .pulsed pulse began hnew hwaiting h hbegan (hlater.trans hpulses)
    | finish => exact .pulsed .idle began hnew hwaiting (by simp) hbegan (hlater.trans hpulses)
    | retry hevent hagain | wait hevent hagain => exact absurd hagain h

end Proceeds

/-! ### Runs -/

structure Completing (limit : Nat) (start wired : Wired RelayBank) : Prop where
  timed : Timed wired
  supplyHeld : wired.part.SupplyHeld
  settlesBy : SettlesBy limit wired
  now_le : start.board.now ≤ wired.board.now
  proceeds : ∀ i relay, start.part.get? i = some relay →
    Proceeds relay (start.board.pulses i) start.board.now i wired

theorem Completing.happen {start : Wired RelayBank} (h : Completing limit start wired)
    (htimely : IsTimely wired (.fire task time)) :
    Completing limit start (happen wired (.fire task time)) where
  timed := h.timed.happen htimely
  supplyHeld := h.supplyHeld.move (BankEvent.move _ wired.part)
  settlesBy := h.settlesBy.happen h.timed h.supplyHeld htimely
  now_le := Nat.le_trans h.now_le (h.timed.now_le_happen htimely)
  proceeds := by
    intro i relay hget
    apply (h.proceeds i relay hget).happen
    exact Nat.le_trans h.now_le (h.timed.now_le_of_mem_due (Agenda.mem_due_of_next? htimely))

theorem completing_runTasks (h : Timed wired) (hheld : wired.part.SupplyHeld)
    (hbuilt : wired.part.BuiltFrom config)
    (hlimit : limit = wired.board.now
      + (pulseMs + retryMs) * config.relays.countP RelayDrive.isLatching) (fuel : Nat) :
    Completing limit wired (Wired.runTasks fire limit fuel wired) := by
  apply Wired.runTasks_invariant (Completing limit wired)
  . intro later task due hlater hnext
    rw [fire_begin]
    exact hlater.happen (Agenda.next?_self hnext)
  . subst hlimit
    exact ⟨h, hheld, h.settlesBy hbuilt, Nat.le_refl _, fun i relay hget => .refl hget _⟩

structure InUse (config : DeviceConfig) (wired : Wired RelayBank) : Prop where
  builtFrom : wired.part.BuiltFrom config
  supplyHeld : wired.part.SupplyHeld
  timed : Timed wired
  size_le : wired.part.size ≤ DeviceConfig.capacity .relays
  coilsFollow : config.CoilsApart → wired.part.CoilsFollow wired.board

theorem inUse_used (config : DeviceConfig) (board : Board) (uses : List BankUse)
    (hsize : config.relays.length ≤ DeviceConfig.capacity .relays)
    (hpending : board.agenda.pending = []) :
    InUse config (used ((ofConfig config).started board) uses) := by
  have hstart : Timed ((ofConfig config).started board) := timed_started config hpending
  have htimely := timely_eventsOf uses hstart (by rw [size_started]; exact hsize)
  rw [← after_eventsOf]
  refine ⟨builtFrom_after config board _, supplyHeld_after config board _,
    hstart.after htimely, ?_, fun hapart => coilsFollow_after config hapart board _⟩
  rw [size_after, size_started]
  exact hsize

/-! ### At rest -/

theorem Timed.pending_eq_nil (h : Timed wired)
    (hidle : ∀ i relay, wired.part.get? i = some relay → relay.pulse = .idle) :
    wired.board.agenda.pending = [] := by
  apply Agenda.pending_eq_nil_of_due
  intro task
  rw [List.eq_nil_iff_forall_not_mem]
  intro time hmem
  obtain ⟨i, relay, rfl, hget⟩ := h.tasks task time hmem
  have hnone := (h.relays i relay hget).idle (hidle i relay hget)
  rw [Board.due] at hnone
  rw [hnone] at hmem
  cases hmem

theorem SupplyHeld.holder_eq_none (hheld : bank.SupplyHeld)
    (hidle : ∀ i relay, bank.get? i = some relay → relay.pulse = .idle) : bank.holder? = none := by
  cases hholder : bank.holder? with
  | none => rfl
  | some i =>
    obtain ⟨relay, hget, hactive⟩ := hheld.active_of_holder hholder
    rw [hidle i relay hget] at hactive
    contradiction

theorem drivenCoils_eq_nil {board : Board} (hbuilt : bank.BuiltFrom config)
    (hfollow : bank.CoilsFollow board)
    (hidle : ∀ i relay, bank.get? i = some relay → relay.pulse = .idle) :
    config.drivenCoils board = [] := by
  rw [List.eq_nil_iff_forall_not_mem]
  intro pin hmem
  obtain ⟨i, relay, hget, hpin, hlevel⟩ := driven_of_mem_drivenCoils hbuilt hmem
  have hactive := ((hfollow i relay hget pin hpin).mp hlevel).1
  rw [hidle i relay hget] at hactive
  contradiction

theorem Proceeds.of_idle (h : Proceeds relay older since i wired)
    (hidle : ∀ i relay, wired.part.get? i = some relay → relay.pulse = .idle) :
    wired.part.get? i = some (relay.withPulse .idle)
      ∧ (relay.pulse ≠ .waiting → wired.board.pulses i = older)
      ∧ (relay.pulse = .waiting → ∃ began, since ≤ began
          ∧ wired.board.pulses i = ⟨began, relay.coil, relay.drive.activeHigh⟩ :: older) := by
  cases h with
  | same pulse hget h hpulses =>
    have hpulse : pulse = .idle := hidle i _ hget
    subst hpulse
    refine ⟨hget, fun _ => hpulses, ?_⟩
    intro hwaiting
    have := h.mpr hwaiting
    contradiction
  | pulsed pulse began hget hwaiting h hbegan hpulses =>
    have hpulse : pulse = .idle := hidle i _ hget
    subst hpulse
    exact ⟨hget, fun hother => absurd hwaiting hother, fun _ => ⟨began, hbegan, hpulses⟩⟩

/--
A bank that is left alone for as long as it takes all of its bi-stable relays to be pulsed in turn
comes to rest: no relay is at a pulse or waits for one, no coil is driven and nothing is on the
agenda. Relays that waited have been pulsed once, towards the states that they had, and the others
have not. The board never stops early at the bound on the number of tasks that it runs, whatever time
passes.
-/
theorem pulses_complete (config : DeviceConfig) (board : Board) (uses : List BankUse)
    (hsize : config.relays.length ≤ DeviceConfig.capacity .relays)
    (hpending : board.agenda.pending = []) :
    let wired := used ((ofConfig config).started board) uses
    let settled := run wired ((pulseMs + retryMs) * config.relays.countP RelayDrive.isLatching)
    (∀ relay ∈ settled.part.relays, relay.pulse = .idle)
      ∧ settled.part.holder? = none
      ∧ settled.board.agenda.pending = []
      ∧ (config.CoilsApart → config.drivenCoils settled.board = [])
      ∧ (∀ i relay, wired.part.get? i = some relay →
          settled.part.get? i = some (relay.withPulse .idle)
            ∧ (relay.pulse ≠ .waiting → settled.board.pulses i = wired.board.pulses i)
            ∧ (relay.pulse = .waiting → ∃ began, wired.board.now ≤ began
                ∧ settled.board.pulses i
                    = ⟨began, relay.coil, relay.drive.activeHigh⟩ :: wired.board.pulses i))
      ∧ ∀ ms fuel, Wired.tasksPerMs * (ms + 1) ≤ fuel →
          let limit := wired.board.now + ms
          let ran := Wired.runTasks fire limit fuel wired
          ran.board.agenda.next? limit = none
            ∧ ran = Wired.runTasks fire limit (Wired.tasksPerMs * (ms + 1)) wired := by
  generalize hms : (pulseMs + retryMs) * config.relays.countP RelayDrive.isLatching = ms
  intro wired settled
  have h : InUse config wired := inUse_used config board uses hsize hpending
  have hlast : InUse config settled := by
    have hmore := inUse_used config board (uses ++ [.wait ms]) hsize hpending
    unfold used at hmore
    rw [List.foldl_append] at hmore
    exact hmore
  have hcompleting := completing_runTasks h.timed h.supplyHeld h.builtFrom (by rw [hms])
    (Wired.tasksPerMs * (ms + 1))
  have hnone := next?_runTasks h.timed h.size_le ms (Nat.le_refl _)
  have hidle : ∀ i relay, settled.part.get? i = some relay → relay.pulse = .idle :=
    hcompleting.settlesBy.idle hcompleting.timed hnone
  refine ⟨?_, ?_, ?_, ?_, ?_, ?_⟩
  . intro relay hmem
    obtain ⟨i, hget⟩ := List.getElem?_of_mem hmem
    exact hidle i relay hget
  . exact hlast.supplyHeld.holder_eq_none hidle
  . exact hlast.timed.pending_eq_nil hidle
  . intro hapart
    exact drivenCoils_eq_nil hlast.builtFrom (hlast.coilsFollow hapart) hidle
  . intro i relay hget
    exact (hcompleting.proceeds i relay hget).of_idle hidle
  . intro ms fuel hfuel limit ran
    refine ⟨next?_runTasks h.timed h.size_le ms hfuel, ?_⟩
    apply Wired.runTasks_of_le hfuel
    exact next?_runTasks h.timed h.size_le ms (Nat.le_refl _)

theorem pulses_complete_three_relays :
    let config := (((DeviceConfig.empty.addRelay (.line 0 0) (some (.line 0 1))).addRelay
      (.line 1 0) (some (.line 1 1))).addRelay (.line 2 0) (some (.line 2 1)))
    let board := Board.idle [] .notJoined (.sound (.empty 8 128))
    let uses := [.command (.turnOn 0) rfl, .command (.turnOff 1) rfl, .wait 10,
      .command (.toggle 2) rfl]
    let wired := used ((ofConfig config).started board) uses
    let settled := run wired ((pulseMs + retryMs) * config.relays.countP RelayDrive.isLatching)
    config.relays.length ≤ DeviceConfig.capacity .relays ∧ board.agenda.pending = []
      ∧ config.CoilsApart
      ∧ wired.part.relays.map Relay.pulse = [.active, .waiting, .waiting]
      ∧ config.drivenCoils settled.board = [] ∧ settled.board.agenda.pending = []
      ∧ ∃ began, 10 ≤ began ∧ settled.board.pulses 1 = [⟨began, .line 1 1, true⟩] := by
  intro config board uses
  have hbefore : let wired := used ((ofConfig config).started board) uses
      wired.part.relays.map Relay.pulse = [.active, .waiting, .waiting]
        ∧ wired.part.get? 1
            = some ⟨⟨1, .line 1 0, some (.line 1 1), true⟩, false, .waiting, none, none⟩
        ∧ wired.board.pulses 1 = [] ∧ wired.board.now = 10 := by
    decide +kernel +revert
  have hsize : config.relays.length ≤ DeviceConfig.capacity .relays := by decide
  have hapart : config.CoilsApart := ⟨by decide, by decide, by decide⟩
  obtain ⟨hwaiting, hget, hpulses, hnow⟩ := hbefore
  obtain ⟨_, _, hpending, hcoils, hproceeds, _⟩ := pulses_complete config board uses hsize rfl
  refine ⟨hsize, rfl, hapart, hwaiting, hcoils hapart, hpending, ?_⟩
  have hpulsed := (hproceeds 1 _ hget).2.2 rfl
  rw [hpulses, hnow] at hpulsed
  exact hpulsed

end RelayBank

end WallSwitch
