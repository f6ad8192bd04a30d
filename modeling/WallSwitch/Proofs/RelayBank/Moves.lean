import WallSwitch.RelayBank

/-!
This module contains what can be asked of the relays of a device once they are set up, and what it
comes down to. There are eight ways in which a bank can take a call; each says what the bank is like
afterwards and which commands it gives.
-/

namespace WallSwitch

inductive BankCall where
  | set (i : Nat) (on : Bool)
  | turnOn (i : Nat)
  | turnOff (i : Nat)
  | toggle (i : Nat)
  | indicateAll
  | continuePulse (i : Nat)
deriving DecidableEq, Repr

namespace BankCall

def step : BankCall → Step RelayBank
  | .set i on => RelayBank.set i on
  | .turnOn i => RelayBank.turnOn i
  | .turnOff i => RelayBank.turnOff i
  | .toggle i => RelayBank.toggle i
  | .indicateAll => RelayBank.indicateAll
  | .continuePulse i => RelayBank.continuePulse i

def target? : BankCall → Option Nat
  | .set i _ | .turnOn i | .turnOff i | .toggle i => some i
  | .indicateAll | .continuePulse _ => none

end BankCall

namespace Relay

/--
The relay with its state changed, and nothing done about it yet.
-/
def turned (relay : Relay) (on : Bool) : Relay :=
  { relay with isOn := on }

def withPulse (relay : Relay) (pulse : PulseState) : Relay :=
  { relay with pulse := pulse }

def makeKnown (i : Nat) (relay : Relay) : List Command :=
  relay.indicate ++ relay.tell i

/-! ### What relay `i` asks of the board -/

def driveCommands (i : Nat) (relay : Relay) (on : Bool) : List Command :=
  .write relay.drive.pin (on == relay.drive.activeHigh) :: (relay.turned on).makeKnown i

def pulseCommands (i : Nat) (relay : Relay) (on : Bool) : List Command :=
  relay.release ++ [.cancel (.relayPulse i)]
    ++ .write (relay.turned on).coil relay.drive.activeHigh
      :: .schedule (.relayPulse i) RelayBank.pulseMs :: (relay.turned on).makeKnown i

def postponeCommands (i : Nat) (relay : Relay) (on : Bool) : List Command :=
  relay.release ++ [.cancel (.relayPulse i), .schedule (.relayPulse i) RelayBank.retryMs]
    ++ (relay.turned on).makeKnown i

def retryCommands (i : Nat) (relay : Relay) : List Command :=
  [.write relay.coil relay.drive.activeHigh, .schedule (.relayPulse i) RelayBank.pulseMs]

section

variable (relay : Relay) (on : Bool) (pulse : PulseState)

@[simp] theorem drive_turned : (relay.turned on).drive = relay.drive := rfl

@[simp] theorem isOn_turned : (relay.turned on).isOn = on := rfl

@[simp] theorem pulse_turned : (relay.turned on).pulse = relay.pulse := rfl

@[simp] theorem indicator_turned : (relay.turned on).indicator? = relay.indicator? := rfl

@[simp] theorem release_turned : (relay.turned on).release = relay.release := rfl

@[simp] theorem drive_withPulse : (relay.withPulse pulse).drive = relay.drive := rfl

@[simp] theorem isOn_withPulse : (relay.withPulse pulse).isOn = relay.isOn := rfl

@[simp] theorem pulse_withPulse : (relay.withPulse pulse).pulse = pulse := rfl

@[simp]
theorem indicate_withPulse : (relay.withPulse pulse).indicate = relay.indicate := rfl

@[simp]
theorem release_withPulse : (relay.withPulse pulse).release = relay.release := rfl

@[simp]
theorem retryCommands_withPulse (i : Nat) :
    (relay.withPulse pulse).retryCommands i = relay.retryCommands i := rfl

@[simp]
theorem withPulse_withPulse (other : PulseState) :
    (relay.withPulse pulse).withPulse other = relay.withPulse other := rfl

end

theorem withPulse_self {relay : Relay} {pulse : PulseState} (h : relay.pulse = pulse) :
    relay.withPulse pulse = relay := by
  rw [← h]
  rfl

end Relay

namespace RelayBank

def put (bank : RelayBank) (i : Nat) (relay : Relay) : RelayBank :=
  { bank with relays := bank.relays.set i relay }

def holding (bank : RelayBank) (i : Nat) : RelayBank :=
  { bank with holder? := some i }

variable {bank : RelayBank} {i : Nat} {relay : Relay}

@[simp]
theorem holder_put : (bank.put i relay).holder? = bank.holder? := rfl

theorem lt_size_of_get? (h : bank.get? i = some relay) : i < bank.size := by
  unfold get? at h
  exact (List.getElem?_eq_some_iff.mp h).1

theorem exists_of_lt_size (h : i < bank.size) : ∃ relay, bank.get? i = some relay :=
  ⟨_, List.getElem?_eq_getElem h⟩

theorem get?_put_self (h : bank.get? i = some relay) (new : Relay) :
    (bank.put i new).get? i = some new := by
  unfold put get?
  rw [List.getElem?_set_self]
  exact lt_size_of_get? h

theorem get?_put_of_ne {j : Nat} (h : i ≠ j) : (bank.put i relay).get? j = bank.get? j := by
  unfold put get?
  rw [List.getElem?_set_ne h]

theorem put_put {first second : Relay} : (bank.put i first).put i second = bank.put i second := by
  simp [put]

theorem put_self (h : bank.get? i = some relay) : bank.put i relay = bank := by
  unfold put
  congr 1
  apply List.ext_getElem?
  intro j
  by_cases hj : i = j
  . subst hj
    rw [List.getElem?_set_self (lt_size_of_get? h)]
    exact h.symm
  . rw [List.getElem?_set_ne hj]

theorem modify_eq_put {f : Relay → Relay} (h : bank.get? i = some relay) :
    bank.modify i f = bank.put i (f relay) := by
  unfold modify put
  congr 1
  apply List.ext_getElem?
  intro j
  unfold get? at h
  by_cases hj : i = j
  . subst hj
    rw [List.getElem?_modify_eq, h, List.getElem?_set_self (lt_size_of_get? h)]
    rfl
  . rw [List.getElem?_modify_ne f bank.relays hj, List.getElem?_set_ne hj]

theorem emitFrom_eq {commands : Relay → List Command} (h : bank.get? i = some relay) :
    emitFrom i commands bank = (bank, commands relay) := by
  simp [emitFrom, Step.emit, h]

/-! ### Pulses -/

@[simp]
theorem isBlocked_put {j : Nat} : (bank.put i relay).isBlocked j = bank.isBlocked j := rfl

@[simp]
theorem isBlocked_yieldSupply : (bank.yieldSupply i).isBlocked i = bank.isBlocked i := by
  unfold yieldSupply
  split
  . next h => simp [isBlocked, h]
  . rfl

theorem yieldSupply_of_isBlocked (h : bank.isBlocked i = true) : bank.yieldSupply i = bank := by
  unfold yieldSupply
  rw [if_neg]
  intro hholder
  simp [isBlocked, hholder] at h

@[simp]
theorem get?_yieldSupply {j : Nat} : (bank.yieldSupply i).get? j = bank.get? j := by
  unfold yieldSupply
  split <;> rfl

theorem put_yieldSupply {j : Nat} :
    (bank.yieldSupply i).put j relay = (bank.put j relay).yieldSupply i := by
  unfold yieldSupply
  rw [holder_put]
  split <;> rfl

@[simp]
theorem holding_yieldSupply {j : Nat} : (bank.yieldSupply i).holding j = bank.holding j := by
  unfold yieldSupply
  split <;> rfl

theorem holder_yieldSupply :
    (bank.yieldSupply i).holder? = if bank.holder? = some i then none else bank.holder? := by
  unfold yieldSupply
  split <;> rfl

theorem beginPulse_of_isBlocked (hget : bank.get? i = some relay) (h : bank.isBlocked i = true) :
    beginPulse i bank
      =
    (bank.put i (relay.withPulse .waiting), [.schedule (.relayPulse i) retryMs]) := by
  simp [beginPulse, Step.choose, h, Step.andThen, Step.emit, Step.update, modify_eq_put hget,
    Relay.withPulse]

theorem beginPulse_of_not_isBlocked (hget : bank.get? i = some relay)
    (h : bank.isBlocked i = false) :
    beginPulse i bank
      =
    ((bank.put i (relay.withPulse .active)).holding i, relay.retryCommands i) := by
  simp [beginPulse, Step.choose, h, Step.andThen, emitFrom_eq hget, Step.emit, Step.update,
    modify_eq_put hget, Relay.withPulse, holding, Relay.retryCommands]

theorem finishPulse_eq (hget : bank.get? i = some relay) :
    finishPulse i bank = ((bank.put i (relay.withPulse .idle)).yieldSupply i, relay.release) := by
  simp [finishPulse, Step.andThen, emitFrom_eq hget, Step.update, modify_eq_put hget,
    Relay.withPulse]

theorem dropPulse_eq (hget : bank.get? i = some relay) :
    dropPulse i bank
      =
    ((bank.put i (relay.withPulse .idle)).yieldSupply i,
      relay.release ++ [.cancel (.relayPulse i)]) := by
  simp [dropPulse, Step.andThen, finishPulse_eq hget, Step.emit]

theorem actuate_of_plain (hget : bank.get? i = some relay)
    (hplain : relay.drive.isLatching = false) :
    actuate i bank = (bank, [.write relay.drive.pin (relay.isOn == relay.drive.activeHigh)]) := by
  simp [actuate, Step.choose, hget, hplain, emitFrom_eq hget]

theorem actuate_of_isBlocked (hget : bank.get? i = some relay)
    (hlatching : relay.drive.isLatching = true) (h : bank.isBlocked i = true) :
    actuate i bank
      =
    (bank.put i (relay.withPulse .waiting),
      relay.release ++ [.cancel (.relayPulse i), .schedule (.relayPulse i) retryMs]) := by
  have hdrop := dropPulse_eq hget
  -- A relay that is blocked does not hold the supply, so it has none to give back.
  rw [yieldSupply_of_isBlocked (by rw [isBlocked_put, h])] at hdrop
  have hget' := get?_put_self hget (relay.withPulse .idle)
  have hbegin := beginPulse_of_isBlocked hget' (by rw [isBlocked_put, h])
  rw [put_put, Relay.withPulse_withPulse] at hbegin
  simp [actuate, Step.choose, hget, hlatching, Step.andThen, hdrop, hbegin]

theorem actuate_of_not_isBlocked (hget : bank.get? i = some relay)
    (hlatching : relay.drive.isLatching = true) (h : bank.isBlocked i = false) :
    actuate i bank
      =
    ((bank.put i (relay.withPulse .active)).holding i,
      relay.release ++ [.cancel (.relayPulse i)] ++ relay.retryCommands i) := by
  have hget' := get?_put_self hget (relay.withPulse .idle)
  rw [← get?_yieldSupply (i := i)] at hget'
  have hbegin := beginPulse_of_not_isBlocked hget' (by rw [isBlocked_yieldSupply, isBlocked_put, h])
  rw [put_yieldSupply, put_put, holding_yieldSupply, Relay.withPulse_withPulse] at hbegin
  simp [actuate, Step.choose, hget, hlatching, Step.andThen, dropPulse_eq hget, hbegin]

theorem set_of_size_le {on : Bool} (h : bank.size ≤ i) : set i on bank = (bank, []) := by
  simp [set, Step.choose, Nat.not_lt.mpr h, Step.skip]

theorem set_of_actuate {next : RelayBank} {commands : List Command} {on : Bool} (pulse : PulseState)
    (hget : bank.get? i = some relay)
    (hactuate : actuate i (bank.put i (relay.turned on)) = (next, commands))
    (hnext : next.get? i = some ((relay.turned on).withPulse pulse)) :
    set i on bank = (next, commands ++ (relay.turned on).makeKnown i) := by
  have hmodify : bank.modify i (fun relay => { relay with isOn := on })
      = bank.put i (relay.turned on) := modify_eq_put hget
  simp [set, Step.choose, lt_size_of_get? hget, Step.andThen, Step.update, hmodify, hactuate,
    emitFrom_eq hnext]
  rfl

theorem set_of_plain (on : Bool) (hget : bank.get? i = some relay)
    (hplain : relay.drive.isLatching = false) :
    set i on bank
      =
    (bank.put i (relay.turned on), relay.driveCommands i on) := by
  have hget' := get?_put_self hget (relay.turned on)
  have hactuate := actuate_of_plain hget' hplain
  apply set_of_actuate relay.pulse hget hactuate
  rw [hget', Relay.withPulse_self (Relay.pulse_turned relay on)]

theorem set_of_isBlocked (on : Bool) (hget : bank.get? i = some relay)
    (hlatching : relay.drive.isLatching = true) (h : bank.isBlocked i = true) :
    set i on bank
      =
    (bank.put i ((relay.turned on).withPulse .waiting), relay.postponeCommands i on) := by
  have hget' := get?_put_self hget (relay.turned on)
  have hactuate := actuate_of_isBlocked hget' hlatching (by rw [isBlocked_put, h])
  rw [put_put] at hactuate
  apply set_of_actuate .waiting hget hactuate
  exact get?_put_self hget _

theorem set_of_not_isBlocked (on : Bool) (hget : bank.get? i = some relay)
    (hlatching : relay.drive.isLatching = true) (h : bank.isBlocked i = false) :
    set i on bank
      =
    ((bank.put i ((relay.turned on).withPulse .active)).holding i, relay.pulseCommands i on) := by
  have hget' := get?_put_self hget (relay.turned on)
  have hactuate := actuate_of_not_isBlocked hget' hlatching (by rw [isBlocked_put, h])
  rw [put_put] at hactuate
  rw [set_of_actuate .active hget hactuate (get?_put_self hget _)]
  simp [Relay.pulseCommands, Relay.retryCommands]

/-! ### Moves -/

/--
What a call can come down to for a bank: what it switches, the bank afterwards, and the commands.
-/
inductive Move (bank : RelayBank) : Option Nat → RelayBank → List Command → Prop where
  /-- Nothing happens. In particular, there is no relay to be switched. -/
  | stay {target : Option Nat} (h : ∀ i, target = some i → bank.get? i = none) :
    Move bank target bank []
  | indicate : Move bank none bank (bank.relays.flatMap Relay.indicate)
  | drive {i : Nat} {relay : Relay} (on : Bool) (hget : bank.get? i = some relay)
      (hplain : relay.drive.isLatching = false) :
    Move bank (some i) (bank.put i (relay.turned on)) (relay.driveCommands i on)
  | pulse {i : Nat} {relay : Relay} (on : Bool) (hget : bank.get? i = some relay)
      (hlatching : relay.drive.isLatching = true) (h : bank.isBlocked i = false) :
    Move bank (some i) ((bank.put i ((relay.turned on).withPulse .active)).holding i)
      (relay.pulseCommands i on)
  | postpone {i : Nat} {relay : Relay} (on : Bool) (hget : bank.get? i = some relay)
      (hlatching : relay.drive.isLatching = true) (h : bank.isBlocked i = true) :
    Move bank (some i) (bank.put i ((relay.turned on).withPulse .waiting))
      (relay.postponeCommands i on)
  /-- A pulse ends. -/
  | finish {i : Nat} {relay : Relay} (hget : bank.get? i = some relay)
      (hpulse : relay.pulse = .active) :
    Move bank none ((bank.put i (relay.withPulse .idle)).yieldSupply i) relay.release
  | retry {i : Nat} {relay : Relay} (hget : bank.get? i = some relay)
      (hpulse : relay.pulse = .waiting) (h : bank.isBlocked i = false) :
    Move bank none ((bank.put i (relay.withPulse .active)).holding i) (relay.retryCommands i)
  /-- A pulse is put off once more. -/
  | wait {i : Nat} {relay : Relay} (hget : bank.get? i = some relay)
      (hpulse : relay.pulse = .waiting) (h : bank.isBlocked i = true) :
    Move bank none bank [.schedule (.relayPulse i) retryMs]

variable {target : Option Nat} {next : RelayBank} {commands : List Command}

theorem Move.size_eq (hmove : bank.Move target next commands) : next.size = bank.size := by
  cases hmove with
  | stay | indicate | wait => rfl
  | drive | pulse | postpone | retry => simp [size, put, holding]
  | finish =>
    unfold yieldSupply
    split <;> simp [size, put]

theorem Move.get?_of_ne {j : Nat} (hmove : bank.Move (some i) next commands) (h : i ≠ j) :
    next.get? j = bank.get? j := by
  cases hmove with
  | stay => rfl
  | drive | pulse | postpone => exact get?_put_of_ne h

theorem move_set (bank : RelayBank) (i : Nat) (on : Bool) :
    Move bank (some i) ((set i on).state bank) ((set i on).commands bank) := by
  unfold Step.state Step.commands
  cases hget : bank.get? i with
  | none =>
    have hsize : bank.size ≤ i := List.getElem?_eq_none_iff.mp hget
    rw [set_of_size_le hsize]
    apply Move.stay
    intro j hj
    rw [← Option.some.inj hj]
    exact hget
  | some relay =>
    cases hlatching : relay.drive.isLatching with
    | false =>
      rw [set_of_plain on hget hlatching]
      exact .drive on hget hlatching
    | true =>
      cases h : bank.isBlocked i with
      | false =>
        rw [set_of_not_isBlocked on hget hlatching h]
        exact .pulse on hget hlatching h
      | true =>
        rw [set_of_isBlocked on hget hlatching h]
        exact .postpone on hget hlatching h

theorem move_continuePulse (bank : RelayBank) (i : Nat) :
    Move bank none ((continuePulse i).state bank) ((continuePulse i).commands bank) := by
  unfold Step.state Step.commands
  have hskip : Move bank none (Step.skip bank).1 (Step.skip bank).2 := .stay (by simp)
  cases hget : bank.get? i with
  | none => simpa [continuePulse, Step.choose, pulse?, hget] using hskip
  | some relay =>
    cases hpulse : relay.pulse with
    | idle => simpa [continuePulse, Step.choose, pulse?, hget, hpulse] using hskip
    | active =>
      simp only [continuePulse, Step.choose, pulse?, hget, hpulse, Option.map_some,
        finishPulse_eq hget]
      exact .finish hget hpulse
    | waiting =>
      simp only [continuePulse, Step.choose, pulse?, hget, hpulse, Option.map_some]
      cases h : bank.isBlocked i with
      | false =>
        rw [beginPulse_of_not_isBlocked hget h]
        exact .retry hget hpulse h
      | true =>
        rw [beginPulse_of_isBlocked hget h, Relay.withPulse_self hpulse, put_self hget]
        exact .wait hget hpulse h

end RelayBank

theorem BankCall.move (call : BankCall) (bank : RelayBank) :
    bank.Move call.target? (call.step.state bank) (call.step.commands bank) := by
  cases call with
  | set i on => apply RelayBank.move_set
  | turnOn i => apply RelayBank.move_set
  | turnOff i => apply RelayBank.move_set
  | toggle i => apply RelayBank.move_set
  | indicateAll => apply RelayBank.Move.indicate
  | continuePulse i => apply RelayBank.move_continuePulse

theorem BankCall.exists_set {call : BankCall} {i : Nat} {bank other : RelayBank}
    (h : call.target? = some i) (hget : bank.get? i = other.get? i) :
    ∃ on, call.step bank = RelayBank.set i on bank ∧ call.step other = RelayBank.set i on other := by
  cases call with
  | indicateAll | continuePulse => cases h
  | set | turnOn | turnOff =>
    cases h
    exact ⟨_, rfl, rfl⟩
  | toggle =>
    cases h
    have hon : bank.isOn i = other.isOn i := by
      unfold RelayBank.isOn
      rw [hget]
    refine ⟨!bank.isOn i, rfl, ?_⟩
    rw [hon]
    rfl

end WallSwitch
