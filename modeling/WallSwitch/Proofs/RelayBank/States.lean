import WallSwitch.Proofs.Board.Orders
import WallSwitch.Proofs.RelayBank.Moves
import WallSwitch.Proofs.Settings.Kept

/-!
This module contains what moves of a bank do to the states of its relays, and that all that they ask
for is about the outputs.
-/

namespace WallSwitch

variable {command : Command}

theorem Command.isForMemory_of_topic (h : command.topic ∉ [.settings, .erasure]) :
    command.isForMemory = false := by
  cases command with
  | save | erase => simp [topic] at h
  | _ => rfl

theorem Led.topic_of_mem_setUp {led : Led} (h : command ∈ led.setUp) :
    command.topic = .outputs := by
  simp only [setUp, drive, List.mem_cons, List.not_mem_nil, or_false] at h
  rcases h with rfl | rfl <;> rfl

namespace Relay

variable {relay : Relay}

theorem topic_of_mem_release (h : command ∈ relay.release) : command.topic = .outputs := by
  obtain ⟨pin, _, rfl⟩ := List.mem_map.mp h
  rfl

theorem topic_of_mem_indicate (h : command ∈ relay.indicate) :
    command.topic = .outputs := by
  obtain ⟨led, _, hdrive⟩ := List.mem_flatMap.mp h
  rw [List.mem_singleton.mp hdrive]
  rfl

theorem topic_of_mem_makeKnown {i : Nat} (h : command ∈ relay.makeKnown i) :
    command.topic = .outputs := by
  rw [makeKnown, List.mem_append] at h
  cases h with
  | inl hindicate => exact topic_of_mem_indicate hindicate
  | inr htell =>
    obtain ⟨param, _, rfl⟩ := List.mem_map.mp htell
    rfl

end Relay

namespace RelayBank

variable {bank next : RelayBank} {target : Option Nat} {commands : List Command} {i j : Nat}
variable {relay new : Relay}

theorem Move.topic (hmove : bank.Move target next commands) :
    ∀ command ∈ commands, command.topic = .outputs := by
  intro command hmem
  cases hmove with
  | stay => cases hmem
  | indicate =>
    obtain ⟨relay, _, hindicate⟩ := List.mem_flatMap.mp hmem
    exact Relay.topic_of_mem_indicate hindicate
  | drive on hget hplain =>
    rw [Relay.driveCommands, List.mem_cons] at hmem
    rcases hmem with rfl | hknown
    . rfl
    . exact Relay.topic_of_mem_makeKnown hknown
  | pulse on hget hlatching hfree =>
    simp only [Relay.pulseCommands, List.mem_append, List.mem_cons, List.not_mem_nil, or_false]
      at hmem
    rcases hmem with (hrelease | rfl) | rfl | rfl | hknown
    . exact Relay.topic_of_mem_release hrelease
    . rfl
    . rfl
    . rfl
    . exact Relay.topic_of_mem_makeKnown hknown
  | postpone on hget hlatching hblocked =>
    simp only [Relay.postponeCommands, List.mem_append, List.mem_cons, List.not_mem_nil, or_false]
      at hmem
    rcases hmem with (hrelease | rfl | rfl) | hknown
    . exact Relay.topic_of_mem_release hrelease
    . rfl
    . rfl
    . exact Relay.topic_of_mem_makeKnown hknown
  | finish hget hpulse => exact Relay.topic_of_mem_release hmem
  | retry hget hpulse hfree =>
    simp only [Relay.retryCommands, List.mem_cons, List.not_mem_nil, or_false] at hmem
    rcases hmem with rfl | rfl <;> rfl
  | wait hget hpulse hblocked =>
    rw [List.mem_singleton.mp hmem]
    rfl

theorem Move.isForMemory (hmove : bank.Move target next commands) :
    ∀ command ∈ commands, command.isForMemory = false := by
  intro command hmem
  apply Command.isForMemory_of_topic
  simp [hmove.topic command hmem]

def states (bank : RelayBank) : List Bool :=
  bank.relays.map (·.isOn)

@[simp]
theorem length_states (bank : RelayBank) : bank.states.length = bank.size := by
  simp [states, size]

theorem states_put : (bank.put i relay).states = bank.states.set i relay.isOn := by
  unfold states put
  exact List.map_set

theorem states_put_of_eq (hget : bank.get? i = some relay) (hon : new.isOn = relay.isOn) :
    (bank.put i new).states = bank.states := by
  rw [states_put, hon, ← states_put, put_self hget]

@[simp]
theorem states_yieldSupply : (bank.yieldSupply i).states = bank.states := by
  unfold yieldSupply
  split <;> rfl

theorem Move.states_eq (hmove : bank.Move none next commands) : next.states = bank.states := by
  cases hmove with
  | stay | indicate | wait => rfl
  | finish hget hpulse =>
    rw [states_yieldSupply]
    exact states_put_of_eq hget (Relay.isOn_withPulse _ _)
  | retry hget hpulse hfree => exact states_put_of_eq hget (Relay.isOn_withPulse _ _)

theorem states_put_of_ne (h : i ≠ j) : (bank.put i relay).states[j]? = bank.states[j]? := by
  rw [states_put, List.getElem?_set_ne h]

theorem Move.states_of_ne (hmove : bank.Move target next commands) (h : target ≠ some j) :
    next.states[j]? = bank.states[j]? := by
  cases hmove with
  | stay | indicate | wait => rfl
  | drive | pulse | postpone =>
    apply states_put_of_ne
    rintro rfl
    exact h rfl
  | finish hget hpulse => rw [(Move.finish hget hpulse).states_eq]
  | retry hget hpulse hfree => rw [(Move.retry hget hpulse hfree).states_eq]

theorem states_set (bank : RelayBank) (i : Nat) (on : Bool) :
    ((set i on).state bank).states = bank.states.set i on := by
  unfold Step.state
  cases hget : bank.get? i with
  | none =>
    have hsize : bank.relays.length ≤ i := List.getElem?_eq_none_iff.mp hget
    rw [set_of_size_le hsize, List.set_eq_of_length_le (by simpa [states] using hsize)]
  | some relay =>
    cases hlatching : relay.drive.isLatching with
    | false =>
      rw [set_of_plain on hget hlatching]
      exact states_put
    | true =>
      cases h : bank.isBlocked i with
      | false =>
        rw [set_of_not_isBlocked on hget hlatching h]
        exact states_put
      | true =>
        rw [set_of_isBlocked on hget hlatching h]
        exact states_put

theorem isOn_eq_states (bank : RelayBank) (i : Nat) : bank.isOn i = bank.states[i]?.getD false := by
  unfold isOn states get?
  rw [List.getElem?_map]
  cases bank.relays[i]? <;> rfl

theorem states_of_lt_size (h : i < bank.size) : bank.states[i]? = some (bank.isOn i) := by
  rw [isOn_eq_states, List.getElem?_eq_getElem (by simpa using h)]
  rfl

theorem isOn_set (h : i < bank.size) (on : Bool) : ((set i on).state bank).isOn i = on := by
  rw [isOn_eq_states, states_set, List.getElem?_set_self (by simpa using h)]
  rfl

theorem topic_setUp : ∀ command ∈ setUp.commands bank, command.topic = .outputs := by
  intro command hmem
  obtain ⟨relay, _, hsetUp⟩ := List.mem_flatMap.mp hmem
  rw [Relay.setUp, List.mem_append, List.mem_append] at hsetUp
  rcases hsetUp with (hconfigure | hrelease) | hled
  . obtain ⟨pin, _, rfl⟩ := List.mem_map.mp hconfigure
    rfl
  . exact Relay.topic_of_mem_release hrelease
  . obtain ⟨led, _, hcommand⟩ := List.mem_flatMap.mp hled
    exact Led.topic_of_mem_setUp hcommand

theorem isForMemory_setUp : ∀ command ∈ setUp.commands bank, command.isForMemory = false := by
  intro command hmem
  apply Command.isForMemory_of_topic
  simp [topic_setUp command hmem]

end RelayBank

end WallSwitch
