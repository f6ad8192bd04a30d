import WallSwitch.Device.Inputs
import WallSwitch.Proofs.RelayBank.States
import WallSwitch.Proofs.ResetTimer.History

/-!
This module contains what the commands are about that the parts of a device ask for, one operation
after the other, and which of them leave the settings memory alone.
-/

namespace WallSwitch

theorem Record.topic_save {α : Type} [Record α] {key : Nat} {record : α} :
    ∀ command ∈ Record.save key record, command.topic = .settings := by
  intro command hmem
  obtain ⟨item, _, rfl⟩ := List.mem_map.mp hmem
  rfl

theorem StatusLight.topic_refresh {light : StatusLight} :
    ∀ command ∈ refresh.commands light, command.topic = .outputs := by
  intro command hmem
  obtain ⟨led, _, hdrive⟩ := List.mem_flatMap.mp hmem
  rw [List.mem_singleton.mp hdrive]
  rfl

theorem PinWatcher.topic_onEdge {α : Type} {watcher : PinWatcher α} :
    ∀ command ∈ onEdge.commands watcher, command.topic = .inputs := by
  intro command hmem
  change command ∈ watcher.pins.map .disableInterrupt ++ [.schedule .settle watcher.pause] at hmem
  rw [List.mem_append, List.mem_map, List.mem_singleton] at hmem
  rcases hmem with ⟨pin, _, rfl⟩ | rfl
  . rfl
  . rfl

namespace Controller

variable {controller : Controller}

theorem topic_setRelay {i : Nat} {on : Bool} :
    ∀ command ∈ (setRelay i on).commands controller,
      command.topic = .outputs ∨ command.topic = .settings := by
  intro command hmem
  unfold setRelay at hmem
  rw [Step.commands_choose] at hmem
  split at hmem
  . rw [Step.commands_andThen, List.mem_append] at hmem
    cases hmem with
    | inl hset => exact .inl ((controller.relays.move_set i on).topic command hset)
    | inr hsave => exact .inr (Record.topic_save command hsave)
  . cases hmem

theorem topic_onStatus {status : NetworkStatus} :
    ∀ command ∈ (onStatus status).commands controller, command.topic = .outputs := by
  intro command hmem
  unfold onStatus at hmem
  rw [Step.commands_andThen, List.mem_append] at hmem
  cases hmem with
  | inl hdisplay => exact StatusLight.topic_refresh command hdisplay
  | inr hindicate =>
    split at hindicate
    . exact RelayBank.Move.indicate.topic command hindicate
    . cases hindicate

theorem topic_changeSwitch {i : Nat} {change : Switch → Switch} :
    ∀ command ∈ (changeSwitch i change).step.commands controller, command.topic = .settings := by
  intro command hmem
  simp only [changeSwitch, Request.step, Step.commands] at hmem
  split at hmem
  . cases hmem
  . exact Record.topic_save command hmem

theorem topic_acceptText {text : ConfigText} :
    ∀ command ∈ (acceptText text).commands controller,
      command.topic = .settings ∨ command.topic = .reset := by
  intro command hmem
  change command ∈ [Command.save Key.config text.bytes, .schedule .reset 300] at hmem
  simp only [List.mem_cons, List.not_mem_nil, or_false] at hmem
  rcases hmem with rfl | rfl
  . exact .inl rfl
  . exact .inr rfl

theorem topic_fireReset :
    ∀ command ∈ (onResets ResetTimer.fire).commands controller,
      command.topic = .erasure ∨ command.topic = .device :=
  ResetTimer.topic_fire

end Controller

/-! ### What does not reach the settings memory -/

theorem StatusLight.isForMemory_refresh {light : StatusLight} :
    ∀ command ∈ refresh.commands light, command.isForMemory = false := by
  intro command hmem
  apply Command.isForMemory_of_topic
  simp [topic_refresh command hmem]

theorem PinWatcher.isForMemory_onEdge {α : Type} {watcher : PinWatcher α} :
    ∀ command ∈ onEdge.commands watcher, command.isForMemory = false := by
  intro command hmem
  apply Command.isForMemory_of_topic
  simp [topic_onEdge command hmem]

theorem Controller.isForMemory_onStatus {controller : Controller} {status : NetworkStatus} :
    ∀ command ∈ (onStatus status).commands controller, command.isForMemory = false := by
  intro command hmem
  apply Command.isForMemory_of_topic
  simp [topic_onStatus command hmem]

end WallSwitch
