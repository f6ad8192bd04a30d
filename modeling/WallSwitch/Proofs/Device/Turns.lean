import WallSwitch.Proofs.Board.Orders
import WallSwitch.Proofs.Device.Matching

/-!
This module contains a run of a device as the turns that its buttons take. Contacts that moved are
dealt with one after the other, each on the device that the one before left behind, and so is a hold
time that ends. All else that happens to a device is none of the buttons' business.
-/

namespace WallSwitch

inductive Prompt where
  | moved (event : ContactEvent)
  /-- The time for which the button is held is over. -/
  | held (button : Nat)
deriving DecidableEq, Repr

namespace Prompt

def button : Prompt → Nat
  | .moved event => event.index
  | .held button => button

@[simp]
theorem button_moved (event : ContactEvent) : (moved event).button = event.index := rfl

@[simp]
theorem button_held (i : Nat) : (held i).button = i := rfl

def step : Prompt → Step Controller
  | .moved event => Controller.onContact event
  | .held button => Controller.onHoldElapsed button

theorem held_not_mem_of_alone {prompt : Prompt} {prompts : List Prompt} {button : Nat}
    (h : .held button ∈ prompt :: prompts → prompt :: prompts = [.held button]) :
    .held button ∉ prompts := by
  intro hmem
  have halone := h (List.mem_cons_of_mem prompt hmem)
  rw [List.cons.injEq] at halone
  rw [halone.2] at hmem
  cases hmem

end Prompt

/--
A prompt, and the device that deals with it.
-/
structure Turn where
  before : Device
  prompt : Prompt

namespace Turn

def commands (turn : Turn) : List Command :=
  turn.prompt.step.commands turn.before.part

def time (turn : Turn) : Nat :=
  turn.before.board.now

def button (turn : Turn) : Nat :=
  turn.prompt.button

end Turn

namespace Device

/-! ### Prompts -/

/--
The device when it has taken notes of what a pass found, and has dealt with none of it.
-/
def noted (device : Device) : Device :=
  device.passed.step
    (Controller.takeNotifications (device.part.watcher.pass device.board).1)

def drained (device : Device) : Device :=
  device.step (.update fun controller =>
    { controller with contacts := controller.contacts.drain.2 })

/--
The device when something has happened, and it has not dealt with the prompts that come of it.
-/
def receive (device : Device) : DeviceEvent → Device
  | .fire .settle time => (device.begun .settle time).noted.drained
  | .fire (.buttonHold i) time => device.begun (.buttonHold i) time
  | event => device.happen event

def prompts (device : Device) : DeviceEvent → List Prompt
  | .fire .settle time => (device.begun .settle time).noted.part.contacts.queue.map .moved
  | .fire (.buttonHold i) _ => [.held i]
  | _ => []

def dealWith (device : Device) (prompts : List Prompt) : Device :=
  prompts.foldl (fun device prompt => device.step prompt.step) device

theorem step_andThen (device : Device) (first second : Step Controller) :
    device.step (first.andThen second) = (device.step first).step second :=
  Wired.step_andThen device first second

theorem step_forEach (events : List ContactEvent) :
    ∀ (device : Device),
      device.step (.forEach Controller.onContact events) = device.dealWith (events.map .moved) := by
  induction events with
  | nil =>
    intro device
    rfl
  | cons event events ih =>
    intro device
    unfold Step.forEach
    rw [step_andThen, ih]
    rfl

theorem settle_eq (device : Device) :
    device.settle
      =
    device.noted.drained.dealWith (device.noted.part.contacts.queue.map .moved) := by
  rw [← step_forEach]
  unfold drained
  rw [← step_andThen]
  unfold settle noted passed
  obtain ⟨notifications, watcher, board⟩ := device.part.watcher.pass device.board
  dsimp only
  rw [step_andThen]
  rfl

theorem happen_eq (device : Device) (event : DeviceEvent) :
    device.happen event = (device.receive event).dealWith (device.prompts event) := by
  cases event with
  | fire task time =>
    cases task with
    | settle => exact settle_eq _
    | _ => rfl
  | _ => rfl

/-! ### Turns -/

def turnsFrom (device : Device) : List Prompt → List Turn
  | [] => []
  | prompt :: prompts => ⟨device, prompt⟩ :: turnsFrom (device.step prompt.step) prompts

def turns (device : Device) : List DeviceEvent → List Turn
  | [] => []
  | event :: events =>
    (device.receive event).turnsFrom (device.prompts event) ++ turns (device.happen event) events

/--
What an event does to the device is what the turns do that it prompts, one after the other.
-/
def TakesTurns (device : Device) (event : DeviceEvent) : Prop :=
  device.happen event = (device.receive event).dealWith (device.prompts event)

theorem along_takesTurns (device : Device) (events : List DeviceEvent) :
    device.Along TakesTurns events :=
  along_of_forall (fun next event _ => next.happen_eq event) device

/-! ### Induction over turns -/

section Induction

variable {Allowed : Device → DeviceEvent → Prop}

-- What holds of a device, the prompts that it has yet to deal with, and the turns so far.
variable {P : Device → List Prompt → List Turn → Prop}

variable (hturn : ∀ device prompt prompts turns, P device (prompt :: prompts) turns →
  P (device.step prompt.step) prompts (turns ++ [⟨device, prompt⟩]))

include hturn in
theorem dealWith_induction (prompts : List Prompt) :
    ∀ (device : Device) (turns : List Turn), P device prompts turns →
      P (device.dealWith prompts) [] (turns ++ device.turnsFrom prompts) := by
  induction prompts with
  | nil =>
    intro device turns h
    simpa [dealWith, turnsFrom] using h
  | cons prompt prompts ih =>
    intro device turns h
    have hnext := ih _ _ (hturn device prompt prompts turns h)
    rw [List.append_assoc] at hnext
    exact hnext

/--
What every event leaves true until its prompts are dealt with, and every turn leaves true, is true
after a run.
-/
theorem turns_induction
    (hreceive : ∀ device event turns, Allowed device event → P device [] turns →
      P (device.receive event) (device.prompts event) turns)
    (hturn : ∀ device prompt prompts turns, P device (prompt :: prompts) turns →
      P (device.step prompt.step) prompts (turns ++ [⟨device, prompt⟩]))
    (events : List DeviceEvent) :
    ∀ (device : Device) (turns : List Turn), device.Along Allowed events → P device [] turns →
      P (device.after events) [] (turns ++ device.turns events) := by
  induction events with
  | nil =>
    intro device turns _ h
    simpa [Device.turns] using h
  | cons event events ih =>
    intro device turns hallowed h
    have hdealt := dealWith_induction hturn _ _ _ (hreceive device event turns hallowed.1 h)
    rw [← happen_eq] at hdealt
    have hlater := ih _ _ hallowed.2 hdealt
    rw [List.append_assoc] at hlater
    exact hlater

end Induction

/-! ### Wiring -/

open Controller

theorem wiring_noted (device : Device) : device.noted.part.wiring = device.part.wiring := by
  have hnoted : device.noted.part.wiring = device.passed.part.wiring :=
    wiring_reaction (reacts_takeNotifications _)
  exact hnoted

theorem wiring_receive (device : Device) (event : DeviceEvent) :
    (device.receive event).part.wiring = device.part.wiring := by
  cases event with
  | call asked => exact wiring_call asked
  | reconfigure bytes =>
    simp only [receive, happen, reconfigure]
    cases ConfigText.ofBytes bytes <;> rfl
  | fire task time =>
    cases task with
    | settle => exact (device.begun .settle time).wiring_noted
    | _ => rfl
  | input pin high =>
    simp only [receive, happen, input, Wired.input]
    split <;> rfl
  | board event => rfl

theorem reacts_prompt (controller : Controller) (prompt : Prompt) :
    controller.Reacts prompt.step := by
  cases prompt with
  | moved event => exact reacts_onContact event
  | held button => exact reacts_onHoldElapsed button

theorem config_dealWith (prompts : List Prompt) :
    ∀ device : Device, (device.dealWith prompts).part.config = device.part.config := by
  induction prompts with
  | nil =>
    intro device
    rfl
  | cons prompt prompts ih =>
    intro device
    exact (ih _).trans (config_reaction (reacts_prompt device.part prompt))

theorem wiring_prompt (device : Device) (prompt : Prompt) :
    (device.step prompt.step).part.wiring = device.part.wiring :=
  wiring_reaction (reacts_prompt device.part prompt)

theorem wiring_after (device : Device) (events : List DeviceEvent) :
    (device.after events).part.wiring = device.part.wiring :=
  turns_induction (P := fun next _ _ => next.part.wiring = device.part.wiring)
    (fun next event _ _ h => (wiring_receive next event).trans h)
    (fun next prompt _ _ h => (wiring_prompt next prompt).trans h)
    events device [] (along_of_forall (fun _ _ _ => trivial) device) rfl

end Device

end WallSwitch
