import WallSwitch.Device.Inputs

/-!
This module contains what the controller of a device does when contacts move and hold times end. All
of it comes down to five things, one after the other: relays are set, messages go out, notes are
taken of contacts and long presses, and a reset may be asked for.
-/

namespace WallSwitch

def Command.isMessage : Command → Bool
  | .schedule .. | .cancel _ | .report .. | .sendBound .. => true
  | _ => false

namespace Controller

/--
What a controller can do on its own.
-/
inductive Reaction : Controller → Controller → List Command → Prop where
  | rest (controller : Controller) : Reaction controller controller []
  | setRelay (controller : Controller) (i : Nat) (on : Bool) :
    Reaction controller ((setRelay i on).state controller) ((setRelay i on).commands controller)
  | tell (controller : Controller) {commands : List Command}
      (h : ∀ command ∈ commands, command.isMessage = true) :
    Reaction controller controller commands
  | note (controller : Controller) (contacts : Contacts) (longPressed : Vector Bool 5)
      (h : contacts.contacts.map (·.button) = controller.contacts.contacts.map (·.button)) :
    Reaction controller { controller with contacts := contacts, longPressed := longPressed } []
  | askReset (controller : Controller) (resets : ResetTimer) {commands : List Command}
      (h : ∀ command ∈ commands, command.isMessage = true) :
    Reaction controller { controller with resets := resets } commands
  | trans {first second third : Controller} {commands more : List Command}
      (h : Reaction first second commands) (hnext : Reaction second third more) :
    Reaction first third (commands ++ more)

def Reacts (controller : Controller) (step : Step Controller) : Prop :=
  Reaction controller (step.state controller) (step.commands controller)

variable {controller : Controller} {first second : Step Controller}

namespace Reacts

theorem skip : controller.Reacts .skip := .rest controller

theorem andThen (hfirst : controller.Reacts first)
    (hsecond : (first.state controller).Reacts second) : controller.Reacts (first.andThen second) :=
  .trans hfirst hsecond

theorem choose {f : Controller → Step Controller} (h : controller.Reacts (f controller)) :
    controller.Reacts (.choose f) := h

theorem emit {f : Controller → List Command}
    (h : ∀ command ∈ f controller, command.isMessage = true) : controller.Reacts (.emit f) :=
  .tell controller h

theorem ite {c : Prop} [Decidable c] (hfirst : controller.Reacts first)
    (hsecond : controller.Reacts second) : controller.Reacts (if c then first else second) := by
  split
  . exact hfirst
  . exact hsecond

theorem setLongPressed (i : Nat) (long : Bool) : controller.Reacts (setLongPressed i long) :=
  .note controller controller.contacts _ rfl

theorem forEach {α : Type} {f : α → Step Controller} (h : ∀ controller a, Reacts controller (f a))
    (as : List α) : ∀ controller, Reacts controller (.forEach f as) := by
  induction as with
  | nil =>
    intro controller
    exact skip
  | cons a as ih =>
    intro controller
    exact (h controller a).andThen (ih _)

end Reacts

/-! ### Switches -/

theorem reacts_toggleRelay (i : Nat) : controller.Reacts (toggleRelay i) :=
  .choose (.setRelay controller i _)

theorem reacts_actOnRelay (switch : Switch) (closed? : Option Bool) :
    controller.Reacts (actOnRelay switch closed?) := by
  unfold actOnRelay
  split
  . exact .skip
  . split
    . exact .setRelay controller _ _
    . exact .setRelay controller _ _
    . exact reacts_toggleRelay _

theorem reacts_sendBound (i : Nat) (switch : Switch) (closed? : Option Bool) :
    controller.Reacts (sendBound i switch closed?) := by
  apply Reacts.emit
  simp [Command.isMessage]

theorem reacts_onFlip (i : Nat) (switch : Switch) (closed : Bool) :
    controller.Reacts (onFlip i switch closed) := by
  unfold onFlip
  apply Reacts.andThen
  . exact Reacts.emit (by simp [Command.isMessage])
  . apply Reacts.andThen
    . exact Reacts.ite .skip (reacts_actOnRelay switch _)
    . exact reacts_sendBound i switch _

theorem reacts_onStage (switch : Switch) (stage : PressStage) :
    controller.Reacts (onStage switch stage) := by
  unfold onStage
  apply Reacts.andThen
  . exact Reacts.ite (reacts_actOnRelay switch none) .skip
  . exact Reacts.ite (reacts_sendBound _ switch none) .skip

theorem reacts_onDown (i : Nat) (switch : Switch) : controller.Reacts (onDown i switch) := by
  unfold onDown
  apply Reacts.andThen (.setLongPressed i false)
  apply Reacts.andThen
  . exact Reacts.emit (by simp [Command.isMessage])
  . exact reacts_onStage switch _

theorem reacts_onUp (i : Nat) (switch : Switch) : controller.Reacts (onUp i switch) := by
  unfold onUp
  apply Reacts.andThen
  . exact Reacts.emit (by simp [Command.isMessage])
  . exact Reacts.choose (Reacts.ite .skip (reacts_onStage switch _))

theorem reacts_onLongPress (i : Nat) (switch : Switch) :
    controller.Reacts (onLongPress i switch) := by
  unfold onLongPress
  apply Reacts.andThen (.setLongPressed i true)
  apply Reacts.andThen
  . exact Reacts.emit (by simp [Command.isMessage])
  . exact reacts_onStage switch _

theorem reacts_onSwitchMoved (i : Nat) (closed : Bool) :
    controller.Reacts (onSwitchMoved i closed) := by
  unfold onSwitchMoved
  apply Reacts.choose
  split
  . exact .skip
  . split
    . exact reacts_onFlip i _ closed
    . exact Reacts.ite (reacts_onDown i _) (reacts_onUp i _)
    . exact Reacts.ite (reacts_onDown i _) (reacts_onUp i _)

theorem reacts_onSwitchHeld (i : Nat) : controller.Reacts (onSwitchHeld i) := by
  unfold onSwitchHeld
  apply Reacts.choose
  split
  . exact .skip
  . exact Reacts.ite (reacts_onLongPress i _) .skip

/-! ### Contacts and holds -/

theorem reacts_askReset (kind : ResetKind) (delay : Nat) :
    controller.Reacts (onResets (ResetTimer.schedule kind delay)) := by
  apply Reaction.askReset controller _
  intro command hmem
  rw [List.mem_singleton.mp hmem]
  rfl

theorem reacts_onContact (event : ContactEvent) : controller.Reacts (onContact event) := by
  unfold onContact
  apply Reacts.choose
  split
  . exact .skip
  . apply Reacts.emit
    split <;> simp [Command.isMessage]
  . exact reacts_onSwitchMoved _ _

theorem reacts_onHoldElapsed (i : Nat) : controller.Reacts (onHoldElapsed i) := by
  unfold onHoldElapsed
  apply Reacts.choose
  split
  . exact .skip
  . exact Reacts.ite (reacts_askReset .full 0) .skip
  . exact reacts_onSwitchHeld _

theorem reacts_handleContacts : controller.Reacts handleContacts := by
  unfold handleContacts
  apply Reacts.choose
  apply Reacts.andThen
  . exact .note controller _ controller.longPressed rfl
  . exact Reacts.forEach (fun _ event => reacts_onContact event) _ _

theorem buttons_onLevel (contacts : Contacts) (i : Nat) (high : Bool) :
    (contacts.onLevel i high).contacts.map (·.button) = contacts.contacts.map (·.button) := by
  unfold Contacts.onLevel
  split
  . rfl
  . next contact hget =>
    dsimp only
    split
    . rfl
    . have hset : (contacts.contacts.set i { contact with
          closed := Contact.closedAt contact.button.pull high }).map (·.button)
            = contacts.contacts.map (·.button) := by
        apply List.ext_getElem?
        intro j
        rw [List.getElem?_map, List.getElem?_map, List.getElem?_set]
        split
        . next heq =>
          subst heq
          rw [if_pos (List.getElem?_eq_some_iff.mp hget).1, hget]
          rfl
        . rfl
      unfold Contacts.enqueue
      split <;> exact hset

theorem reacts_takeNotifications (notifications : List (Notification Nat)) :
    controller.Reacts (takeNotifications notifications) := by
  apply Reaction.note controller _ controller.longPressed
  generalize controller.contacts = contacts
  induction notifications generalizing contacts with
  | nil => rfl
  | cons notification notifications ih =>
    rw [List.foldl_cons, ih, buttons_onLevel]

end Controller

end WallSwitch
