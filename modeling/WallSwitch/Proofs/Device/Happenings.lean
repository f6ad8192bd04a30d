import WallSwitch.Proofs.Device.Positions

/-!
This module contains runs of a device on a board that keeps to nothing. Besides the events of a run,
tasks are run that are not on the agenda, and the board becomes another one at any time. The buttons
take their turns all the same.
-/

namespace WallSwitch

inductive Happening where
  | event (event : DeviceEvent)
  /-- A task is run, whatever is on the agenda. -/
  | task (task : Task)
  /-- The board changes in whatever way. -/
  | board (change : Board → Board)

namespace Device

def meet (device : Device) : Happening → Device
  | .event event => device.happen event
  | .task task => fire task device
  | .board change => ⟨device.part, change device.board⟩

def through (device : Device) (happenings : List Happening) : Device :=
  happenings.foldl meet device

/--
The device when it has met with something, and has not dealt with the prompts that come of it.
-/
def absorb (device : Device) : Happening → Device
  | .event event => device.receive event
  | .task .settle => device.noted.drained
  | .task (.buttonHold _) => device
  | happening => device.meet happening

def promptsOf (device : Device) : Happening → List Prompt
  | .event event => device.prompts event
  | .task .settle => device.noted.part.contacts.queue.map .moved
  | .task (.buttonHold i) => [.held i]
  | _ => []

theorem receive_fire (device : Device) (task : Task) (time : Nat) :
    device.receive (.fire task time) = (device.begun task time).absorb (.task task) := by
  cases task <;> rfl

theorem meet_eq (device : Device) (happening : Happening) :
    device.meet happening = (device.absorb happening).dealWith (device.promptsOf happening) := by
  cases happening with
  | event event => exact device.happen_eq event
  | task task =>
    cases task with
    | settle => exact device.settle_eq
    | _ => rfl
  | board change => rfl

/--
What the device does when it meets with something is what the turns do that this prompts, one after the
other.
-/
def MeetsInTurns (device : Device) (happening : Happening) : Prop :=
  device.meet happening = (device.absorb happening).dealWith (device.promptsOf happening)

def turnsThrough (device : Device) : List Happening → List Turn
  | [] => []
  | happening :: happenings =>
    (device.absorb happening).turnsFrom (device.promptsOf happening)
      ++ turnsThrough (device.meet happening) happenings

def Throughout (Allowed : Device → Happening → Prop) (device : Device) : List Happening → Prop
  | [] => True
  | happening :: happenings =>
    Allowed device happening ∧ Throughout Allowed (device.meet happening) happenings

instance decidableThroughout (Allowed : Device → Happening → Prop)
    [∀ device happening, Decidable (Allowed device happening)] :
    (device : Device) → (happenings : List Happening) →
      Decidable (device.Throughout Allowed happenings)
  | _, [] => .isTrue trivial
  | device, happening :: happenings =>
    have := decidableThroughout Allowed (device.meet happening) happenings
    inferInstanceAs (Decidable (Allowed device happening
      ∧ Throughout Allowed (device.meet happening) happenings))

theorem throughout_of_forall {Allowed : Device → Happening → Prop}
    (h : ∀ device happening, Allowed device happening) (happenings : List Happening) :
    ∀ device : Device, device.Throughout Allowed happenings := by
  induction happenings with
  | nil =>
    intro device
    trivial
  | cons happening happenings ih =>
    intro device
    exact ⟨h device happening, ih _⟩

theorem through_induction {Allowed : Device → Happening → Prop}
    {P : Device → List Prompt → List Turn → Prop}
    (habsorb : ∀ device happening turns, Allowed device happening → P device [] turns →
      P (device.absorb happening) (device.promptsOf happening) turns)
    (hturn : ∀ device prompt prompts turns, P device (prompt :: prompts) turns →
      P (device.step prompt.step) prompts (turns ++ [⟨device, prompt⟩]))
    (happenings : List Happening) :
    ∀ (device : Device) (turns : List Turn), device.Throughout Allowed happenings →
      P device [] turns → P (device.through happenings) [] (turns ++ device.turnsThrough happenings) := by
  induction happenings with
  | nil =>
    intro device turns _ h
    simpa [turnsThrough, through] using h
  | cons happening happenings ih =>
    intro device turns hallowed h
    have hdealt := dealWith_induction hturn _ _ _ (habsorb device happening turns hallowed.1 h)
    rw [← meet_eq] at hdealt
    have hlater := ih _ _ hallowed.2 hdealt
    rw [List.append_assoc] at hlater
    exact hlater

/-! ### Contacts -/

variable {device : Device} {start : Nat → Bool} {turns : List Turn}

theorem watched_absorb (device : Device) (happening : Happening) :
    (device.absorb happening).part.watcher.watched = device.part.watcher.watched := by
  cases happening with
  | event event => exact device.watched_receive event
  | task task => cases task <;> rfl
  | board change => rfl

theorem Attends.absorb (h : device.Attends) (happening : Happening) :
    (device.absorb happening).Attends
      ∧ ∀ button, Alternates (device.part.contacts.isClosed button)
        (Prompt.positions button (device.promptsOf happening))
        ((device.absorb happening).part.contacts.isClosed button) := by
  -- Most of what a device meets with prompts nothing and leaves the contacts and the pins alone.
  have hkept {next : Device} (hcontacts : next.part.contacts = device.part.contacts)
      (hconfig : next.part.config = device.part.config)
      (hwatched : next.part.watcher.watched = device.part.watcher.watched) :
      next.Attends ∧ ∀ button, Alternates (device.part.contacts.isClosed button) []
        (next.part.contacts.isClosed button) := by
    have hwiring : next.part.wiring = device.part.wiring := by
      unfold Controller.wiring
      rw [hcontacts, hconfig]
    refine ⟨⟨h.matched.congr hwiring, hcontacts ▸ h.queue, hwatched ▸ h.few⟩, ?_⟩
    intro button
    rw [hcontacts]
    rfl
  cases happening with
  | event event => exact h.receive event
  | task task =>
    cases task with
    | settle => exact ⟨⟨h.matched.congr device.wiring_noted, rfl, h.few⟩, h.exists_noted.2⟩
    | _ => exact hkept rfl rfl rfl
  | board change => exact hkept rfl rfl rfl

theorem Accounted.absorb (h : Accounted start device [] turns) (happening : Happening) :
    Accounted start (device.absorb happening) (device.promptsOf happening) turns :=
  h.receive_into (h.attends.absorb happening)

theorem Attends.accounted_through (h : device.Attends) (happenings : List Happening) :
    Accounted device.part.contacts.isClosed (device.through happenings) []
      (device.turnsThrough happenings) :=
  through_induction (fun _ happening _ _ hnext => hnext.absorb happening)
    (fun _ _ _ _ hnext => hnext.turn) happenings device []
    (throughout_of_forall (fun _ _ => trivial) happenings device) ⟨h, fun _ => rfl⟩

theorem Attends.watched_through (h : device.Attends) (happenings : List Happening) :
    (device.through happenings).part.watcher.watched = device.part.watcher.watched := by
  have hkept := through_induction
    (P := fun next _ _ => next.Attends ∧ next.part.watcher.watched = device.part.watcher.watched)
    (fun next happening _ _ hnext =>
      ⟨(hnext.1.absorb happening).1, (next.watched_absorb happening).trans hnext.2⟩)
    (fun next prompt _ _ hnext =>
      ⟨hnext.1.turn prompt, by rw [watcher_prompt hnext.1.matched, hnext.2]⟩)
    happenings device [] (throughout_of_forall (fun _ _ => trivial) happenings device) ⟨h, rfl⟩
  exact hkept.2

end Device

end WallSwitch
