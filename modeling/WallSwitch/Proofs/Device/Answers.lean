import WallSwitch.Proofs.Device.Requests

/-!
This module contains what a turn of a button can do. A switch answers for itself: it sets relays,
notes its own long presses, and only speaks and schedules in its own name. The button that resets the
device schedules its own hold time and the reset.
-/

namespace WallSwitch

namespace Controller

structure Answers (switch : Switch) (controller : Controller) (step : Step Controller) : Prop where
  state : ∃ (relays : RelayBank) (longPressed : Vector Bool 5),
    step.state controller = { controller with relays := relays, longPressed := longPressed }
      ∧ ∀ i, i ≠ switch.index → longPressed[i]? = controller.longPressed[i]?
  topics : ∀ command ∈ step.commands controller,
    command.topic ∈ [.outputs, .settings, .switch switch.index, .hold switch.button]

variable {controller : Controller} {switch : Switch} {first second : Step Controller} {i : Nat}

namespace Answers

theorem of_relays {step : Step Controller}
    (hstate : ∃ relays, step.state controller = { controller with relays := relays })
    (htopics : ∀ command ∈ step.commands controller,
      command.topic = .outputs ∨ command.topic = .settings) : Answers switch controller step where
  state := by
    obtain ⟨relays, hrelays⟩ := hstate
    exact ⟨relays, controller.longPressed, hrelays, fun _ _ => rfl⟩
  topics := by
    intro command hmem
    rcases htopics command hmem with h | h <;> simp [h]

theorem skip : Answers switch controller .skip :=
  of_relays ⟨controller.relays, rfl⟩ (by simp)

theorem andThen (hfirst : Answers switch controller first)
    (hsecond : Answers switch (first.state controller) second) :
    Answers switch controller (first.andThen second) where
  state := by
    obtain ⟨relays, longPressed, hstate, hothers⟩ := hfirst.state
    obtain ⟨relays', longPressed', hstate', hothers'⟩ := hsecond.state
    refine ⟨relays', longPressed', ?_, ?_⟩
    . rw [Step.state_andThen, hstate', hstate]
    . intro i hi
      rw [hothers' i hi, hstate, hothers i hi]
  topics := by
    intro command hmem
    rw [Step.commands_andThen, List.mem_append] at hmem
    exact hmem.elim (hfirst.topics command) (hsecond.topics command)

theorem choose {f : Controller → Step Controller} (h : Answers switch controller (f controller)) :
    Answers switch controller (.choose f) :=
  ⟨h.state, h.topics⟩

theorem ite {c : Prop} [Decidable c] (hfirst : Answers switch controller first)
    (hsecond : Answers switch controller second) :
    Answers switch controller (if c then first else second) := by
  split
  . exact hfirst
  . exact hsecond

theorem emit {f : Controller → List Command}
    (h : ∀ command ∈ f controller,
      command.topic = .switch switch.index ∨ command.topic = .hold switch.button) :
    Answers switch controller (.emit f) where
  state := ⟨controller.relays, controller.longPressed, rfl, fun _ _ => rfl⟩
  topics := by
    intro command hmem
    rcases h command hmem with h | h <;> simp [h]

theorem setLongPressed (long : Bool) :
    Answers switch controller (setLongPressed switch.index long) where
  state := by
    refine ⟨controller.relays, _, rfl, ?_⟩
    intro i hi
    exact Vector.getElem?_setIfInBounds_ne hi.symm
  topics := by simp [Controller.setLongPressed]

theorem setRelay (i : Nat) (on : Bool) : Answers switch controller (setRelay i on) := by
  apply of_relays _ topic_setRelay
  unfold Controller.setRelay
  rw [Step.state_choose]
  split
  . exact ⟨_, rfl⟩
  . exact ⟨controller.relays, rfl⟩

theorem actOnRelay (closed? : Option Bool) :
    Answers switch controller (actOnRelay switch closed?) := by
  unfold Controller.actOnRelay
  split
  . exact skip
  . split
    . exact setRelay _ _
    . exact setRelay _ _
    . exact choose (setRelay _ _)

theorem sendBound (closed? : Option Bool) :
    Answers switch controller (sendBound switch.index switch closed?) := by
  apply emit
  intro command hmem
  rw [List.mem_singleton.mp hmem]
  exact .inl rfl

theorem report (action : PressAction) :
    Answers switch controller (.emit fun _ => [.report switch.index action]) := by
  apply emit
  intro command hmem
  rw [List.mem_singleton.mp hmem]
  exact .inl rfl

theorem onFlip (closed : Bool) : Answers switch controller (onFlip switch.index switch closed) :=
  (report _).andThen ((ite skip (actOnRelay _)).andThen (sendBound _))

theorem onStage (stage : PressStage) : Answers switch controller (onStage switch stage) :=
  (ite (actOnRelay none) skip).andThen (ite (sendBound none) skip)

theorem onDown : Answers switch controller (onDown switch.index switch) := by
  apply (setLongPressed false).andThen
  apply Answers.andThen
  . apply emit
    simp [Command.topic, Task.topic]
  . exact onStage _

theorem onUp : Answers switch controller (onUp switch.index switch) := by
  unfold Controller.onUp
  apply Answers.andThen
  . apply emit
    simp [Command.topic, Task.topic]
  . exact choose (ite skip (onStage _))

theorem onLongPress : Answers switch controller (onLongPress switch.index switch) :=
  (setLongPressed true).andThen ((report _).andThen (onStage _))

theorem onSwitchMoved (h : controller.switch? i = some switch) (hindex : switch.index = i)
    (closed : Bool) : Answers switch controller (onSwitchMoved i closed) := by
  subst hindex
  unfold Controller.onSwitchMoved
  apply choose
  rw [h]
  dsimp only
  split
  . exact onFlip closed
  . exact ite onDown onUp
  . exact ite onDown onUp

theorem onSwitchHeld (h : controller.switch? i = some switch) (hindex : switch.index = i) :
    Answers switch controller (onSwitchHeld i) := by
  subst hindex
  unfold Controller.onSwitchHeld
  apply choose
  rw [h]
  exact ite onLongPress skip

end Answers

end Controller

namespace Prompt

/-! ### The step of a prompt, by what its button does -/

section Steps

variable {controller : Controller} {button i : Nat} {event : ContactEvent}

theorem step_of_none {prompt : Prompt} (h : controller.contacts.action? prompt.button = none) :
    prompt.step controller = (controller, []) := by
  cases prompt with
  | moved event =>
    change controller.contacts.action? event.index = none at h
    simp [step, Controller.onContact, Step.choose, h, Step.skip]
  | held button =>
    change controller.contacts.action? button = none at h
    simp [step, Controller.onHoldElapsed, Step.choose, h, Step.skip]

theorem moved_of_factoryReset (h : controller.contacts.action? event.index = some .factoryReset) :
    (moved event).step controller
      =
    (controller,
      [if event.closed then .schedule (.buttonHold event.index) Controller.resetHoldMs
        else .cancel (.buttonHold event.index)]) := by
  simp only [step, Controller.onContact, Step.choose, h, Step.emit]
  split <;> rfl

theorem held_of_factoryReset (h : controller.contacts.action? button = some .factoryReset) :
    (held button).step controller
      =
    if controller.contacts.isClosed button then
      ({ controller with resets := ⟨some .full⟩ }, [.schedule .reset ResetTimer.standardDelay])
    else
      (controller, []) := by
  simp only [step, Controller.onHoldElapsed, Step.choose, h]
  split <;> rfl

theorem moved_of_switch (h : controller.contacts.action? event.index = some (.switch i)) :
    (moved event).step controller = Controller.onSwitchMoved i event.closed controller := by
  simp [step, Controller.onContact, Step.choose, h]

theorem held_of_switch (h : controller.contacts.action? button = some (.switch i)) :
    (held button).step controller = Controller.onSwitchHeld i controller := by
  simp [step, Controller.onHoldElapsed, Step.choose, h]

theorem answers_of_switch {prompt : Prompt} {switch : Switch}
    (haction : controller.contacts.action? prompt.button = some (.switch i))
    (hswitch : controller.switch? i = some switch) (hindex : switch.index = i) :
    controller.Answers switch prompt.step := by
  cases prompt with
  | moved event =>
    have hanswers := Controller.Answers.onSwitchMoved hswitch hindex event.closed
    have hstep := moved_of_switch haction
    exact ⟨by rw [Step.state, hstep]; exact hanswers.state,
      by rw [Step.commands, hstep]; exact hanswers.topics⟩
  | held button =>
    rw [button_held] at haction
    have hanswers := Controller.Answers.onSwitchHeld hswitch hindex
    have hstep := held_of_switch haction
    exact ⟨by rw [Step.state, hstep]; exact hanswers.state,
      by rw [Step.commands, hstep]; exact hanswers.topics⟩

end Steps

/-! ### Any prompt -/

def topics (controller : Controller) (prompt : Prompt) : List Topic :=
  match controller.contacts.action? prompt.button with
  | none => []
  | some .factoryReset => [.hold prompt.button, .reset]
  | some (.switch i) => [.outputs, .settings, .switch i, .hold prompt.button]

variable {controller : Controller} {prompt : Prompt}

theorem topic_mem_topics (h : controller.Matched) :
    ∀ command ∈ prompt.step.commands controller, command.topic ∈ prompt.topics controller := by
  unfold topics
  split
  . next haction =>
    rw [Step.commands, step_of_none haction]
    simp
  . next haction =>
    cases prompt with
    | moved event =>
      rw [Step.commands, moved_of_factoryReset haction]
      intro command hmem
      rw [List.mem_singleton.mp hmem]
      split <;> simp [Command.topic, Task.topic, button]
    | held button =>
      rw [button_held] at haction
      rw [Step.commands, held_of_factoryReset haction]
      split
      . simp [Command.topic, Task.topic]
      . simp
  . next i haction =>
    obtain ⟨switch, hswitch, hbutton⟩ := h.switch _ _ haction
    have hindex := h.index i switch hswitch
    have hanswers := answers_of_switch haction hswitch hindex
    rw [← hbutton, ← hindex]
    exact hanswers.topics

theorem topics_apart : ∀ topic ∈ prompt.topics controller, topic ∉ [.erasure, .device] := by
  unfold topics
  split <;> simp

theorem exists_state (h : controller.Matched) (prompt : Prompt) :
    ∃ (relays : RelayBank) (longPressed : Vector Bool 5) (resets : ResetTimer),
      prompt.step.state controller
          = { controller with relays := relays, longPressed := longPressed, resets := resets }
        ∧ (∀ i, controller.contacts.action? prompt.button ≠ some (.switch i) →
          longPressed[i]? = controller.longPressed[i]?)
        ∧ (controller.contacts.action? prompt.button ≠ some .factoryReset →
          resets = controller.resets) := by
  cases haction : controller.contacts.action? prompt.button with
  | none =>
    rw [Step.state, step_of_none haction]
    exact ⟨_, _, _, rfl, fun _ _ => rfl, fun _ => rfl⟩
  | some action =>
    cases action with
    | factoryReset =>
      cases prompt with
      | moved event =>
        rw [Step.state, moved_of_factoryReset haction]
        exact ⟨_, _, _, rfl, fun _ _ => rfl, fun hne => absurd rfl hne⟩
      | held button =>
        rw [button_held] at haction
        rw [Step.state, held_of_factoryReset haction]
        split
        . exact ⟨_, _, _, rfl, fun _ _ => rfl, fun hne => absurd rfl hne⟩
        . exact ⟨_, _, _, rfl, fun _ _ => rfl, fun hne => absurd rfl hne⟩
    | switch i =>
      obtain ⟨switch, hswitch, _⟩ := h.switch _ _ haction
      have hindex := h.index i switch hswitch
      obtain ⟨relays, longPressed, hstate, hothers⟩ :=
        (answers_of_switch haction hswitch hindex).state
      refine ⟨relays, longPressed, controller.resets, hstate, ?_, fun _ => rfl⟩
      intro j hj
      apply hothers
      rintro rfl
      exact hj (by rw [hindex])

end Prompt

namespace Device

variable {device : Device} {prompt : Prompt}

/-! ### What a turn leaves alone -/

theorem contacts_prompt (h : device.part.Matched) :
    (device.step prompt.step).part.contacts = device.part.contacts := by
  obtain ⟨relays, longPressed, resets, hstate, _⟩ := prompt.exists_state h
  rw [part_step, hstate]

theorem config_prompt (device : Device) (prompt : Prompt) :
    (device.step prompt.step).part.config = device.part.config :=
  Controller.config_reaction (reacts_prompt device.part prompt)

theorem watcher_prompt (h : device.part.Matched) :
    (device.step prompt.step).part.watcher = device.part.watcher := by
  obtain ⟨relays, longPressed, resets, hstate, _⟩ := prompt.exists_state h
  rw [part_step, hstate]

theorem longPressed_prompt {i : Nat} (h : device.part.Matched)
    (hbutton : device.part.contacts.action? prompt.button ≠ some (.switch i)) :
    (device.step prompt.step).part.longPressed[i]? = device.part.longPressed[i]? := by
  obtain ⟨relays, longPressed, resets, hstate, hothers, _⟩ := prompt.exists_state h
  rw [part_step, hstate]
  exact hothers i hbutton

theorem resets_prompt (h : device.part.Matched)
    (hbutton : device.part.contacts.action? prompt.button ≠ some .factoryReset) :
    (device.step prompt.step).part.resets = device.part.resets := by
  obtain ⟨relays, longPressed, resets, hstate, _, hresets⟩ := prompt.exists_state h
  rw [part_step, hstate]
  exact hresets hbutton

theorem due_prompt {task : Task} (h : device.part.Matched)
    (htopic : task.topic ∉ prompt.topics device.part) :
    (device.step prompt.step).board.due task = device.board.due task := by
  rw [board_step]
  apply Board.due_performAll_of_topic
  intro command hmem heq
  exact htopic (heq ▸ Prompt.topic_mem_topics h command hmem)

theorem keeps_reset_prompt (h : device.part.Matched)
    (hheld : ∀ i, prompt = .held i → device.part.contacts.action? i = some .factoryReset →
      ¬ device.part.contacts.isClosed i = true) :
    (device.step prompt.step).part.resets = device.part.resets
      ∧ (device.step prompt.step).board.due .reset = device.board.due .reset := by
  by_cases haction : device.part.contacts.action? prompt.button = some .factoryReset
  . cases prompt with
    | moved event =>
      rw [part_step, board_step, Step.state, Step.commands, Prompt.moved_of_factoryReset haction]
      refine ⟨rfl, Board.due_performAll_of_topic ?_ _⟩
      intro command hmem
      rw [List.mem_singleton.mp hmem]
      split <;> simp [Command.topic, Task.topic]
    | held i =>
      rw [Prompt.button_held] at haction
      rw [part_step, board_step, Step.state, Step.commands, Prompt.held_of_factoryReset haction,
        if_neg (hheld i rfl haction)]
      exact ⟨rfl, rfl⟩
  . refine ⟨resets_prompt h haction, due_prompt h ?_⟩
    unfold Prompt.topics
    split <;> simp_all [Task.topic]

theorem erasures_prompt (h : device.part.Matched) :
    (device.step prompt.step).board.erasures = device.board.erasures := by
  rw [board_step]
  apply Board.erasures_performAll_of_topic
  intro command hmem heq
  apply Prompt.topics_apart _ (Prompt.topic_mem_topics h command hmem)
  rw [heq]
  exact List.mem_cons_self

end Device

end WallSwitch
