import WallSwitch.Proofs.Device.Answers
import WallSwitch.Proofs.Device.Fresh

/-!
This module contains the proof that a device does not erase its settings by accident: all that can
make it do so is a button that is there to reset it, and that was held from its press on until its
hold time was over.
-/

namespace WallSwitch

namespace Turn

def DownSince (turns : List Turn) (i time : Nat) : Prop :=
  ∃ first press later, turns = first ++ press :: later
    ∧ press.prompt = .moved ⟨i, true⟩ ∧ press.time = time
    ∧ ∀ turn ∈ later, turn.prompt ≠ .moved ⟨i, false⟩

/--
Button `i` went down at this time, and did not come up before the time for which it must be held was
over.
-/
def HeldSince (turns : List Turn) (i time : Nat) : Prop :=
  ∃ before held later, turns = before ++ held :: later ∧ DownSince before i time
    ∧ held.prompt = .held i ∧ held.time = time + Controller.resetHoldMs

variable {turns : List Turn} {turn : Turn} {i time : Nat}

theorem DownSince.append (h : DownSince turns i time) (hturn : turn.prompt ≠ .moved ⟨i, false⟩) :
    DownSince (turns ++ [turn]) i time := by
  obtain ⟨first, press, later, hturns, hpress, htime, hlater⟩ := h
  refine ⟨first, press, later ++ [turn], by simp [hturns], hpress, htime, ?_⟩
  rw [List.forall_mem_append]
  exact ⟨hlater, by simpa using hturn⟩

theorem HeldSince.append (h : HeldSince turns i time) (turn : Turn) :
    HeldSince (turns ++ [turn]) i time := by
  obtain ⟨before, held, later, hturns, hbefore⟩ := h
  exact ⟨before, held, later ++ [turn], by simp [hturns], hbefore⟩

end Turn

namespace Device

open Controller Turn

/--
What waits to reset the device, and to erase its settings, goes back to a press of a button that is
there for that.
-/
structure Guarded (device : Device) (prompts : List Prompt) (turns : List Turn) : Prop where
  matched : device.part.Matched
  hold : ∀ i, device.part.contacts.action? i = some .factoryReset →
    ∀ due ∈ device.board.due (.buttonHold i), ∃ time, due = time + resetHoldMs
      ∧ DownSince turns i time
  held : ∀ i, .held i ∈ prompts → prompts = [.held i]
    ∧ (device.part.contacts.action? i = some .factoryReset →
      ∃ time, device.board.now = time + resetHoldMs ∧ DownSince turns i time)
  reset : device.part.resets.pending = some .full → ∀ due ∈ device.board.due .reset,
    ∃ i time, device.part.contacts.action? i = some .factoryReset
      ∧ due = time + resetHoldMs + ResetTimer.standardDelay ∧ HeldSince turns i time

variable {device : Device} {event : DeviceEvent} {prompt : Prompt} {prompts : List Prompt}
variable {turns : List Turn} {board : Board} {role : Role} {events : List DeviceEvent}

/-! ### Receiving -/

theorem pending_of_receive
    (hpending : (device.receive event).part.resets.pending = some .full) :
    device.part.resets.pending = some .full
      ∧ (device.receive event).board.due .reset = device.board.due .reset := by
  have hkept (hreset : .reset ∉ event.topics) (herasure : .erasure ∉ event.topics) :
      device.part.resets.pending = some .full
        ∧ (device.receive event).board.due .reset = device.board.due .reset := by
    rw [resets_receive device hreset herasure] at hpending
    refine ⟨hpending, device.due_receive hreset ?_⟩
    rintro time rfl
    simp [DeviceEvent.topics] at herasure
  cases event with
  | reconfigure bytes =>
    simp only [Device.receive, happen, reconfigure] at hpending ⊢
    cases htext : ConfigText.ofBytes bytes with
    | error error =>
      rw [htext] at hpending
      exact ⟨hpending, rfl⟩
    | ok text =>
      rw [htext] at hpending
      cases hpending
  | fire task time =>
    cases task with
    | reset => cases hpending
    | _ => exact hkept (by simp [DeviceEvent.topics]) (by simp [DeviceEvent.topics])
  | call asked =>
    cases asked <;> exact hkept (by simp [DeviceEvent.topics]) (by simp [DeviceEvent.topics])
  | _ => exact hkept (by simp [DeviceEvent.topics]) (by simp [DeviceEvent.topics])

theorem Guarded.receive (h : device.Guarded [] turns) (htimely : device.IsTimely event) :
    (device.receive event).Guarded (device.prompts event) turns := by
  have hwiring := device.wiring_receive event
  refine ⟨h.matched.congr hwiring, ?_, ?_, ?_⟩
  . intro i haction due hdue
    rw [action?_congr hwiring] at haction
    exact h.hold i haction due (due_hold_receive_subset device event i hdue)
  . intro i hheld
    obtain ⟨⟨time, rfl⟩, hprompts⟩ := exists_fire_of_held_mem_prompts hheld
    exact ⟨hprompts, fun haction => h.hold i haction time htimely⟩
  . intro hpending due hdue
    obtain ⟨hfull, hsame⟩ := pending_of_receive hpending
    rw [hsame] at hdue
    obtain ⟨i, time, haction, hreset⟩ := h.reset hfull due hdue
    exact ⟨i, time, by rw [action?_congr hwiring, haction], hreset⟩

/-! ### Taking turns -/

theorem Guarded.hold_turn (h : device.Guarded (prompt :: prompts) turns) {i due : Nat}
    (haction : device.part.contacts.action? i = some .factoryReset)
    (hdue : due ∈ (device.step prompt.step).board.due (.buttonHold i)) :
    ∃ time, due = time + resetHoldMs ∧ DownSince (turns ++ [⟨device, prompt⟩]) i time := by
  have hkept (hprompt : prompt ≠ .moved ⟨i, false⟩)
      (hsame : (device.step prompt.step).board.due (.buttonHold i)
        = device.board.due (.buttonHold i)) :
      ∃ time, due = time + resetHoldMs ∧ DownSince (turns ++ [⟨device, prompt⟩]) i time := by
    obtain ⟨time, htime, hdown⟩ := h.hold i haction due (hsame ▸ hdue)
    exact ⟨time, htime, hdown.append hprompt⟩
  by_cases hbutton : prompt.button = i
  . subst hbutton
    cases prompt with
    | moved event =>
      obtain ⟨i, closed⟩ := event
      -- Going down starts the hold time anew, and coming up ends it.
      rw [board_step, Step.commands, Prompt.moved_of_factoryReset haction] at hdue
      cases closed with
      | true =>
        have hnow : due = device.board.now + resetHoldMs := by simpa using hdue
        exact ⟨device.board.now, hnow, turns, _, [], rfl, rfl, rfl, by simp⟩
      | false => simp at hdue
    | held i =>
      rw [Prompt.button_held] at haction
      apply hkept (by simp)
      rw [board_step, Step.commands, Prompt.held_of_factoryReset haction]
      split
      . exact Board.due_perform_of_topic (by simp [Command.topic, Task.topic]) _
      . rfl
  . apply hkept
    . rintro rfl
      exact hbutton rfl
    . apply due_prompt h.matched
      unfold Prompt.topics
      split <;> simp [Task.topic, Ne.symm hbutton]

theorem Guarded.reset_turn (h : device.Guarded (prompt :: prompts) turns)
    (hpending : (device.step prompt.step).part.resets.pending = some .full) {due : Nat}
    (hdue : due ∈ (device.step prompt.step).board.due .reset) :
    ∃ i time, device.part.contacts.action? i = some .factoryReset
      ∧ due = time + resetHoldMs + ResetTimer.standardDelay
      ∧ HeldSince (turns ++ [⟨device, prompt⟩]) i time := by
  by_cases hasks : ∃ i, prompt = .held i
      ∧ device.part.contacts.action? i = some .factoryReset ∧ device.part.contacts.isClosed i = true
  . obtain ⟨i, rfl, haction, hclosed⟩ := hasks
    obtain ⟨time, hnow, hdown⟩ := (h.held i List.mem_cons_self).2 haction
    rw [board_step, Step.commands, Prompt.held_of_factoryReset haction, if_pos hclosed] at hdue
    have hlater : due = device.board.now + ResetTimer.standardDelay := by simpa using hdue
    exact ⟨i, time, haction, by rw [hlater, hnow], turns, _, [], rfl, hdown, rfl, hnow⟩
  . obtain ⟨hresets, hsame⟩ := keeps_reset_prompt h.matched fun i hheld haction hclosed =>
      hasks ⟨i, hheld, haction, hclosed⟩
    rw [hresets] at hpending
    rw [hsame] at hdue
    obtain ⟨i, time, haction, htime, hheld⟩ := h.reset hpending due hdue
    exact ⟨i, time, haction, htime, hheld.append _⟩

theorem Guarded.turn (h : device.Guarded (prompt :: prompts) turns) :
    (device.step prompt.step).Guarded prompts (turns ++ [⟨device, prompt⟩]) := by
  have hwiring := wiring_prompt device prompt
  refine ⟨h.matched.congr hwiring, ?_, ?_, ?_⟩
  . intro i haction due hdue
    rw [action?_congr hwiring] at haction
    exact h.hold_turn haction hdue
  . intro i hheld
    exact absurd hheld (Prompt.held_not_mem_of_alone fun hmem => (h.held i hmem).1)
  . intro hpending due hdue
    obtain ⟨i, time, haction, hreset⟩ := h.reset_turn hpending hdue
    exact ⟨i, time, by rw [action?_congr hwiring, haction], hreset⟩

/-! ### Runs -/

theorem guarded_of_boot (h : boot board role = .ok device) (hidle : board.agenda.pending = []) :
    device.Guarded [] [] where
  matched := matched_of_boot h
  hold := by
    intro i _ due hdue
    rw [due_of_boot h hidle (by simp [Task.topic])] at hdue
    cases hdue
  held := by simp
  reset := fun hpending => absurd hpending (waiting_of_boot h).2.2

theorem guarded_after (hboot : boot board role = .ok device) (hidle : board.agenda.pending = [])
    (htimely : device.Timely events) : (device.after events).Guarded [] (device.turns events) :=
  turns_induction (fun _ _ _ htimely h => h.receive htimely) (fun _ _ _ _ h => h.turn) events device []
    htimely (guarded_of_boot hboot hidle)

theorem erasures_dealWith (prompts : List Prompt) :
    ∀ device : Device, device.part.Matched →
      (device.dealWith prompts).board.erasures = device.board.erasures := by
  induction prompts with
  | nil =>
    intro device _
    rfl
  | cons prompt prompts ih =>
    intro device h
    have hnext := h.congr (wiring_prompt device prompt)
    exact (ih _ hnext).trans (erasures_prompt h)

theorem erasures_fireReset (device : Device) (time : Nat) :
    (device.receive (.fire .reset time)).board.erasures
      =
    device.board.erasures ++ if device.part.resets.pending = some .full then [time] else [] := by
  have hcommands : (device.receive (.fire .reset time)).board
      = (device.board.begin .reset time).performAll
        (device.part.resets.pending.toList.flatMap ResetKind.commands) := rfl
  have hnow : (device.board.begin .reset time).now = time := rfl
  unfold Board.erasures
  rw [hcommands, Board.orders_performAll, Board.orders_begin, hnow, List.filter_append,
    List.map_append]
  congr 1
  cases device.part.resets.pending with
  | none => rfl
  | some kind => cases kind <;> rfl

theorem erasures_happen (h : device.part.Matched) (event : DeviceEvent) :
    (device.happen event).board.erasures = device.board.erasures
      ∨ ∃ time, event = .fire .reset time ∧ device.part.resets.pending = some .full
        ∧ (device.happen event).board.erasures = device.board.erasures ++ [time] := by
  rw [happen_eq, erasures_dealWith _ _ (h.congr (device.wiring_receive event))]
  by_cases hfire : ∃ time, event = .fire .reset time
  . obtain ⟨time, rfl⟩ := hfire
    rw [erasures_fireReset]
    split
    . next hfull => exact .inr ⟨time, rfl, hfull, rfl⟩
    . exact .inl (List.append_nil _)
  . left
    apply erasures_receive
    unfold DeviceEvent.topics
    split <;> simp_all

/--
A device erases its settings only when the reset is due that a button asked for which is there for
that. The button went down 2.3 seconds before, and did not come up for 2 seconds.
-/
theorem erased_only_after_long_press (hboot : boot board role = .ok device)
    (hidle : board.agenda.pending = []) (htimely : device.Timely events) :
    device.Along TakesTurns events
      ∧ ∃ times, (device.after events).board.erasures = board.erasures ++ times
        ∧ ∀ time ∈ times, ∃ before later i pressed, events = before ++ .fire .reset time :: later
          ∧ (device.part.config.buttons[i]?).map (·.action) = some .factoryReset
          ∧ time = pressed + 2300 ∧ HeldSince (device.turns before) i pressed := by
  refine ⟨device.along_takesTurns events, ?_⟩
  -- From the end, because a reset goes back to the turns before it.
  induction events using List.reverseRecOn with
  | nil => exact ⟨[], (erasures_of_boot hboot).trans (List.append_nil board.erasures).symm, by simp⟩
  | append_singleton events event ih =>
    obtain ⟨htimely, hlast, _⟩ := along_append.mp htimely
    have hguarded := guarded_after hboot hidle htimely
    obtain ⟨times, herasures, htimes⟩ := ih htimely
    have hearlier : ∀ time ∈ times, ∃ before later i pressed,
        events ++ [event] = before ++ .fire .reset time :: later
          ∧ (device.part.config.buttons[i]?).map (·.action) = some .factoryReset
          ∧ time = pressed + 2300 ∧ HeldSince (device.turns before) i pressed := by
      intro time hmem
      obtain ⟨before, later, i, pressed, hevents, hheld⟩ := htimes time hmem
      exact ⟨before, later ++ [event], i, pressed, by simp [hevents], hheld⟩
    rw [after_append, after_cons, after_nil]
    rcases erasures_happen hguarded.matched event with hsame | ⟨time, rfl, hfull, herased⟩
    . exact ⟨times, by rw [hsame, herasures], hearlier⟩
    . refine ⟨times ++ [time], by rw [herased, herasures, List.append_assoc], ?_⟩
      rw [List.forall_mem_append]
      refine ⟨hearlier, ?_⟩
      rw [List.forall_mem_singleton]
      obtain ⟨i, pressed, haction, htime, hheld⟩ := hguarded.reset hfull time hlast
      rw [action?_congr (device.wiring_after events), action?_of_boot hboot] at haction
      exact ⟨events, [], i, pressed, rfl, haction, htime, hheld⟩

theorem erased_after_long_press_of_button :
    let store : Store := ⟨16, 256, [(Key.config, Bytes.ascii "Acme;ACME-1;BC0d;")]⟩
    let board := Board.idle [] .joined (.sound store)
    let events := [.input (.line 2 0) true, .fire .settle 3, .fire (.buttonHold 0) 2003,
      .fire .reset 2303]
    ∃ device, boot board .router = .ok device ∧ device.Timely events
      ∧ (device.after events).board.erasures = [2303]
      ∧ ∃ before later i, events = before ++ .fire .reset 2303 :: later
        ∧ HeldSince (device.turns before) i 3 := by
  intro store board events
  have hfacts : (boot board .router).toOption.map (fun device =>
      (decide (device.Timely events), (device.after events).board.erasures)) =
        some (true, [2303]) := by
    decide +kernel
  obtain ⟨device, hboot, hdevice⟩ := exists_of_map_boot hfacts
  simp only [Prod.mk.injEq, decide_eq_true_eq] at hdevice
  obtain ⟨htimely, herased⟩ := hdevice
  obtain ⟨_, times, htimes, hpressed⟩ := erased_only_after_long_press hboot rfl htimely
  have hmem : 2303 ∈ times := by
    have hnone : board.erasures = [] := rfl
    rw [herased, hnone, List.nil_append] at htimes
    rw [← htimes]
    exact List.mem_singleton_self _
  obtain ⟨before, later, i, pressed, hevents, _, htime, hheld⟩ := hpressed 2303 hmem
  cases Nat.add_right_cancel (k := pressed) (m := 2300) htime
  exact ⟨device, hboot, htimely, herased, before, later, i, hevents, hheld⟩

end Device

end WallSwitch
