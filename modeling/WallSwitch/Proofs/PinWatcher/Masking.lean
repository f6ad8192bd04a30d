import WallSwitch.Proofs.Board.Orders
import WallSwitch.Proofs.PinWatcher.WatchMap

/-!
This module contains the proof that pins are masked for a short time only, however a watcher is used:
a pin that is watched and may not interrupt waits for a pass that is due soon, and a pin that is not
watched does not interrupt.
-/

namespace WallSwitch

namespace PinWatcher

variable {α : Type}

/--
Nothing but a pass of the watcher is due on the board, which is soon, and every pin that is watched
may interrupt unless it is.
-/
def PassComing (wired : Wired (PinWatcher α)) : Prop :=
  (wired.board.agenda.pending = []
      ∧ ∀ pin ∈ wired.part.pins, wired.board.interruptEnabled.get pin = true)
    ∨ ∃ time, wired.board.agenda.pending = [(.settle, time)]
      ∧ wired.board.now < time ∧ time ≤ wired.board.now + 6

theorem PassComing.congr {wired next : Wired (PinWatcher α)} (h : PassComing wired)
    (hagenda : next.board.agenda = wired.board.agenda)
    (henabled : (∀ pin ∈ wired.part.pins, wired.board.interruptEnabled.get pin = true) →
      ∀ pin ∈ next.part.pins, next.board.interruptEnabled.get pin = true) : PassComing next := by
  unfold PassComing Board.now at h ⊢
  rw [hagenda]
  exact h.imp_left (And.imp_right henabled)

structure Attentive (wired : Wired (PinWatcher α)) : Prop where
  reachable : wired.part.Reachable
  pause : 0 < wired.part.pause ∧ wired.part.pause < 7
  watched : ∀ pin, wired.board.interruptEnabled.get pin = true → pin ∈ wired.part.pins
  pass : PassComing wired

theorem attentive_empty (board : Board) :
    Attentive (⟨.empty, board.powerCycle⟩ : Wired (PinWatcher α)) where
  reachable := .empty
  pause := ⟨Nat.succ_pos 2, Nat.lt_add_of_pos_right (Nat.succ_pos 3)⟩
  watched pin henabled := by
    change (PinMap.const false).get pin = true at henabled
    rw [PinMap.get_const] at henabled
    cases henabled
  pass := .inl ⟨rfl, nofun⟩

theorem nextPause_pos {pause : Nat} (hpos : 0 < pause) (hlt : pause < 7) : 0 < nextPause pause := by
  unfold nextPause
  omega

section Boards

variable {watcher watcher' : PinWatcher α} {board board' : Board} {pin other : Pin} {payload : α}

theorem agenda_watch (hwatch : watcher.watch board pin payload = .ok (watcher', board')) :
    board'.agenda = board.agenda := by
  rw [board_watch hwatch]
  exact board.agenda_read pin

theorem interruptEnabled_watch (hwatch : watcher.watch board pin payload = .ok (watcher', board')) :
    board'.interruptEnabled.get other = (decide (other = pin) || board.interruptEnabled.get other) := by
  rw [board_watch hwatch]
  change ((board.read pin).2.interruptEnabled.set pin true).get other = _
  rw [Board.interruptEnabled_read, PinMap.get_set]
  by_cases h : other = pin
  . simp [h]
  . simp [h, Ne.symm h]

theorem agenda_unwatch (watcher : PinWatcher α) (board : Board) (pin : Pin) :
    (board.performAll ((unwatch pin).step.commands watcher)).agenda = board.agenda := by
  rw [commands_unwatch]
  split <;> rfl

theorem interruptEnabled_unwatch (watcher : PinWatcher α) (board : Board) (pin other : Pin) :
    (board.performAll ((unwatch pin).step.commands watcher)).interruptEnabled.get other
      =
    (decide ¬(other = pin ∧ pin ∈ watcher.pins) && board.interruptEnabled.get other) := by
  rw [commands_unwatch]
  split
  . next hwatches =>
    change (board.interruptEnabled.set pin false).get other = _
    rw [PinMap.get_set]
    by_cases h : other = pin
    . simp [h, watches_iff.mp hwatches]
    . simp [h, Ne.symm h]
  . next hnot =>
    rw [watches_iff] at hnot
    simp [hnot]

theorem pending_onEdge (watcher : PinWatcher α) (board : Board) :
    (board.performAll (onEdge.commands watcher)).agenda.pending
      =
    (board.agenda.cancel .settle).pending ++ [(.settle, board.now + watcher.pause)] := by
  have hmasked :
      (board.performAll (watcher.pins.map .disableInterrupt)).agenda = board.agenda := by
    apply Board.performAll_keeps
    intro command hmem board
    obtain ⟨pin, _, rfl⟩ := List.mem_map.mp hmem
    rfl
  have hcommands : onEdge.commands watcher
      = watcher.pins.map .disableInterrupt ++ [.schedule .settle watcher.pause] := rfl
  rw [hcommands, Board.performAll_append, Board.performAll_cons, Board.performAll_nil]
  change (Agenda.schedule _ .settle watcher.pause).pending = _
  rw [hmasked]
  rfl

theorem interruptEnabled_onEdge (watcher : PinWatcher α) (board : Board) (pin : Pin) :
    (board.performAll (onEdge.commands watcher)).interruptEnabled.get pin
      =
    (decide (pin ∉ watcher.pins) && board.interruptEnabled.get pin) := by
  have hcommands : onEdge.commands watcher
      = watcher.pins.map .disableInterrupt ++ [.schedule .settle watcher.pause] := rfl
  rw [hcommands, Board.performAll_append]
  exact Board.interruptEnabled_disableAll watcher.pins pin board

theorem agenda_pass (watcher : PinWatcher α) (board : Board) :
    (watcher.pass board).2.2.agenda = board.agenda :=
  watcher.pass_keeps (fun _ _ _ => rfl) (fun _ _ => rfl) (fun pin board => board.agenda_read pin) board

end Boards

namespace Attentive

variable {wired : Wired (PinWatcher α)}

theorem congr {board : Board} (h : Attentive wired)
    (henabled : board.interruptEnabled = wired.board.interruptEnabled)
    (hagenda : board.agenda = wired.board.agenda) : Attentive { wired with board := board } where
  reachable := h.reachable
  pause := h.pause
  watched := henabled ▸ h.watched
  pass := by
    apply h.pass.congr hagenda
    rw [henabled]
    exact id

theorem pending_cancel (h : Attentive wired) :
    (wired.board.agenda.cancel .settle).pending = [] := by
  rcases h.pass with ⟨hpending, _⟩ | ⟨time, hpending, _⟩ <;> simp [Agenda.cancel, hpending]

theorem watch {pin : Pin} {payload : α} {watcher' : PinWatcher α} {board' : Board}
    (h : Attentive wired)
    (hwatch : wired.part.watch wired.board pin payload = .ok (watcher', board')) :
    Attentive ⟨watcher', board'⟩ where
  reachable := .watch h.reachable hwatch
  pause := by
    rw [pause_watch hwatch]
    exact h.pause
  watched other henabled := by
    rw [interruptEnabled_watch hwatch, Bool.or_eq_true, decide_eq_true_eq] at henabled
    rw [mem_pins_watch_iff hwatch]
    exact henabled.imp_right (h.watched other)
  pass := by
    apply h.pass.congr (agenda_watch hwatch)
    intro henabled other hmem
    rw [mem_pins_watch_iff hwatch] at hmem
    rw [interruptEnabled_watch hwatch, Bool.or_eq_true, decide_eq_true_eq]
    exact hmem.imp_right (henabled other)

theorem unwatch (h : Attentive wired) (pin : Pin) : Attentive (wired.step (unwatch pin).step) where
  reachable := .unwatch pin h.reachable
  pause := by
    rw [Wired.part_step, pause_unwatch]
    exact h.pause
  watched other henabled := by
    rw [Wired.board_step, interruptEnabled_unwatch, Bool.and_eq_true, decide_eq_true_eq] at henabled
    have hmem := h.watched other henabled.2
    rw [Wired.part_step, mem_pins_unwatch_iff h.reachable.nodup_pins]
    refine ⟨hmem, ?_⟩
    rintro rfl
    exact henabled.1 ⟨rfl, hmem⟩
  pass := by
    apply h.pass.congr (agenda_unwatch wired.part wired.board pin)
    intro henabled other hmem
    rw [Wired.part_step, mem_pins_unwatch_iff h.reachable.nodup_pins] at hmem
    rw [Wired.board_step, interruptEnabled_unwatch, henabled other hmem.1]
    simp [hmem.2]

theorem onEdge (h : Attentive wired) : Attentive (wired.step onEdge) where
  reachable := .onEdge h.reachable
  pause := ⟨nextPause_pos h.pause.1 h.pause.2, Nat.mod_lt _ (Nat.succ_pos 6)⟩
  watched pin henabled := by
    rw [Wired.board_step, interruptEnabled_onEdge, Bool.and_eq_true, decide_eq_true_eq] at henabled
    exact absurd (h.watched pin henabled.2) henabled.1
  pass := by
    right
    refine ⟨wired.board.now + wired.part.pause, ?_, ?_, ?_⟩
    . rw [Wired.board_step, pending_onEdge, h.pending_cancel]
      rfl
    . rw [Wired.board_step, Board.now_performAll]
      exact Nat.lt_add_of_pos_right h.pause.1
    . rw [Wired.board_step, Board.now_performAll]
      exact Nat.add_le_add_left (Nat.le_of_lt_succ h.pause.2) _

theorem pass_on {begun : Board} (h : Attentive wired)
    (henabled : begun.interruptEnabled = wired.board.interruptEnabled)
    (hagenda : begun.agenda.pending = [] ∨ begun.agenda = wired.board.agenda) :
    Attentive (PinWatcher.call ⟨wired.part, begun⟩ .pass) where
  reachable := .pass begun h.reachable
  pause := h.pause
  watched pin hpin := by
    change (wired.part.pass begun).2.2.interruptEnabled.get pin = true at hpin
    rw [interruptEnabled_pass, Bool.or_eq_true, decide_eq_true_eq, henabled] at hpin
    exact hpin.elim id (h.watched pin)
  pass := by
    have hkept := agenda_pass wired.part begun
    have hunmasked : ∀ pin ∈ wired.part.pins,
        (wired.part.pass begun).2.2.interruptEnabled.get pin = true := by
      intro pin hmem
      rw [interruptEnabled_pass]
      simp [hmem]
    -- A pass that is made out of turn leaves the one that is due where it is.
    rcases hagenda with hpending | hsame
    . exact .inl ⟨(congrArg Agenda.pending hkept).trans hpending, hunmasked⟩
    . exact h.pass.congr (hkept.trans hsame) fun _ => hunmasked

theorem call (h : Attentive wired) (asked : WatcherCall α) :
    Attentive (PinWatcher.call wired asked) := by
  cases asked with
  | watch pin payload =>
    cases hwatch : wired.part.watch wired.board pin payload with
    | error error =>
      rw [call_watch_of_error hwatch]
      exact h
    | ok next =>
      rw [call_watch_of_ok hwatch]
      exact h.watch hwatch
  | unwatch pin => exact h.unwatch pin
  | onEdge => exact h.onEdge
  | pass => exact h.pass_on rfl (.inr rfl)

theorem input (h : Attentive wired) (pin : Pin) (high : Bool) :
    Attentive (PinWatcher.input wired pin high) := by
  have hchanged : Attentive { wired with board := wired.board.setLevel pin high } := h.congr rfl rfl
  unfold PinWatcher.input Wired.input
  dsimp only
  split
  . exact hchanged.onEdge
  . exact hchanged

theorem eq_settle_of_next? {task : Task} {limit due : Nat} (h : Attentive wired)
    (hnext : wired.board.agenda.next? limit = some (task, due)) : task = .settle := by
  have hmem := Agenda.mem_due.mp (Agenda.mem_due_of_next? hnext)
  rcases h.pass with ⟨hpending, _⟩ | ⟨time, hpending, _⟩
  . rw [hpending] at hmem
    cases hmem
  . rw [hpending, List.mem_singleton] at hmem
    exact congrArg Prod.fst hmem

theorem exists_ran (h : Attentive wired) (ms : Nat) :
    ∃ ran, Attentive ran
      ∧ run wired ms = { ran with board := ran.board.goTo (wired.board.now + ms) }
      ∧ ran.board.now ≤ wired.board.now + ms
      ∧ ran.board.agenda.next? (wired.board.now + ms) = none
      ∧ (ran.board.agenda.pending = [] ∨ ran = wired) := by
  cases hnext : wired.board.agenda.next? (wired.board.now + ms) with
  | none =>
    exact ⟨wired, h, Wired.run_of_none hnext, Nat.le_add_right _ _, hnext, .inr rfl⟩
  | some first =>
    obtain ⟨task, due⟩ := first
    obtain rfl := h.eq_settle_of_next? hnext
    let ran := PinWatcher.call ⟨wired.part, wired.board.begin .settle due⟩ .pass
    have hagenda : ran.board.agenda = (wired.board.begin .settle due).agenda := agenda_pass _ _
    have hidle : ran.board.agenda.pending = [] :=
      (congrArg Agenda.pending hagenda).trans h.pending_cancel
    have hnow : ran.board.now ≤ wired.board.now + ms := by
      unfold Board.now
      rw [hagenda]
      exact Agenda.le_of_next? hnext
    exact ⟨ran, h.pass_on rfl (.inl h.pending_cancel), Wired.run_of_next? rfl hnext hidle, hnow,
      Agenda.next?_of_pending hidle _, .inl hidle⟩

theorem goTo {limit : Nat} (h : Attentive wired) (hnow : wired.board.now ≤ limit)
    (hnext : wired.board.agenda.next? limit = none) :
    Attentive { wired with board := wired.board.goTo limit } where
  reachable := h.reachable
  pause := h.pause
  watched := h.watched
  pass := by
    rcases h.pass with hidle | ⟨time, hpending, _, hle⟩
    . exact .inl hidle
    . right
      refine ⟨time, hpending, Agenda.lt_of_next?_eq_none hnext (Agenda.mem_due_of_pending hpending), ?_⟩
      exact Nat.le_trans hle (Nat.add_le_add_right hnow 6)

theorem run (h : Attentive wired) (ms : Nat) : Attentive (PinWatcher.run wired ms) := by
  obtain ⟨ran, hran, heq, hnow, hnext, _⟩ := h.exists_ran ms
  rw [heq]
  exact hran.goTo hnow hnext

theorem use (h : Attentive wired) (asked : WatcherUse α) :
    Attentive (PinWatcher.use wired asked) := by
  cases asked with
  | call asked => exact h.call asked
  | input pin high => exact h.input pin high
  | setLevel pin high => exact h.congr rfl rfl
  | setBounces pin levels => exact h.congr rfl rfl
  | wait ms => exact h.run ms

theorem enabled_of_wait {pin : Pin} {ms : Nat} (h : Attentive wired)
    (hmem : pin ∈ wired.part.pins) (hms : 6 ≤ ms) :
    (PinWatcher.run wired ms).board.interruptEnabled.get pin = true := by
  obtain ⟨ran, hran, heq, _, hnext, hidle⟩ := h.exists_ran ms
  have hpins : (PinWatcher.run wired ms).part.pins = wired.part.pins :=
    congrArg (List.map Watched.pin) (watched_run wired ms)
  rw [heq] at hpins ⊢
  rw [← hpins] at hmem
  rcases hran.pass with ⟨_, henabled⟩ | ⟨time, hpending, _, hle⟩
  . exact henabled pin hmem
  . exfalso
    rcases hidle with hidle | rfl
    . rw [hidle] at hpending
      cases hpending
    . have hlt := Agenda.lt_of_next?_eq_none hnext (Agenda.mem_due_of_pending hpending)
      omega

theorem interrupts_eq_false {pin : Pin} (h : Attentive wired) (hpin : pin ∉ wired.part.pins)
    (high : Bool) : wired.board.interrupts pin high = false := by
  have hmasked : wired.board.interruptEnabled.get pin = false :=
    Bool.eq_false_iff.mpr fun henabled => hpin (h.watched pin henabled)
  simp [Board.interrupts, hmasked]

end Attentive

theorem attentive_used (board : Board) (uses : List (WatcherUse α)) :
    Attentive (used ⟨.empty, board.powerCycle⟩ uses) :=
  used_invariant (fun _ asked h => h.use asked) uses (attentive_empty board)

/--
However a watcher is used, only pins that are watched may interrupt, and a pin that is watched but may
not is read by a pass within six milliseconds, the only one that is due. It may interrupt after that,
unless it is let go: then it does not interrupt until it is watched again.
-/
theorem masked_until_pass (board : Board) (uses : List (WatcherUse α)) :
    let wired := used ⟨.empty, board.powerCycle⟩ uses
    (wired.board.due .settle).length ≤ 1
      ∧ (∀ pin, wired.board.interruptEnabled.get pin = true → wired.part.watches pin = true)
      ∧ (∀ pin, wired.part.watches pin = true → wired.board.interruptEnabled.get pin = false →
        ∃ time ∈ wired.board.due .settle, wired.board.now < time ∧ time ≤ wired.board.now + 6)
      ∧ (∀ pin ms, wired.part.watches pin = true → 6 ≤ ms →
        (use wired (.wait ms)).board.interruptEnabled.get pin = true)
      ∧ ∀ pin later high, (∀ payload, .call (.watch pin payload) ∉ later) →
        (used wired (.call (.unwatch pin) :: later)).board.interrupts pin high = false := by
  intro wired
  have h : Attentive wired := attentive_used board uses
  refine ⟨?_, ?_, ?_, ?_, ?_⟩
  . rcases h.pass with ⟨hpending, _⟩ | ⟨time, hpending, _⟩
    . simp [Board.due, Agenda.due, hpending]
    . simp [Board.due, Agenda.due, hpending]
  . intro pin henabled
    exact watches_iff.mpr (h.watched pin henabled)
  . intro pin hwatches hmasked
    rcases h.pass with ⟨_, henabled⟩ | ⟨time, hpending, hsoon⟩
    . rw [henabled pin (watches_iff.mp hwatches)] at hmasked
      cases hmasked
    . exact ⟨time, Agenda.mem_due_of_pending hpending, hsoon⟩
  . intro pin ms hwatches hms
    exact h.enabled_of_wait (watches_iff.mp hwatches) hms
  . intro pin later high hlater
    have hnext : Attentive (used wired (.call (.unwatch pin) :: later)) := by
      have hused := attentive_used board (uses ++ .call (.unwatch pin) :: later)
      rwa [used_append] at hused
    apply hnext.interrupts_eq_false
    have hmap : wired.part.Represents (WatchMap.used ∅ uses) := represents_empty.used uses
    rw [(hmap.used (.call (.unwatch pin) :: later)).mem_pins_iff]
    exact WatchMap.not_mem_used later Finmap.notMem_erase_self hlater

theorem masked_until_pass_beside_unwatched :
    let board := Board.idle [] .notJoined (.sound (.empty 8 128))
    let uses : List (WatcherUse Unit) := [.call (.watch (.line 0 0) ()),
      .call (.watch (.line 0 1) ()), .input (.line 0 0) true]
    let wired := used ⟨.empty, board.powerCycle⟩ uses
    let later : List (WatcherUse Unit) := [.wait 6, .setLevel (.line 0 0) false]
    wired.board.interruptEnabled.get (.line 0 1) = false
      ∧ (∃ time ∈ wired.board.due .settle, wired.board.now < time ∧ time ≤ wired.board.now + 6)
      ∧ (use wired (.wait 6)).board.interruptEnabled.get (.line 0 1) = true
      ∧ (used wired (.call (.unwatch (.line 0 0)) :: later)).board.interrupts (.line 0 0) true
        = false := by
  intro board uses wired later
  obtain ⟨_, _, hcoming, hunmasked, hquiet⟩ := masked_until_pass board uses
  have hwatches : wired.part.watches (.line 0 1) = true := by decide +kernel
  have hmasked : wired.board.interruptEnabled.get (.line 0 1) = false := by decide +kernel
  refine ⟨hmasked, hcoming _ hwatches hmasked, hunmasked _ 6 hwatches (Nat.le_refl 6), ?_⟩
  exact hquiet (.line 0 0) later true (by simp [later])

end PinWatcher

end WallSwitch
