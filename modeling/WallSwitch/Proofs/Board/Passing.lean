import WallSwitch.Board.Wired
import WallSwitch.Proofs.Board.Orders

/-!
This module contains what a board does while time passes. It always runs the task that is due next,
and it stops because no task is due any more, and not because of the bound on their number.
-/

namespace WallSwitch

namespace Agenda

variable {agenda : Agenda} {task other : Task} {limit time due : Nat}

theorem earliest?_eq_none_iff {entries : List (Task × Nat)} :
    earliest? entries = none ↔ entries = [] := by
  cases entries with
  | nil => simp [earliest?]
  | cons entry entries =>
    unfold earliest?
    split
    . simp
    . split <;> simp

theorem le_of_earliest? : ∀ {entries : List (Task × Nat)} {first : Task × Nat},
    earliest? entries = some first → ∀ entry ∈ entries, first.2 ≤ entry.2
  | [], _, h => by cases h
  | head :: entries, first, h => by
    unfold earliest? at h
    rw [List.forall_mem_cons]
    split at h
    . next hnone =>
      rw [earliest?_eq_none_iff.mp hnone, ← Option.some.inj h]
      simp
    . next other hother =>
      have hle := le_of_earliest? hother
      split at h
      . next hlt =>
        cases h
        exact ⟨Nat.le_of_lt hlt, hle⟩
      . next hnot =>
        cases h
        refine ⟨Nat.le_refl _, ?_⟩
        intro entry hmem
        exact Nat.le_trans (Nat.le_of_not_lt hnot) (hle entry hmem)

theorem le_of_next? (h : agenda.next? limit = some (task, time)) : time ≤ limit := by
  simpa using (Option.filter_eq_some_iff.mp h).2

theorem le_of_next?_of_mem_due (h : agenda.next? limit = some (task, time))
    (hmem : due ∈ agenda.due other) : time ≤ due :=
  le_of_earliest? (Option.filter_eq_some_iff.mp h).1 (other, due) (mem_due.mp hmem)

theorem next?_self (h : agenda.next? limit = some (task, time)) :
    agenda.next? time = some (task, time) := by
  rw [next?, (Option.filter_eq_some_iff.mp h).1]
  simp

theorem lt_of_next?_eq_none (h : agenda.next? limit = none) (hmem : due ∈ agenda.due task) :
    limit < due := by
  rw [mem_due] at hmem
  cases hfirst : earliest? agenda.pending with
  | none =>
    rw [earliest?_eq_none_iff.mp hfirst] at hmem
    cases hmem
  | some first =>
    rw [next?, hfirst] at h
    have hlt : limit < first.2 := by simpa using h
    exact Nat.lt_of_lt_of_le hlt (le_of_earliest? hfirst _ hmem)

theorem mem_due_of_pending (h : agenda.pending = [(task, time)]) : time ∈ agenda.due task := by
  rw [mem_due, h]
  exact List.mem_singleton_self _

theorem next?_of_pending (h : agenda.pending = []) (limit : Nat) : agenda.next? limit = none := by
  rw [next?, h]
  rfl

theorem pending_eq_nil_of_due (h : ∀ task, agenda.due task = []) : agenda.pending = [] := by
  rw [List.eq_nil_iff_forall_not_mem]
  rintro ⟨task, time⟩ hmem
  rw [← mem_due, h] at hmem
  cases hmem

end Agenda

namespace Wired

variable {σ : Type} {fire : Task → Wired σ → Wired σ} {limit fuel more : Nat} {wired : Wired σ}

theorem runTasks_of_none (h : wired.board.agenda.next? limit = none) (fuel : Nat) :
    runTasks fire limit fuel wired = wired := by
  cases fuel with
  | zero => rfl
  | succ fuel => rw [runTasks, h]

theorem run_of_none {ms : Nat} (h : wired.board.agenda.next? (wired.board.now + ms) = none) :
    wired.run fire ms = { wired with board := wired.board.goTo (wired.board.now + ms) } := by
  unfold run
  dsimp only
  rw [runTasks_of_none h]

theorem run_of_next? {task : Task} {due ms : Nat} {ran : Wired σ}
    (hran : fire task ⟨wired.part, wired.board.begin task due⟩ = ran)
    (hnext : wired.board.agenda.next? (wired.board.now + ms) = some (task, due))
    (hidle : ran.board.agenda.pending = []) :
    wired.run fire ms = { ran with board := ran.board.goTo (wired.board.now + ms) } := by
  -- However little time passes, there is fuel for one task.
  have hfuel : tasksPerMs * (ms + 1) = tasksPerMs * ms + 31 + 1 := rfl
  unfold run
  dsimp only
  rw [hfuel, runTasks, hnext]
  dsimp only
  rw [hran, runTasks_of_none (Agenda.next?_of_pending hidle _)]

theorem runTasks_invariant (Invariant : Wired σ → Prop)
    (hfire : ∀ wired task due, Invariant wired →
      wired.board.agenda.next? limit = some (task, due) →
      Invariant (fire task ⟨wired.part, wired.board.begin task due⟩))
    (fuel : Nat) : ∀ wired, Invariant wired → Invariant (runTasks fire limit fuel wired) := by
  induction fuel with
  | zero =>
    intro wired h
    exact h
  | succ fuel ih =>
    intro wired h
    unfold runTasks
    split
    . exact h
    . next task due hnext => exact ih _ (hfire wired task due h hnext)

/--
No task is due any more once as many tasks were run as a measure allows for that each of them brings
down.
-/
theorem next?_runTasks (Invariant : Wired σ → Prop) (measure : Wired σ → Nat)
    (hfire : ∀ wired task due, Invariant wired →
      wired.board.agenda.next? limit = some (task, due) →
      Invariant (fire task ⟨wired.part, wired.board.begin task due⟩)
        ∧ measure (fire task ⟨wired.part, wired.board.begin task due⟩) < measure wired)
    (fuel : Nat) :
    ∀ wired, Invariant wired → measure wired ≤ fuel →
      (runTasks fire limit fuel wired).board.agenda.next? limit = none := by
  induction fuel with
  | zero =>
    intro wired h hle
    cases hnext : wired.board.agenda.next? limit with
    | none => exact hnext
    | some first =>
      have hlt := (hfire wired first.1 first.2 h hnext).2
      omega
  | succ fuel ih =>
    intro wired h hle
    unfold runTasks
    split
    . next hnone => exact hnone
    . next task due hnext =>
      obtain ⟨hkept, hlt⟩ := hfire wired task due h hnext
      exact ih _ hkept (by omega)

theorem runTasks_of_le (hle : fuel ≤ more) :
    ∀ {wired : Wired σ}, (runTasks fire limit fuel wired).board.agenda.next? limit = none →
      runTasks fire limit more wired = runTasks fire limit fuel wired := by
  induction fuel generalizing more with
  | zero =>
    intro wired h
    exact runTasks_of_none h more
  | succ fuel ih =>
    intro wired h
    obtain ⟨more, rfl⟩ := Nat.exists_eq_add_of_lt (Nat.lt_of_lt_of_le (Nat.succ_pos fuel) hle)
    rw [Nat.zero_add] at hle ⊢
    unfold runTasks at h ⊢
    split
    . rfl
    . next task due hnext =>
      rw [hnext] at h
      exact ih (Nat.le_of_succ_le_succ hle) h

end Wired

end WallSwitch
