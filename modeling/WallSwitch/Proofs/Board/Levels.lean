import WallSwitch.Board.Basic

/-!
This module contains what commands do to the levels and to the trace of a board. Only writes change
a level, and every command is added to the trace.
-/

namespace WallSwitch

namespace Board

/-! ### Commands to the settings memory -/

theorem exists_perform_save (board : Board) (key : Nat) (item : Bytes) :
    ∃ memory fault, board.perform (.save key item)
      =
    { board with
      memory := memory, trace := (board.now, .command (.save key item) fault) :: board.trace } := by
  simp only [perform, attempt, execute]
  split <;> exact ⟨_, _, rfl⟩

theorem exists_perform_erase (board : Board) :
    ∃ memory fault, board.perform .erase
      =
    { board with
      memory := memory, trace := (board.now, .command .erase fault) :: board.trace } := by
  simp only [perform, attempt, execute]
  split <;> exact ⟨_, _, rfl⟩

/-! ### Levels -/

theorem level_perform_write (board : Board) (pin other : Pin) (high : Bool) :
    (board.perform (.write pin high)).level other
      =
    if pin = other then high else board.level other := by
  apply PinMap.get_set

theorem level_perform_of_ne (board : Board) {command : Command} {pin : Pin}
    (h : ∀ high, command ≠ .write pin high) :
    (board.perform command).level pin = board.level pin := by
  cases command with
  | write other high =>
    rw [level_perform_write, if_neg]
    intro heq
    exact h high (by rw [heq])
  | save key item =>
    obtain ⟨_, _, hsave⟩ := board.exists_perform_save key item
    rw [hsave]
    rfl
  | erase =>
    obtain ⟨_, _, herase⟩ := board.exists_perform_erase
    rw [herase]
    rfl
  | _ => rfl

theorem level_performAll_of_writes {commands : List Command} {pin : Pin} {high : Bool} :
    ∀ (board : Board),
      (∀ level, .write pin level ∈ commands → level = high) →
      (.write pin high ∈ commands ∨ board.level pin = high) →
      (board.performAll commands).level pin = high := by
  induction commands with
  | nil =>
    intro board _ hsome
    simpa using hsome
  | cons command commands ih =>
    intro board honly hsome
    rw [performAll_cons]
    apply ih
    . intro level hmem
      exact honly level (List.mem_cons_of_mem command hmem)
    . by_cases hwrite : ∃ level, command = .write pin level
      . obtain ⟨level, rfl⟩ := hwrite
        right
        rw [level_perform_write, if_pos rfl]
        exact honly level List.mem_cons_self
      . have hne : ∀ level, command ≠ .write pin level := fun level heq => hwrite ⟨level, heq⟩
        rw [level_perform_of_ne board hne]
        cases hsome with
        | inl hmem =>
          left
          rw [List.mem_cons] at hmem
          exact hmem.resolve_left (hne high).symm
        | inr hlevel => exact .inr hlevel

theorem level_performAll_of_not_written (board : Board) {commands : List Command} {pin : Pin}
    (h : ∀ level, .write pin level ∉ commands) :
    (board.performAll commands).level pin = board.level pin := by
  apply level_performAll_of_writes
  . intro level hmem
    exact absurd hmem (h level)
  . exact .inr rfl

theorem level_performAll_of_last_write (board : Board) (first : List Command) {last : List Command}
    {pin : Pin} {high : Bool} (h : ∀ level, .write pin level ∈ last → level = high) :
    (board.performAll (first ++ .write pin high :: last)).level pin = high := by
  rw [performAll_append]
  apply level_performAll_of_writes
  . intro level hmem
    rw [List.mem_cons, Command.write.injEq] at hmem
    cases hmem with
    | inl heq => exact heq.2
    | inr hlast => exact h level hlast
  . exact .inl List.mem_cons_self

theorem level_performAll_congr {commands : List Command} {pin : Pin}
    (h : ∃ high, .write pin high ∈ commands) :
    ∀ (board other : Board),
      (board.performAll commands).level pin = (other.performAll commands).level pin := by
  induction commands with
  | nil => simp at h
  | cons command commands ih =>
    intro board other
    rw [performAll_cons, performAll_cons]
    by_cases hlater : ∃ high, .write pin high ∈ commands
    . exact ih hlater _ _
    . obtain ⟨high, hmem⟩ := h
      have hnone : ∀ level, .write pin level ∉ commands := fun level hwrite => hlater ⟨level, hwrite⟩
      have hfirst : command = .write pin high :=
        ((List.mem_cons.mp hmem).resolve_right (hnone high)).symm
      rw [level_performAll_of_not_written _ hnone, level_performAll_of_not_written _ hnone, hfirst,
        level_perform_write, level_perform_write, if_pos rfl, if_pos rfl]

theorem levels_performAll_append {first second : List Command}
    (h : ∀ pin high, .write pin high ∈ first → ∃ level, .write pin level ∈ second)
    (board : Board) :
    (board.performAll (first ++ second)).levels = (board.performAll second).levels := by
  apply PinMap.ext
  intro pin
  rw [performAll_append]
  by_cases hsecond : ∃ level, .write pin level ∈ second
  . exact level_performAll_congr hsecond _ _
  . have hnone : ∀ level, .write pin level ∉ second := fun level hmem => hsecond ⟨level, hmem⟩
    have hfirst : ∀ level, .write pin level ∉ first := fun level hmem => hsecond (h pin level hmem)
    exact (level_performAll_of_not_written _ hnone).trans
      ((level_performAll_of_not_written board hfirst).trans
        (level_performAll_of_not_written board hnone).symm)

theorem trace_perform (board : Board) (command : Command) :
    ∃ fault,
      (board.perform command).trace = (board.now, .command command fault) :: board.trace := by
  cases command with
  | save key item =>
    obtain ⟨_, fault, hsave⟩ := board.exists_perform_save key item
    exact ⟨fault, by rw [hsave]⟩
  | erase =>
    obtain ⟨_, fault, herase⟩ := board.exists_perform_erase
    exact ⟨fault, by rw [herase]⟩
  | _ => exact ⟨_, rfl⟩

end Board

end WallSwitch
