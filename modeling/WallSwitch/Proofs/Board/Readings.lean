import WallSwitch.Proofs.Board.Levels

/-!
This module contains what reads find. They depend on the levels and on the bounces of a board, and
on nothing else of it.
-/

namespace WallSwitch

namespace Board

/--
The reading of the pins that comes after `k` others.
-/
def reading (board : Board) (pins : List Pin) : Nat → List Bool
  | 0 => (board.readAll pins).1
  | k + 1 => (board.readAll pins).2.reading pins k

structure SameInputs (board other : Board) : Prop where
  levels : board.levels = other.levels
  bounces : board.bounces = other.bounces

variable {board other : Board} {pin : Pin}

theorem SameInputs.trans {third : Board} (h : board.SameInputs other)
    (hnext : other.SameInputs third) : board.SameInputs third :=
  ⟨h.levels.trans hnext.levels, h.bounces.trans hnext.bounces⟩

theorem bounces_perform (board : Board) (command : Command) :
    (board.perform command).bounces = board.bounces := by
  cases command with
  | save key item =>
    obtain ⟨_, _, hsave⟩ := board.exists_perform_save key item
    rw [hsave]
  | erase =>
    obtain ⟨_, _, herase⟩ := board.exists_perform_erase
    rw [herase]
  | _ => rfl

theorem performAll_keeps {α : Type} {f : Board → α} {commands : List Command}
    (h : ∀ command ∈ commands, ∀ board : Board, f (board.perform command) = f board) :
    ∀ (board : Board), f (board.performAll commands) = f board := by
  induction commands with
  | nil =>
    intro board
    rfl
  | cons command commands ih =>
    intro board
    rw [List.forall_mem_cons] at h
    rw [performAll_cons, ih h.2, h.1]

theorem readAll_keeps {α : Type} {f : Board → α} {pins : List Pin}
    (h : ∀ pin ∈ pins, ∀ board : Board, f (board.read pin).2 = f board) :
    ∀ (board : Board), f (board.readAll pins).2 = f board := by
  induction pins with
  | nil =>
    intro board
    rfl
  | cons pin pins ih =>
    intro board
    rw [List.forall_mem_cons] at h
    exact (ih h.2 _).trans (h.1 board)

theorem sameInputs_performAll {commands : List Command}
    (h : ∀ pin high, .write pin high ∉ commands) (board : Board) :
    (board.performAll commands).SameInputs board where
  levels := by
    apply PinMap.ext
    intro pin
    exact board.level_performAll_of_not_written (h pin)
  bounces := board.performAll_keeps fun command _ board => board.bounces_perform command

theorem SameInputs.read (h : board.SameInputs other) (pin : Pin) :
    (board.read pin).1 = (other.read pin).1
      ∧ (board.read pin).2.SameInputs (other.read pin).2 := by
  unfold Board.read level
  rw [h.levels, h.bounces]
  cases other.bounces.get pin with
  | nil => exact ⟨rfl, h.levels, h.bounces⟩
  | cons high later => exact ⟨rfl, rfl, rfl⟩

theorem SameInputs.readAll (pins : List Pin) :
    ∀ {board other : Board}, board.SameInputs other →
      (board.readAll pins).1 = (other.readAll pins).1
        ∧ (board.readAll pins).2.SameInputs (other.readAll pins).2 := by
  induction pins with
  | nil =>
    intro board other h
    exact ⟨rfl, h⟩
  | cons pin pins ih =>
    intro board other h
    obtain ⟨hfirst, hnext⟩ := h.read pin
    obtain ⟨hlevels, hrest⟩ := ih hnext
    unfold Board.readAll
    dsimp only
    rw [hfirst, hlevels]
    exact ⟨rfl, hrest⟩

theorem SameInputs.reading_eq (pins : List Pin) (k : Nat) :
    ∀ {board other : Board}, board.SameInputs other →
      board.reading pins k = other.reading pins k := by
  induction k with
  | zero =>
    intro board other h
    exact (h.readAll pins).1
  | succ k ih =>
    intro board other h
    exact ih (h.readAll pins).2

theorem length_readAll (pins : List Pin) :
    ∀ (board : Board), (board.readAll pins).1.length = pins.length := by
  induction pins with
  | nil =>
    intro board
    rfl
  | cons pin pins ih =>
    intro board
    unfold readAll
    simp [ih]

/-! ### Levels -/

theorem level_read_of_ne {other : Pin} (h : pin ≠ other) (board : Board) :
    (board.read pin).2.level other = board.level other := by
  unfold Board.read
  split
  . rfl
  . exact PinMap.get_set_of_ne _ _ h

theorem level_read_self (board : Board) (pin : Pin) :
    (board.read pin).2.level pin = (board.read pin).1 := by
  unfold Board.read
  split
  . rfl
  . exact PinMap.get_set_self ..

theorem level_readAll_of_not_mem {pins : List Pin} (h : pin ∉ pins) (board : Board) :
    (board.readAll pins).2.level pin = board.level pin := by
  apply readAll_keeps (f := fun board => board.level pin)
  intro other hmem board
  apply level_read_of_ne
  rintro rfl
  exact h hmem

/-! ### Armed edges -/

theorem interruptEnabled_read (board : Board) (pin : Pin) :
    (board.read pin).2.interruptEnabled = board.interruptEnabled := by
  unfold read
  split <;> rfl

theorem interruptEnabled_readAll (pins : List Pin) (board : Board) :
    (board.readAll pins).2.interruptEnabled = board.interruptEnabled :=
  board.readAll_keeps fun pin _ board => board.interruptEnabled_read pin

theorem armedEdge_read (board : Board) (pin : Pin) :
    (board.read pin).2.armedEdge = board.armedEdge := by
  unfold read
  split <;> rfl

theorem armedEdge_readAll (pins : List Pin) (board : Board) :
    (board.readAll pins).2.armedEdge = board.armedEdge :=
  board.readAll_keeps fun pin _ board => board.armedEdge_read pin

theorem armedEdge_perform_of_ne {command : Command} (h : ∀ edge, command ≠ .armInterrupt pin edge)
    (board : Board) : (board.perform command).armedEdge.get pin = board.armedEdge.get pin := by
  cases command with
  | armInterrupt other edge =>
    apply PinMap.get_set_of_ne
    rintro rfl
    exact h edge rfl
  | save key item =>
    obtain ⟨_, _, hsave⟩ := board.exists_perform_save key item
    rw [hsave]
  | erase =>
    obtain ⟨_, _, herase⟩ := board.exists_perform_erase
    rw [herase]
  | _ => rfl

theorem armedEdge_performAll_of_not_armed {commands : List Command}
    (h : ∀ edge, .armInterrupt pin edge ∉ commands) (board : Board) :
    (board.performAll commands).armedEdge.get pin = board.armedEdge.get pin := by
  apply performAll_keeps (f := fun board => board.armedEdge.get pin)
  intro command hmem board
  apply armedEdge_perform_of_ne
  rintro edge rfl
  exact h edge hmem

end Board

end WallSwitch
