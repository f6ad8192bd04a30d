import WallSwitch.Proofs.Board.Readings

/-!
This module contains what the reads of one pin find, one after the other: its bounces, and then the
level that it comes to rest at. The trace of a board tells which reads were made.
-/

namespace WallSwitch

def Event.read? : Event → Option (Pin × Bool)
  | .read pin high => some (pin, high)
  | _ => none

namespace Board

def rest (board : Board) (pin : Pin) : Bool :=
  (board.bounces.get pin).getLastD (board.level pin)

/--
The level that is found by the read of a pin that comes after `k` others.
-/
def upcoming (board : Board) (pin : Pin) (k : Nat) : Bool :=
  (board.bounces.get pin)[k]?.getD (board.rest pin)

def reads (board : Board) : List (Pin × Bool) :=
  board.history.filterMap (·.2.read?)

def found (board : Board) (pin : Pin) : List Bool :=
  (board.reads.filter (·.1 = pin)).map (·.2)

/--
What the reads of a pin found, and what they are going to find.
-/
def script (board : Board) (pin : Pin) : List Bool × (Nat → Bool) :=
  (board.found pin, board.upcoming pin)

variable {board : Board} {pin : Pin} {pins : List Pin}

/-! ### Levels to come -/

theorem read_eq_upcoming (board : Board) (pin : Pin) :
    (board.read pin).1 = board.upcoming pin 0 := by
  unfold read upcoming rest
  cases board.bounces.get pin <;> rfl

theorem upcoming_eq_rest (board : Board) {k : Nat} (h : (board.bounces.get pin).length ≤ k + 1) :
    board.upcoming pin k = board.rest pin := by
  unfold upcoming rest
  generalize board.bounces.get pin = bounces at h
  cases Nat.lt_or_ge k bounces.length with
  | inr hout =>
    rw [List.getElem?_eq_none hout]
    rfl
  | inl hlast =>
    have hk : k = bounces.length - 1 := by omega
    have hne : bounces ≠ [] := List.ne_nil_of_length_pos (Nat.zero_lt_of_lt hlast)
    rw [hk, ← List.getLast?_eq_getElem?, List.getLastD_eq_getLast?, List.getLast?_eq_some_getLast hne]
    rfl

theorem bounces_read_self (board : Board) (pin : Pin) :
    (board.read pin).2.bounces.get pin = (board.bounces.get pin).tail := by
  unfold read
  cases hbounces : board.bounces.get pin with
  | nil => exact hbounces
  | cons high later => exact PinMap.get_set_self ..

theorem bounces_read_of_ne {next : Pin} (h : pin ≠ next) (board : Board) :
    (board.read pin).2.bounces.get next = board.bounces.get next := by
  unfold read
  split
  . rfl
  . exact PinMap.get_set_of_ne _ _ h

theorem rest_read_self (board : Board) (pin : Pin) :
    (board.read pin).2.rest pin = board.rest pin := by
  unfold rest
  rw [bounces_read_self, level_read_self, read_eq_upcoming]
  unfold upcoming rest
  cases board.bounces.get pin with
  | nil => rfl
  | cons high later => exact List.getLastD_cons.symm

theorem upcoming_read_self (board : Board) (pin : Pin) (k : Nat) :
    (board.read pin).2.upcoming pin k = board.upcoming pin (k + 1) := by
  unfold upcoming
  rw [rest_read_self, bounces_read_self, List.getElem?_tail]

theorem upcoming_read_of_ne {next : Pin} (h : pin ≠ next) (board : Board) :
    (board.read pin).2.upcoming next = board.upcoming next := by
  funext k
  unfold upcoming rest
  rw [bounces_read_of_ne h, level_read_of_ne h]

theorem upcoming_readAll_of_not_mem (h : pin ∉ pins) (board : Board) :
    (board.readAll pins).2.upcoming pin = board.upcoming pin := by
  apply readAll_keeps (f := fun board => board.upcoming pin)
  intro other hmem board
  apply upcoming_read_of_ne
  rintro rfl
  exact h hmem

theorem readAll_eq_upcoming (hnodup : pins.Nodup) : ∀ (board : Board),
    (board.readAll pins).1 = pins.map fun pin => board.upcoming pin 0 := by
  induction pins with
  | nil =>
    intro board
    rfl
  | cons pin pins ih =>
    intro board
    rw [List.nodup_cons] at hnodup
    unfold readAll
    dsimp only
    rw [ih hnodup.2, List.map_cons, read_eq_upcoming]
    congr 1
    apply List.map_congr_left
    intro other hmem
    rw [upcoming_read_of_ne]
    rintro rfl
    exact hnodup.1 hmem

theorem upcoming_readAll_of_mem (hnodup : pins.Nodup) (hmem : pin ∈ pins) (k : Nat) :
    ∀ (board : Board), (board.readAll pins).2.upcoming pin k = board.upcoming pin (k + 1) := by
  induction pins with
  | nil => cases hmem
  | cons other pins ih =>
    intro board
    rw [List.nodup_cons] at hnodup
    unfold readAll
    dsimp only
    cases List.mem_cons.mp hmem with
    | inl heq =>
      subst heq
      rw [upcoming_readAll_of_not_mem hnodup.1, upcoming_read_self]
    | inr hrest =>
      rw [ih hnodup.2 hrest, upcoming_read_of_ne]
      rintro rfl
      exact hnodup.1 hrest

theorem reading_eq_upcoming (hnodup : pins.Nodup) (k : Nat) : ∀ (board : Board),
    board.reading pins k = pins.map fun pin => board.upcoming pin k := by
  induction k with
  | zero => exact readAll_eq_upcoming hnodup
  | succ k ih =>
    intro board
    refine (ih _).trans ?_
    apply List.map_congr_left
    intro pin hmem
    exact upcoming_readAll_of_mem hnodup hmem k board

/-! ### Reads made -/

theorem reads_record (board : Board) (event : Event) :
    (board.record event).reads = board.reads ++ event.read?.toList := by
  unfold reads history record
  rw [List.reverse_cons, List.filterMap_append]
  cases hread : event.read? <;> simp [hread]

theorem reads_perform (board : Board) (command : Command) :
    (board.perform command).reads = board.reads := by
  obtain ⟨fault, htrace⟩ := board.trace_perform command
  unfold reads history
  rw [htrace, List.reverse_cons, List.filterMap_append]
  exact List.append_nil _

theorem reads_performAll (commands : List Command) (board : Board) :
    (board.performAll commands).reads = board.reads :=
  board.performAll_keeps fun command _ board => board.reads_perform command

theorem reads_read (board : Board) (pin : Pin) :
    (board.read pin).2.reads = board.reads ++ [(pin, (board.read pin).1)] := by
  unfold read
  split
  . exact reads_record board _
  . exact reads_record _ _

theorem reads_readAll (pins : List Pin) : ∀ (board : Board),
    (board.readAll pins).2.reads = board.reads ++ pins.zip (board.readAll pins).1 := by
  induction pins with
  | nil =>
    intro board
    exact (List.append_nil _).symm
  | cons pin pins ih =>
    intro board
    unfold readAll
    dsimp only
    rw [ih, reads_read, List.append_assoc]
    rfl

theorem reads_load (board : Board) (key room : Nat) : (board.load key room).2.reads = board.reads :=
  (reads_record board _).trans (List.append_nil _)

theorem found_perform (board : Board) (command : Command) (pin : Pin) :
    (board.perform command).found pin = board.found pin := by
  unfold found
  rw [reads_perform]

theorem found_load (board : Board) (key room : Nat) (pin : Pin) :
    (board.load key room).2.found pin = board.found pin := by
  unfold found
  rw [reads_load]

theorem found_read_self (board : Board) (pin : Pin) :
    (board.read pin).2.found pin = board.found pin ++ [board.upcoming pin 0] := by
  unfold found
  rw [reads_read, read_eq_upcoming, List.filter_append, List.map_append]
  simp

theorem found_read_of_ne {next : Pin} (h : pin ≠ next) (board : Board) :
    (board.read pin).2.found next = board.found next := by
  unfold found
  rw [reads_read, List.filter_append, List.map_append]
  simp [h]

/-! ### Scripts -/

theorem script_read_self (board : Board) (pin : Pin) :
    (board.read pin).2.script pin
      =
    (board.found pin ++ [board.upcoming pin 0], fun k => board.upcoming pin (k + 1)) :=
  Prod.ext (found_read_self board pin) (funext fun k => upcoming_read_self board pin k)

theorem script_read_of_ne {next : Pin} (h : pin ≠ next) (board : Board) :
    (board.read pin).2.script next = board.script next :=
  Prod.ext (found_read_of_ne h board) (upcoming_read_of_ne h board)

theorem script_perform_of_ne {command : Command} (h : ∀ high, command ≠ .write pin high)
    (board : Board) : (board.perform command).script pin = board.script pin := by
  unfold script upcoming rest
  rw [found_perform, bounces_perform, level_perform_of_ne board h]

end Board

end WallSwitch
