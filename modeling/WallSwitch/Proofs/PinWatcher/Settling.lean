import WallSwitch.Proofs.Board.Readings
import WallSwitch.Proofs.PinWatcher.Table

/-!
This module contains the proof that a pass leaves every pin armed for the edge that leaves the level
that it notifies of, if two readings in a row agree while it tries, and only then.
-/

namespace WallSwitch

theorem Edge.leaving_injective {high high' : Bool} (h : leaving high = leaving high') :
    high = high' := by
  cases high <;> cases high' <;> first | rfl | cases h

namespace Board

def Armed (board : Board) (pins : List Pin) (levels : List Bool) : Prop :=
  ∀ entry ∈ pins.zip levels, board.armedEdge.get entry.1 = some (.leaving entry.2)

def Shows (board : Board) (pins : List Pin) (levels : List Bool) : Prop :=
  ∀ entry ∈ pins.zip levels, board.level entry.1 = entry.2

variable {board : Board}

theorem Armed.eq : ∀ {pins : List Pin} {levels levels' : List Bool},
    board.Armed pins levels → board.Armed pins levels' → levels.length = pins.length →
      levels'.length = pins.length → levels = levels'
  | [], [], [], _, _, _, _ => rfl
  | pin :: pins, high :: levels, high' :: levels', h, h', hlength, hlength' => by
    have hhigh : high' = high := by
      have hedge := h (pin, high) List.mem_cons_self
      rw [h' (pin, high') List.mem_cons_self, Option.some.injEq] at hedge
      exact Edge.leaving_injective hedge
    have harmed : board.Armed pins levels := fun entry hmem => h entry (List.mem_cons_of_mem _ hmem)
    have harmed' : board.Armed pins levels' :=
      fun entry hmem => h' entry (List.mem_cons_of_mem _ hmem)
    rw [harmed.eq harmed' (by simpa using hlength) (by simpa using hlength'), hhigh]

theorem Shows.eq_map : ∀ {pins : List Pin} {levels : List Bool}, board.Shows pins levels →
    levels.length = pins.length → levels = pins.map board.level
  | [], [], _, _ => rfl
  | pin :: pins, high :: levels, h, hlength => by
    have hhigh : board.level pin = high := h (pin, high) List.mem_cons_self
    have hshows : board.Shows pins levels := fun entry hmem => h entry (List.mem_cons_of_mem _ hmem)
    rw [List.map_cons, hhigh, ← hshows.eq_map (by simpa using hlength)]

theorem shows_readAll : ∀ {pins : List Pin}, pins.Nodup → ∀ (board : Board),
    (board.readAll pins).2.Shows pins (board.readAll pins).1
  | [], _, _ => by
    intro entry hmem
    simp at hmem
  | pin :: pins, hnodup, board => by
    rw [List.nodup_cons] at hnodup
    unfold Board.readAll
    dsimp only
    intro entry hmem
    rw [List.zip_cons_cons, List.mem_cons] at hmem
    cases hmem with
    | inl heq => rw [heq, level_readAll_of_not_mem hnodup.1, level_read_self]
    | inr hrest => exact shows_readAll hnodup.2 _ entry hrest

theorem interruptEnabled_disableAll (pins : List Pin) (pin : Pin) :
    ∀ board : Board, (board.performAll (pins.map .disableInterrupt)).interruptEnabled.get pin
      =
    (decide (pin ∉ pins) && board.interruptEnabled.get pin) := by
  induction pins with
  | nil => simp
  | cons other pins ih =>
    intro board
    rw [List.map_cons, performAll_cons, ih]
    change (_ && (board.interruptEnabled.set other false).get pin) = _
    rw [PinMap.get_set]
    by_cases h : other = pin
    . simp [h]
    . simp [h, Ne.symm h]

end Board

namespace PinWatcher

section Arming

variable {pins : List Pin} {levels : List Bool}

theorem of_mem_zipWith_arm {command : Command} (h : command ∈ pins.zipWith arm levels) :
    ∃ pin ∈ pins, ∃ high, command = .armInterrupt pin (.leaving high) := by
  rw [← List.map_uncurry_zip_eq_zipWith, List.mem_map] at h
  obtain ⟨entry, hmem, rfl⟩ := h
  exact ⟨entry.1, (List.of_mem_zip hmem).1, entry.2, rfl⟩

theorem sameInputs_arm (board : Board) :
    (board.performAll (pins.zipWith arm levels)).SameInputs board := by
  apply Board.sameInputs_performAll
  intro pin high hmem
  obtain ⟨_, _, _, heq⟩ := of_mem_zipWith_arm hmem
  cases heq

theorem armed_arm : ∀ {pins : List Pin}, pins.Nodup → ∀ (levels : List Bool) (board : Board),
    (board.performAll (pins.zipWith arm levels)).Armed pins levels
  | [], _, _, _ => by
    intro entry hmem
    simp at hmem
  | _ :: _, _, [], _ => by
    intro entry hmem
    simp at hmem
  | pin :: pins, hnodup, high :: levels, board => by
    rw [List.nodup_cons] at hnodup
    rw [List.zipWith_cons_cons, Board.performAll_cons]
    intro entry hmem
    rw [List.zip_cons_cons, List.mem_cons] at hmem
    cases hmem with
    | inl heq =>
      rw [heq, Board.armedEdge_performAll_of_not_armed]
      . exact PinMap.get_set_self ..
      . intro edge hmem
        obtain ⟨other, hother, _, hcommand⟩ := of_mem_zipWith_arm hmem
        cases hcommand
        exact hnodup.1 hother
    | inr hrest => exact armed_arm hnodup.2 levels _ entry hrest

end Arming

/-! ### Trying -/

section Trying

variable (pins : List Pin) (levels : List Bool) (board : Board)

/--
The readings that are compared: the one that is there to begin with, and those that follow.
-/
def compared : Nat → List Bool
  | 0 => levels
  | k + 1 => board.reading pins k

def attempted : List Bool × Board :=
  (board.performAll (pins.zipWith arm levels)).readAll pins

theorem settle_succ (tries : Nat) :
    settle pins (tries + 1) levels board
      =
    if (attempted pins levels board).1 = levels then (levels, (attempted pins levels board).2)
    else settle pins tries (attempted pins levels board).1 (attempted pins levels board).2 := rfl

theorem length_attempted : (attempted pins levels board).1.length = pins.length :=
  Board.length_readAll pins _

theorem compared_attempted (k : Nat) :
    compared pins (attempted pins levels board).1 (attempted pins levels board).2 k
      =
    compared pins levels board (k + 1) := by
  cases k with
  | zero => exact (sameInputs_arm board).reading_eq pins 0
  | succ k => exact (sameInputs_arm board).reading_eq pins (k + 1)

theorem settle_keeps {β : Type} {f : Board → β} {pins : List Pin}
    (h : ∀ levels board, f (attempted pins levels board).2 = f board) (tries : Nat) :
    ∀ (levels : List Bool) (board : Board), f (settle pins tries levels board).2 = f board := by
  induction tries with
  | zero =>
    intro levels board
    rfl
  | succ tries ih =>
    intro levels board
    rw [settle_succ]
    split
    . exact h levels board
    . exact (ih _ _).trans (h levels board)

theorem pass_keeps {α β : Type} {f : Board → β}
    (harm : ∀ pin edge, ∀ board : Board, f (board.perform (.armInterrupt pin edge)) = f board)
    (henable : ∀ pin, ∀ board : Board, f (board.perform (.enableInterrupt pin)) = f board)
    (hread : ∀ pin, ∀ board : Board, f (board.read pin).2 = f board) (watcher : PinWatcher α)
    (board : Board) : f (watcher.pass board).2.2 = f board := by
  have hreadAll (board : Board) : f (board.readAll watcher.pins).2 = f board :=
    board.readAll_keeps fun pin _ board => hread pin board
  have hattempted (levels : List Bool) (board : Board) :
      f (attempted watcher.pins levels board).2 = f board := by
    apply (hreadAll _).trans
    apply Board.performAll_keeps
    intro command hmem board
    obtain ⟨pin, _, high, rfl⟩ := of_mem_zipWith_arm hmem
    exact harm pin (.leaving high) board
  have henabled (board : Board) :
      f (board.performAll (watcher.pins.map .enableInterrupt)) = f board := by
    apply Board.performAll_keeps
    intro command hmem board
    obtain ⟨pin, _, rfl⟩ := List.mem_map.mp hmem
    exact henable pin board
  unfold pass
  dsimp only
  rw [henabled, settle_keeps hattempted, hreadAll]

theorem level_settle_of_not_mem {pins : List Pin} {pin : Pin} (hpin : pin ∉ pins) (tries : Nat)
    (levels : List Bool) (board : Board) :
    (settle pins tries levels board).2.level pin = board.level pin := by
  apply settle_keeps (f := fun board => board.level pin)
  intro levels board
  unfold attempted
  rw [Board.level_readAll_of_not_mem hpin]
  apply Board.level_performAll_of_not_written
  intro high hmem
  obtain ⟨_, _, _, heq⟩ := of_mem_zipWith_arm hmem
  cases heq

theorem length_settle {pins : List Pin} (tries : Nat) : ∀ (levels : List Bool) (board : Board),
    levels.length = pins.length → (settle pins tries levels board).1.length = pins.length := by
  induction tries with
  | zero =>
    intro levels board hlength
    exact hlength
  | succ tries ih =>
    intro levels board hlength
    rw [settle_succ]
    split
    . exact hlength
    . exact ih _ _ (length_attempted pins levels board)

variable {pins} (hnodup : pins.Nodup)
include hnodup

theorem armed_attempted : (attempted pins levels board).2.Armed pins levels := by
  intro entry hmem
  unfold attempted
  rw [Board.armedEdge_readAll]
  exact armed_arm hnodup levels board entry hmem

theorem shows_attempted :
    (attempted pins levels board).2.Shows pins (attempted pins levels board).1 :=
  Board.shows_readAll hnodup _

theorem armed_attempted_iff (hlength : levels.length = pins.length) :
    (attempted pins levels board).2.Armed pins (attempted pins levels board).1
      ↔ (attempted pins levels board).1 = levels := by
  have harmed := armed_attempted levels board hnodup
  constructor
  . intro h
    exact h.eq harmed (length_attempted pins levels board) hlength
  . intro h
    rw [h]
    exact harmed

theorem shows_settle (tries : Nat) : ∀ (levels : List Bool) (board : Board),
    (settle pins (tries + 1) levels board).2.Shows pins (settle pins (tries + 1) levels board).1 := by
  induction tries with
  | zero =>
    intro levels board
    have hshows := shows_attempted levels board hnodup
    rw [settle_succ]
    split
    . next heq => rwa [heq] at hshows
    . exact hshows
  | succ tries ih =>
    intro levels board
    have hshows := shows_attempted levels board hnodup
    rw [settle_succ]
    split
    . next heq => rwa [heq] at hshows
    . exact ih _ _

/--
The levels that the tries end with are those that the pins are armed for exactly if a reading agreed
with the one before it. The last try arms for the reading before its own.
-/
theorem armed_settle_iff (tries : Nat) : ∀ (levels : List Bool) (board : Board),
    levels.length = pins.length →
      ((settle pins (tries + 1) levels board).2.Armed pins (settle pins (tries + 1) levels board).1
        ↔ ∃ k < tries + 1, compared pins levels board (k + 1) = compared pins levels board k) := by
  -- The first try either agrees with `levels`, which the pins were just armed for, or it hands its own
  -- reading to the tries that are left.
  induction tries with
  | zero =>
    intro levels board hlength
    rw [Nat.exists_lt_succ_left, settle_succ]
    simp only [Nat.not_lt_zero, false_and, exists_false, or_false]
    rw [← compared_attempted]
    have hiff := armed_attempted_iff levels board hnodup hlength
    split
    . next heq => exact iff_of_true (armed_attempted levels board hnodup) heq
    . next hne => exact hiff
  | succ tries ih =>
    intro levels board hlength
    rw [Nat.exists_lt_succ_left, settle_succ]
    split
    . next heq =>
      apply iff_of_true (armed_attempted levels board hnodup)
      left
      rw [← compared_attempted]
      exact heq
    . next hne =>
      rw [ih _ _ (length_attempted pins levels board)]
      have hfirst : ¬compared pins levels board 1 = compared pins levels board 0 := by
        rw [← compared_attempted]
        exact hne
      simp only [compared_attempted, hfirst, false_or]

end Trying

section Passes

variable {α : Type} {watcher : PinWatcher α}

theorem level_pass_of_not_mem {pin : Pin} (hpin : pin ∉ watcher.pins) (board : Board) :
    (watcher.pass board).2.2.level pin = board.level pin := by
  unfold pass
  dsimp only
  rw [Board.level_performAll_of_not_written, level_settle_of_not_mem hpin,
    Board.level_readAll_of_not_mem hpin]
  simp

theorem map_notifications (watcher : PinWatcher α) (levels : List Bool) :
    (watcher.notifications levels).map (fun notification => (notification.pin, notification.high))
      =
    watcher.pins.zip levels := by
  unfold notifications pins
  rw [List.map_zipWith, List.zip_map_left, List.map_zip_eq_zipWith]
  rfl

theorem forall_notifications (watcher : PinWatcher α) (levels : List Bool)
    (p : Pin → Bool → Prop) :
    (∀ notification ∈ watcher.notifications levels, p notification.pin notification.high)
      ↔ ∀ entry ∈ watcher.pins.zip levels, p entry.1 entry.2 := by
  rw [← map_notifications, List.forall_mem_map]

theorem notifications_pass (hnodup : watcher.pins.Nodup) (board : Board) :
    (watcher.pass board).1
      =
    watcher.watched.map fun watched =>
      ⟨watched.pin, (watcher.pass board).2.2.level watched.pin, watched.payload⟩ := by
  have hlevels : (settle watcher.pins settleTries (board.readAll watcher.pins).1
      (board.readAll watcher.pins).2).1 = watcher.pins.map (settle watcher.pins settleTries
      (board.readAll watcher.pins).1 (board.readAll watcher.pins).2).2.level :=
    (shows_settle hnodup 49 _ _).eq_map (length_settle _ _ _ (Board.length_readAll _ _))
  have hkept (pin : Pin) (board : Board) :
      (board.performAll (watcher.pins.map .enableInterrupt)).level pin = board.level pin := by
    apply Board.level_performAll_of_not_written
    simp
  unfold pass notifications
  dsimp only
  simp only [hkept]
  conv =>
    lhs
    rw [hlevels, pins, List.map_map, List.zipWith_map_right, List.zipWith_self]
  rfl

theorem interruptEnabled_performAll : ∀ (pins : List Pin) (board : Board) (pin : Pin),
    (board.performAll (pins.map .enableInterrupt)).interruptEnabled.get pin
      =
    (decide (pin ∈ pins) || board.interruptEnabled.get pin)
  | [], _, _ => by simp
  | other :: pins, board, pin => by
    rw [List.map_cons, Board.performAll_cons, interruptEnabled_performAll]
    change (_ || (board.interruptEnabled.set other true).get pin) = _
    rw [PinMap.get_set]
    by_cases h : other = pin
    . simp [h]
    . simp [h, Ne.symm h]

theorem interruptEnabled_pass (watcher : PinWatcher α) (board : Board) (pin : Pin) :
    (watcher.pass board).2.2.interruptEnabled.get pin
      =
    (decide (pin ∈ watcher.pins) || board.interruptEnabled.get pin) := by
  have hattempted (levels : List Bool) (board : Board) :
      (attempted watcher.pins levels board).2.interruptEnabled = board.interruptEnabled := by
    apply (Board.interruptEnabled_readAll _ _).trans
    apply Board.performAll_keeps
    intro command hmem board
    obtain ⟨_, _, _, rfl⟩ := of_mem_zipWith_arm hmem
    rfl
  unfold pass
  dsimp only
  rw [interruptEnabled_performAll, settle_keeps hattempted, Board.interruptEnabled_readAll]

theorem interrupts_leaving_iff {board : Board} {pin : Pin} {high : Bool}
    (henabled : board.interruptEnabled.get pin = true) (hlevel : board.level pin = high) :
    board.interrupts pin (!high) = true
      ↔ board.armedEdge.get pin = some (.leaving high) := by
  simp [Board.interrupts, henabled, hlevel, Edge.leaving]

theorem reachable_single {pin : Pin} {payload : α} (hvalid : pin.isValid = true) :
    Reachable ⟨(Vector.replicate 16 none).set 0 (some ⟨pin, payload⟩), 3, 0⟩ := by
  cases pin with
  | invalid => cases hvalid
  | line port number =>
    have hwatch : (empty : PinWatcher α).watch (.idle [] .notJoined (.sound (.empty 8 128)))
        (.line port number) payload = .ok (_, _) := rfl
    exact .watch .empty hwatch

/--
A pass notifies of every pin that is watched. The edges that it leaves the pins armed for are those
away from the levels that it notifies of, so that the next change of such a level interrupts, exactly
if a reading of the pins agrees with the one before it until the tries are used up.
-/
theorem armed_as_notified_iff_readings_agree (h : watcher.Reachable) (board : Board) :
    let passed := watcher.pass board
    let agree := ∃ k < settleTries,
      board.reading watcher.pins (k + 1) = board.reading watcher.pins k
    passed.1.map (·.pin) = watcher.pins
      ∧ ((∀ notification ∈ passed.1,
          passed.2.2.armedEdge.get notification.pin = some (.leaving notification.high)) ↔ agree)
      ∧ ((∀ notification ∈ passed.1,
          passed.2.2.interrupts notification.pin (!notification.high) = true) ↔ agree) := by
  intro passed agree
  have hnodup := h.nodup_pins
  let first := board.readAll watcher.pins
  let settled := settle watcher.pins settleTries first.1 first.2
  let board' := settled.2.performAll (watcher.pins.map .enableInterrupt)
  have hfirst : first.1.length = watcher.pins.length := Board.length_readAll _ _
  have hlength : settled.1.length = watcher.pins.length := length_settle _ _ _ hfirst
  have hagree : settled.2.Armed watcher.pins settled.1 ↔ agree := by
    have hcompared (k : Nat) :
        compared watcher.pins first.1 first.2 k = board.reading watcher.pins k := by
      cases k <;> rfl
    have hiff := armed_settle_iff hnodup 49 first.1 first.2 hfirst
    simp only [hcompared] at hiff
    exact hiff
  have hedges (pin : Pin) : board'.armedEdge.get pin = settled.2.armedEdge.get pin := by
    apply Board.armedEdge_performAll_of_not_armed
    simp
  rw [← hagree]
  refine ⟨?_, ?_, ?_⟩
  . have hpins := congrArg (List.map Prod.fst) (map_notifications watcher settled.1)
    rw [List.map_map, List.map_fst_zip (Nat.le_of_eq hlength.symm)] at hpins
    exact hpins
  . refine (forall_notifications watcher settled.1
      fun pin high => board'.armedEdge.get pin = some (.leaving high)).trans ?_
    simp only [hedges]
    rfl
  . refine (forall_notifications watcher settled.1
      fun pin high => board'.interrupts pin (!high) = true).trans ?_
    apply forall₂_congr
    intro entry hmem
    have henabled : board'.interruptEnabled.get entry.1 = true := by
      rw [interruptEnabled_performAll]
      simp [(List.of_mem_zip hmem).1]
    have hlevel : board'.level entry.1 = entry.2 := by
      rw [Board.level_performAll_of_not_written]
      . exact shows_settle hnodup 49 first.1 first.2 entry hmem
      . simp
    rw [interrupts_leaving_iff henabled hlevel, hedges]

theorem armed_as_notified_after_two_bounces :
    let pin := Pin.line 1 3
    let watcher : PinWatcher Unit := ⟨(Vector.replicate 16 none).set 0 (some ⟨pin, ()⟩), 3, 0⟩
    let board := (Board.idle [] .notJoined (.sound (.empty 8 128))).setBounces pin [true, false, true]
    let passed := watcher.pass board
    watcher.Reachable
      ∧ passed.1 = [⟨pin, true, ()⟩]
      ∧ passed.2.2.armedEdge.get pin = some .falling
      ∧ passed.2.2.interrupts pin false = true := by
  intro pin watcher board passed
  have hreachable : watcher.Reachable := reachable_single rfl
  obtain ⟨_, hedges, hinterrupts⟩ := armed_as_notified_iff_readings_agree hreachable board
  have hagree : ∃ k < settleTries,
      board.reading watcher.pins (k + 1) = board.reading watcher.pins k :=
    ⟨2, by decide, by decide +kernel⟩
  have hpassed : passed.1 = [⟨pin, true, ()⟩] := by decide +kernel
  have hmem : ⟨pin, true, ()⟩ ∈ passed.1 := by
    rw [hpassed]
    exact List.mem_singleton_self _
  have hedge := hedges.mpr hagree ⟨pin, true, ()⟩ hmem
  have hinterrupt := hinterrupts.mpr hagree ⟨pin, true, ()⟩ hmem
  exact ⟨hreachable, hpassed, hedge, hinterrupt⟩

/--
A contact that has not settled after fifty tries: it is found at the high level, but it is armed for
the edge that leaves the low one.
-/
theorem not_armed_as_notified_after_endless_bounces :
    let pin := Pin.line 1 3
    let watcher : PinWatcher Unit := ⟨(Vector.replicate 16 none).set 0 (some ⟨pin, ()⟩), 3, 0⟩
    let board := (Board.idle [] .notJoined (.sound (.empty 8 128))).setBounces pin
      ((List.range 51).map (· % 2 == 0))
    let passed := watcher.pass board
    watcher.Reachable
      ∧ ¬∀ notification ∈ passed.1,
        passed.2.2.armedEdge.get notification.pin = some (.leaving notification.high) := by
  intro pin watcher board passed
  refine ⟨reachable_single rfl, ?_⟩
  intro h
  have hmem : ⟨pin, true, ()⟩ ∈ passed.1 := by decide +kernel
  have hrising : passed.2.2.armedEdge.get pin = some .rising := by decide +kernel
  have hfalling := h _ hmem
  rw [hrising] at hfalling
  cases hfalling

end Passes

end PinWatcher

end WallSwitch
