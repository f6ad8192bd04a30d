import Mathlib.Data.List.Nodup
import WallSwitch.PinWatcher

/-!
This module contains the pins that a watcher can have come to watch: each of them is in one place of
its table only.
-/

namespace WallSwitch

namespace PinWatcher

variable {α : Type}

/--
The watchers that there can be: pins are watched and let go, and bursts come and settle, on whatever
the board is at the time.
-/
inductive Reachable : PinWatcher α → Prop where
  | empty : Reachable empty
  | watch {watcher watcher' : PinWatcher α} {board board' : Board} {pin : Pin} {payload : α}
      (h : Reachable watcher) (hwatch : watcher.watch board pin payload = .ok (watcher', board')) :
    Reachable watcher'
  | unwatch {watcher : PinWatcher α} (pin : Pin) (h : Reachable watcher) :
    Reachable ((unwatch pin).step.state watcher)
  | onEdge {watcher : PinWatcher α} (h : Reachable watcher) : Reachable (onEdge.state watcher)
  | pass {watcher : PinWatcher α} (board : Board) (h : Reachable watcher) :
    Reachable (watcher.pass board).2.1

variable {watcher watcher' : PinWatcher α} {board board' : Board} {pin : Pin} {payload : α} {i : Nat}

theorem watched_around (watcher : PinWatcher α) (hi : i < 16) :
    ∃ before later : List (Watched α), watcher.watched = before ++ watcher.slots[i].toList ++ later
      ∧ ∀ slot, ({ watcher with slots := watcher.slots.setIfInBounds i slot }).watched
          = before ++ slot.toList ++ later := by
  have hlength : i < watcher.slots.toList.length := by simp [hi]
  refine ⟨(watcher.slots.toList.take i).filterMap id,
    (watcher.slots.toList.drop (i + 1)).filterMap id, ?_, ?_⟩
  . unfold watched
    conv =>
      lhs
      rw [← List.take_append_drop i watcher.slots.toList, List.drop_eq_getElem_cons hlength]
    cases hslot : watcher.slots[i] <;> simp [hslot]
  . intro slot
    unfold watched
    simp only [Vector.toList_setIfInBounds]
    rw [List.set_eq_take_append_cons_drop, if_pos hlength]
    cases slot <;> simp

theorem lt_of_findIdx? {found : Option (Watched α) → Bool}
    (h : watcher.slots.toList.findIdx? found = some i) :
    ∃ hi : i < 16, found watcher.slots[i] = true := by
  rw [List.findIdx?_eq_some_iff_getElem] at h
  obtain ⟨hi, hfound, _⟩ := h
  have hi' : i < 16 := by simpa using hi
  exact ⟨hi', by simpa using hfound⟩

theorem slotOf?_eq_some (h : watcher.slotOf? pin = some i) :
    ∃ hi : i < 16, watcher.slots[i].map (·.pin) = some pin := by
  obtain ⟨hi, hfound⟩ := lt_of_findIdx? h
  rw [Option.any_eq_true] at hfound
  obtain ⟨watched, hwatched, hpin⟩ := hfound
  exact ⟨hi, by simp [hwatched, beq_iff_eq.mp hpin]⟩

theorem watches_iff : watcher.watches pin = true ↔ pin ∈ watcher.pins := by
  unfold watches slotOf? pins watched
  rw [List.findIdx?_isSome, List.any_eq_true, List.mem_map]
  simp only [List.mem_filterMap, Option.any_eq_true, beq_iff_eq, id_eq]
  constructor
  . rintro ⟨slot, hslot, watched, rfl, hpin⟩
    exact ⟨watched, ⟨_, hslot, rfl⟩, hpin⟩
  . rintro ⟨watched, ⟨slot, hslot, rfl⟩, hpin⟩
    exact ⟨_, hslot, watched, rfl, hpin⟩

theorem not_mem_pins_of_slotOf? (h : watcher.slotOf? pin = none) : pin ∉ watcher.pins := by
  rw [← watches_iff, watches, h]
  decide

/-! ### Room -/

theorem isSome_freeSlot?_iff : watcher.freeSlot?.isSome = true ↔ watcher.size < 16 := by
  have hroom : watcher.size < watcher.slots.toList.length
      ↔ ∃ slot ∈ watcher.slots.toList, slot = none :=
    List.length_filterMap_lt_length_iff_exists.trans (by simp)
  rw [Vector.length_toList] at hroom
  unfold freeSlot?
  rw [List.findIdx?_isSome, List.any_eq_true, hroom]
  simp

theorem size_le (watcher : PinWatcher α) : watcher.size ≤ 16 := by
  have hle := List.length_filterMap_le id watcher.slots.toList
  rwa [Vector.length_toList] at hle

theorem place_cases (watcher : PinWatcher α) (pin : Pin) :
    (pin.isValid = false ∧ watcher.place pin = .error .invalidPin)
      ∨ (pin.isValid = true ∧ pin ∉ watcher.pins ∧ watcher.size = 16
        ∧ watcher.place pin = .error .tableFull)
      ∨ (pin.isValid = true ∧ (pin ∈ watcher.pins ∨ watcher.size < 16)
        ∧ ∃ i, watcher.place pin = .ok i) := by
  unfold place
  cases hvalid : pin.isValid with
  | false => exact .inl ⟨rfl, rfl⟩
  | true =>
    right
    rw [← watches_iff, watches, ← isSome_freeSlot?_iff]
    cases watcher.slotOf? pin with
    | some i => exact .inr ⟨rfl, .inl rfl, i, rfl⟩
    | none =>
      cases hfree : watcher.freeSlot? with
      | some i => exact .inr ⟨rfl, .inr rfl, i, rfl⟩
      | none =>
        left
        have hfull : ¬watcher.size < 16 := by
          rw [← isSome_freeSlot?_iff, hfree]
          decide
        exact ⟨rfl, by decide, Nat.le_antisymm watcher.size_le (Nat.le_of_not_lt hfull), rfl⟩

/-! ### Watching and letting go -/

theorem watch_cases (watcher : PinWatcher α) (board : Board) (pin : Pin) (payload : α) :
    (pin.isValid = false ∧ watcher.watch board pin payload = .error .invalidPin)
      ∨ (pin.isValid = true ∧ pin ∉ watcher.pins ∧ watcher.size = 16
        ∧ watcher.watch board pin payload = .error .tableFull)
      ∨ (pin.isValid = true ∧ (pin ∈ watcher.pins ∨ watcher.size < 16)
        ∧ ∃ watcher' board', watcher.watch board pin payload = .ok (watcher', board')) := by
  unfold watch
  rcases watcher.place_cases pin with
    ⟨hinvalid, hplace⟩ | ⟨hvalid, hnew, hfull, hplace⟩ | ⟨hvalid, hroom, i, hplace⟩
  . rw [hplace]
    exact .inl ⟨hinvalid, rfl⟩
  . rw [hplace]
    exact .inr (.inl ⟨hvalid, hnew, hfull, rfl⟩)
  . rw [hplace]
    exact .inr (.inr ⟨hvalid, hroom, _, _, rfl⟩)

theorem exists_watch (hvalid : pin.isValid = true) (hroom : watcher.watched.length < 16)
    (payload : α) : ∃ watcher' board', watcher.watch board pin payload = .ok (watcher', board') := by
  rcases watcher.watch_cases board pin payload with ⟨hinvalid, _⟩ | ⟨_, _, hfull, _⟩ | ⟨_, _, hwatch⟩
  . rw [hvalid] at hinvalid
    cases hinvalid
  . exact absurd hfull (Nat.ne_of_lt hroom)
  . exact hwatch

theorem exists_place_of_watch
    (hwatch : watcher.watch board pin payload = .ok (watcher', board')) :
    ∃ i, watcher.place pin = .ok i
      ∧ watcher' = { watcher with slots := watcher.slots.setIfInBounds i (some ⟨pin, payload⟩) }
      ∧ board' = (board.read pin).2.performAll
          [arm pin (board.read pin).1, .enableInterrupt pin] := by
  unfold watch at hwatch
  cases hplace : watcher.place pin with
  | error error =>
    rw [hplace] at hwatch
    cases hwatch
  | ok i =>
    rw [hplace] at hwatch
    cases hwatch
    exact ⟨i, rfl, rfl, rfl⟩

theorem board_watch (hwatch : watcher.watch board pin payload = .ok (watcher', board')) :
    board' = (board.read pin).2.performAll [arm pin (board.read pin).1, .enableInterrupt pin] := by
  obtain ⟨_, _, _, hboard⟩ := exists_place_of_watch hwatch
  exact hboard

theorem pause_watch (hwatch : watcher.watch board pin payload = .ok (watcher', board')) :
    watcher'.pause = watcher.pause := by
  obtain ⟨_, _, rfl, _⟩ := exists_place_of_watch hwatch
  rfl

theorem pause_unwatch (watcher : PinWatcher α) (pin : Pin) :
    ((unwatch pin).step.state watcher).pause = watcher.pause := by
  unfold unwatch Request.step Step.state
  dsimp only
  split <;> rfl

theorem answer_unwatch (watcher : PinWatcher α) (pin : Pin) :
    (unwatch pin).answer watcher = watcher.watches pin := by
  unfold watches
  cases hslot : watcher.slotOf? pin with
  | none => simp [unwatch, Request.answer, hslot]
  | some i => simp [unwatch, Request.answer, hslot]

theorem commands_unwatch (watcher : PinWatcher α) (pin : Pin) :
    (unwatch pin).step.commands watcher
      =
    if watcher.watches pin then [.disableInterrupt pin] else [] := by
  unfold watches
  cases hslot : watcher.slotOf? pin with
  | none => simp [unwatch, Request.step, Step.commands, hslot]
  | some i => simp [unwatch, Request.step, Step.commands, hslot]

theorem watched_unwatch (watcher : PinWatcher α) (pin : Pin) :
    ∃ before old later, watcher.watched = before ++ Option.toList old ++ later
      ∧ ((unwatch pin).step.state watcher).watched = before ++ later
      ∧ ((∃ watched, old = some watched ∧ watched.pin = pin) ∨ (old = none ∧ pin ∉ watcher.pins)) := by
  simp only [unwatch, Request.step, Step.state]
  split
  . next hslot =>
    exact ⟨watcher.watched, none, [], by simp, by simp, .inr ⟨rfl, not_mem_pins_of_slotOf? hslot⟩⟩
  . next i hslot =>
    obtain ⟨hi, hsame⟩ := slotOf?_eq_some hslot
    obtain ⟨before, later, hwatched, hchanged⟩ := watcher.watched_around hi
    refine ⟨before, watcher.slots[i], later, hwatched, ?_, .inl (Option.map_eq_some_iff.mp hsame)⟩
    rw [hchanged]
    simp

theorem pins_unwatch_sublist : ((unwatch pin).step.state watcher).pins.Sublist watcher.pins := by
  obtain ⟨before, old, later, hwatched, hleft, _⟩ := watcher.watched_unwatch pin
  unfold pins
  rw [hwatched, hleft]
  apply List.Sublist.map
  simp

theorem watched_watch (hwatch : watcher.watch board pin payload = .ok (watcher', board')) :
    ∃ before old later, watcher.watched = before ++ Option.toList old ++ later
      ∧ watcher'.watched = before ++ ⟨pin, payload⟩ :: later
      ∧ ((∃ watched, old = some watched ∧ watched.pin = pin) ∨ (old = none ∧ pin ∉ watcher.pins)) := by
  obtain ⟨i, hplace, rfl, _⟩ := exists_place_of_watch hwatch
  unfold place at hplace
  split at hplace
  . cases hplace
  -- The pin keeps the slot that it has, and otherwise takes the first free one.
  . cases hslot : watcher.slotOf? pin with
    | some j =>
      simp only [hslot, Option.some_or, Except.ok.injEq] at hplace
      subst hplace
      obtain ⟨hj, hsame⟩ := slotOf?_eq_some hslot
      obtain ⟨before, later, hwatched, hchanged⟩ := watcher.watched_around hj
      refine ⟨before, watcher.slots[j], later, hwatched, ?_, .inl ?_⟩
      . rw [hchanged]
        simp
      . exact Option.map_eq_some_iff.mp hsame
    | none =>
      have hnew := not_mem_pins_of_slotOf? hslot
      rw [hslot, Option.none_or] at hplace
      cases hfree : watcher.freeSlot? with
      | none => simp [hfree] at hplace
      | some j =>
        simp only [hfree, Except.ok.injEq] at hplace
        subst hplace
        obtain ⟨hj, hnone⟩ := lt_of_findIdx? hfree
        obtain ⟨before, later, hwatched, hchanged⟩ := watcher.watched_around hj
        rw [Option.isNone_iff_eq_none] at hnone
        rw [hnone] at hwatched
        refine ⟨before, none, later, hwatched, ?_, .inr ⟨rfl, hnew⟩⟩
        rw [hchanged]
        simp

theorem pins_watch (hwatch : watcher.watch board pin payload = .ok (watcher', board')) :
    watcher'.pins = watcher.pins
      ∨ ∃ before later, watcher.pins = before ++ later ∧ watcher'.pins = before ++ pin :: later
        ∧ pin ∉ watcher.pins := by
  obtain ⟨before, old, later, hwatched, hadded, hold⟩ := watched_watch hwatch
  unfold pins
  rw [hwatched, hadded]
  rcases hold with ⟨watched, rfl, rfl⟩ | ⟨rfl, hnew⟩
  . left
    simp
  . right
    refine ⟨before.map (·.pin), later.map (·.pin), by simp, by simp, ?_⟩
    unfold pins at hnew
    rwa [hwatched] at hnew

theorem mem_around_iff {before later : List (Watched α)} {old : Option (Watched α)}
    (hnodup : watcher.pins.Nodup) (hwatched : watcher.watched = before ++ old.toList ++ later)
    (hold : (∃ watched, old = some watched ∧ watched.pin = pin) ∨ (old = none ∧ pin ∉ watcher.pins))
    (watched : Watched α) :
    watched ∈ before ++ later ↔ watched ∈ watcher.watched ∧ watched.pin ≠ pin := by
  have hother : watched ∈ before ++ later → watched.pin ≠ pin := by
    rintro hmem rfl
    rcases hold with ⟨same, rfl, hsame⟩ | ⟨rfl, hnew⟩
    . unfold pins at hnodup
      rw [hwatched, Option.toList_some, List.append_assoc, List.singleton_append, List.map_append,
        List.map_cons, List.nodup_middle, List.nodup_cons, ← List.map_append, hsame] at hnodup
      exact hnodup.1 (List.mem_map_of_mem hmem)
    . apply hnew
      unfold pins
      rw [hwatched, Option.toList_none, List.append_nil]
      exact List.mem_map_of_mem hmem
  have hmem : watched ∈ watcher.watched ↔ watched ∈ before ++ later ∨ old = some watched := by
    rw [hwatched]
    simp only [List.mem_append, Option.mem_toList]
    tauto
  rw [hmem]
  constructor
  . intro h
    exact ⟨.inl h, hother h⟩
  . rintro ⟨h | hsame, hne⟩
    . exact h
    . rcases hold with ⟨same, hsome, hpin⟩ | ⟨hnone, _⟩
      . rw [hsame, Option.some.injEq] at hsome
        exact absurd (hsome ▸ hpin) hne
      . rw [hsame] at hnone
        cases hnone

theorem mem_watched_watch_iff (hwatch : watcher.watch board pin payload = .ok (watcher', board'))
    (hnodup : watcher.pins.Nodup) (watched : Watched α) :
    watched ∈ watcher'.watched
      ↔ watched = ⟨pin, payload⟩ ∨ (watched ∈ watcher.watched ∧ watched.pin ≠ pin) := by
  obtain ⟨before, old, later, hwatched, hadded, hold⟩ := watched_watch hwatch
  rw [hadded, ← mem_around_iff hnodup hwatched hold]
  simp only [List.mem_append, List.mem_cons]
  tauto

theorem mem_watched_unwatch_iff (hnodup : watcher.pins.Nodup) (pin : Pin) (watched : Watched α) :
    watched ∈ ((unwatch pin).step.state watcher).watched
      ↔ watched ∈ watcher.watched ∧ watched.pin ≠ pin := by
  obtain ⟨before, old, later, hwatched, hleft, hold⟩ := watcher.watched_unwatch pin
  rw [hleft, mem_around_iff hnodup hwatched hold]

theorem nodup_pins_watch (hwatch : watcher.watch board pin payload = .ok (watcher', board'))
    (h : watcher.pins.Nodup) : watcher'.pins.Nodup := by
  rcases pins_watch hwatch with hsame | ⟨before, later, hpins, hadded, hnew⟩
  . rw [hsame]
    exact h
  . rw [hadded, List.nodup_middle, List.nodup_cons, ← hpins]
    exact ⟨hnew, h⟩

theorem mem_pins_watch_iff {other : Pin}
    (hwatch : watcher.watch board pin payload = .ok (watcher', board')) :
    other ∈ watcher'.pins ↔ other = pin ∨ other ∈ watcher.pins := by
  obtain ⟨before, old, later, hwatched, hadded, hold⟩ := watched_watch hwatch
  unfold pins
  rw [hwatched, hadded]
  simp only [List.map_append, List.map_cons, List.mem_append, List.mem_cons]
  rcases hold with ⟨watched, rfl, rfl⟩ | ⟨rfl, _⟩
  . simp only [Option.toList_some, List.map_cons, List.map_nil, List.mem_singleton]
    tauto
  . simp only [Option.toList_none, List.map_nil, List.not_mem_nil, or_false]
    tauto

theorem mem_pins_unwatch_iff {other : Pin} (hnodup : watcher.pins.Nodup) (pin : Pin) :
    other ∈ ((unwatch pin).step.state watcher).pins ↔ other ∈ watcher.pins ∧ other ≠ pin := by
  simp only [pins, List.mem_map, mem_watched_unwatch_iff hnodup]
  constructor
  . rintro ⟨watched, ⟨hmem, hne⟩, rfl⟩
    exact ⟨⟨watched, hmem, rfl⟩, hne⟩
  . rintro ⟨⟨watched, hmem, rfl⟩, hne⟩
    exact ⟨watched, ⟨hmem, hne⟩, rfl⟩

theorem Reachable.nodup_pins (h : watcher.Reachable) : watcher.pins.Nodup := by
  induction h with
  | empty => exact List.nodup_nil
  | watch _ hwatch ih => exact nodup_pins_watch hwatch ih
  | unwatch pin _ ih => exact pins_unwatch_sublist.nodup ih
  | onEdge _ ih => exact ih
  | pass board _ ih => exact ih

end PinWatcher

end WallSwitch
