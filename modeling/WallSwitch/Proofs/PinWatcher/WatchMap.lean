import Mathlib.Data.Finmap
import WallSwitch.Proofs.PinWatcher.Runs

/-!
This module contains the proof that a watcher is a finite map from valid pins to payloads with room
for sixteen of them, however it is used, and that every pass notifies of what the map holds.
-/

namespace WallSwitch

/--
What a watcher is to hold: the payloads of the pins that are watched.
-/
abbrev WatchMap (α : Type) := Finmap fun _ : Pin => α

namespace WatchMap

variable {α : Type}

def call (map : WatchMap α) : WatcherCall α → WatchMap α
  | .watch pin payload =>
    if pin.isValid = true ∧ (pin ∈ map ∨ map.keys.card < 16) then map.insert pin payload else map
  | .unwatch pin => map.erase pin
  | .onEdge | .pass => map

def use (map : WatchMap α) : WatcherUse α → WatchMap α
  | .call asked => map.call asked
  | .input .. | .setLevel .. | .setBounces .. | .wait _ => map

def used (map : WatchMap α) (uses : List (WatcherUse α)) : WatchMap α :=
  uses.foldl use map

theorem not_mem_use {map : WatchMap α} {pin : Pin} {asked : WatcherUse α} (h : pin ∉ map)
    (hasked : ∀ payload, asked ≠ .call (.watch pin payload)) : pin ∉ map.use asked := by
  cases asked with
  | call asked =>
    cases asked with
    | watch other payload =>
      have hne : pin ≠ other := by
        rintro rfl
        exact hasked payload rfl
      simp only [use, call]
      split
      . rw [Finmap.mem_insert]
        exact not_or.mpr ⟨hne, h⟩
      . exact h
    | unwatch other => exact fun hmem => h (Finmap.mem_erase.mp hmem).2
    | onEdge => exact h
    | pass => exact h
  | _ => exact h

theorem not_mem_used {pin : Pin} (uses : List (WatcherUse α)) : ∀ {map : WatchMap α}, pin ∉ map →
    (∀ payload, .call (.watch pin payload) ∉ uses) → pin ∉ map.used uses := by
  induction uses with
  | nil =>
    intro map h _
    exact h
  | cons asked uses ih =>
    intro map h huses
    simp only [List.mem_cons, not_or] at huses
    apply ih
    . apply not_mem_use h
      intro payload heq
      exact (huses payload).1 heq.symm
    . exact fun payload => (huses payload).2

end WatchMap

namespace PinWatcher

variable {α : Type}

/--
The entries of the table are those of the map, each in one place only.
-/
structure Represents (watcher : PinWatcher α) (map : WatchMap α) : Prop where
  entry : ∀ watched, watched ∈ watcher.watched ↔ map.lookup watched.pin = some watched.payload
  nodup : watcher.pins.Nodup
  valid : ∀ pin ∈ map, pin.isValid = true

theorem represents_empty : Represents (empty : PinWatcher α) ∅ where
  entry watched := by
    rw [Finmap.lookup_empty]
    exact iff_of_false List.not_mem_nil nofun
  nodup := List.nodup_nil
  valid pin hmem := absurd hmem Finmap.notMem_empty

namespace Represents

variable {watcher watcher' : PinWatcher α} {map : WatchMap α} {board board' : Board} {pin : Pin}
  {payload : α}

theorem mem_pins_iff (h : watcher.Represents map) : pin ∈ watcher.pins ↔ pin ∈ map := by
  unfold pins
  rw [List.mem_map, Finmap.mem_iff]
  constructor
  . rintro ⟨watched, hmem, rfl⟩
    exact ⟨watched.payload, (h.entry watched).mp hmem⟩
  . rintro ⟨payload, hlookup⟩
    exact ⟨⟨pin, payload⟩, (h.entry _).mpr hlookup, rfl⟩

theorem size_eq (h : watcher.Represents map) : watcher.size = map.keys.card := by
  have hkeys : map.keys = watcher.pins.toFinset := by
    ext pin
    rw [Finmap.mem_keys, List.mem_toFinset, h.mem_pins_iff]
  rw [hkeys, List.toFinset_card_of_nodup h.nodup]
  exact (List.length_map _).symm

theorem congr (h : watcher.Represents map) (hsame : watcher'.watched = watcher.watched) :
    watcher'.Represents map where
  entry := hsame ▸ h.entry
  nodup := by
    unfold pins
    rw [hsame]
    exact h.nodup
  valid := h.valid

theorem watch (h : watcher.Represents map) (hvalid : pin.isValid = true)
    (hwatch : watcher.watch board pin payload = .ok (watcher', board')) :
    watcher'.Represents (map.insert pin payload) where
  entry watched := by
    rw [mem_watched_watch_iff hwatch h.nodup, h.entry]
    by_cases hpin : watched.pin = pin
    . subst hpin
      rw [Finmap.lookup_insert, Option.some.injEq]
      cases watched
      simp [eq_comm]
    . rw [Finmap.lookup_insert_of_ne map hpin]
      have hne : watched ≠ ⟨pin, payload⟩ := fun heq => hpin (congrArg Watched.pin heq)
      simp [hpin, hne]
  nodup := nodup_pins_watch hwatch h.nodup
  valid other hmem := by
    rcases Finmap.mem_insert.mp hmem with rfl | hmem
    . exact hvalid
    . exact h.valid other hmem

theorem unwatch (h : watcher.Represents map) (pin : Pin) :
    ((unwatch pin).step.state watcher).Represents (map.erase pin) where
  entry watched := by
    rw [mem_watched_unwatch_iff h.nodup, h.entry]
    by_cases hpin : watched.pin = pin
    . subst hpin
      simp [Finmap.lookup_erase]
    . rw [Finmap.lookup_erase_ne hpin]
      exact and_iff_left hpin
  nodup := pins_unwatch_sublist.nodup h.nodup
  valid other hmem := h.valid other (Finmap.mem_erase.mp hmem).2

theorem call {wired : Wired (PinWatcher α)} (h : wired.part.Represents map)
    (asked : WatcherCall α) : (PinWatcher.call wired asked).part.Represents (map.call asked) := by
  cases asked with
  | watch pin payload =>
    have hcases := wired.part.watch_cases wired.board pin payload
    rw [h.mem_pins_iff, h.size_eq] at hcases
    simp only [WatchMap.call]
    rcases hcases with
      ⟨hinvalid, hwatch⟩ | ⟨_, hnew, hfull, hwatch⟩ | ⟨hvalid, hroom, watcher', board', hwatch⟩
    . rw [call_watch_of_error hwatch, if_neg (by simp [hinvalid])]
      exact h
    . rw [call_watch_of_error hwatch, if_neg (by simp [hnew, hfull])]
      exact h
    . rw [call_watch_of_ok hwatch, if_pos ⟨hvalid, hroom⟩]
      exact h.watch hvalid hwatch
  | unwatch pin => exact h.unwatch pin
  | onEdge => exact h.congr rfl
  | pass => exact h.congr rfl

theorem use {wired : Wired (PinWatcher α)} (h : wired.part.Represents map)
    (asked : WatcherUse α) : (PinWatcher.use wired asked).part.Represents (map.use asked) := by
  cases asked with
  | call asked => exact h.call asked
  | input pin high => exact h.congr (watched_input wired pin high)
  | setLevel pin high => exact h.congr rfl
  | setBounces pin levels => exact h.congr rfl
  | wait ms => exact h.congr (watched_run wired ms)

theorem used (uses : List (WatcherUse α)) : ∀ {wired : Wired (PinWatcher α)} {map : WatchMap α},
    wired.part.Represents map → (PinWatcher.used wired uses).part.Represents (map.used uses) := by
  induction uses with
  | nil =>
    intro wired map h
    exact h
  | cons asked uses ih =>
    intro wired map h
    exact ih (h.use asked)

theorem watch_answers (h : watcher.Represents map) (board : Board) (pin : Pin) (payload : α) :
    (watcher.watch board pin payload = .error .invalidPin ↔ pin.isValid = false)
      ∧ (watcher.watch board pin payload = .error .tableFull
        ↔ pin.isValid = true ∧ pin ∉ map ∧ map.keys.card = 16)
      ∧ ((∃ next, watcher.watch board pin payload = .ok next)
        ↔ pin.isValid = true ∧ (pin ∈ map ∨ map.keys.card < 16)) := by
  have hcases := watcher.watch_cases board pin payload
  rw [h.mem_pins_iff, h.size_eq] at hcases
  rcases hcases with
    ⟨hinvalid, hwatch⟩ | ⟨hvalid, hnew, hfull, hwatch⟩ | ⟨hvalid, hroom, watcher', board', hwatch⟩
  . simp [hwatch, hinvalid]
  . simp [hwatch, hvalid, hnew, hfull]
  . have hnotFull : ¬(pin ∉ map ∧ map.keys.card = 16) := by
      rintro ⟨hnew, hfull⟩
      rcases hroom with hmem | hroom
      . exact hnew hmem
      . exact Nat.ne_of_lt hroom hfull
    simp [hwatch, hvalid, hroom, hnotFull]

theorem watches_iff (h : watcher.Represents map) : watcher.watches pin = true ↔ pin ∈ map := by
  rw [PinWatcher.watches_iff, h.mem_pins_iff]

theorem unwatch_commands (h : watcher.Represents map) (pin : Pin) :
    (PinWatcher.unwatch pin).step.commands watcher
      =
    if pin ∈ map then [.disableInterrupt pin] else [] := by
  rw [commands_unwatch]
  simp only [h.watches_iff]

theorem mem_pass_iff (h : watcher.Represents map) (board : Board) (notification : Notification α) :
    notification ∈ (watcher.pass board).1
      ↔ map.lookup notification.pin = some notification.payload
        ∧ notification.high = (watcher.pass board).2.2.level notification.pin := by
  rw [notifications_pass h.nodup, List.mem_map]
  constructor
  . rintro ⟨watched, hmem, rfl⟩
    exact ⟨(h.entry watched).mp hmem, rfl⟩
  . rintro ⟨hlookup, hhigh⟩
    refine ⟨⟨notification.pin, notification.payload⟩, (h.entry _).mpr hlookup, ?_⟩
    rw [← hhigh]

theorem nodup_pass (h : watcher.Represents map) (board : Board) :
    ((watcher.pass board).1.map (·.pin)).Nodup := by
  rw [notifications_pass h.nodup, List.map_map]
  exact h.nodup

end Represents

/--
However a watcher is used, it is the map that the same uses make of an empty map. The map has valid
pins only, no more than sixteen of them. A pin is watched, and a pass notifies of it once, if it is in
the map, with its last payload and the level that the pass leaves it with. A pin that cannot be
watched leaves both the table and the board as they were. Who asks to watch a pin no longer is told
whether it is in the map.
-/
theorem used_as_bounded_map (board : Board) (uses : List (WatcherUse α)) :
    let wired := used ⟨.empty, board⟩ uses
    let map := WatchMap.used ∅ uses
    map.keys.card ≤ 16
      ∧ (∀ pin ∈ map, pin.isValid = true)
      ∧ wired.part.size = map.keys.card
      ∧ (∀ pin, wired.part.watches pin = true ↔ pin ∈ map)
      ∧ (∀ pin payload,
        (wired.part.watch wired.board pin payload = .error .invalidPin ↔ pin.isValid = false)
          ∧ (wired.part.watch wired.board pin payload = .error .tableFull
            ↔ pin.isValid = true ∧ pin ∉ map ∧ map.keys.card = 16)
          ∧ ((∃ next, wired.part.watch wired.board pin payload = .ok next)
            ↔ pin.isValid = true ∧ (pin ∈ map ∨ map.keys.card < 16))
          ∧ ∀ error, wired.part.watch wired.board pin payload = .error error →
            call wired (.watch pin payload) = wired)
      ∧ (∀ pin, ((unwatch pin).answer wired.part = true ↔ pin ∈ map)
        ∧ (unwatch pin).step.commands wired.part
          = if pin ∈ map then [.disableInterrupt pin] else [])
      ∧ ∀ board',
        let passed := wired.part.pass board'
        (passed.1.map (·.pin)).Nodup
          ∧ ∀ notification, notification ∈ passed.1
            ↔ map.lookup notification.pin = some notification.payload
              ∧ notification.high = passed.2.2.level notification.pin := by
  intro wired map
  have h : wired.part.Represents map := represents_empty.used uses
  refine ⟨?_, h.valid, h.size_eq, fun pin => h.watches_iff, ?_, ?_, ?_⟩
  . rw [← h.size_eq]
    exact wired.part.size_le
  . intro pin payload
    obtain ⟨hinvalid, hfull, hroom⟩ := h.watch_answers wired.board pin payload
    exact ⟨hinvalid, hfull, hroom, fun error => call_watch_of_error⟩
  . intro pin
    rw [answer_unwatch]
    exact ⟨h.watches_iff, h.unwatch_commands pin⟩
  . intro board' passed
    exact ⟨h.nodup_pass board', h.mem_pass_iff board'⟩

/--
While a burst is pending in a full table, one pin gets a new payload and another gives its place to a
new one. There is no room for one more.
-/
theorem used_as_bounded_map_when_full :
    let board := Board.idle [] .notJoined (.sound (.empty 8 128))
    let fill : List (WatcherUse Nat) := (List.range 16).map fun n =>
      .call (.watch (.ofPortNumber (n / 8) (n % 8)) n)
    let uses := fill ++ [.call .onEdge, .call (.watch (.line 0 3) 100),
      .call (.unwatch (.line 0 5)), .call (.watch (.line 2 0) 200)]
    let wired := used ⟨.empty, board⟩ uses
    let passed := wired.part.pass wired.board
    wired.part.watch wired.board (.line 2 1) 300 = .error .tableFull
      ∧ call wired (.watch (.line 2 1) 300) = wired
      ∧ ⟨.line 0 3, false, 100⟩ ∈ passed.1
      ∧ ⟨.line 2 0, false, 200⟩ ∈ passed.1
      ∧ (unwatch (.line 2 0)).answer wired.part = true
      ∧ (unwatch (.line 0 5)).answer wired.part = false
      ∧ ∀ notification ∈ passed.1, notification.pin ≠ .line 0 5 := by
  intro board fill uses wired passed
  obtain ⟨_, _, _, _, hwatch, hunwatch, hpass⟩ := used_as_bounded_map board uses
  obtain ⟨_, hfull, _, hrefused⟩ := hwatch (.line 2 1) 300
  obtain ⟨_, hpassed⟩ := hpass wired.board
  have htable := hfull.mpr (by decide +kernel)
  have hlast : (WatchMap.used ∅ uses).lookup (.line 2 0) = some 200 := by decide +kernel
  have hnone : (WatchMap.used ∅ uses).lookup (.line 0 5) = none := by decide +kernel
  refine ⟨htable, hrefused .tableFull htable, ?_, ?_, ?_, ?_, ?_⟩
  . rw [hpassed]
    decide +kernel
  . rw [hpassed]
    decide +kernel
  . rw [(hunwatch (.line 2 0)).1, Finmap.mem_iff]
    exact ⟨200, hlast⟩
  . rw [Bool.eq_false_iff, ne_eq, (hunwatch (.line 0 5)).1]
    exact Finmap.lookup_eq_none.mp hnone
  . rintro notification hmem hpin
    obtain ⟨hlookup, _⟩ := (hpassed notification).mp hmem
    rw [hpin] at hlookup
    rw [hnone] at hlookup
    cases hlookup

end PinWatcher

end WallSwitch
