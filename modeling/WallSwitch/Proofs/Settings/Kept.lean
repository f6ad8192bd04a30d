import WallSwitch.Proofs.PinWatcher.Settling
import WallSwitch.Proofs.Settings.Records

/-!
This module contains what becomes of the settings memory of a board. Only saving and erasing reach
it, and a save that is not lost changes what is kept under its key and nothing else.
-/

namespace WallSwitch

namespace Store

variable {store next : Store} {key other : Nat} {item : Bytes}

theorem lookup_cons (items : List (Nat × Bytes)) (key other : Nat) (item : Bytes) :
    ((key, item) :: items).lookup other
      =
    if other = key then some item else items.lookup other := by
  by_cases h : other = key
  . rw [h, List.lookup_cons_self, if_pos rfl]
  . rw [List.lookup_cons, beq_eq_false_iff_ne.mpr h, if_neg h]

theorem lookup_put (items : List (Nat × Bytes)) (key other : Nat) (item : Bytes) :
    (put key item items).lookup other = if other = key then some item else items.lookup other := by
  induction items with
  | nil => simp [put, lookup_cons]
  | cons entry items ih =>
    obtain ⟨place, old⟩ := entry
    unfold put
    by_cases hplace : place = key
    . subst hplace
      by_cases h : other = place <;> simp [lookup_cons, h]
    . rw [if_neg hplace, lookup_cons, lookup_cons, ih]
      by_cases h : other = place
      . have hne : other ≠ key := h ▸ hplace
        rw [if_pos h, if_neg hne, if_pos h]
      . rw [if_neg h, if_neg h]

theorem get?_write (h : store.write key item = .ok next) (other : Nat) :
    next.get? other = if other = key then some item else store.get? other := by
  unfold write at h
  split at h
  . cases h
    exact lookup_put store.items key other item
  . cases h

def record? (store : Store) (α : Type) [Record α] (key : Nat) : Option α :=
  (store.read key (Record.maxLength + Checksum.sealLength)).toOption.bind Record.ofItem?

variable {α : Type} [Record α]

theorem read_congr (h : next.get? key = store.get? key) (room : Nat) :
    next.read key room = store.read key room := by
  unfold read
  rw [h]

theorem record?_congr (h : next.get? key = store.get? key) :
    next.record? α key = store.record? α key := by
  unfold record?
  rw [read_congr h]

theorem record?_of_get? [LawfulRecord α] {record : α}
    (h : store.get? key = some (Record.item record)) : store.record? α key = some record := by
  unfold record? read
  rw [h]
  dsimp only
  rw [if_pos (Record.length_item_le record)]
  exact Record.ofItem?_item record

end Store

namespace SettingsMemory

variable {memory next : SettingsMemory} {key room : Nat} {item : Bytes}

theorem read_of_readable (h : key ∉ memory.unreadable) (room : Nat) :
    memory.read key room = memory.store.read key room :=
  if_neg fun hcontains => h (List.contains_iff_mem.mp hcontains)

theorem read_eq (h : memory.unreadable = []) (key room : Nat) :
    memory.read key room = memory.store.read key room := by
  apply read_of_readable
  rw [h]
  exact List.not_mem_nil

theorem read_of_get? (hreadable : key ∉ memory.unreadable)
    (hget : memory.store.get? key = some item) (hroom : item.length ≤ room) :
    memory.read key room = .ok item := by
  rw [read_of_readable hreadable]
  unfold Store.read
  rw [hget]
  exact if_pos hroom

theorem get?_of_read (h : memory.read key room = .ok item) :
    key ∉ memory.unreadable ∧ memory.store.get? key = some item ∧ item.length ≤ room := by
  unfold read Store.read at h
  split at h
  . cases h
  . next hreadable =>
    refine ⟨fun hmem => hreadable (List.contains_iff_mem.mpr hmem), ?_⟩
    split at h
    . cases h
    . next hget =>
      split at h
      . next hroom =>
        cases h
        exact ⟨hget, hroom⟩
      . cases h

theorem exists_of_write (h : memory.write key item = .ok next) :
    ∃ store, memory.store.write key item = .ok store ∧ next = { memory with store := store } := by
  unfold write at h
  split at h
  . cases h
  . cases hstore : memory.store.write key item with
    | error error =>
      rw [hstore] at h
      cases h
    | ok store =>
      rw [hstore] at h
      exact ⟨store, rfl, (Except.ok.inj h).symm⟩

theorem get?_write (h : memory.write key item = .ok next) :
    next.store.get? key = some item := by
  obtain ⟨store, hstore, rfl⟩ := exists_of_write h
  rw [Store.get?_write hstore, if_pos rfl]

end SettingsMemory

def Event.isLostSave : Event → Bool
  | .command (.save ..) (some _) => true
  | _ => false

def Command.isForMemory : Command → Bool
  | .save .. | .erase => true
  | _ => false

namespace Board

def lostSaves (board : Board) : Nat :=
  board.trace.countP fun entry => entry.2.isLostSave

def kept (board : Board) : SettingsMemory × Nat :=
  (board.memory, board.lostSaves)

variable {board : Board} {command : Command} {commands : List Command}

theorem memory_of_kept_eq {next : Board} (h : next.kept = board.kept) :
    next.memory = board.memory :=
  congrArg Prod.fst h

theorem lostSaves_of_kept_eq {next : Board} (h : next.kept = board.kept) :
    next.lostSaves = board.lostSaves :=
  congrArg Prod.snd h

theorem kept_record {event : Event} (h : event.isLostSave = false) (board : Board) :
    (board.record event).kept = board.kept := by
  simp [kept, record, lostSaves, h]

/-! ### Commands -/

theorem kept_perform (h : command.isForMemory = false) (board : Board) :
    (board.perform command).kept = board.kept := by
  cases command with
  | save key item => cases h
  | erase => cases h
  | _ => exact kept_record rfl _

theorem kept_performAll (h : ∀ command ∈ commands, command.isForMemory = false) (board : Board) :
    (board.performAll commands).kept = board.kept :=
  board.performAll_keeps fun command hmem board => kept_perform (h command hmem) board

theorem lostSaves_le_performAll (commands : List Command) (board : Board) :
    board.lostSaves ≤ (board.performAll commands).lostSaves := by
  induction commands generalizing board with
  | nil => exact Nat.le_refl _
  | cons command commands ih =>
    obtain ⟨fault, htrace⟩ := board.trace_perform command
    apply Nat.le_trans _ (ih (board.perform command))
    unfold lostSaves
    rw [htrace, List.countP_cons]
    exact Nat.le_add_right _ _

theorem perform_save (board : Board) (key : Nat) (item : Bytes) :
    ((board.perform (.save key item)).lostSaves = board.lostSaves + 1
        ∧ (board.perform (.save key item)).memory = board.memory)
      ∨ ∃ store, board.memory.store.write key item = .ok store
        ∧ (board.perform (.save key item)).memory = { board.memory with store := store } := by
  unfold perform attempt execute
  dsimp only
  cases hwrite : board.memory.write key item with
  | error error =>
    left
    simp [record, lostSaves, Event.isLostSave]
  | ok memory =>
    right
    exact SettingsMemory.exists_of_write hwrite

section Saving

variable {α : Type} [Record α] [LawfulRecord α]

theorem get?_save_of_ne {key other : Nat} (h : other ≠ key) (record : α) (board : Board) :
    (board.performAll (Record.save key record)).memory.store.get? other
      =
    board.memory.store.get? other := by
  rw [Record.save_eq, performAll_cons, performAll_nil]
  rcases board.perform_save key (Record.item record) with ⟨_, hmemory⟩ | ⟨store, hwrite, hmemory⟩
  . rw [hmemory]
  . rw [hmemory, Store.get?_write hwrite, if_neg h]

theorem record?_save {key : Nat} (record : α)
    (h : (board.performAll (Record.save key record)).lostSaves = board.lostSaves) :
    (board.performAll (Record.save key record)).memory.store.record? α key = some record := by
  apply Store.record?_of_get?
  rw [Record.save_eq, performAll_cons, performAll_nil] at h ⊢
  rcases board.perform_save key (Record.item record) with ⟨hlost, _⟩ | ⟨store, hwrite, hmemory⟩
  . omega
  . rw [hmemory, Store.get?_write hwrite, if_pos rfl]

theorem unreadable_save (key : Nat) (record : α) (board : Board) :
    (board.performAll (Record.save key record)).memory.unreadable = board.memory.unreadable := by
  rw [Record.save_eq, performAll_cons, performAll_nil]
  rcases board.perform_save key (Record.item record) with ⟨_, hmemory⟩ | ⟨store, _, hmemory⟩
  . rw [hmemory]
  . rw [hmemory]

end Saving

/-! ### Reading -/

theorem kept_read (pin : Pin) (board : Board) : (board.read pin).2.kept = board.kept := by
  unfold read
  split
  . exact kept_record rfl _
  . exact kept_record rfl _

theorem kept_loadRecord (α : Type) [Record α] (key : Nat) (board : Board) :
    (board.loadRecord α key).2.kept = board.kept :=
  kept_record rfl board

theorem toOption_loadRecord_of_readable (α : Type) [Record α] {key : Nat}
    (h : key ∉ board.memory.unreadable) :
    (board.loadRecord α key).1.toOption = board.memory.store.record? α key := by
  unfold loadRecord load Store.record?
  dsimp only
  rw [SettingsMemory.read_of_readable h]
  cases board.memory.store.read key (Record.maxLength + Checksum.sealLength) with
  | error error => rfl
  | ok item =>
    simp only [Except.toOption, Option.bind_some, bind, Except.bind]
    cases (Record.ofItem? item : Option α) <;> rfl

theorem toOption_loadRecord (α : Type) [Record α] (key : Nat)
    (h : board.memory.unreadable = []) :
    (board.loadRecord α key).1.toOption = board.memory.store.record? α key := by
  apply toOption_loadRecord_of_readable
  rw [h]
  exact List.not_mem_nil

end Board

namespace PinWatcher

variable {α : Type}

theorem kept_pass (watcher : PinWatcher α) (board : Board) :
    (watcher.pass board).2.2.kept = board.kept :=
  watcher.pass_keeps (fun _ _ board => Board.kept_perform rfl board)
    (fun _ board => Board.kept_perform rfl board) Board.kept_read board

theorem kept_watch {watcher next : PinWatcher α} {board board' : Board} {pin : Pin} {payload : α}
    (h : watcher.watch board pin payload = .ok (next, board')) : board'.kept = board.kept := by
  rw [board_watch h]
  exact (Board.kept_performAll (by simp [arm, Command.isForMemory]) _).trans
    (Board.kept_read pin board)

end PinWatcher

end WallSwitch
