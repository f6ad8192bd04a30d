import WallSwitch.Proofs.Settings.Kept
import WallSwitch.Settings.Key

/-!
This module contains the round trip of records through a settings memory: what was accepted is found
again as it was, whatever kind of record it is, and what is too long does not get there at all.
-/

namespace WallSwitch

inductive RecordKind where
  | basic
  | version
  | role
  | relay
  | switch
deriving DecidableEq, Repr

namespace RecordKind

def Value : RecordKind → Type
  | .basic => BasicRecord
  | .version => VersionRecord
  | .role => RoleRecord
  | .relay => RelayRecord
  | .switch => SwitchRecord

instance : (kind : RecordKind) → Record kind.Value
  | .basic => inferInstanceAs (Record BasicRecord)
  | .version => inferInstanceAs (Record VersionRecord)
  | .role => inferInstanceAs (Record RoleRecord)
  | .relay => inferInstanceAs (Record RelayRecord)
  | .switch => inferInstanceAs (Record SwitchRecord)

instance : (kind : RecordKind) → LawfulRecord kind.Value
  | .basic => inferInstanceAs (LawfulRecord BasicRecord)
  | .version => inferInstanceAs (LawfulRecord VersionRecord)
  | .role => inferInstanceAs (LawfulRecord RoleRecord)
  | .relay => inferInstanceAs (LawfulRecord RelayRecord)
  | .switch => inferInstanceAs (LawfulRecord SwitchRecord)

end RecordKind

namespace Board

variable {α : Type} [Record α] {record : α} {board : Board} {key : Nat}

/-! ### Saving -/

theorem saveRecord_of_lt (h : Record.maxLength < (Record.encode record).length) :
    board.saveRecord key record = (some (.store .full), board) := by
  unfold saveRecord Record.item?
  dsimp only
  rw [if_neg (Nat.not_le.mpr h)]

theorem exists_write_of_attempt {item : Bytes} (h : (board.attempt (.save key item)).1 = none) :
    ∃ store, board.memory.store.write key item = .ok store
      ∧ (board.attempt (.save key item)).2.memory = { board.memory with store := store } := by
  unfold attempt execute at h ⊢
  dsimp only at h ⊢
  cases hwrite : board.memory.write key item with
  | error error =>
    rw [hwrite] at h
    cases h
  | ok memory => exact SettingsMemory.exists_of_write hwrite

variable [LawfulRecord α]

theorem saveRecord_eq (board : Board) (key : Nat) (record : α) :
    board.saveRecord key record = board.attempt (.save key (Record.item record)) := by
  unfold saveRecord Record.item?
  dsimp only
  rw [if_pos (LawfulRecord.length_encode_le record)]
  rfl

theorem board_saveRecord (board : Board) (key : Nat) (record : α) :
    (board.saveRecord key record).2 = board.performAll (Record.save key record) := by
  rw [saveRecord_eq, Record.save_eq]
  rfl

/-! ### Loading -/

theorem loadRecord_of_get? (h : board.memory.store.get? key = some (Record.item record)) :
    (board.loadRecord α key).1
      =
    if key ∈ board.memory.unreadable then .error .readError else .ok record := by
  unfold loadRecord load SettingsMemory.read Store.read
  dsimp only
  rw [h]
  dsimp only
  rw [if_pos (Record.length_item_le record)]
  by_cases hread : key ∈ board.memory.unreadable
  . rw [if_pos hread, if_pos (List.contains_iff_mem.mpr hread)]
    rfl
  . rw [if_neg hread, if_neg (fun hcontains => hread (List.contains_iff_mem.mp hcontains))]
    have hfound (f : Bytes → Except StoreError α) :
        (Except.ok (Record.item record) >>= f) = f (Record.item record) := rfl
    rw [hfound, Record.ofItem?_item]

end Board

namespace RecordKind

/--
A record of any kind is short enough for its item, so it is up to the settings memory alone whether it
is saved. Once it was, it is found again under its key just as it was, if the key can be read at all.
Other keys keep what they had. What is too long for an item is refused, and the settings memory does
not hear of it.
-/
theorem saved_records_found_again (kind : RecordKind) (record : kind.Value) (key : Nat)
    (board : Board) :
    let saved := board.saveRecord key record
    (Record.encode record).length ≤ 128
      ∧ saved = board.attempt (.save key (Checksum.close (Record.encode record)))
      ∧ (saved.1 = none →
        (saved.2.loadRecord kind.Value key).1
          =
        if key ∈ board.memory.unreadable then .error .readError else .ok record)
      ∧ (∀ other, other ≠ key →
        saved.2.memory.store.get? other = board.memory.store.get? other)
      ∧ ∀ (α : Type) [Record α] (long : α), 128 < (Record.encode long).length →
        board.saveRecord key long = (some (.store .full), board) := by
  intro saved
  have hsaved : saved = board.attempt (.save key (Record.item record)) :=
    board.saveRecord_eq key record
  refine ⟨LawfulRecord.length_encode_le record, hsaved, ?_, ?_, ?_⟩
  . intro haccepted
    rw [hsaved] at haccepted ⊢
    obtain ⟨store, hwrite, hmemory⟩ := Board.exists_write_of_attempt haccepted
    rw [Board.loadRecord_of_get?, hmemory]
    rw [hmemory]
    exact (Store.get?_write hwrite key).trans (if_pos rfl)
  . intro other hother
    rw [show saved.2 = _ from board.board_saveRecord key record]
    exact Board.get?_save_of_ne hother record board
  . intro α _ long hlong
    exact Board.saveRecord_of_lt hlong

theorem saved_records_found_again_extremes :
    let record : SwitchRecord := ⟨255, 255, 255, 255, 255, 65535, 255⟩
    let board := Board.idle [] .notJoined (.sound (.empty 16 256))
    let saved := board.saveRecord (Key.switch 4) record
    saved.1 = none ∧ (saved.2.loadRecord SwitchRecord (Key.switch 4)).1 = .ok record
      ∧ board.saveRecord (Key.switch 4) (List.replicate 64 (0 : UInt16))
        = (some (.store .full), board) := by
  intro record board saved
  obtain ⟨_, _, hload, _, hlong⟩ := saved_records_found_again .switch record (Key.switch 4) board
  have haccepted : saved.1 = none := by decide +kernel
  have hlength : 128 < (Record.encode (List.replicate 64 (0 : UInt16))).length := by decide +kernel
  exact ⟨haccepted, hload haccepted, hlong _ _ hlength⟩

end RecordKind

end WallSwitch
