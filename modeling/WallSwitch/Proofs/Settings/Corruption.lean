import WallSwitch.Proofs.Checksum.Division
import WallSwitch.Proofs.Settings.RoundTrip

/-!
This module contains the proof that items which were damaged in the settings memory are not taken for
records. Damage to four bytes in a row never leaves a right checksum, wherever it is.
-/

namespace WallSwitch

namespace Checksum

variable {body item found : Bytes}

/--
The item was damaged, within four bytes in a row.
-/
structure Damaged (item found : Bytes) : Prop where
  length : found.length = item.length
  ne : found ≠ item
  within : ∃ start, ∀ i < item.length, found[i]? ≠ item[i]? → start ≤ i ∧ i < start + 4

theorem open?_eq_some (h : open? item = some body) :
    sealLength ≤ item.length ∧ item = close body := by
  unfold open? at h
  split at h
  . cases h
  . next hlength =>
    dsimp only at h
    split at h
    . next hseal =>
      refine ⟨Nat.le_of_not_lt hlength, ?_⟩
      rw [← Option.some.inj h, close, ← hseal, List.take_append_drop]
    . cases h

theorem open?_of_damaged (h : Damaged (close body) found) : open? found = none := by
  by_contra hopen
  obtain ⟨body', hbody'⟩ := Option.ne_none_iff_exists'.mp hopen
  obtain ⟨_, hfound⟩ := open?_eq_some hbody'
  obtain ⟨start, hwithin⟩ := h.within
  -- With its checksum right, what was found would leave the same register as the sound item.
  have hregister : feedAll (BitVec.allOnes 32) found = feedAll (BitVec.allOnes 32) (close body) := by
    rw [hfound, feedAll_close, feedAll_close]
  have hlength := length_close body
  have hsame := h.length
  unfold sealLength at hlength
  -- An item has four bytes at least, so the damage lies within four that are there.
  have hroom : min start body.length + 4 ≤ (close body).length := by omega
  refine h.ne (eq_of_agree hsame hroom ?_ hregister)
  intro i hne
  have hi : i < (close body).length := by
    by_contra hout
    apply hne
    rw [List.getElem?_eq_none (by omega), List.getElem?_eq_none (by omega)]
  have hplace := hwithin i hi hne
  omega

end Checksum

namespace Board

variable {α : Type} [Record α] {board : Board} {key : Nat} {item : Bytes} {record : α}

theorem loadRecord_of_open? (hread : key ∉ board.memory.unreadable)
    (hget : board.memory.store.get? key = some item)
    (hlength : item.length ≤ Record.maxLength + Checksum.sealLength)
    (hopen : Checksum.open? item = none) : (board.loadRecord α key).1 = .error .corrupted := by
  have hitem : (Record.ofItem? item : Option α) = none := by
    unfold Record.ofItem?
    rw [hopen]
    rfl
  unfold loadRecord load
  rw [SettingsMemory.read_of_get? hread hget hlength]
  simp only [bind, Except.bind, hitem]

theorem exists_item_of_loadRecord (h : (board.loadRecord α key).1 = .ok record) :
    ∃ item body, board.memory.store.get? key = some item
      ∧ item.length ≤ Record.maxLength + Checksum.sealLength
      ∧ Checksum.open? item = some body := by
  unfold loadRecord load at h
  cases hread : board.memory.read key (Record.maxLength + Checksum.sealLength) with
  | error error =>
    rw [hread] at h
    cases h
  | ok item =>
    rw [hread] at h
    obtain ⟨_, hget, hlength⟩ := SettingsMemory.get?_of_read hread
    simp only [bind, Except.bind, Record.ofItem?] at h
    cases hopen : Checksum.open? item with
    | none =>
      rw [hopen] at h
      cases h
    | some body => exact ⟨item, body, hget, hlength, hopen⟩

/--
Damage within four bytes in a row is always found out, whether it is in a record or in its checksum or
goes over from one to the other. Only what is long enough for a checksum, short enough for a record
and ends in the checksum of all before it is taken for a record at all.
-/
theorem damage_is_found_out (α : Type) [Record α] (board : Board) (key : Nat) :
    (∀ body found, body.length ≤ 128 → Checksum.Damaged (Checksum.close body) found →
        key ∉ board.memory.unreadable → board.memory.store.get? key = some found →
        (board.loadRecord α key).1 = .error .corrupted)
      ∧ ∀ record, (board.loadRecord α key).1 = .ok record →
        ∃ item, board.memory.store.get? key = some item ∧ 4 ≤ item.length ∧ item.length ≤ 132
          ∧ item.drop (item.length - 4)
            = Checksum.littleEndian (Checksum.crc32 (item.take (item.length - 4))) := by
  constructor
  . intro body found hbody hdamaged hread hget
    apply loadRecord_of_open? hread hget
    . rw [hdamaged.length, Checksum.length_close]
      exact Nat.add_le_add_right hbody _
    . exact Checksum.open?_of_damaged hdamaged
  . intro record hload
    obtain ⟨item, body, hget, hroom, hopen⟩ := exists_item_of_loadRecord hload
    obtain ⟨hlength, hitem⟩ := Checksum.open?_eq_some hopen
    refine ⟨item, hget, hlength, hroom, ?_⟩
    have hbody : item.length - 4 = body.length := by
      rw [hitem, Checksum.length_close]
      exact Nat.add_sub_cancel _ _
    rw [hbody, hitem]
    unfold Checksum.close
    rw [List.drop_left, List.take_left]

theorem damage_is_found_out_across_brace :
    let record : VersionRecord := ⟨3⟩
    let body := Record.encode record
    let found := body.take 12 ++ [0x5D, 0, 0, 0, 0x43]
    let holding (item : Bytes) := Board.idle [] .notJoined (.sound ⟨1, 17, [(Key.version, item)]⟩)
    Checksum.Damaged (Checksum.close body) found
      ∧ ((holding found).loadRecord VersionRecord Key.version).1 = .error .corrupted
      ∧ ((holding (Checksum.close body)).loadRecord VersionRecord Key.version).1 = .ok record
      ∧ ∃ item, (holding (Checksum.close body)).memory.store.get? Key.version = some item
        ∧ 4 ≤ item.length ∧ item.length ≤ 132
        ∧ item.drop (item.length - 4)
          = Checksum.littleEndian (Checksum.crc32 (item.take (item.length - 4))) := by
  intro record body found holding
  have hdamaged : Checksum.Damaged (Checksum.close body) found :=
    ⟨by decide +kernel, by decide +kernel, 12, by decide +kernel⟩
  have hload : ((holding (Checksum.close body)).loadRecord VersionRecord Key.version).1 = .ok record :=
    loadRecord_of_get? rfl
  have hfound := (damage_is_found_out VersionRecord (holding found) Key.version).1 body found
    (by decide) hdamaged List.not_mem_nil rfl
  exact ⟨hdamaged, hfound, hload,
    (damage_is_found_out VersionRecord (holding (Checksum.close body)) Key.version).2 record hload⟩

end Board

end WallSwitch
