import WallSwitch.Proofs.Json.Objects
import WallSwitch.Settings.Keeping

/-!
This module contains the way of records into the settings memory and out of it again.
-/

namespace WallSwitch

open Json

/--
Records that are read back as what was written, and short enough to be kept.
-/
class LawfulRecord (α : Type) [Record α] : Prop where
  decode?_encode : ∀ record : α, Record.decode? (Record.encode record) = some record
  length_encode_le : ∀ record : α, (Record.encode record).length ≤ Record.maxLength

/-! ### Records with one member -/

section Single

variable {α : Type} [Scalar α] {name : String}

theorem membersOf?_single [LawfulScalar α] (hname : IsPlain (Bytes.ascii name)) (a : α) :
    Record.membersOf? (printObject [printMember name a])
      =
    some [(Bytes.ascii name, Scalar.print a)] := by
  have hprintable : ∀ member ∈ [(Bytes.ascii name, Scalar.print a)], IsPrintable member := by
    simp [isPrintable_of_scalar hname a]
  exact membersOf?_printObject hprintable

theorem member?_single [LawfulScalar α] (a : α) :
    member? name [(Bytes.ascii name, Scalar.print a)] = some a :=
  member?_of_mem (List.nodup_singleton _) List.mem_cons_self

theorem length_single_le {a : α} (hname : (Bytes.ascii name).length ≤ 100)
    (ha : (Scalar.print a).length ≤ 5) :
    (printObject [printMember name a]).length ≤ Record.maxLength := by
  have hlength := length_printObject_le [(Bytes.ascii name, Scalar.print a)]
  apply hlength.trans
  simp [length_memberText, Record.maxLength]
  omega

end Single

instance : LawfulRecord BasicRecord where
  decode?_encode record := by
    have hname : IsPlain (Bytes.ascii "network_led_on") := by decide +kernel
    simp [Record.decode?, Record.encode, membersOf?_single hname, member?_single]
  length_encode_le record := length_single_le (by decide) (length_print_bool_le _)

instance : LawfulRecord VersionRecord where
  decode?_encode record := by
    have hname : IsPlain (Bytes.ascii "version") := by decide +kernel
    simp [Record.decode?, Record.encode, membersOf?_single hname, member?_single]
  length_encode_le record := length_single_le (by decide) (length_print_uint16_le _)

instance : LawfulRecord RoleRecord where
  decode?_encode record := by
    have hname : IsPlain (Bytes.ascii "role") := by decide +kernel
    simp [Record.decode?, Record.encode, membersOf?_single hname, member?_single]
  length_encode_le record :=
    length_single_le (by decide) ((length_print_uint8_le _).trans (by decide))

instance : LawfulRecord RelayRecord where
  decode?_encode record := by
    have hname : IsPlain (Bytes.ascii "on") := by decide +kernel
    simp [Record.decode?, Record.encode, membersOf?_single hname, member?_single]
  length_encode_le record := length_single_le (by decide) (length_print_bool_le _)

/-! ### Switches -/

namespace SwitchRecord

def members (record : SwitchRecord) : List (Bytes × Bytes) := [
  (Bytes.ascii "mode", Scalar.print record.mode),
  (Bytes.ascii "action", Scalar.print record.action),
  (Bytes.ascii "relay_mode", Scalar.print record.relayMode),
  (Bytes.ascii "binded_mode", Scalar.print record.boundStage),
  (Bytes.ascii "relay_index", Scalar.print record.relayNumber),
  (Bytes.ascii "long_press_ms", Scalar.print record.longPressMs),
  (Bytes.ascii "level_move_rate", Scalar.print record.levelMoveRate)]

theorem encode_eq (record : SwitchRecord) :
    Record.encode record = printObject (record.members.map memberText) := rfl

theorem nodup_members (record : SwitchRecord) : (record.members.map (·.1)).Nodup := by
  change (["mode", "action", "relay_mode", "binded_mode", "relay_index", "long_press_ms",
    "level_move_rate"].map Bytes.ascii).Nodup
  decide

theorem isPrintable_of_mem (record : SwitchRecord) :
    ∀ member ∈ record.members, IsPrintable member := by
  simp only [members, List.forall_mem_cons, List.not_mem_nil, false_implies, implies_true, and_true]
  refine ⟨?_, ?_, ?_, ?_, ?_, ?_, ?_⟩ <;> exact isPrintable_of_scalar (by decide +kernel) _

end SwitchRecord

instance : LawfulRecord SwitchRecord where
  decode?_encode record := by
    have hmembers : Record.membersOf? (Record.encode record) = some record.members :=
      membersOf?_printObject record.isPrintable_of_mem
    have hmember {α : Type} [Scalar α] [LawfulScalar α] (name : String) (a : α)
        (hmem : (Bytes.ascii name, Scalar.print a) ∈ record.members) :
        member? name record.members = some a :=
      member?_of_mem record.nodup_members hmem
    have hmode := hmember "mode" record.mode (by simp [SwitchRecord.members])
    have haction := hmember "action" record.action (by simp [SwitchRecord.members])
    have hrelayMode := hmember "relay_mode" record.relayMode (by simp [SwitchRecord.members])
    have hboundStage := hmember "binded_mode" record.boundStage (by simp [SwitchRecord.members])
    have hrelayNumber := hmember "relay_index" record.relayNumber (by simp [SwitchRecord.members])
    have hlongPressMs := hmember "long_press_ms" record.longPressMs (by simp [SwitchRecord.members])
    have hlevelMoveRate := hmember "level_move_rate" record.levelMoveRate
      (by simp [SwitchRecord.members])
    simp [Record.decode?, hmembers, hmode, haction, hrelayMode, hboundStage, hrelayNumber,
      hlongPressMs, hlevelMoveRate]
  length_encode_le record := by
    have hmode := length_print_uint8_le record.mode
    have haction := length_print_uint8_le record.action
    have hrelayMode := length_print_uint8_le record.relayMode
    have hboundStage := length_print_uint8_le record.boundStage
    have hrelayNumber := length_print_uint8_le record.relayNumber
    have hlongPressMs := length_print_uint16_le record.longPressMs
    have hlevelMoveRate := length_print_uint8_le record.levelMoveRate
    rw [SwitchRecord.encode_eq]
    apply (length_printObject_le record.members).trans
    simp [SwitchRecord.members, length_memberText, Bytes.ascii, Record.maxLength]
    omega

/-! ### Items -/

@[simp]
theorem Checksum.length_close (body : Bytes) :
    (Checksum.close body).length = body.length + Checksum.sealLength := by
  simp [Checksum.close, Checksum.littleEndian, Checksum.sealLength]

theorem Checksum.open?_close (body : Bytes) :
    Checksum.open? (Checksum.close body) = some body := by
  unfold Checksum.open?
  rw [length_close, if_neg (by omega), Nat.add_sub_cancel]
  simp [Checksum.close]

namespace Record

variable {α : Type} [Record α]

def item (record : α) : Bytes :=
  Checksum.close (encode record)

variable [LawfulRecord α]

theorem save_eq (key : Nat) (record : α) : save key record = [.save key (item record)] := by
  unfold save item?
  rw [if_pos (LawfulRecord.length_encode_le record)]
  rfl

theorem ofItem?_item (record : α) : ofItem? (item record) = some record := by
  unfold ofItem? item
  rw [Checksum.open?_close]
  exact LawfulRecord.decode?_encode record

theorem length_item_le (record : α) : (item record).length ≤ maxLength + Checksum.sealLength := by
  rw [item, Checksum.length_close]
  exact Nat.add_le_add_right (LawfulRecord.length_encode_le record) _

end Record

end WallSwitch
