import Mathlib.Data.List.Nodup
import WallSwitch.Proofs.Json.Scalars
import WallSwitch.Settings.Record

/-!
This module contains the written form of objects, and that its members are found again as they were
written.
-/

namespace WallSwitch

namespace Json

variable {name text : Bytes}

theorem expect_cons {byte : UInt8} (h : isBlank byte = false) (rest : Bytes) :
    expect byte (byte :: rest) = some rest := by
  unfold expect skipBlanks
  rw [List.dropWhile_cons_of_neg (by simp [h])]
  exact if_pos rfl

/-! ### Names -/

def IsPlain (text : Bytes) : Prop :=
  ∀ byte ∈ text, byte ≠ quote ∧ byte ≠ backslash ∧ byte.toNat < 0x80

instance (text : Bytes) : Decidable (IsPlain text) :=
  List.decidableBAll _ text

theorem utf8EncodeChar_ofNat {byte : UInt8} (h : byte.toNat < 0x80) :
    String.utf8EncodeChar (Char.ofNat byte.toNat) = [byte] := by
  have hchar : (Char.ofNat byte.toNat).toNat = byte.toNat := by
    have hvalid : byte.toNat.isValidChar := .inl (Nat.lt_trans h (by decide))
    rw [Char.ofNat, dif_pos hvalid]
    rfl
  have hsize : (Char.ofNat byte.toNat).utf8Size = 1 := by
    rw [Char.utf8Size_eq_one_iff, UInt32.le_iff_toNat_le]
    exact Nat.le_of_lt_succ (hchar.trans_lt h)
  rw [String.utf8EncodeChar_eq_singleton hsize]
  congr 1
  apply UInt8.toNat_inj.mp
  rw [UInt32.toNat_toUInt8]
  exact (congrArg (· % 2 ^ 8) hchar).trans (Nat.mod_eq_of_lt (Nat.lt_trans h (by decide)))

theorem isSome_text?_of_isPlain (h : IsPlain text) : (Bytes.text? text).isSome = true := by
  have hvalid : ByteArray.IsValidUTF8 ⟨text.toArray⟩ := by
    apply ByteArray.IsValidUTF8.intro (text.map fun byte => Char.ofNat byte.toNat)
    have hbytes : (text.map fun byte => Char.ofNat byte.toNat).flatMap String.utf8EncodeChar
        = text := by
      rw [List.flatMap_map]
      induction text with
      | nil => rfl
      | cons byte text ih =>
        unfold IsPlain at h
        rw [List.forall_mem_cons] at h
        rw [List.flatMap_cons, utf8EncodeChar_ofNat h.1.2.2, ih h.2]
        rfl
    apply ByteArray.ext
    rw [List.utf8Encode, hbytes, List.data_toByteArray]
  unfold Bytes.text? String.fromUTF8?
  rw [dif_pos hvalid]
  rfl

theorem untilQuote_of_isPlain (h : IsPlain text) (rest : Bytes) :
    untilQuote false (text ++ quote :: rest) = some (text, rest) := by
  induction text with
  | nil => simp [untilQuote]
  | cons byte text ih =>
    unfold IsPlain at h
    rw [List.forall_mem_cons] at h
    obtain ⟨hquote, hbackslash, _⟩ := h.1
    have hescaped : (byte == backslash && !false) = false := by simp [hbackslash]
    rw [List.cons_append, untilQuote, if_neg (fun hend => hquote hend.1), hescaped, ih h.2]
    rfl

theorem string_quoted (h : IsPlain text) (rest : Bytes) :
    string (quote :: text ++ quote :: rest) = some (text, rest) := by
  unfold string
  rw [List.cons_append, expect_cons (by decide)]
  simp [untilQuote_of_isPlain h, isSome_text?_of_isPlain h]

/-! ### Values -/

theorem skipNested_scalar (depth : Nat) {byte : UInt8} (htext : IsScalarText text)
    (hbyte : isDelimiter byte = true) (rest : Bytes) :
    skipNested (depth + 1) (text ++ byte :: rest) = some ((), byte :: rest) := by
  obtain ⟨hnil, hbytes⟩ := htext
  cases text with
  | nil => exact absurd rfl hnil
  | cons first more =>
    obtain ⟨hblank, hdelimiter, hquote, hbracket, hbrace⟩ := hbytes first List.mem_cons_self
    have hdrop : (first :: more ++ byte :: rest).dropWhile (fun b => !isDelimiter b)
        = byte :: rest := by
      rw [List.dropWhile_append_of_pos (fun b hmem => by simp [(hbytes b hmem).2.1])]
      exact List.dropWhile_cons_of_neg (by simp [hbyte])
    unfold skipNested skipBlanks
    rw [List.cons_append, List.dropWhile_cons_of_neg (by simp [hblank])]
    dsimp only
    rw [if_neg hquote, if_neg hbracket, if_neg hbrace, if_neg (by simp [hdelimiter]),
      ← List.cons_append, skipScalar, hdrop]

theorem raw_scalar {byte : UInt8} (htext : IsScalarText text) (hbyte : isDelimiter byte = true)
    (rest : Bytes) : raw (text ++ byte :: rest) = some (text, byte :: rest) := by
  unfold raw
  rw [skipNested_scalar _ htext hbyte]
  simp

/-! ### Members -/

def memberText (member : Bytes × Bytes) : Bytes :=
  quote :: member.1 ++ quote :: colon :: member.2

theorem length_memberText (member : Bytes × Bytes) :
    (memberText member).length = member.1.length + member.2.length + 3 := by
  simp only [memberText, List.cons_append, List.length_cons, List.length_append]
  omega

structure IsPrintable (member : Bytes × Bytes) : Prop where
  name : IsPlain member.1
  text : IsScalarText member.2

theorem isPrintable_of_scalar {α : Type} [Scalar α] [LawfulScalar α] (hname : IsPlain name) (a : α) :
    IsPrintable (name, Scalar.print a) :=
  ⟨hname, LawfulScalar.isScalarText a⟩

theorem printSeparated_cons (text : Bytes) (more : List Bytes) :
    printSeparated (text :: more) = text ++ more.flatMap fun text => comma :: text := by
  induction more generalizing text with
  | nil => simp [printSeparated]
  | cons next more ih =>
    rw [printSeparated, ih, List.flatMap_cons]
    . rfl
    . intro h
      cases h

theorem length_printObject_le (members : List (Bytes × Bytes)) :
    (printObject (members.map memberText)).length
      ≤
    2 + (members.flatMap fun member => comma :: memberText member).length := by
  unfold printObject
  rw [List.cons_append, List.length_cons, List.length_append, List.length_singleton]
  cases members with
  | nil => simp [printSeparated]
  | cons member members =>
    rw [List.map_cons, printSeparated_cons, List.flatMap_map, List.flatMap_cons,
      List.length_append, List.length_append, List.length_cons]
    omega

theorem exists_delimiter (members : List (Bytes × Bytes)) :
    ∃ byte rest, isDelimiter byte = true
      ∧ (members.flatMap fun member => comma :: memberText member) ++ [closeBrace]
        = byte :: rest := by
  cases members with
  | nil => exact ⟨closeBrace, [], rfl, rfl⟩
  | cons member members => exact ⟨comma, _, rfl, rfl⟩

theorem members_member {member : Bytes × Bytes} {more : List (Bytes × Bytes)} {fuel : Nat}
    {byte : UInt8} {rest left : Bytes} (h : IsPrintable member) (hbyte : isDelimiter byte = true)
    (hmore : members raw fuel false (byte :: rest) = some (more, left)) :
    members raw (fuel + 1) true (memberText member ++ byte :: rest) = some (member :: more, left)
      ∧ members raw (fuel + 1) false (comma :: (memberText member ++ byte :: rest))
        = some (member :: more, left) := by
  have hname : string (memberText member ++ byte :: rest)
      = some (member.1, colon :: (member.2 ++ byte :: rest)) := by
    have hquoted := string_quoted h.name (colon :: (member.2 ++ byte :: rest))
    simpa [memberText] using hquoted
  have hcolon := expect_cons (by decide : isBlank colon = false) (member.2 ++ byte :: rest)
  have hcomma := expect_cons (by decide : isBlank comma = false) (memberText member ++ byte :: rest)
  have hvalue := raw_scalar h.text hbyte rest
  constructor
  . have htext : memberText member ++ byte :: rest
        = quote :: (member.1 ++ quote :: colon :: member.2 ++ byte :: rest) := rfl
    rw [htext] at hname ⊢
    unfold members skipBlanks
    rw [List.dropWhile_cons_of_neg (by decide)]
    dsimp only
    rw [if_neg (by decide), if_pos rfl]
    change (string _).bind _ = _
    rw [hname]
    simp [hcolon, hvalue, hmore]
  . unfold members skipBlanks
    rw [List.dropWhile_cons_of_neg (by decide)]
    dsimp only
    rw [if_neg (by decide), if_neg (by decide), hcomma]
    simp [hname, hcolon, hvalue, hmore]

theorem members_more (members : List (Bytes × Bytes)) :
    ∀ fuel, members.length < fuel → (∀ member ∈ members, IsPrintable member) →
      Json.members raw fuel false
          ((members.flatMap fun member => comma :: memberText member) ++ [closeBrace])
        = some (members, []) := by
  -- What follows a member has to be known before the member is read: it starts with a delimiter.
  induction members with
  | nil =>
    intro fuel hfuel _
    obtain ⟨fuel, rfl⟩ := Nat.exists_eq_add_one_of_ne_zero (Nat.ne_zero_of_lt hfuel)
    rfl
  | cons member members ih =>
    intro fuel hfuel hprintable
    obtain ⟨fuel, rfl⟩ := Nat.exists_eq_add_one_of_ne_zero (Nat.ne_zero_of_lt hfuel)
    rw [List.forall_mem_cons] at hprintable
    have hmore := ih fuel (Nat.lt_of_succ_lt_succ hfuel) hprintable.2
    obtain ⟨byte, rest, hbyte, hrest⟩ := exists_delimiter members
    rw [hrest] at hmore
    rw [List.flatMap_cons, List.append_assoc, hrest]
    exact (members_member hprintable.1 hbyte hmore).2

theorem length_le_length_flatMap (members : List (Bytes × Bytes)) :
    members.length ≤ (members.flatMap fun member => comma :: memberText member).length := by
  induction members with
  | nil => exact Nat.le_refl 0
  | cons member members ih =>
    rw [List.flatMap_cons, List.length_append, List.length_cons, List.length_cons]
    omega

theorem membersOf?_printObject {members : List (Bytes × Bytes)}
    (h : ∀ member ∈ members, IsPrintable member) :
    Record.membersOf? (printObject (members.map memberText)) = some members := by
  have hobject : object raw (printObject (members.map memberText)) = some (members, []) := by
    unfold object printObject
    rw [List.cons_append, expect_cons (by decide)]
    cases members with
    | nil => rfl
    | cons member members =>
      rw [List.forall_mem_cons] at h
      obtain ⟨byte, rest, hbyte, hrest⟩ := exists_delimiter members
      rw [List.map_cons, printSeparated_cons, List.flatMap_map, List.append_assoc, hrest]
      have hfuel : members.length < (memberText member ++ byte :: rest).length := by
        rw [← hrest, List.length_append, List.length_append, List.length_singleton]
        have hlength := length_le_length_flatMap members
        omega
      have hmore := members_more members _ hfuel h.2
      rw [hrest] at hmore
      exact (members_member h.1 hbyte hmore).1
  unfold Record.membersOf? readAll
  rw [hobject]
  rfl

theorem member?_of_mem {α : Type} [Scalar α] [LawfulScalar α] {name : String} {a : α}
    {members : List (Bytes × Bytes)} (hnodup : (members.map (·.1)).Nodup)
    (hmem : (Bytes.ascii name, Scalar.print a) ∈ members) : member? name members = some a := by
  have honly : members.filter (fun member => member.1 == Bytes.ascii name)
      = [(Bytes.ascii name, Scalar.print a)] := by
    obtain ⟨before, behind, rfl⟩ := List.append_of_mem hmem
    rw [List.map_append, List.map_cons, List.nodup_middle, List.nodup_cons, ← List.map_append]
      at hnodup
    have hothers : (before ++ behind).filter (fun member => member.1 == Bytes.ascii name) = [] := by
      rw [List.filter_eq_nil_iff]
      intro member hmember hname
      apply hnodup.1
      rw [← beq_iff_eq.mp hname]
      exact List.mem_map.mpr ⟨member, hmember, rfl⟩
    rw [List.filter_append, List.append_eq_nil_iff] at hothers
    rw [List.filter_append, List.filter_cons_of_pos (by simp), hothers.1, hothers.2]
    rfl
  unfold member?
  rw [honly]
  exact LawfulScalar.readAll_print a

end Json

end WallSwitch
