import Mathlib.Data.List.Basic
import Mathlib.Data.List.TakeWhile
import WallSwitch.Json

/-!
This module contains the written form of the scalars that records are made of: what it looks like,
how long it is, and that it is read back as what was written.
-/

namespace WallSwitch

namespace Bytes

/-! ### Decimal numbers -/

theorem toNat_ofNat_of_isDigit {c : Char} (h : c.isDigit = true) :
    (UInt8.ofNat c.toNat).toNat = c.toNat ∧ 48 ≤ c.toNat ∧ c.toNat ≤ 57 := by
  have hrange : 48 ≤ c.toNat ∧ c.toNat ≤ 57 := Char.isDigit_iff_toNat.mp h
  refine ⟨?_, hrange⟩
  rw [UInt8.toNat_ofNat']
  omega

theorem isDigit_of_mem_toDigits {n : Nat} {c : Char} (h : c ∈ Nat.toDigits 10 n) :
    c.isDigit = true :=
  Nat.isDigit_of_mem_toDigits (by decide) (by decide) h

theorem isDigit_of_mem_decimal {n : Nat} {byte : UInt8} (h : byte ∈ decimal n) :
    isDigit byte = true := by
  obtain ⟨c, hc, rfl⟩ := List.mem_map.mp h
  obtain ⟨hnat, hlow, hhigh⟩ := toNat_ofNat_of_isDigit (isDigit_of_mem_toDigits hc)
  simp only [isDigit, Bool.and_eq_true, decide_eq_true_eq, UInt8.le_iff_toNat_le, hnat]
  exact ⟨hlow, hhigh⟩

theorem foldl_decimal (n : Nat) :
    (decimal n).foldl (fun n digit => 10 * n + digitValue digit) 0 = n := by
  have hdigits (sofar : Nat) (c : Char) (hc : c ∈ Nat.toDigits 10 n) :
      10 * sofar + digitValue (UInt8.ofNat c.toNat) = 10 * sofar + (c.toNat - '0'.toNat) := by
    rw [digitValue, (toNat_ofNat_of_isDigit (isDigit_of_mem_toDigits hc)).1]
    rfl
  unfold decimal
  rw [List.foldl_map, List.foldl_ext _ _ 0 hdigits, ← Nat.ofDigitChars_eq_foldl]
  exact Nat.ofDigitChars_ten_toDigits

theorem head_toDigits_ne_zero (n : Nat) (h : 0 < n) : (Nat.toDigits 10 n).head? ≠ some '0' := by
  induction n using Nat.strongRecOn with
  | ind n ih =>
    rw [Nat.toDigits_eq_if (by decide)]
    split
    . simpa using Nat.pos_iff_ne_zero.mp h
    . rw [List.head?_append_of_ne_nil _ Nat.toDigits_ne_nil]
      exact ih (n / 10) (by omega) (by omega)

theorem exists_decimal_eq_cons {n : Nat} (h : 0 < n) :
    ∃ first rest, decimal n = first :: rest ∧ first ≠ 0x30 := by
  have hhead := head_toDigits_ne_zero n h
  unfold decimal
  cases hdigits : Nat.toDigits 10 n with
  | nil => exact absurd hdigits Nat.toDigits_ne_nil
  | cons c cs =>
    refine ⟨UInt8.ofNat c.toNat, _, rfl, ?_⟩
    rw [hdigits] at hhead
    intro hzero
    apply hhead
    have hnat := (toNat_ofNat_of_isDigit (isDigit_of_mem_toDigits
      (hdigits ▸ List.mem_cons_self : c ∈ Nat.toDigits 10 n))).1
    rw [hzero] at hnat
    have hc : c = '0' := Char.toNat_inj.mp hnat.symm
    rw [hc, List.head?_cons]

end Bytes

namespace Json

/-! ### Scalars -/

/--
The text is no string, array or object, and nothing in it ends a value.
-/
structure IsScalarText (text : Bytes) : Prop where
  ne_nil : text ≠ []
  bytes : ∀ byte ∈ text, isBlank byte = false ∧ isDelimiter byte = false ∧ byte ≠ quote
    ∧ byte ≠ openBracket ∧ byte ≠ openBrace

class LawfulScalar (α : Type) [Scalar α] : Prop where
  isScalarText : ∀ a : α, IsScalarText (Scalar.print a)
  readAll_print : ∀ a : α, readAll Scalar.parse (Scalar.print a) = some a

theorem isScalarText_decimal (n : Nat) : IsScalarText (Bytes.decimal n) where
  ne_nil := by simp [Bytes.decimal]
  bytes := by
    intro byte hmem
    have hdigit := Bytes.isDigit_of_mem_decimal hmem
    simp only [Bytes.isDigit, Bool.and_eq_true, decide_eq_true_eq, UInt8.le_iff_toNat_le] at hdigit
    obtain ⟨hlow, hhigh⟩ := hdigit
    have hne (other : UInt8) (h : other.toNat < 0x30 ∨ 0x39 < other.toNat) : byte ≠ other := by
      rintro rfl
      exact h.elim (Nat.not_lt.mpr hlow) (Nat.not_lt.mpr hhigh)
    simp [isBlank, isDelimiter, hne, comma, closeBracket, closeBrace, quote, openBracket, openBrace]

theorem natural_decimal {bound n : Nat} (h : n < bound) :
    natural bound (Bytes.decimal n) = some (n, []) := by
  by_cases hzero : n = 0
  . rw [hzero]
    rfl
  . obtain ⟨first, rest, hdecimal, hfirst⟩ :=
      Bytes.exists_decimal_eq_cons (Nat.pos_iff_ne_zero.mpr hzero)
    have hdigits : ∀ byte ∈ first :: rest, Bytes.isDigit byte = true := by
      intro byte hmem
      exact Bytes.isDigit_of_mem_decimal (hdecimal ▸ hmem)
    rw [List.forall_mem_cons] at hdigits
    have hvalue := Bytes.foldl_decimal n
    rw [hdecimal] at hvalue ⊢
    have hblank := ((isScalarText_decimal n).bytes first (hdecimal ▸ List.mem_cons_self)).1
    unfold natural skipBlanks
    rw [List.dropWhile_cons_of_neg (by simp [hblank])]
    dsimp only
    rw [if_neg hfirst, if_pos hdigits.1, List.takeWhile_eq_self_iff.mpr hdigits.2,
      List.dropWhile_eq_nil_iff.mpr hdigits.2, hvalue, if_pos h]

instance : LawfulScalar Bool where
  isScalarText b := by
    have hbytes : (Scalar.print b).all (fun byte => !isBlank byte && !isDelimiter byte
        && byte != quote && byte != openBracket && byte != openBrace) = true := by
      cases b <;> decide
    refine ⟨by cases b <;> decide, ?_⟩
    simpa [and_assoc] using hbytes
  readAll_print b := by
    cases b <;> rfl

instance : LawfulScalar UInt8 where
  isScalarText n := isScalarText_decimal n.toNat
  readAll_print n := by
    simp [readAll, Scalar.parse, Scalar.print, natural_decimal n.toNat_lt_size, skipBlanks]

instance : LawfulScalar UInt16 where
  isScalarText n := isScalarText_decimal n.toNat
  readAll_print n := by
    simp [readAll, Scalar.parse, Scalar.print, natural_decimal n.toNat_lt_size, skipBlanks]

theorem length_print_bool_le (b : Bool) : (Scalar.print b).length ≤ 5 := by
  cases b <;> decide

theorem length_print_uint8_le (n : UInt8) : (Scalar.print n).length ≤ 3 := by
  have hlt : n.toNat < 10 ^ 3 := Nat.lt_trans n.toNat_lt_size (by decide)
  change (Bytes.decimal n.toNat).length ≤ 3
  rw [Bytes.decimal, List.length_map]
  exact (Nat.length_toDigits_le_iff (by decide) (by decide)).mpr hlt

theorem length_print_uint16_le (n : UInt16) : (Scalar.print n).length ≤ 5 := by
  have hlt : n.toNat < 10 ^ 5 := Nat.lt_trans n.toNat_lt_size (by decide)
  change (Bytes.decimal n.toNat).length ≤ 5
  rw [Bytes.decimal, List.length_map]
  exact (Nat.length_toDigits_le_iff (by decide) (by decide)).mpr hlt

end Json

end WallSwitch
