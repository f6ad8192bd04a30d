import Mathlib.Data.List.Infix
import Mathlib.Data.Nat.Digits.Defs
import WallSwitch.Peripheral
import WallSwitch.Proofs.Json.Scalars

/-!
This module contains the number that bytes start with. It is read digit by digit into a word, and
comes out as the number that all the digits stand for, as far as it fits into the word.
-/

namespace WallSwitch

namespace Bytes

/-! ### Digits -/

def number (digits : Bytes) : Nat :=
  Nat.ofDigits 10 (digits.reverse.map digitValue)

theorem number_concat (digits : Bytes) (digit : UInt8) :
    number (digits ++ [digit]) = 10 * number digits + digitValue digit := by
  unfold number
  rw [List.reverse_concat, List.map_cons, Nat.ofDigits_cons]
  omega

theorem number_eq_foldl (digits : Bytes) :
    number digits = digits.foldl (fun n digit => 10 * n + digitValue digit) 0 := by
  induction digits using List.reverseRecOn with
  | nil => rfl
  | append_singleton digits digit ih => rw [number_concat, List.foldl_concat, ih]

theorem number_decimal (n : Nat) : number (decimal n) = n :=
  (number_eq_foldl _).trans (foldl_decimal n)

theorem number_zeros_append (zeros : Nat) (digits : Bytes) :
    number (List.replicate zeros 0x30 ++ digits) = number digits := by
  rw [number_eq_foldl, number_eq_foldl, List.foldl_append]
  congr 1
  induction zeros with
  | zero => rfl
  | succ zeros ih => exact ih

structure LeadingDigits (bytes digits : Bytes) : Prop where
  starts : digits <+: bytes
  all : ∀ byte ∈ digits, isDigit byte = true
  longest : ∀ other, other <+: bytes → (∀ byte ∈ other, isDigit byte = true) →
    other.length ≤ digits.length

variable {bytes digits rest : Bytes}

theorem leadingDigits_takeWhile (bytes : Bytes) : LeadingDigits bytes (bytes.takeWhile isDigit) where
  starts := List.takeWhile_prefix isDigit
  all := fun _ hmem => List.mem_takeWhile_imp hmem
  longest := by
    rintro other ⟨rest, rfl⟩ hdigits
    rw [List.takeWhile_append_of_pos hdigits, List.length_append]
    exact Nat.le_add_right _ _

theorem LeadingDigits.eq_takeWhile (h : LeadingDigits bytes digits) :
    digits = bytes.takeWhile isDigit := by
  have htaken := leadingDigits_takeWhile bytes
  have hle := htaken.longest digits h.starts h.all
  exact (List.prefix_of_prefix_length_le h.starts htaken.starts hle).eq_of_length_le
    (h.longest _ htaken.starts htaken.all)

theorem takeWhile_isDigit_append (hdigits : ∀ byte ∈ digits, isDigit byte = true)
    (hrest : ∀ byte ∈ rest.head?, isDigit byte = false) :
    (digits ++ rest).takeWhile isDigit = digits := by
  rw [List.takeWhile_append_of_pos hdigits]
  cases rest with
  | nil => exact List.append_nil digits
  | cons byte rest => simp [hrest byte rfl]

end Bytes

namespace Peripheral

/-! ### Numbers -/

variable {bytes digits : Bytes}

theorem toNat_foldl_digits (digits : Bytes) :
    (digits.foldl (fun n digit => n * 10 + UInt32.ofNat (Bytes.digitValue digit)) 0).toNat
      =
    Bytes.number digits % 2 ^ 32 := by
  induction digits using List.reverseRecOn with
  | nil => rfl
  | append_singleton digits digit ih =>
    rw [List.foldl_concat, Bytes.number_concat, UInt32.toNat_add, UInt32.toNat_mul, ih,
      UInt32.toNat_ofNat']
    have hten : (10 : UInt32).toNat = 10 := rfl
    rw [hten]
    omega

theorem toNat_leadingNumber (h : Bytes.LeadingDigits bytes digits) :
    (leadingNumber bytes).toNat = Bytes.number digits % 2 ^ 32 := by
  rw [h.eq_takeWhile]
  exact toNat_foldl_digits _

/--
A number of any size is read modulo two to the power of 32, whatever zeros stand before it and whatever
stands behind it that is no digit. The number that bytes start with depends on the digits that they
start with alone, and is zero if there are none.
-/
theorem leading_number_wraps :
    (∀ (n zeros : Nat) (rest : Bytes), (∀ byte ∈ rest.head?, Bytes.isDigit byte = false) →
        (leadingNumber (List.replicate zeros 0x30 ++ Bytes.decimal n ++ rest)).toNat = n % 2 ^ 32)
      ∧ ∀ bytes : Bytes, ∃ digits, Bytes.LeadingDigits bytes digits
        ∧ (leadingNumber bytes).toNat = Bytes.number digits % 2 ^ 32
        ∧ (digits = [] → leadingNumber bytes = 0)
        ∧ ∀ other, Bytes.LeadingDigits other digits → leadingNumber other = leadingNumber bytes := by
  refine ⟨?_, ?_⟩
  . intro n zeros rest hrest
    have hdigits : ∀ byte ∈ List.replicate zeros 0x30 ++ Bytes.decimal n,
        Bytes.isDigit byte = true := by
      rw [List.forall_mem_append]
      refine ⟨?_, fun byte hmem => Bytes.isDigit_of_mem_decimal hmem⟩
      intro byte hmem
      rw [List.eq_of_mem_replicate hmem]
      rfl
    have hleading := Bytes.leadingDigits_takeWhile
      (List.replicate zeros 0x30 ++ Bytes.decimal n ++ rest)
    rw [Bytes.takeWhile_isDigit_append hdigits hrest] at hleading
    rw [toNat_leadingNumber hleading, Bytes.number_zeros_append, Bytes.number_decimal]
  . intro bytes
    have hleading := Bytes.leadingDigits_takeWhile bytes
    refine ⟨_, hleading, toNat_leadingNumber hleading, ?_, ?_⟩
    . intro hnone
      unfold leadingNumber
      rw [hnone]
      rfl
    . intro other hother
      apply UInt32.toNat_inj.mp
      rw [toNat_leadingNumber hother, toNat_leadingNumber hleading]

theorem leading_number_wraps_twice :
    let text := Bytes.ascii "008589934634x7"
    (leadingNumber text).toNat = 42
      ∧ ∃ digits, Bytes.LeadingDigits text digits
        ∧ leadingNumber (Bytes.ascii "008589934634") = leadingNumber text := by
  intro text
  obtain ⟨hwraps, hdepends⟩ := leading_number_wraps
  have htext : text
      = List.replicate 2 0x30 ++ Bytes.decimal 8589934634 ++ Bytes.ascii "x7" := by
    decide +kernel
  have hletter : ∀ byte ∈ (Bytes.ascii "x7").head?, Bytes.isDigit byte = false := by
    rintro byte hmem
    cases hmem
    rfl
  have hvalue := hwraps 8589934634 2 (Bytes.ascii "x7") hletter
  rw [← htext] at hvalue
  obtain ⟨digits, hdigits, _, _, hsame⟩ := hdepends text
  refine ⟨hvalue, digits, hdigits, hsame _ ?_⟩
  have hother := Bytes.leadingDigits_takeWhile (Bytes.ascii "008589934634")
  have htaken : (Bytes.ascii "008589934634").takeWhile Bytes.isDigit
      = text.takeWhile Bytes.isDigit := by
    decide +kernel
  rw [htaken, ← hdigits.eq_takeWhile] at hother
  exact hother

end Peripheral

end WallSwitch
