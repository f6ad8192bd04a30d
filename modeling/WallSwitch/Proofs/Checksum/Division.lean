import Mathlib.Data.List.Basic
import WallSwitch.Checksum

/-!
This module contains the division behind the checksum. Every step of it can be undone, so two items
that leave the same register can only differ if the differences are spread over more than four bytes.
-/

namespace WallSwitch

namespace Checksum

variable {register other : BitVec 32} {byte : UInt8} {bytes : Bytes}

/-! ### Bits -/

theorem shift_xor (a b : BitVec 32) : shift (a ^^^ b) = shift a ^^^ shift b := by
  unfold shift
  rw [BitVec.getLsbD_xor, BitVec.ushiftRight_xor_distrib]
  cases a.getLsbD 0 <;> cases b.getLsbD 0
  . rfl
  . exact BitVec.xor_assoc _ _ _
  . simp only [Bool.true_xor, Bool.not_false, if_true, Bool.false_eq_true, if_false]
    rw [BitVec.xor_assoc, BitVec.xor_assoc, BitVec.xor_comm polynomial]
  . simp only [Bool.true_xor, Bool.not_true, Bool.false_eq_true, if_false, if_true]
    rw [BitVec.xor_assoc, BitVec.xor_comm _ polynomial, ← BitVec.xor_assoc polynomial,
      BitVec.xor_self, BitVec.zero_xor]

/--
The bit that was shifted out is found again at the other end, because the polynomial has its lowest
power there.
-/
theorem getLsbD_shift (register : BitVec 32) :
    (shift register).getLsbD 31 = register.getLsbD 0 := by
  have hpolynomial : polynomial.getLsbD 31 = true := by decide
  unfold shift
  cases h : register.getLsbD 0 with
  | false => simp
  | true => simp [hpolynomial]

theorem shift_injective (h : shift register = shift other) : register = other := by
  have hlow : register.getLsbD 0 = other.getLsbD 0 := by
    rw [← getLsbD_shift, h, getLsbD_shift]
  have hhigh : register >>> 1 = other >>> 1 := by
    unfold shift at h
    rw [hlow] at h
    split at h
    . exact (BitVec.xor_left_inj _).mp h
    . exact h
  apply BitVec.eq_of_getLsbD_eq
  intro i _
  cases i with
  | zero => exact hlow
  | succ i =>
    have hbit := congrArg (fun shifted => shifted.getLsbD i) hhigh
    simpa [Nat.add_comm] using hbit

theorem shiftBy_xor (n : Nat) (a b : BitVec 32) : shiftBy n (a ^^^ b) = shiftBy n a ^^^ shiftBy n b := by
  induction n generalizing a b with
  | zero => rfl
  | succ n ih =>
    unfold shiftBy
    rw [shift_xor, ih]

theorem shiftBy_injective {n : Nat} (h : shiftBy n register = shiftBy n other) : register = other := by
  induction n generalizing register other with
  | zero => exact h
  | succ n ih => exact shift_injective (ih h)

theorem shiftBy_shiftBy (first second : Nat) (register : BitVec 32) :
    shiftBy second (shiftBy first register) = shiftBy (first + second) register := by
  induction first generalizing register with
  | zero => rw [shiftBy, Nat.zero_add]
  | succ first ih =>
    rw [Nat.succ_add]
    exact ih (shift register)

theorem shiftBy_of_low {n : Nat} (h : ∀ i < n, register.getLsbD i = false) :
    shiftBy n register = register >>> n := by
  induction n generalizing register with
  | zero => exact (BitVec.ushiftRight_zero register).symm
  | succ n ih =>
    have hshift : shift register = register >>> 1 := by
      unfold shift
      rw [h 0 (Nat.succ_pos n)]
      rfl
    have hlow : ∀ i < n, (register >>> 1).getLsbD i = false := by
      intro i hi
      rw [BitVec.getLsbD_ushiftRight]
      exact h (1 + i) (by omega)
    rw [shiftBy, hshift, ih hlow, ← BitVec.shiftRight_add, Nat.add_comm]

/-! ### Bytes -/

theorem feed_injective (h : feed register byte = feed other byte) : register = other :=
  (BitVec.xor_left_inj _).mp (shiftBy_injective h)

theorem feedAll_injective (h : feedAll register bytes = feedAll other bytes) : register = other := by
  induction bytes generalizing register other with
  | nil => exact h
  | cons byte bytes ih => exact feed_injective (ih h)

theorem feedAll_append (register : BitVec 32) (first second : Bytes) :
    feedAll register (first ++ second) = feedAll (feedAll register first) second :=
  List.foldl_append

/--
To feed a register with the lowest byte of a word is to take the word off it, all but the other bytes,
which have come down by a byte.
-/
theorem feed_extractLsb' (register word : BitVec 32) :
    feed register ⟨word.extractLsb' 0 8⟩ = shiftBy 8 (register ^^^ word) ^^^ (word >>> 8) := by
  let low := (word.extractLsb' 0 8).setWidth 32
  have hlow (i : Nat) : low.getLsbD i = (decide (i < 8) && word.getLsbD i) := by
    rw [BitVec.getLsbD_setWidth, BitVec.getLsbD_extractLsb', Nat.zero_add]
    cases h : decide (i < 8) with
    | false => simp
    | true => simp [Nat.lt_trans (of_decide_eq_true h) (by decide : 8 < 32)]
  have hcleared : ∀ i < 8, (word ^^^ low).getLsbD i = false := by
    intro i hi
    rw [BitVec.getLsbD_xor, hlow, decide_eq_true hi, Bool.true_and, Bool.xor_self]
  have hothers : (word ^^^ low) >>> 8 = word >>> 8 := by
    apply BitVec.eq_of_getLsbD_eq
    intro i _
    have hi : ¬8 + i < 8 := by omega
    rw [BitVec.getLsbD_ushiftRight, BitVec.getLsbD_ushiftRight, BitVec.getLsbD_xor, hlow,
      decide_eq_false hi, Bool.false_and, Bool.xor_false]
  have hsplit : register ^^^ low = (register ^^^ word) ^^^ (word ^^^ low) := by
    rw [BitVec.xor_assoc, ← BitVec.xor_assoc word, BitVec.xor_self, BitVec.zero_xor]
  calc feed register ⟨word.extractLsb' 0 8⟩
    _ = shiftBy 8 ((register ^^^ word) ^^^ (word ^^^ low)) := by rw [← hsplit]; rfl
    _ = shiftBy 8 (register ^^^ word) ^^^ (word >>> 8) := by
      rw [shiftBy_xor, shiftBy_of_low hcleared, hothers]

theorem feedAll_littleEndian (register word : BitVec 32) :
    feedAll register (littleEndian word) = shiftBy 32 (register ^^^ word) := by
  have hbyte (n : Nat) (fed : BitVec 32) :
      feed fed ⟨word.extractLsb' n 8⟩ = shiftBy 8 (fed ^^^ (word >>> n)) ^^^ (word >>> (n + 8)) := by
    have hlow : word.extractLsb' n 8 = (word >>> n).extractLsb' 0 8 := by
      apply BitVec.eq_of_getLsbD_eq
      intro i _
      simp
    rw [hlow, feed_extractLsb', BitVec.shiftRight_add]
  have hcancel (fed : BitVec 32) (n : Nat) : fed ^^^ (word >>> n) ^^^ (word >>> n) = fed := by
    rw [BitVec.xor_assoc, BitVec.xor_self, BitVec.xor_zero]
  change feed (feed (feed (feed register _) _) _) _ = _
  rw [hbyte, hbyte, hbyte, hbyte, hcancel, hcancel, hcancel, shiftBy_shiftBy, shiftBy_shiftBy,
    shiftBy_shiftBy]
  have hnothing : word >>> (24 + 8) = 0 := BitVec.ushiftRight_eq_zero (Nat.le_refl 32)
  rw [hnothing, BitVec.ushiftRight_zero]
  exact BitVec.xor_zero

theorem exists_littleEndian (h : bytes.length = 4) : ∃ word, bytes = littleEndian word := by
  obtain ⟨first, second, third, fourth, rfl⟩ := List.length_eq_four.mp h
  have hfirst := first.toNat_lt
  have hsecond := second.toNat_lt
  have hthird := third.toNat_lt
  have hfourth := fourth.toNat_lt
  let value := first.toNat + 256 * second.toNat + 65536 * third.toNat + 16777216 * fourth.toNat
  have hbyte (n : Nat) (byte : UInt8) (hvalue : value / 2 ^ n % 256 = byte.toNat) :
      byte = ⟨(BitVec.ofNat 32 value).extractLsb' n 8⟩ := by
    apply UInt8.toNat_inj.mp
    change byte.toNat = ((BitVec.ofNat 32 value).extractLsb' n 8).toNat
    rw [BitVec.extractLsb'_toNat, BitVec.toNat_ofNat, Nat.mod_eq_of_lt (show value < 2 ^ 32 by omega),
      Nat.shiftRight_eq_div_pow, ← hvalue]
  refine ⟨BitVec.ofNat 32 value, ?_⟩
  unfold littleEndian
  rw [← hbyte 0 first (by omega), ← hbyte 8 second (by omega), ← hbyte 16 third (by omega),
    ← hbyte 24 fourth (by omega)]

/-! ### Items -/

theorem feedAll_close (body : Bytes) :
    feedAll (BitVec.allOnes 32) (close body) = shiftBy 32 (BitVec.allOnes 32) := by
  unfold close crc32
  rw [feedAll_append, feedAll_littleEndian]
  rw [← BitVec.xor_allOnes, ← BitVec.xor_assoc, BitVec.xor_self, BitVec.zero_xor]

theorem eq_of_feedAll_eq {first second : Bytes} (hfirst : first.length = 4)
    (hsecond : second.length = 4) (h : feedAll register first = feedAll register second) :
    first = second := by
  obtain ⟨word, rfl⟩ := exists_littleEndian hfirst
  obtain ⟨word', rfl⟩ := exists_littleEndian hsecond
  rw [feedAll_littleEndian, feedAll_littleEndian] at h
  rw [(BitVec.xor_right_inj register).mp (shiftBy_injective h)]

theorem eq_of_agree {item found : Bytes} (hlength : found.length = item.length) {start : Nat}
    (hroom : start + 4 ≤ item.length)
    (hagree : ∀ i, found[i]? ≠ item[i]? → start ≤ i ∧ i < start + 4)
    (h : feedAll register found = feedAll register item) : found = item := by
  have hsame (i : Nat) (hi : i < start ∨ start + 4 ≤ i) : found[i]? = item[i]? := by
    by_contra hne
    have hwithin := hagree i hne
    omega
  have hbefore : found.take start = item.take start := by
    apply List.ext_getElem?
    intro i
    rw [List.getElem?_take, List.getElem?_take]
    split
    . next hi => exact hsame i (.inl hi)
    . rfl
  have hlater : (found.drop start).drop 4 = (item.drop start).drop 4 := by
    apply List.ext_getElem?
    intro i
    rw [List.drop_drop, List.drop_drop, List.getElem?_drop, List.getElem?_drop]
    exact hsame _ (.inr (Nat.le_add_right _ i))
  have hsplit (bytes : Bytes) : feedAll register bytes
      = feedAll (feedAll (feedAll register (bytes.take start)) ((bytes.drop start).take 4))
        ((bytes.drop start).drop 4) := by
    rw [← feedAll_append, List.take_append_drop, ← feedAll_append, List.take_append_drop]
  -- What follows the four bytes can be undone, and what precedes them is the same for both items.
  rw [hsplit found, hsplit item, hbefore, hlater] at h
  have hmiddle := eq_of_feedAll_eq (by simp; omega) (by simp; omega) (feedAll_injective h)
  rw [← List.take_append_drop start found, ← List.take_append_drop 4 (found.drop start), hbefore,
    hmiddle, hlater, List.take_append_drop, List.take_append_drop]

end Checksum

end WallSwitch
