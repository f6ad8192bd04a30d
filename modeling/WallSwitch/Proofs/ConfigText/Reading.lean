import Mathlib.Data.List.TakeWhile
import WallSwitch.DeviceConfig.Build

/-!
This module contains what a reader does when it takes an entry, and that reading a configuration
comes down to taking a number of entries.
-/

namespace WallSwitch

namespace TextReader

inductive Takes (reader : TextReader) : Entry → TextReader → Prop where
  /-- The last entry has no delimiter behind it. -/
  | last (h : reader.delimiter ∉ reader.rest) :
    Takes reader ⟨reader.rest⟩ ⟨reader.delimiter, reader.past ++ reader.rest, []⟩
  | delimited {head tail : Bytes} (h : reader.delimiter ∉ head)
      (hrest : reader.rest = head ++ reader.delimiter :: tail) :
    Takes reader ⟨head⟩ ⟨reader.delimiter, reader.past ++ head ++ [terminator], tail⟩

theorem takes_next (reader : TextReader) : reader.Takes reader.next.1 reader.next.2 := by
  have hhead : reader.delimiter ∉ reader.rest.takeWhile (· != reader.delimiter) := by
    intro hmem
    simpa using List.mem_takeWhile_imp hmem
  have happend : reader.rest.takeWhile (· != reader.delimiter)
      ++ reader.rest.dropWhile (· != reader.delimiter) = reader.rest :=
    List.takeWhile_append_dropWhile
  have hdrop := List.head?_dropWhile_not (· != reader.delimiter) reader.rest
  unfold next
  split
  . next hnil =>
    rw [hnil, List.append_nil] at happend
    rw [happend] at hhead ⊢
    exact .last hhead
  . next byte tail hcons =>
    rw [hcons] at happend hdrop
    have hbyte : byte = reader.delimiter := by simpa using hdrop
    rw [hbyte] at happend
    exact .delimited hhead happend.symm

theorem take_snd_succ (n : Nat) (reader : TextReader) :
    (take (n + 1) reader).2 = (take n reader.next.2).2 := rfl

theorem take_invariant (Invariant : TextReader → Prop)
    (hnext : ∀ reader, Invariant reader → Invariant reader.next.2) :
    ∀ (n : Nat) (reader : TextReader), Invariant reader → Invariant (take n reader).2 := by
  intro n
  induction n with
  | zero =>
    intro reader h
    exact h
  | succ n ih =>
    intro reader h
    rw [take_snd_succ]
    exact ih reader.next.2 (hnext reader h)

end TextReader

namespace DeviceConfig

def nameOf (entry : Entry) (tooLong : Nat → ConfigError) : Except ConfigError Bytes :=
  if entry.bytes.length ≤ maxNameLength then .ok entry.bytes
  else .error (tooLong entry.bytes.length)

theorem takeName_eq (reader : TextReader) (tooLong : Nat → ConfigError) :
    takeName reader tooLong = (nameOf reader.next.1 tooLong, reader.next.2) := by
  unfold takeName nameOf
  dsimp only
  split <;> rfl

theorem build_eq (reader : TextReader) :
    build reader
      =
    match nameOf reader.next.1 .manufacturerTooLong, nameOf reader.next.2.next.1 .modelTooLong with
    | .error error, _ => (.error error, reader.next.2)
    | .ok _, .error error => (.error error, reader.next.2.next.2)
    | .ok manufacturer, .ok model =>
      addEntries { empty with manufacturer := manufacturer, model := model }
        reader.next.2.next.2 := by
  unfold build
  rw [takeName_eq]
  cases nameOf reader.next.1 .manufacturerTooLong with
  | error error => rfl
  | ok manufacturer =>
    dsimp only
    rw [takeName_eq]
    cases nameOf reader.next.2.next.1 .modelTooLong with
    | error error => rfl
    | ok model => rfl

theorem go_eq_take (fuel : Nat) :
    ∀ (config : DeviceConfig) (reader : TextReader),
      ∃ n, (addEntries.go fuel config reader).2 = (reader.take n).2 := by
  induction fuel with
  | zero =>
    intro config reader
    exact ⟨0, rfl⟩
  | succ fuel ih =>
    intro config reader
    unfold addEntries.go
    -- However the entry is taken, the reader has moved behind it.
    have hone : reader.next.2 = (reader.take 1).2 := rfl
    have hmore {n : Nat} {final : TextReader} (h : final = (reader.next.2.take n).2) :
        ∃ n, final = (reader.take n).2 := ⟨n + 1, h⟩
    dsimp only
    split
    . exact ⟨1, hone⟩
    . split
      . obtain ⟨n, h⟩ := ih config reader.next.2
        exact hmore h
      . split
        . next config' _ =>
          obtain ⟨n, h⟩ := ih config' reader.next.2
          exact hmore h
        . exact ⟨1, hone⟩

theorem build_eq_take (reader : TextReader) : ∃ n, (build reader).2 = (reader.take n).2 := by
  rw [build_eq]
  split
  . exact ⟨1, rfl⟩
  . exact ⟨2, rfl⟩
  . next manufacturer model _ _ =>
    obtain ⟨n, h⟩ := go_eq_take (reader.next.2.next.2.rest.length + 1)
      { empty with manufacturer := manufacturer, model := model } reader.next.2.next.2
    exact ⟨n + 2, h⟩

end DeviceConfig

end WallSwitch
