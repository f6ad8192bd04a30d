import Mathlib.Data.List.Forall2
import WallSwitch.Blueprint
import WallSwitch.Proofs.ConfigText.Reading

/-!
This module contains the restoring of configuration texts. Reading wears a text: it writes the
terminator over some of the delimiters, and over nothing else. As the text has no terminators of its
own, all of this can be mended.
-/

namespace WallSwitch

namespace ConfigText

/--
What may have become of a byte of a text.
-/
inductive WornByte (byte : UInt8) : UInt8 → Prop where
  | kept : WornByte byte byte
  | overwritten (h : byte = delimiter) : WornByte byte terminator

def Worn : Bytes → Bytes → Prop :=
  List.Forall₂ WornByte

def mend (byte : UInt8) : UInt8 :=
  if byte = terminator then delimiter else byte

theorem restore_bytes (text : ConfigText) (cursor : Nat) :
    (text.restore cursor).bytes
      =
    (text.bytes.take cursor).map mend ++ text.bytes.drop cursor := rfl

variable {whole bytes more : Bytes}

namespace WornByte

theorem trans {first second third : UInt8} (h : WornByte first second)
    (hmore : WornByte second third) : WornByte first third := by
  cases hmore with
  | kept => exact h
  | overwritten hdelimiter =>
    -- A byte is overwritten at most once, as the terminator is not a delimiter.
    cases h with
    | kept => exact .overwritten hdelimiter
    | overwritten _ => contradiction

theorem mend_eq {byte worn : UInt8} (h : WornByte byte worn) (hclean : byte ≠ terminator) :
    mend worn = byte := by
  unfold mend
  cases h with
  | kept => rw [if_neg hclean]
  | overwritten hdelimiter => rw [if_pos rfl, hdelimiter]

end WornByte

namespace Worn

theorem refl (bytes : Bytes) : Worn bytes bytes :=
  List.forall₂_same.mpr fun _ _ => .kept

theorem trans {first second third : Bytes} (h : Worn first second) (hmore : Worn second third) :
    Worn first third := by
  induction h generalizing third with
  | nil => exact hmore
  | cons hbyte _ ih =>
    cases hmore with
    | cons hbyte' hmore => exact .cons (hbyte.trans hbyte') (ih hmore)

theorem append {other worn : Bytes} (h : Worn whole bytes) (hother : Worn other worn) :
    Worn (whole ++ other) (bytes ++ worn) :=
  List.rel_append h hother

theorem mend_eq (h : Worn whole bytes) (hclean : terminator ∉ whole) :
    bytes.map mend = whole := by
  induction h with
  | nil => rfl
  | cons hbyte _ ih =>
    rw [List.mem_cons, not_or] at hclean
    rw [List.map_cons, hbyte.mend_eq (Ne.symm hclean.1), ih hclean.2]

theorem restore {text : ConfigText} (h : Worn whole text.bytes) (hclean : terminator ∉ whole)
    (cursor : Nat) : Worn whole (text.restore cursor).bytes := by
  rw [restore_bytes]
  -- The front is mended completely, and the rest stays as it is.
  have hfront : terminator ∉ whole.take cursor := fun hmem => hclean (List.mem_of_mem_take hmem)
  rw [mend_eq (List.forall₂_take cursor h) hfront]
  have hrest : Worn (whole.drop cursor) (text.bytes.drop cursor) := List.forall₂_drop cursor h
  have hwhole := (refl (whole.take cursor)).append hrest
  rw [List.take_append_drop] at hwhole
  exact hwhole

theorem restore_eq {text : ConfigText} {cursor : Nat} (h : Worn whole text.bytes)
    (hclean : terminator ∉ whole) (hrest : terminator ∉ text.bytes.drop cursor) :
    text.restore cursor = ⟨whole⟩ := by
  have hkept : (text.bytes.drop cursor).map mend = text.bytes.drop cursor := by
    apply mend_eq (refl _) hrest
  have hbytes : (text.restore cursor).bytes = text.bytes.map mend := by
    rw [restore_bytes, ← hkept, ← List.map_append, List.take_append_drop]
  rw [h.mend_eq hclean] at hbytes
  rw [← hbytes]

theorem getElem?_ne (h : Worn whole bytes) {i : Nat} (hne : bytes[i]? ≠ whole[i]?) :
    whole[i]? = some delimiter ∧ bytes[i]? = some terminator := by
  induction h generalizing i with
  | nil => contradiction
  | cons hbyte _ ih =>
    cases i with
    | zero =>
      cases hbyte with
      | kept => contradiction
      | overwritten hdelimiter => simp [hdelimiter]
    | succ i => exact ih hne

end Worn

end ConfigText

namespace TextReader

variable {whole : Bytes} {reader next : TextReader} {entry : Entry}

theorem Takes.delimiter_eq (htakes : reader.Takes entry next) :
    next.delimiter = reader.delimiter := by
  cases htakes <;> rfl

theorem Takes.worn (htakes : reader.Takes entry next)
    (hdelimiter : reader.delimiter = ConfigText.delimiter) :
    ConfigText.Worn reader.text next.text := by
  cases htakes with
  | last h =>
    unfold text
    rw [List.append_nil]
    exact ConfigText.Worn.refl _
  | @delimited head tail h hrest =>
    unfold text
    rw [hrest, List.append_assoc, List.append_assoc, List.singleton_append]
    apply (ConfigText.Worn.refl reader.past).append
    apply (ConfigText.Worn.refl head).append
    exact .cons (.overwritten hdelimiter) (ConfigText.Worn.refl tail)

theorem Takes.clean (htakes : reader.Takes entry next) (hclean : terminator ∉ reader.rest) :
    terminator ∉ next.rest := by
  cases htakes with
  | last h => simp
  | delimited h hrest =>
    rw [hrest] at hclean
    intro hmem
    apply hclean
    exact List.mem_append_right _ (List.mem_cons_of_mem _ hmem)

theorem worn_take (n : Nat) (text : ConfigText) :
    ConfigText.Worn text.bytes (take n text.reader).2.text := by
  have h := take_invariant
    (fun reader => reader.delimiter = ConfigText.delimiter
      ∧ ConfigText.Worn text.bytes reader.text)
    (fun reader h => ⟨reader.takes_next.delimiter_eq.trans h.1,
      h.2.trans (reader.takes_next.worn h.1)⟩)
    n text.reader ⟨rfl, ConfigText.Worn.refl _⟩
  exact h.2

theorem clean_take (n : Nat) {text : ConfigText} (hclean : terminator ∉ text.bytes) :
    terminator ∉ (take n text.reader).2.rest :=
  take_invariant (fun reader => terminator ∉ reader.rest)
    (fun reader h => reader.takes_next.clean h) n text.reader hclean

end TextReader

namespace ConfigText

variable {text : ConfigText}

theorem not_mem_of_ofBytes {bytes : Bytes} (h : ofBytes bytes = .ok text) :
    terminator ∉ text.bytes := by
  unfold ofBytes at h
  dsimp only at h
  split at h
  . cases h
    intro hmem
    simpa using List.mem_takeWhile_imp hmem
  . contradiction

theorem restore_take (hclean : terminator ∉ text.bytes) (n : Nat) {cursor : Nat}
    (h : (TextReader.take n text.reader).2.cursor ≤ cursor) :
    restore ⟨(TextReader.take n text.reader).2.text⟩ cursor = text := by
  -- All terminators are behind the reader, so they are in front of the cursor.
  apply Worn.restore_eq (TextReader.worn_take n text) hclean
  have hrest := TextReader.clean_take n hclean
  intro hmem
  apply hrest
  unfold TextReader.text TextReader.cursor at *
  rw [List.drop_append, List.drop_eq_nil_of_le h, List.nil_append] at hmem
  exact List.mem_of_mem_drop hmem

theorem compile_eq_restore_take (text : ConfigText) :
    ∃ n, text.compile.2
      =
    restore ⟨(TextReader.take n text.reader).2.text⟩ (TextReader.take n text.reader).2.cursor := by
  obtain ⟨n, h⟩ := DeviceConfig.build_eq_take text.reader
  refine ⟨n, ?_⟩
  rw [← h]
  rfl

inductive Use where
  /-- A reader is started and takes `n` entries. -/
  | read (n : Nat)
  | restore (cursor : Nat)
  | compile
deriving DecidableEq, Repr

def use (text : ConfigText) : Use → ConfigText
  | .read n => ⟨(TextReader.take n text.reader).2.text⟩
  | .restore cursor => text.restore cursor
  | .compile => text.compile.2

def useAll (text : ConfigText) (uses : List Use) : ConfigText :=
  uses.foldl use text

variable {whole : Bytes}

theorem worn_use (h : Worn whole text.bytes) (hclean : terminator ∉ whole) (next : Use) :
    Worn whole (text.use next).bytes := by
  cases next with
  | read n => exact h.trans (TextReader.worn_take n text)
  | restore cursor => exact h.restore hclean cursor
  | compile =>
    obtain ⟨n, hcompile⟩ := text.compile_eq_restore_take
    unfold use
    rw [hcompile]
    exact Worn.restore (h.trans (TextReader.worn_take n text)) hclean _

theorem worn_useAll (hclean : terminator ∉ whole) (uses : List Use) :
    ∀ (text : ConfigText), Worn whole text.bytes → Worn whole (text.useAll uses).bytes := by
  induction uses with
  | nil =>
    intro text h
    exact h
  | cons next uses ih =>
    intro text h
    exact ih (text.use next) (worn_use h hclean next)

/--
A text that was accepted comes out of its compilation as it went in, and can be restored after
any number of entries. Whatever is done to it, only delimiters are ever missing, and they are
where the terminators are.
-/
theorem reading_can_be_undone {bytes : Bytes} (h : ofBytes bytes = .ok text) :
    text.compile.2 = text
      ∧ (∀ n cursor, (TextReader.take n text.reader).2.cursor ≤ cursor →
        restore ⟨(TextReader.take n text.reader).2.text⟩ cursor = text)
      ∧ ∀ uses, (text.useAll uses).bytes.length = text.bytes.length
        ∧ ∀ i : Nat, (text.useAll uses).bytes[i]? ≠ text.bytes[i]? →
          text.bytes[i]? = some delimiter ∧ (text.useAll uses).bytes[i]? = some terminator := by
  have hclean : terminator ∉ text.bytes := not_mem_of_ofBytes h
  refine ⟨?_, ?_, ?_⟩
  . obtain ⟨n, hcompile⟩ := text.compile_eq_restore_take
    rw [hcompile]
    exact restore_take hclean n (Nat.le_refl _)
  . intro n cursor hcursor
    exact restore_take hclean n hcursor
  . intro uses
    have hworn := worn_useAll hclean uses text (Worn.refl _)
    constructor
    . exact hworn.length_eq.symm
    . intro i hne
      exact hworn.getElem?_ne hne

theorem reading_can_be_undone_relay :
    let text : ConfigText := ⟨Bytes.ascii "a;b;RA0"⟩
    ofBytes text.bytes = .ok text ∧ text.compile.2 = text
      ∧ restore ⟨(TextReader.take 2 text.reader).2.text⟩ 4 = text
      ∧ (text.useAll [.read 2]).bytes.length = 7
      ∧ (text.useAll [.read 2]).bytes[3]? = some terminator := by
  intro text
  have haccepted : ofBytes text.bytes = .ok text := by decide
  obtain ⟨hcompile, hrestore, huses⟩ := reading_can_be_undone haccepted
  obtain ⟨hlength, hworn⟩ := huses [.read 2]
  exact ⟨haccepted, hcompile, hrestore 2 4 (by decide), hlength, (hworn 3 (by decide)).2⟩

end ConfigText

end WallSwitch
