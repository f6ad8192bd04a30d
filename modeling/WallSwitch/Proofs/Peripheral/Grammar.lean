import WallSwitch.Proofs.ConfigText.Marks
import WallSwitch.Proofs.Peripheral.LeadingNumber

/-!
This module contains the grammar of the entries that describe something, and the proof that they are
read by it and by nothing else: which entries are understood, and what each of their fields is read
from.
-/

namespace WallSwitch

/-! ### Pins -/

namespace Pin

def spelling (port : Fin 4) (number : Fin 9) : Bytes :=
  [UInt8.ofNat (0x41 + port), UInt8.ofNat (0x30 + number)]

variable {bytes : Bytes} {port : Fin 4} {number : Fin 9}

theorem toNat_letter (port : Fin 4) : (UInt8.ofNat (0x41 + port)).toNat = 0x41 + port := by
  rw [UInt8.toNat_ofNat']
  omega

theorem toNat_digit (number : Fin 9) : (UInt8.ofNat (0x30 + number)).toNat = 0x30 + number := by
  rw [UInt8.toNat_ofNat']
  omega

theorem ofPortNumber_eq_line_iff {letter digit : Nat} :
    ofPortNumber letter digit = .line port number ↔ letter = port ∧ digit = number := by
  unfold ofPortNumber
  grind

theorem ofBytes_cons_cons_eq_line_iff {letter digit : UInt8} {rest : Bytes} :
    ofBytes (letter :: digit :: rest) = .line port number
      ↔
    letter = UInt8.ofNat (0x41 + port) ∧ digit = UInt8.ofNat (0x30 + number) := by
  rw [← UInt8.toNat_inj, ← UInt8.toNat_inj, toNat_letter, toNat_digit]
  have hofBytes : ofBytes (letter :: digit :: rest)
      = if 0x41 ≤ letter && 0x30 ≤ digit then
          ofPortNumber (letter.toNat - 0x41) (digit.toNat - 0x30)
        else
          .invalid := rfl
  have hletter : 0x41 ≤ letter ↔ 0x41 ≤ letter.toNat := UInt8.le_iff_toNat_le
  have hdigit : 0x30 ≤ digit ↔ 0x30 ≤ digit.toNat := UInt8.le_iff_toNat_le
  rw [hofBytes]
  split
  . next h =>
    rw [Bool.and_eq_true, decide_eq_true_eq, decide_eq_true_eq, hletter, hdigit] at h
    rw [ofPortNumber_eq_line_iff]
    omega
  . next h =>
    rw [Bool.and_eq_true, decide_eq_true_eq, decide_eq_true_eq, hletter, hdigit] at h
    have hinvalid : Pin.invalid ≠ .line port number := nofun
    exact iff_of_false hinvalid (by omega)

theorem ofBytes_eq_line_iff :
    ofBytes bytes = .line port number ↔ spelling port number <+: bytes := by
  match bytes with
  | [] => simp [ofBytes, spelling]
  | [_] => simp [ofBytes, spelling]
  | letter :: digit :: rest =>
    rw [ofBytes_cons_cons_eq_line_iff, spelling, List.cons_prefix_cons, List.cons_prefix_cons]
    simp [eq_comm]

theorem ofBytes_congr {other : Bytes} (h : bytes.take 2 = other.take 2) :
    ofBytes bytes = ofBytes other := by
  unfold ofBytes
  match bytes, other with
  | [], [] | [], [_] | [_], [] | [_], [_] => rfl
  | [], _ :: _ :: _ | [_], _ :: _ :: _ | _ :: _ :: _, [] | _ :: _ :: _, [_] => simp at h
  | _ :: _ :: _, _ :: _ :: _ =>
    simp only [List.take_succ_cons, List.take_zero, List.cons.injEq, and_true] at h
    rw [h.1, h.2]

theorem isValid_iff {pin : Pin} : pin.isValid = true ↔ ∃ port number, pin = .line port number := by
  cases pin with
  | invalid => simp [isValid]
  | line port number => simp [isValid]

/--
The pin is the one that is spelled where the texts are looked for, and is invalid if none is.
-/
structure SpelledBy (pin : Pin) (Found : Bytes → Prop) : Prop where
  valid : pin.isValid = true ↔ ∃ port number, Found (spelling port number)
  line : ∀ port number, pin = .line port number ↔ Found (spelling port number)

theorem spelledBy_of_line_iff {pin : Pin} {Found : Bytes → Prop}
    (h : ∀ port number, pin = .line port number ↔ Found (spelling port number)) :
    pin.SpelledBy Found where
  valid := by simp only [isValid_iff, h]
  line := h

end Pin

/-! ### Pulls -/

def Pull.letters : Pull → Bytes
  | .up => Bytes.ascii "uU"
  | .down => Bytes.ascii "d"
  | .floating => Bytes.ascii "f"
  | .invalid => []

theorem Pull.ofByte_eq_iff {letter : UInt8} {pull : Pull} (h : pull ≠ .invalid) :
    Pull.ofByte letter = pull ↔ letter ∈ pull.letters := by
  have hup : Pull.up.letters = [0x75, 0x55] := by decide
  have hdown : Pull.down.letters = [0x64] := by decide
  have hfloating : Pull.floating.letters = [0x66] := by decide
  unfold Pull.ofByte
  cases pull with
  | up => grind
  | down => grind
  | floating => grind
  | invalid => exact absurd rfl h

/-! ### Entries -/

namespace Entry

/--
An entry consists of a tag, any number of spaces, and a payload that does not start with another one.
-/
structure LaidOut (entry : Entry) (tag : UInt8) (payload : Bytes) : Prop where
  bytes : ∃ spaces, entry.bytes = tag :: (List.replicate spaces 0x20 ++ payload)
  payload : payload.head? ≠ some 0x20

def Matches (entry : Entry) (tag : UInt8) (text : Bytes) : Prop :=
  ∃ spaces rest, entry.bytes = tag :: (List.replicate spaces 0x20 ++ (text ++ rest))

variable {entry : Entry} {tag : UInt8} {payload text : Bytes}

theorem dropWhile_spaces (spaces : Nat) (h : payload.head? ≠ some 0x20) :
    (List.replicate spaces 0x20 ++ payload).dropWhile (· == 0x20) = payload := by
  rw [List.dropWhile_append_of_pos]
  . cases payload with
    | nil => rfl
    | cons byte rest =>
      apply List.dropWhile_cons_of_neg
      simpa using h
  . intro byte hmem
    simp [List.eq_of_mem_replicate hmem]

theorem laidOut_self (h : entry.bytes ≠ []) : entry.LaidOut entry.tag entry.payload := by
  obtain ⟨first, rest, hbytes⟩ := List.exists_cons_of_ne_nil h
  have htag : entry.tag = first := by simp [tag, byteAt, hbytes]
  have hpayload : entry.payload = rest.dropWhile (· == 0x20) := by simp [Entry.payload, hbytes]
  rw [htag, hpayload]
  refine ⟨⟨(rest.takeWhile (· == 0x20)).length, ?_⟩, ?_⟩
  . have hspaces : rest.takeWhile (· == 0x20)
        = List.replicate (rest.takeWhile (· == 0x20)).length 0x20 := by
      apply List.eq_replicate_of_mem
      intro byte hmem
      simpa using List.mem_takeWhile_imp hmem
    rw [hbytes, ← hspaces, List.takeWhile_append_dropWhile]
  . intro hhead
    have hspace := List.head?_dropWhile_not (· == 0x20) rest
    rw [hhead] at hspace
    simp at hspace

namespace LaidOut

theorem tag_eq (h : entry.LaidOut tag payload) : entry.tag = tag := by
  obtain ⟨spaces, hbytes⟩ := h.bytes
  simp [Entry.tag, byteAt, hbytes]

theorem payload_eq (h : entry.LaidOut tag payload) : entry.payload = payload := by
  obtain ⟨spaces, hbytes⟩ := h.bytes
  rw [Entry.payload, hbytes]
  exact dropWhile_spaces spaces h.payload

theorem matches_iff (h : entry.LaidOut tag payload) (hne : text ≠ [])
    (hhead : text.head? ≠ some 0x20) : entry.Matches tag text ↔ text <+: payload := by
  constructor
  . rintro ⟨spaces, rest, hbytes⟩
    have hother : entry.LaidOut tag (text ++ rest) := by
      refine ⟨⟨spaces, hbytes⟩, ?_⟩
      rwa [List.head?_append_of_ne_nil _ hne]
    rw [← h.payload_eq, hother.payload_eq]
    exact List.prefix_append text rest
  . rintro ⟨rest, rfl⟩
    obtain ⟨spaces, hbytes⟩ := h.bytes
    exact ⟨spaces, rest, hbytes⟩

theorem ofBytes_eq_line_iff (h : entry.LaidOut tag payload) {port : Fin 4} {number : Fin 9} :
    Pin.ofBytes payload = .line port number ↔ entry.Matches tag (Pin.spelling port number) := by
  rw [Pin.ofBytes_eq_line_iff, h.matches_iff]
  . simp [Pin.spelling]
  . revert port number
    decide

end LaidOut

end Entry

/-! ### Peripherals -/

namespace Peripheral

def pin? : Peripheral → Option Pin
  | .button pin _ | .switch pin _ | .statusLed pin _ | .indicatorLed pin _ | .relay pin _ => some pin
  | .imageType _ | .simultaneousPulses | .momentarySwitches => none

def pull? : Peripheral → Option Pull
  | .button _ pull | .switch _ pull => some pull
  | _ => none

def activeHigh? : Peripheral → Option Bool
  | .statusLed _ activeHigh | .indicatorLed _ activeHigh => some activeHigh
  | _ => none

/--
The byte that an entry starts with that describes the peripheral. The mark of simultaneous pulses is
known by more than that.
-/
def tag? : Peripheral → Option UInt8
  | .button .. => some 0x42
  | .switch .. => some 0x53
  | .statusLed .. => some 0x4C
  | .indicatorLed .. => some 0x49
  | .relay .. => some 0x52
  | .imageType _ => some 0x69
  | .momentarySwitches => some 0x4D
  | .simultaneousPulses => none

def tags : Bytes := Bytes.ascii "BSLIRiM"

inductive Reads (payload : Bytes) : UInt8 → Peripheral → Prop where
  | button : Reads payload 0x42 (.button (.ofBytes payload) (pullOf payload))
  | switch : Reads payload 0x53 (.switch (.ofBytes payload) (pullOf payload))
  | statusLed : Reads payload 0x4C (.statusLed (.ofBytes payload) (activeHighOf payload))
  | indicatorLed : Reads payload 0x49 (.indicatorLed (.ofBytes payload) (activeHighOf payload))
  | relay : Reads payload 0x52 (.relay (.ofBytes payload) (offPinOf? payload))
  | imageType : Reads payload 0x69 (.imageType (leadingNumber payload))
  | momentarySwitches : Reads payload 0x4D .momentarySwitches

/--
The bytes of a payload that anything is read from behind a tag.
-/
def decoded (tag : UInt8) (payload : Bytes) : Bytes :=
  if tag = 0x4D then []
  else if tag = 0x69 then payload.takeWhile Bytes.isDigit
  else if tag = 0x52 then payload.take 4
  else payload.take 3

variable {entry : Entry} {tag : UInt8} {payload other : Bytes} {peripheral : Peripheral}

theorem ofEntry?_eq_some_iff (h : ¬ entry.startsWith simultaneousMark = true) :
    ofEntry? entry = some peripheral ↔ Reads entry.payload entry.tag peripheral := by
  constructor
  . intro hread
    unfold ofEntry? at hread
    grind [Reads]
  . intro hread
    unfold ofEntry?
    rw [if_neg h]
    generalize entry.tag = tag at hread ⊢
    cases hread <;> rfl

theorem exists_reads_iff : (∃ peripheral, Reads payload tag peripheral) ↔ tag ∈ tags := by
  have htags : tags = [0x42, 0x53, 0x4C, 0x49, 0x52, 0x69, 0x4D] := by decide
  rw [htags]
  constructor
  . rintro ⟨peripheral, h⟩
    cases h <;> decide
  . intro h
    simp only [List.mem_cons, List.not_mem_nil, or_false] at h
    obtain rfl | rfl | rfl | rfl | rfl | rfl | rfl := h
    . exact ⟨_, .button⟩
    . exact ⟨_, .switch⟩
    . exact ⟨_, .statusLed⟩
    . exact ⟨_, .indicatorLed⟩
    . exact ⟨_, .relay⟩
    . exact ⟨_, .imageType⟩
    . exact ⟨_, .momentarySwitches⟩

theorem ofEntry?_eq_none_iff (h : ¬ entry.startsWith simultaneousMark = true) :
    ofEntry? entry = none ↔ entry.tag ∉ tags := by
  have htags : entry.tag ∈ tags ↔ ∃ peripheral, Reads entry.payload entry.tag peripheral :=
    exists_reads_iff.symm
  rw [htags, Option.eq_none_iff_forall_ne_some, not_exists]
  exact forall_congr' fun peripheral => not_congr (ofEntry?_eq_some_iff h)

/--
The terminator, which is found in place of the tag of the empty entry, is none of the tags.
-/
theorem tag_not_mem_tags_iff :
    entry.tag ∉ tags ↔ entry.bytes = [] ∨ ∃ tag rest, entry.bytes = tag :: rest ∧ tag ∉ tags := by
  obtain ⟨bytes⟩ := entry
  cases bytes with
  | nil =>
    have hnone : terminator ∉ tags := by decide
    simpa [Entry.tag, Entry.byteAt] using hnone
  | cons first rest => simp [Entry.tag, Entry.byteAt]

/-! ### What the fields are read from -/

theorem pullOf_eq_iff {pull : Pull} (h : pull ≠ .invalid) :
    pullOf payload = pull ↔ ∃ letter ∈ pull.letters, payload[2]? = some letter := by
  have hterminator : terminator ∉ pull.letters := by
    cases pull <;> decide
  rw [pullOf, Pull.ofByte_eq_iff h]
  cases payload[2]? with
  | none => simpa using hterminator
  | some letter => simp

theorem activeHighOf_eq_false_iff : activeHighOf payload = false ↔ payload[2]? = some 0x69 := by
  unfold activeHighOf
  cases payload[2]? with
  | none => decide
  | some letter => simp

theorem isSome_offPinOf?_iff : (offPinOf? payload).isSome = true ↔ 3 ≤ payload.length := by
  have hlength : (payload.drop 2).length = payload.length - 2 := List.length_drop
  unfold offPinOf?
  cases hdrop : payload.drop 2 with
  | nil =>
    rw [hdrop, List.length_nil] at hlength
    simp only [Option.isSome_none, Bool.false_eq_true, false_iff]
    omega
  | cons byte rest =>
    rw [hdrop, List.length_cons] at hlength
    simp only [Option.isSome_some, true_iff]
    omega

theorem offPinOf?_eq_some {offPin : Pin} (h : offPinOf? payload = some offPin) :
    offPin = .ofBytes (payload.drop 2) := by
  unfold offPinOf? at h
  grind

theorem third_congr (h : payload.take 3 = other.take 3) : payload[2]? = other[2]? := by
  rw [← List.getElem?_take_of_lt (by decide : 2 < 3), h, List.getElem?_take_of_lt (by decide)]

theorem pullOf_congr (h : payload.take 3 = other.take 3) : pullOf payload = pullOf other := by
  rw [pullOf, pullOf, third_congr h]

theorem activeHighOf_congr (h : payload.take 3 = other.take 3) :
    activeHighOf payload = activeHighOf other := by
  rw [activeHighOf, activeHighOf, third_congr h]

theorem offPinOf?_congr (h : payload.take 4 = other.take 4) : offPinOf? payload = offPinOf? other := by
  have hdrop : (payload.drop 2).take 2 = (other.drop 2).take 2 := by
    rw [List.take_drop, List.take_drop, h]
  unfold offPinOf?
  match hpayload : payload.drop 2, hother : other.drop 2 with
  | [], [] => rfl
  | [], _ :: _ | _ :: _, [] => simp [hpayload, hother] at hdrop
  | _ :: _, _ :: _ =>
    rw [hpayload, hother] at hdrop
    exact congrArg some (Pin.ofBytes_congr hdrop)

/--
The peripheral has its kind from the tag, and its fields from the payload behind it. A pin or a pull
that is not found there is invalid.
-/
structure FieldsFrom (peripheral : Peripheral) (entry : Entry) (tag : UInt8) (payload : Bytes) :
    Prop where
  kind : peripheral.tag? = some tag
  pin : ∀ pin ∈ peripheral.pin?, pin.SpelledBy (entry.Matches tag)
  latching : ∀ pin offPin?, peripheral = .relay pin offPin? →
    (offPin?.isSome = true ↔ 3 ≤ payload.length)
  offPin : ∀ pin offPin, peripheral = .relay pin (some offPin) →
    offPin.SpelledBy (· <+: payload.drop 2)
  pull : ∀ pull ∈ peripheral.pull?, ∀ asked ≠ .invalid,
    (pull = asked ↔ ∃ letter ∈ asked.letters, payload[2]? = some letter)
  polarity : ∀ high ∈ peripheral.activeHigh?, high = false ↔ payload[2]? = some 0x69
  imageType : ∀ value ∈ peripheral.imageType?, ∀ digits, Bytes.LeadingDigits payload digits →
    value.toNat = Bytes.number digits % 2 ^ 32

namespace Reads

theorem tag?_eq (h : Reads payload tag peripheral) : peripheral.tag? = some tag := by
  cases h <;> rfl

theorem pin_eq {pin : Pin} (h : Reads payload tag peripheral) (hpin : pin ∈ peripheral.pin?) :
    pin = .ofBytes payload := by
  cases h <;> cases hpin <;> rfl

theorem pull_eq {pull : Pull} (h : Reads payload tag peripheral) (hpull : pull ∈ peripheral.pull?) :
    pull = pullOf payload := by
  cases h <;> cases hpull <;> rfl

theorem activeHigh_eq {high : Bool} (h : Reads payload tag peripheral)
    (hhigh : high ∈ peripheral.activeHigh?) : high = activeHighOf payload := by
  cases h <;> cases hhigh <;> rfl

theorem imageType_eq {value : UInt32} (h : Reads payload tag peripheral)
    (hvalue : value ∈ peripheral.imageType?) : value = leadingNumber payload := by
  cases h <;> cases hvalue
  rfl

theorem offPin?_eq {pin : Pin} {offPin? : Option Pin} (h : Reads payload tag (.relay pin offPin?)) :
    offPin? = offPinOf? payload := by
  cases h
  rfl

theorem fieldsFrom (h : Reads payload tag peripheral) (hentry : entry.LaidOut tag payload) :
    peripheral.FieldsFrom entry tag payload where
  kind := h.tag?_eq
  pin := by
    intro pin hpin
    rw [h.pin_eq hpin]
    exact Pin.spelledBy_of_line_iff fun _ _ => hentry.ofBytes_eq_line_iff
  latching := by
    rintro pin offPin? rfl
    rw [h.offPin?_eq, isSome_offPinOf?_iff]
  offPin := by
    rintro pin offPin rfl
    rw [offPinOf?_eq_some h.offPin?_eq.symm]
    exact Pin.spelledBy_of_line_iff fun _ _ => Pin.ofBytes_eq_line_iff
  pull := by
    intro pull hpull asked hasked
    rw [h.pull_eq hpull, pullOf_eq_iff hasked]
  polarity := by
    intro high hhigh
    rw [h.activeHigh_eq hhigh, activeHighOf_eq_false_iff]
  imageType := by
    intro value hvalue digits hdigits
    rw [h.imageType_eq hvalue, toNat_leadingNumber hdigits]

theorem congr (h : Reads payload tag peripheral) (hdecoded : decoded tag payload = decoded tag other) :
    Reads other tag peripheral := by
  have hpin (n : Nat) (htake : payload.take (2 + n) = other.take (2 + n)) :
      Pin.ofBytes payload = Pin.ofBytes other := by
    apply Pin.ofBytes_congr
    have htwo := congrArg (List.take 2) htake
    rwa [List.take_take, List.take_take, Nat.min_eq_left (Nat.le_add_right 2 n)] at htwo
  cases h with
  | button =>
    have htake : payload.take 3 = other.take 3 := hdecoded
    rw [hpin 1 htake, pullOf_congr htake]
    exact .button
  | switch =>
    have htake : payload.take 3 = other.take 3 := hdecoded
    rw [hpin 1 htake, pullOf_congr htake]
    exact .switch
  | statusLed =>
    have htake : payload.take 3 = other.take 3 := hdecoded
    rw [hpin 1 htake, activeHighOf_congr htake]
    exact .statusLed
  | indicatorLed =>
    have htake : payload.take 3 = other.take 3 := hdecoded
    rw [hpin 1 htake, activeHighOf_congr htake]
    exact .indicatorLed
  | relay =>
    have htake : payload.take 4 = other.take 4 := hdecoded
    rw [hpin 2 htake, offPinOf?_congr htake]
    exact .relay
  | imageType =>
    have hdigits : payload.takeWhile Bytes.isDigit = other.takeWhile Bytes.isDigit := hdecoded
    have hnumber : leadingNumber payload = leadingNumber other := by
      rw [leadingNumber, leadingNumber, hdigits]
    rw [hnumber]
    exact .imageType
  | momentarySwitches => exact .momentarySwitches

end Reads

/--
Entries are read by their grammar, and by nothing else. One is the mark of simultaneous pulses if it
starts with it; any other describes nothing if it is empty or has an unknown tag, and otherwise has its
kind from the tag and its fields from what stands behind the tag and any number of spaces. Beside the
mark, two entries with the same tag mean the same if they agree on the bytes that are decoded.
-/
theorem read_by_grammar :
    (∀ entry, ofEntry? entry = some .simultaneousPulses ↔ simultaneousMark <+: entry.bytes)
      ∧ (∀ entry : Entry, ¬ simultaneousMark <+: entry.bytes →
        ((entry.bytes = [] ∨ ∃ tag rest, entry.bytes = tag :: rest ∧ tag ∉ tags)
            ↔ ofEntry? entry = none)
          ∧ ∀ peripheral, ofEntry? entry = some peripheral →
            ∃ tag payload, entry.LaidOut tag payload ∧ peripheral.FieldsFrom entry tag payload)
      ∧ ∀ (entry other : Entry) (tag : UInt8) (payload payload' : Bytes),
        ¬ simultaneousMark <+: entry.bytes → ¬ simultaneousMark <+: other.bytes →
        entry.LaidOut tag payload → other.LaidOut tag payload' →
        decoded tag payload = decoded tag payload' → ofEntry? entry = ofEntry? other := by
  have hstarts (entry : Entry) :
      entry.startsWith simultaneousMark = true ↔ simultaneousMark <+: entry.bytes :=
    List.isPrefixOf_iff_prefix
  refine ⟨?_, ?_, ?_⟩
  . intro entry
    rw [ofEntry?_eq_simultaneousPulses, hstarts]
  . intro entry hmark
    rw [← hstarts] at hmark
    refine ⟨by rw [ofEntry?_eq_none_iff hmark, tag_not_mem_tags_iff], ?_⟩
    intro peripheral hread
    have hne : entry.bytes ≠ [] := by
      intro hempty
      have hnone := (ofEntry?_eq_none_iff hmark).mpr (tag_not_mem_tags_iff.mpr (.inl hempty))
      rw [hnone] at hread
      cases hread
    rw [ofEntry?_eq_some_iff hmark] at hread
    exact ⟨_, _, Entry.laidOut_self hne, hread.fieldsFrom (Entry.laidOut_self hne)⟩
  . intro entry other tag payload payload' hentryMark hotherMark hentry hother hdecoded
    rw [← hstarts] at hentryMark hotherMark
    apply Option.ext
    intro peripheral
    rw [ofEntry?_eq_some_iff hentryMark, ofEntry?_eq_some_iff hotherMark, hentry.tag_eq,
      hentry.payload_eq, hother.tag_eq, hother.payload_eq]
    exact ⟨fun h => h.congr hdecoded, fun h => h.congr hdecoded.symm⟩

theorem relay_read_by_grammar :
    let entry : Entry := ⟨Bytes.ascii "R  C2A0x"⟩
    let plain : Entry := ⟨Bytes.ascii "RC2A0"⟩
    ofEntry? entry = ofEntry? plain
      ∧ ∃ peripheral, ofEntry? entry = some peripheral
        ∧ peripheral.FieldsFrom entry 0x52 (Bytes.ascii "C2A0x")
        ∧ (∃ spaces rest, entry.bytes
          = 0x52 :: (List.replicate spaces 0x20 ++ (Pin.spelling 2 2 ++ rest))) := by
  intro entry plain
  obtain ⟨_, hread, hsame⟩ := read_by_grammar
  have hentry : entry.LaidOut 0x52 (Bytes.ascii "C2A0x") := ⟨⟨2, by decide⟩, by decide⟩
  have hplain : plain.LaidOut 0x52 (Bytes.ascii "C2A0") := ⟨⟨0, by decide⟩, by decide⟩
  have hmark : ¬ simultaneousMark <+: entry.bytes := by decide
  have hsome : ofEntry? entry = some (.relay (.line 2 2) (some (.line 0 0))) := by decide
  obtain ⟨tag, payload, hlaid, hfields⟩ := (hread entry hmark).2 _ hsome
  rw [← hlaid.tag_eq, ← hlaid.payload_eq, hentry.tag_eq, hentry.payload_eq] at hfields
  exact ⟨hsame entry plain 0x52 _ _ hmark (by decide) hentry hplain (by decide), _, hsome, hfields,
    ((hfields.pin _ rfl).line 2 2).mp rfl⟩

end Peripheral

end WallSwitch
