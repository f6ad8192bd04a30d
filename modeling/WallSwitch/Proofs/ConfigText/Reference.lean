import WallSwitch.Blueprint
import WallSwitch.Proofs.ConfigText.Reading

/-!
This module contains the meaning of a configuration text, without a reader: the text is split into
its entries at once, and the blueprint is made from the list of them. Compiling a text in place
comes to the same.
-/

namespace WallSwitch

/--
The parts of a text in front of each delimiter, and what is behind the last one unless it is empty.
-/
def segments (delimiter : UInt8) (bytes : Bytes) : List Bytes :=
  let parts := bytes.splitOn delimiter
  if parts.getLast? = some [] then parts.dropLast else parts

def described (entries : List Entry) : List Peripheral :=
  (entries.takeWhile fun entry => !entry.isEmpty).filterMap Peripheral.ofEntry?

/--
What a list of entries amounts to. Entries that are missing are taken to be empty.
-/
def Blueprint.ofEntries (entries : List Entry) : Except ConfigError Blueprint := do
  let manufacturer ← DeviceConfig.nameOf (entries[0]?.getD ⟨[]⟩) .manufacturerTooLong
  let model ← DeviceConfig.nameOf (entries[1]?.getD ⟨[]⟩) .modelTooLong
  let named := { DeviceConfig.empty with manufacturer := manufacturer, model := model }
  let config ← (described (entries.drop 2)).foldlM DeviceConfig.add named
  let topology ← Topology.ofConfig config
  return ⟨config, topology⟩

def ConfigText.entries (text : ConfigText) : List Entry :=
  (segments ConfigText.delimiter text.bytes).map Entry.mk

/-! ### Segments -/

section

variable {delimiter : UInt8} {bytes : Bytes}

@[simp]
theorem segments_nil : segments delimiter [] = [] := by
  simp [segments]

theorem segments_of_not_mem (h : delimiter ∉ bytes) (hne : bytes ≠ []) :
    segments delimiter bytes = [bytes] := by
  unfold segments
  rw [List.splitOn_eq_singleton h]
  simp [hne]

theorem segments_append_cons {head : Bytes} (h : delimiter ∉ head) (tail : Bytes) :
    segments delimiter (head ++ delimiter :: tail) = head :: segments delimiter tail := by
  unfold segments
  rw [List.splitOn_append_cons_self_of_not_mem h]
  have hne : tail.splitOn delimiter ≠ [] := List.splitOn_ne_nil delimiter tail
  dsimp only
  rw [List.getLast?_cons_of_ne_nil hne, List.dropLast_cons_of_ne_nil hne]
  split <;> rfl

theorem mem_of_segment_eq_nil {k : Nat} (h : (segments delimiter bytes)[k]? = some []) :
    delimiter ∈ bytes := by
  by_cases hmem : delimiter ∈ bytes
  . exact hmem
  . by_cases hne : bytes = []
    . rw [hne, segments_nil] at h
      contradiction
    . rw [segments_of_not_mem hmem hne] at h
      cases k with
      | zero => exact absurd (Option.some.inj h) hne
      | succ k => contradiction

theorem exists_cut (k : Nat) :
    ∀ {bytes : Bytes}, (segments delimiter bytes)[k]? = some [] →
      ∃ first last, bytes = first ++ last ∧ ∀ more,
        segments delimiter (first ++ more)
          =
        (segments delimiter bytes).take (k + 1) ++ segments delimiter more := by
  induction k with
  | zero =>
    intro bytes h
    -- An empty segment is there because of the delimiter behind it, which is where to cut.
    obtain ⟨head, tail, rfl, hhead⟩ := List.eq_append_cons_of_mem (mem_of_segment_eq_nil h)
    refine ⟨head ++ [delimiter], tail, by simp, ?_⟩
    intro more
    rw [List.append_assoc, List.singleton_append, segments_append_cons hhead,
      segments_append_cons hhead]
    rfl
  | succ k ih =>
    intro bytes h
    obtain ⟨head, tail, rfl, hhead⟩ := List.eq_append_cons_of_mem (mem_of_segment_eq_nil h)
    rw [segments_append_cons hhead] at h ⊢
    obtain ⟨first, last, rfl, hfirst⟩ := ih h
    refine ⟨head ++ delimiter :: first, last, by simp, ?_⟩
    intro more
    rw [List.append_assoc, List.cons_append, segments_append_cons hhead, hfirst more]
    rfl

end

/-! ### Entries ahead of a reader -/

namespace TextReader

def ahead (reader : TextReader) : List Entry :=
  (segments reader.delimiter reader.rest).map Entry.mk

variable {reader next : TextReader} {entry : Entry}

theorem Takes.entry_eq (htakes : reader.Takes entry next) :
    entry = reader.ahead.head?.getD ⟨[]⟩ := by
  unfold ahead
  cases htakes with
  | last h =>
    by_cases hne : reader.rest = []
    . rw [hne, segments_nil]
      rfl
    . rw [segments_of_not_mem h hne]
      rfl
  | delimited h hrest =>
    rw [hrest, segments_append_cons h]
    rfl

theorem Takes.ahead_eq (htakes : reader.Takes entry next) : next.ahead = reader.ahead.tail := by
  unfold ahead
  cases htakes with
  | last h =>
    by_cases hne : reader.rest = []
    . rw [hne, segments_nil]
      rfl
    . rw [segments_of_not_mem h hne, segments_nil]
      rfl
  | delimited h hrest =>
    rw [hrest, segments_append_cons h]
    rfl

theorem Takes.length_lt (htakes : reader.Takes entry next) (h : entry.isEmpty = false) :
    next.rest.length < reader.rest.length := by
  cases htakes with
  | last _ =>
    rw [List.length_nil, List.length_pos_iff]
    intro hnil
    simp [Entry.isEmpty, hnil] at h
  | delimited _ hrest =>
    rw [hrest, List.length_append, List.length_cons]
    dsimp only
    omega

end TextReader

/-! ### Compiling -/

section

variable {entry : Entry} {entries : List Entry}

theorem described_of_isEmpty (h : entry.isEmpty = true) : described (entry :: entries) = [] := by
  simp [described, h]

theorem described_of_none (h : entry.isEmpty = false) (hnone : Peripheral.ofEntry? entry = none) :
    described (entry :: entries) = described entries := by
  simp [described, h, hnone]

theorem described_of_some {peripheral : Peripheral} (h : entry.isEmpty = false)
    (hsome : Peripheral.ofEntry? entry = some peripheral) :
    described (entry :: entries) = peripheral :: described entries := by
  simp [described, h, hsome]

theorem described_append_cons (front more : List Entry) :
    described (front ++ ⟨[]⟩ :: more) = described front := by
  induction front with
  | nil => rfl
  | cons entry front ih =>
    rw [List.cons_append]
    cases h : entry.isEmpty with
    | true => rw [described_of_isEmpty h, described_of_isEmpty h]
    | false =>
      cases hofEntry : Peripheral.ofEntry? entry with
      | none => rw [described_of_none h hofEntry, described_of_none h hofEntry, ih]
      | some peripheral => rw [described_of_some h hofEntry, described_of_some h hofEntry, ih]

end

namespace DeviceConfig

theorem go_eq_foldlM (fuel : Nat) :
    ∀ (config : DeviceConfig) (reader : TextReader), reader.rest.length < fuel →
      (addEntries.go fuel config reader).1 = (described reader.ahead).foldlM add config := by
  induction fuel with
  | zero =>
    intro config reader h
    contradiction
  | succ fuel ih =>
    intro config reader h
    -- The loop goes on only after an entry that is not empty, which uses up a byte.
    have htakes := reader.takes_next
    have hentry := htakes.entry_eq
    have hahead := htakes.ahead_eq
    unfold addEntries.go
    dsimp only
    cases hentries : reader.ahead with
    | nil =>
      rw [hentries] at hentry
      rw [hentry]
      rfl
    | cons entry entries =>
      rw [hentries] at hentry hahead
      replace hentry : reader.next.1 = entry := hentry
      replace hahead : reader.next.2.ahead = entries := hahead
      rw [hentry]
      cases hempty : entry.isEmpty with
      | true =>
        rw [described_of_isEmpty hempty]
        rfl
      | false =>
        rw [hentry] at htakes
        have hlt := htakes.length_lt hempty
        have hfuel : reader.next.2.rest.length < fuel := by omega
        rw [if_neg (by simp)]
        cases hofEntry : Peripheral.ofEntry? entry with
        | none =>
          rw [described_of_none hempty hofEntry, ← hahead]
          exact ih config reader.next.2 hfuel
        | some peripheral =>
          rw [described_of_some hempty hofEntry, List.foldlM_cons, ← hahead]
          dsimp only
          cases config.add peripheral with
          | error error => rfl
          | ok config' => exact ih config' reader.next.2 hfuel

end DeviceConfig

namespace ConfigText

theorem ahead_reader (text : ConfigText) : text.reader.ahead = text.entries := rfl

theorem compile_eq_ofEntries (text : ConfigText) :
    text.compile.1 = Blueprint.ofEntries text.entries := by
  have hfirst := text.reader.takes_next
  have hsecond := text.reader.next.2.takes_next
  have hmanufacturer : text.reader.next.1 = text.entries[0]?.getD ⟨[]⟩ := by
    rw [hfirst.entry_eq, ahead_reader, List.head?_eq_getElem?]
  have hmodel : text.reader.next.2.next.1 = text.entries[1]?.getD ⟨[]⟩ := by
    rw [hsecond.entry_eq, hfirst.ahead_eq, ahead_reader, List.head?_tail]
  have hrest : text.reader.next.2.next.2.ahead = text.entries.drop 2 := by
    rw [hsecond.ahead_eq, hfirst.ahead_eq, ahead_reader, ← List.drop_one, List.drop_tail]
  unfold compile Blueprint.ofEntries
  dsimp only
  rw [DeviceConfig.build_eq, ← hmanufacturer, ← hmodel, ← hrest]
  cases DeviceConfig.nameOf text.reader.next.1 .manufacturerTooLong with
  | error error => rfl
  | ok manufacturer =>
    cases DeviceConfig.nameOf text.reader.next.2.next.1 .modelTooLong with
    | error error => rfl
    | ok model =>
      -- Both ways start from the same names, so only the loop over the other entries is left.
      have hconfig : (DeviceConfig.addEntries
          { DeviceConfig.empty with manufacturer := manufacturer, model := model }
          text.reader.next.2.next.2).1
            =
          (described text.reader.next.2.next.2.ahead).foldlM DeviceConfig.add
            { DeviceConfig.empty with manufacturer := manufacturer, model := model } :=
        DeviceConfig.go_eq_foldlM _ _ _ (Nat.lt_succ_self _)
      dsimp only
      rw [hconfig]
      rfl

end ConfigText

theorem Blueprint.ofEntries_append {front : List Entry} (h : 2 ≤ front.length)
    (more : List Entry) :
    Blueprint.ofEntries (front ++ ⟨[]⟩ :: more) = Blueprint.ofEntries front := by
  have hmanufacturer : (front ++ ⟨[]⟩ :: more)[0]? = front[0]? :=
    List.getElem?_append_left (by omega)
  have hmodel : (front ++ ⟨[]⟩ :: more)[1]? = front[1]? :=
    List.getElem?_append_left (by omega)
  unfold Blueprint.ofEntries
  rw [hmanufacturer, hmodel, List.drop_append_of_le_length h, described_append_cons]

namespace ConfigText

/--
Compiling a text in place has the result that its entries have when the text is split at once, and
it does not depend on what is behind an empty entry in the third place or later.
-/
theorem compile_refines_ofEntries :
    (∀ text : ConfigText, text.compile.1 = Blueprint.ofEntries text.entries)
      ∧ ∀ (bytes : Bytes) (k : Nat), 2 ≤ k → (segments delimiter bytes)[k]? = some [] →
        ∃ first last, bytes = first ++ last
          ∧ segments delimiter first = (segments delimiter bytes).take (k + 1)
          ∧ ∀ more, (compile ⟨first ++ more⟩).1 = (compile ⟨bytes⟩).1 := by
  refine ⟨compile_eq_ofEntries, ?_⟩
  intro bytes k hk hempty
  obtain ⟨first, last, rfl, hfirst⟩ := exists_cut k hempty
  refine ⟨first, last, rfl, ?_, ?_⟩
  . have hnil := hfirst []
    rw [List.append_nil, segments_nil, List.append_nil] at hnil
    exact hnil
  . intro more
    have hlt : k < (segments delimiter (first ++ last)).length :=
      (List.getElem?_eq_some_iff.mp hempty).1
    have htake : (segments delimiter (first ++ last)).take (k + 1)
        = (segments delimiter (first ++ last)).take k ++ [[]] := by
      rw [List.take_add_one, hempty]
      rfl
    -- Only what is in front of the empty entry counts, and it is the same for both texts.
    have hentries (more : Bytes) : Blueprint.ofEntries (entries ⟨first ++ more⟩)
        = Blueprint.ofEntries (((segments delimiter (first ++ last)).take k).map Entry.mk) := by
      unfold entries
      rw [hfirst more, htake, List.append_assoc, List.map_append]
      apply Blueprint.ofEntries_append
      rw [List.length_map, List.length_take]
      omega
    rw [compile_eq_ofEntries, compile_eq_ofEntries, hentries more, hentries last]

theorem compile_refines_ofEntries_relay :
    let bytes := Bytes.ascii "a;b;RA0;;BB1"
    (segments delimiter bytes)[3]? = some []
      ∧ ∃ first last, bytes = first ++ last
        ∧ ∀ more, (compile ⟨first ++ more⟩).1 = (compile ⟨bytes⟩).1 := by
  intro bytes
  have hempty : (segments delimiter bytes)[3]? = some [] := by decide
  obtain ⟨first, last, hbytes, _, h⟩ := compile_refines_ofEntries.2 bytes 3 (by omega) hempty
  exact ⟨hempty, first, last, hbytes, h⟩

end ConfigText

end WallSwitch
