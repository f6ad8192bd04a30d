import WallSwitch.Proofs.ConfigText.Reference

/-!
This module contains the proof that a reader splits a text exactly. Any number of entries that it
takes are the segments of the text in order, and the text can be told from them again. What it went
over is the front of the text, of which only delimiters are overwritten.
-/

namespace WallSwitch

/-! ### Segments -/

section

variable {delimiter : UInt8} {bytes : Bytes}

theorem segments_induction (delimiter : UInt8) {P : Bytes → Prop} (nil : P [])
    (last : ∀ bytes, delimiter ∉ bytes → bytes ≠ [] → P bytes)
    (delimited : ∀ head tail, delimiter ∉ head → P tail → P (head ++ delimiter :: tail))
    (bytes : Bytes) : P bytes := by
  induction hlength : bytes.length using Nat.strong_induction_on generalizing bytes with
  | _ n ih =>
    by_cases hmem : delimiter ∈ bytes
    . obtain ⟨head, tail, rfl, hhead⟩ := List.eq_append_cons_of_mem hmem
      apply delimited head tail hhead
      apply ih tail.length _ tail rfl
      rw [← hlength, List.length_append, List.length_cons]
      omega
    . by_cases hne : bytes = []
      . rw [hne]
        exact nil
      . exact last bytes hmem hne

theorem not_mem_of_mem_segments :
    ∀ segment ∈ segments delimiter bytes, delimiter ∉ segment := by
  induction bytes using segments_induction delimiter with
  | nil => simp
  | last bytes hbytes hne =>
    rw [segments_of_not_mem hbytes hne]
    simpa using hbytes
  | delimited head tail hhead ih =>
    rw [segments_append_cons hhead]
    exact List.forall_mem_cons.mpr ⟨hhead, ih⟩

theorem segments_eq_nil_iff : segments delimiter bytes = [] ↔ bytes = [] := by
  cases bytes using segments_induction delimiter with
  | nil => simp
  | last bytes hbytes hne => simp [segments_of_not_mem hbytes hne, hne]
  | delimited head tail hhead _ => simp [segments_append_cons hhead]

def lastDelimiter (delimiter : UInt8) (bytes : Bytes) : Bytes :=
  if bytes.getLast? = some delimiter then [delimiter] else []

theorem lastDelimiter_of_not_mem (h : delimiter ∉ bytes) : lastDelimiter delimiter bytes = [] :=
  if_neg fun hlast => h (List.mem_of_getLast? hlast)

theorem lastDelimiter_append_cons (head : Bytes) {tail : Bytes} (h : tail ≠ []) :
    lastDelimiter delimiter (head ++ delimiter :: tail) = lastDelimiter delimiter tail := by
  unfold lastDelimiter
  rw [List.getLast?_append, List.getLast?_cons_of_ne_nil h, List.getLast?_eq_some_getLast h,
    Option.some_or]

theorem intercalate_segments :
    [delimiter].intercalate (segments delimiter bytes) ++ lastDelimiter delimiter bytes = bytes := by
  induction bytes using segments_induction delimiter with
  | nil => rfl
  | last bytes hbytes hne =>
    rw [segments_of_not_mem hbytes hne, lastDelimiter_of_not_mem hbytes]
    simp
  | delimited head tail hhead ih =>
    rw [segments_append_cons hhead]
    by_cases htail : tail = []
    . subst htail
      simp [lastDelimiter]
    . rw [lastDelimiter_append_cons head htail,
        List.intercalate_cons_of_ne_nil (mt segments_eq_nil_iff.mp htail), List.append_assoc,
        List.append_assoc, ih]
      rfl

end

/-! ### Taking entries -/

namespace TextReader

def wear (delimiter byte : UInt8) : UInt8 :=
  if byte = delimiter then terminator else byte

theorem map_wear_of_not_mem {delimiter : UInt8} {bytes : Bytes} (h : delimiter ∉ bytes) :
    bytes.map (wear delimiter) = bytes := by
  have hkept : bytes.map (wear delimiter) = bytes.map id := by
    apply List.map_congr_left
    intro byte hmem
    apply if_neg
    rintro rfl
    exact h hmem
  rw [hkept, List.map_id]

theorem take_fst_succ (n : Nat) (reader : TextReader) :
    (take (n + 1) reader).1 = reader.next.1 :: (take n reader.next.2).1 := rfl

/--
A reader that took `n` entries went over `front`, which holds these entries with a delimiter behind
each, as far as there were delimiters, and has `back` ahead.
-/
structure Passes (reader : TextReader) (n : Nat) (front back : Bytes) : Prop where
  rest : reader.rest = front ++ back
  state : (take n reader).2
    = ⟨reader.delimiter, reader.past ++ front.map (wear reader.delimiter), back⟩
  delimiters : front.count reader.delimiter = min n (reader.rest.count reader.delimiter)
  length : front.length
    = ((take n reader).1.flatMap Entry.bytes).length + front.count reader.delimiter

variable {reader : TextReader} {n : Nat} {front back head tail : Bytes}

theorem Passes.last (hnext : reader.next
      = (⟨reader.rest⟩, ⟨reader.delimiter, reader.past ++ reader.rest, []⟩))
    (h : reader.delimiter ∉ reader.rest) (hlater : reader.next.2.Passes n front back) :
    reader.Passes (n + 1) reader.rest [] := by
  rw [hnext] at hlater
  -- Nothing is ahead, so nothing was passed after this entry.
  obtain ⟨rfl, rfl⟩ := List.append_eq_nil_iff.mp hlater.rest.symm
  constructor
  . rw [List.append_nil]
  . rw [take_snd_succ, hnext, hlater.state, map_wear_of_not_mem h]
    simp
  . rw [List.count_eq_zero.mpr h, Nat.min_zero]
  . have hlength := hlater.length
    rw [List.length_nil, List.count_nil] at hlength
    rw [take_fst_succ, hnext, List.count_eq_zero.mpr h, List.flatMap_cons, List.length_append]
    dsimp only at hlength ⊢
    omega

theorem Passes.delimited (hnext : reader.next
      = (⟨head⟩, ⟨reader.delimiter, reader.past ++ head ++ [terminator], tail⟩))
    (h : reader.delimiter ∉ head) (hrest : reader.rest = head ++ reader.delimiter :: tail)
    (hlater : reader.next.2.Passes n front back) :
    reader.Passes (n + 1) (head ++ reader.delimiter :: front) back := by
  rw [hnext] at hlater
  obtain ⟨hsplit, hstate, hdelimiters, hlength⟩ := hlater
  dsimp only at hsplit hstate hdelimiters hlength
  constructor
  . rw [hrest, hsplit, List.append_assoc, List.cons_append]
  . rw [take_snd_succ, hnext, hstate, List.map_append, List.map_cons, map_wear_of_not_mem h]
    simp [wear]
  . simp only [hrest, List.count_append, List.count_eq_zero.mpr h, List.count_cons_self, hdelimiters]
    omega
  . simp only [take_fst_succ, hnext, List.length_append, List.length_cons, List.flatMap_cons,
      List.count_append, List.count_eq_zero.mpr h, List.count_cons_self]
    omega

theorem exists_passes (n : Nat) : ∀ reader : TextReader, ∃ front back, reader.Passes n front back := by
  induction n with
  | zero =>
    intro reader
    exact ⟨[], reader.rest, rfl, by simp [take], by simp, by simp [take]⟩
  | succ n ih =>
    intro reader
    obtain ⟨front, back, hlater⟩ := ih reader.next.2
    have htakes := reader.takes_next
    generalize hnext : reader.next = next at htakes
    obtain ⟨entry, next⟩ := next
    cases htakes with
    | last h => exact ⟨_, _, Passes.last hnext h hlater⟩
    | delimited h hrest => exact ⟨_, _, Passes.delimited hnext h hrest hlater⟩

theorem Passes.cursor {text : Bytes} {delimiter : UInt8}
    (h : (start text delimiter).Passes n front back) :
    ((start text delimiter).take n).2.cursor = front.length := by
  unfold TextReader.cursor
  rw [h.state]
  simp [start]

/-! ### Entries -/

theorem ahead_eq_nil_iff : reader.ahead = [] ↔ reader.isExhausted = true := by
  unfold ahead isExhausted
  rw [List.map_eq_nil_iff, segments_eq_nil_iff, List.isEmpty_iff]

theorem ahead_take (n : Nat) : ∀ reader : TextReader,
    (take n reader).2.ahead = reader.ahead.drop n := by
  induction n with
  | zero =>
    intro reader
    rfl
  | succ n ih =>
    intro reader
    rw [take_snd_succ, ih, reader.takes_next.ahead_eq, List.drop_tail]

theorem entries_take (n : Nat) : ∀ reader : TextReader,
    (take n reader).1
      =
    reader.ahead.take n ++ List.replicate (n - reader.ahead.length) ⟨[]⟩ := by
  induction n with
  | zero =>
    intro reader
    simp [take]
  | succ n ih =>
    intro reader
    rw [take_fst_succ, ih, reader.takes_next.entry_eq, reader.takes_next.ahead_eq]
    cases reader.ahead with
    | nil => simp [List.replicate_succ]
    | cons entry entries => simp

theorem next_of_isExhausted (h : reader.isExhausted = true) : reader.next = (⟨[]⟩, reader) := by
  obtain ⟨delimiter, past, rest⟩ := reader
  have hrest : rest = [] := List.isEmpty_iff.mp h
  subst hrest
  simp [next]

theorem length_next_lt (h : reader.isExhausted = false) :
    reader.next.2.rest.length < reader.rest.length := by
  have htakes := reader.takes_next
  have hpos : 0 < reader.rest.length :=
    List.length_pos_iff.mpr (List.isEmpty_eq_false_iff.mp h)
  generalize reader.next = next at htakes
  obtain ⟨entry, next⟩ := next
  cases htakes with
  | last _ => exact hpos
  | delimited _ hrest =>
    rw [hrest, List.length_append, List.length_cons]
    dsimp only
    omega

theorem go_eq_take (fuel : Nat) : ∀ reader : TextReader, reader.rest.length ≤ fuel →
    drain.go fuel reader = reader.take reader.ahead.length := by
  induction fuel with
  | zero =>
    intro reader hfuel
    have hexhausted : reader.isExhausted = true :=
      List.isEmpty_iff.mpr (List.length_eq_zero_iff.mp (Nat.le_zero.mp hfuel))
    rw [ahead_eq_nil_iff.mpr hexhausted]
    rfl
  | succ fuel ih =>
    intro reader hfuel
    unfold drain.go next?
    cases hexhausted : reader.isExhausted with
    | true =>
      rw [ahead_eq_nil_iff.mpr hexhausted]
      rfl
    | false =>
      have hlt := length_next_lt hexhausted
      have hlength : reader.ahead.length = reader.next.2.ahead.length + 1 := by
        rw [reader.takes_next.ahead_eq, List.length_tail]
        have hpos : 0 < reader.ahead.length := by
          rw [List.length_pos_iff, ne_eq, ahead_eq_nil_iff, hexhausted]
          simp
        omega
      have hrest := ih reader.next.2 (by omega)
      rw [if_neg (by simp), hlength]
      dsimp only
      rw [hrest]
      rfl

theorem drain_eq_take (reader : TextReader) : reader.drain = reader.take reader.ahead.length :=
  go_eq_take _ reader (Nat.le_refl _)

/--
A reader yields the segments of a text, each once and in order, and then stops; together with their
delimiters they are the text. After any number of entries the cursor is behind these entries and as
many delimiters, which are overwritten in the text and are all that is. The reader is at its end when
the cursor is at that of the text, and then further entries are empty and leave it as it is.
-/
theorem splits_exactly (text : Bytes) (delimiter : UInt8) :
    let reader := start text delimiter
    let entries := reader.drain.1.map Entry.bytes
    entries = segments delimiter text
      ∧ reader.drain = reader.take entries.length
      ∧ (∀ entry ∈ entries, delimiter ∉ entry)
      ∧ [delimiter].intercalate entries ++ lastDelimiter delimiter text = text
      ∧ ∀ n,
        let taken := reader.take n
        let cursor := taken.2.cursor
        let consumed := min n (text.count delimiter)
        taken.1.map Entry.bytes = entries.take n ++ List.replicate (n - entries.length) []
          ∧ cursor = (taken.1.flatMap Entry.bytes).length + consumed
          ∧ (text.take cursor).count delimiter = consumed
          ∧ taken.2.text = (text.take cursor).map (wear delimiter) ++ text.drop cursor
          ∧ (taken.2.isExhausted = true ↔ cursor = text.length)
          ∧ (taken.2.isExhausted = true ↔ entries.length ≤ n)
          ∧ (taken.2.isExhausted = true → taken.2.next = (⟨[]⟩, taken.2)) := by
  intro reader entries
  have hlength : reader.ahead.length = (segments delimiter text).length := List.length_map _
  have hahead : reader.ahead.map Entry.bytes = segments delimiter text := by
    unfold ahead
    rw [List.map_map]
    exact List.map_id _
  have hentries : entries = segments delimiter text := by
    unfold entries
    rw [drain_eq_take, entries_take]
    simpa using hahead
  refine ⟨hentries, ?_, ?_, ?_, ?_⟩
  . rw [hentries, ← hlength]
    exact drain_eq_take reader
  . rw [hentries]
    exact not_mem_of_mem_segments
  . rw [hentries]
    exact intercalate_segments
  . intro n taken cursor consumed
    obtain ⟨front, back, hpasses⟩ := exists_passes n reader
    have htext : text = front ++ back := hpasses.rest
    have hcursor : cursor = front.length := hpasses.cursor
    have hback : taken.2.rest = back := congrArg TextReader.rest hpasses.state
    refine ⟨?_, ?_, ?_, ?_, ?_, ?_, next_of_isExhausted⟩
    . unfold taken
      rw [entries_take, hentries, hlength, ← hahead]
      simp
    . rw [hcursor, hpasses.length, hpasses.delimiters]
      rfl
    . rw [hcursor, htext, List.take_left]
      exact hpasses.delimiters
    . rw [hcursor, htext, List.take_left, List.drop_left]
      unfold TextReader.text taken
      rw [hpasses.state]
      rfl
    . unfold isExhausted
      rw [hback, hcursor, htext, List.isEmpty_iff, List.length_append, ← List.length_eq_zero_iff]
      omega
    . unfold taken
      rw [← ahead_eq_nil_iff, ahead_take, List.drop_eq_nil_iff, hlength, hentries]

theorem splits_exactly_without_last_delimiter :
    let reader := start (Bytes.ascii "a;;bc") ConfigText.delimiter
    let taken := reader.take 3
    reader.drain.1.map Entry.bytes = [Bytes.ascii "a", [], Bytes.ascii "bc"]
      ∧ taken.2.cursor = 5 ∧ taken.2.text = Bytes.ascii "a\x00\x00bc"
      ∧ taken.2.isExhausted = true ∧ taken.2.next = (⟨[]⟩, taken.2) := by
  intro reader taken
  obtain ⟨hentries, _, _, _, htaken⟩ :=
    splits_exactly (Bytes.ascii "a;;bc") ConfigText.delimiter
  obtain ⟨_, _, _, htext, _, _, hnext⟩ := htaken 3
  have hexhausted : taken.2.isExhausted = true := by decide
  exact ⟨hentries.trans (by decide), by decide, htext.trans (by decide), hexhausted,
    hnext hexhausted⟩

end TextReader

end WallSwitch
