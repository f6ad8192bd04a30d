import WallSwitch.Entry

/-!
This module contains the reader that takes the entries out of a text one by one. It reads in place:
what it went over can be told from what lies ahead by the terminators in it.
-/

namespace WallSwitch

/--
A reader inside a text: `past` is what it went over, with the terminator written over each
delimiter, and `rest` is what lies ahead.
-/
structure TextReader where
  delimiter : UInt8
  past : Bytes
  rest : Bytes
deriving DecidableEq, Repr

namespace TextReader

def start (text : Bytes) (delimiter : UInt8) : TextReader :=
  ⟨delimiter, [], text⟩

def text (reader : TextReader) : Bytes :=
  reader.past ++ reader.rest

def cursor (reader : TextReader) : Nat :=
  reader.past.length

def isExhausted (reader : TextReader) : Bool :=
  reader.rest.isEmpty

/--
Takes the next entry and writes the terminator over the delimiter behind it. At the end of the text
the entry is empty.
-/
def next (reader : TextReader) : Entry × TextReader :=
  let head := reader.rest.takeWhile (· != reader.delimiter)
  match reader.rest.dropWhile (· != reader.delimiter) with
  | [] => (⟨head⟩, { reader with past := reader.past ++ head, rest := [] })
  | _ :: rest => (⟨head⟩, { reader with past := reader.past ++ head ++ [terminator], rest := rest })

def next? (reader : TextReader) : Option (Entry × TextReader) :=
  if reader.isExhausted then none else some reader.next

def take : Nat → TextReader → List Entry × TextReader
  | 0, reader => ([], reader)
  | n + 1, reader =>
    let (entry, reader) := reader.next
    let (entries, reader) := take n reader
    (entry :: entries, reader)

/--
Takes all entries that are left. Every one of them uses up a byte at least, so there are no more of
them than bytes.
-/
def drain (reader : TextReader) : List Entry × TextReader :=
  go reader.rest.length reader
where
  go : Nat → TextReader → List Entry × TextReader
    | 0, reader => ([], reader)
    | fuel + 1, reader =>
      match reader.next? with
      | none => ([], reader)
      | some (entry, reader) =>
        let (entries, reader) := go fuel reader
        (entry :: entries, reader)

end TextReader

end WallSwitch
