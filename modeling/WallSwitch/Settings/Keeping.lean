import WallSwitch.Board.Basic
import WallSwitch.Checksum
import WallSwitch.Settings.Record

/-!
This module contains the keeping of records in the settings memory: each in its written form, with
the checksum of that behind it.
-/

namespace WallSwitch

namespace Record

variable {α : Type} [Record α]

def maxLength : Nat := 128

def item? (record : α) : Option Bytes :=
  let body := encode record
  if body.length ≤ maxLength then some (Checksum.close body) else none

def ofItem? (item : Bytes) : Option α := do
  let body ← Checksum.open? item
  decode? body

def save (key : Nat) (record : α) : List Command :=
  (item? record).toList.map fun item => .save key item

end Record

namespace Board

def saveRecord {α : Type} [Record α] (board : Board) (key : Nat) (record : α) :
    Option Fault × Board :=
  match Record.item? record with
  | none => (some (.store .full), board)
  | some item => board.attempt (.save key item)

def loadRecord (board : Board) (α : Type) [Record α] (key : Nat) : Except StoreError α × Board :=
  let (answer, board) := board.load key (Record.maxLength + Checksum.sealLength)
  let record := do
    let item ← answer
    match Record.ofItem? item with
    | some record => .ok record
    | none => .error .corrupted
  (record, board)

end Board

end WallSwitch
