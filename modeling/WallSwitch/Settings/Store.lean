import WallSwitch.Bytes

/-!
This module contains the store for settings: a limited number of items of limited size, each under
a key.
-/

namespace WallSwitch

inductive StoreError where
  /-- There is no item under the key. -/
  | notFound
  | readError
  | writeError
  /-- The item does not fit the memory that it is read into. -/
  | sizeMismatch
  /-- There is no room for the item. -/
  | full
  /-- The item is not what was written, or not a record of the kind asked for. -/
  | corrupted
deriving DecidableEq, Repr

def StoreError.message : StoreError → String
  | .notFound => "NotFound"
  | .readError => "ReadError"
  | .writeError => "WriteError"
  | .sizeMismatch => "SizeMismatch"
  | .full => "Full"
  | .corrupted => "Corrupted"

/--
A store of at most `maxItems` items of at most `maxLength` bytes.
-/
structure Store where
  maxItems : Nat
  maxLength : Nat
  /-- The items with their keys, the first written first. -/
  items : List (Nat × Bytes)
deriving DecidableEq, Repr

namespace Store

def empty (maxItems maxLength : Nat) : Store :=
  ⟨maxItems, maxLength, []⟩

def get? (store : Store) (key : Nat) : Option Bytes :=
  store.items.lookup key

def contains (store : Store) (key : Nat) : Bool :=
  (store.get? key).isSome

def size (store : Store) : Nat :=
  store.items.length

def keys (store : Store) : List Nat :=
  store.items.map (·.1)

def read (store : Store) (key room : Nat) : Except StoreError Bytes :=
  match store.get? key with
  | none => .error .notFound
  | some item => if item.length ≤ room then .ok item else .error .sizeMismatch

/--
Puts `item` in the place of the item under `key`, or behind all items if there is none.
-/
def put (key : Nat) (item : Bytes) : List (Nat × Bytes) → List (Nat × Bytes)
  | [] => [(key, item)]
  | (other, old) :: items =>
    if other = key then (key, item) :: items else (other, old) :: put key item items

/--
Writes `item` under `key`. An item that is there already can be replaced even if the store is full.
-/
def write (store : Store) (key : Nat) (item : Bytes) : Except StoreError Store :=
  if item.length ≤ store.maxLength ∧ (store.contains key ∨ store.size < store.maxItems) then
    .ok { store with items := put key item store.items }
  else
    .error .full

def clear (store : Store) : Store :=
  { store with items := [] }

end Store

end WallSwitch
