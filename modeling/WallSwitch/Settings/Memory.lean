import WallSwitch.Settings.Store

/-!
This module contains the settings memory of a board: a store of which parts may be broken.
-/

namespace WallSwitch

/--
A store, and what cannot be done with it.
-/
structure SettingsMemory where
  store : Store
  /-- The keys that cannot be read. -/
  unreadable : List Nat
  /-- The keys that cannot be written. -/
  unwritable : List Nat
  /-- Whether the memory cannot be erased. -/
  unerasable : Bool
deriving DecidableEq, Repr

namespace SettingsMemory

def sound (store : Store) : SettingsMemory :=
  ⟨store, [], [], false⟩

def read (memory : SettingsMemory) (key room : Nat) : Except StoreError Bytes :=
  if memory.unreadable.contains key then .error .readError else memory.store.read key room

def write (memory : SettingsMemory) (key : Nat) (item : Bytes) :
    Except StoreError SettingsMemory :=
  if memory.unwritable.contains key then
    .error .writeError
  else
    (memory.store.write key item).map fun store => { memory with store := store }

def erase (memory : SettingsMemory) : Except StoreError SettingsMemory :=
  if memory.unerasable then
    .error .writeError
  else
    .ok { memory with store := memory.store.clear }

end SettingsMemory

end WallSwitch
