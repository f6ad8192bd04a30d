import WallSwitch.Board.Basic

/-!
This module contains the contacts behind buttons and switches: whether they are closed, and the
changes that nobody has looked at yet.
-/

namespace WallSwitch

structure ContactEvent where
  /-- The index of the button that the contact belongs to. -/
  index : Nat
  closed : Bool
deriving DecidableEq, Repr

structure Contact where
  button : Button
  closed : Bool
deriving DecidableEq, Repr

namespace Contact

/--
Whether a contact is closed at this level of its pin. A contact that is pulled up closes to ground,
any other to supply.
-/
def closedAt (pull : Pull) (high : Bool) : Bool :=
  match pull with
  | .up => !high
  | .down | .floating | .invalid => high

end Contact

structure Contacts where
  contacts : List Contact
  /-- The changes to come, the first one first. -/
  queue : List ContactEvent
deriving DecidableEq, Repr

namespace Contacts

/--
The most changes that are kept. Later ones are lost.
-/
def queueLength : Nat := 8

def ofConfig (config : DeviceConfig) : Contacts where
  contacts := config.buttons.map fun button => ⟨button, false⟩
  queue := []

def setUpAll (board : Board) : List Contact → List Contact × Board
  | [] => ([], board)
  | contact :: more =>
    let board := board.perform (.configure contact.button.pin (.input contact.button.pull))
    let (high, board) := board.read contact.button.pin
    let (more, board) := setUpAll board more
    ({ contact with closed := Contact.closedAt contact.button.pull high } :: more, board)

def setUp (contacts : Contacts) (board : Board) : Contacts × Board :=
  let (list, board) := setUpAll board contacts.contacts
  ({ contacts with contacts := list }, board)

def size (contacts : Contacts) : Nat :=
  contacts.contacts.length

def button? (contacts : Contacts) (i : Nat) : Option Button :=
  contacts.contacts[i]?.map (·.button)

def action? (contacts : Contacts) (i : Nat) : Option ButtonAction :=
  (contacts.button? i).map (·.action)

/--
Whether the contact of button `i` is closed. That of a button that does not exist is not.
-/
def isClosed (contacts : Contacts) (i : Nat) : Bool :=
  contacts.contacts[i]?.any (·.closed)

def enqueue (contacts : Contacts) (event : ContactEvent) : Contacts :=
  if contacts.queue.length < queueLength then
    { contacts with queue := contacts.queue ++ [event] }
  else
    contacts

def onLevel (contacts : Contacts) (i : Nat) (high : Bool) : Contacts :=
  match contacts.contacts[i]? with
  | none => contacts
  | some contact =>
    let closed := Contact.closedAt contact.button.pull high
    if closed = contact.closed then
      contacts
    else
      let list := contacts.contacts.set i { contact with closed := closed }
      enqueue { contacts with contacts := list } ⟨i, closed⟩

def next (contacts : Contacts) : Option ContactEvent × Contacts :=
  match contacts.queue with
  | [] => (none, contacts)
  | event :: queue => (some event, { contacts with queue := queue })

def drain (contacts : Contacts) : List ContactEvent × Contacts :=
  (contacts.queue, { contacts with queue := [] })

end Contacts

end WallSwitch
