/-!
This module contains the keys under which a device keeps its settings.
-/

namespace WallSwitch

namespace Key

def version : Nat := 1

def config : Nat := 2

def basic : Nat := 3

def switch (index : Nat) : Nat := basic + 1 + index

/-- The state of the relay at this index, behind the places of five switches. -/
def relay (index : Nat) : Nat := basic + 1 + 5 + index

def role : Nat := 32

end Key

end WallSwitch
