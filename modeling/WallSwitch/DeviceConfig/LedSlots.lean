/-!
This module contains the places that the configuration of a device assigns LEDs to.
-/

namespace WallSwitch

/--
Places that LEDs, given by their position, are assigned to one after the other.
-/
abbrev LedSlots (n : Nat) := Vector (Option Nat) n

namespace LedSlots

variable {n : Nat}

def free (n : Nat) : LedSlots n :=
  Vector.replicate n none

def fillFirst (led : Nat) : List (Option Nat) → List (Option Nat)
  | [] => []
  | none :: slots => some led :: slots
  | some other :: slots => some other :: fillFirst led slots

@[simp]
theorem length_fillFirst (led : Nat) (slots : List (Option Nat)) :
    (fillFirst led slots).length = slots.length := by
  fun_induction fillFirst led slots with
  | case1 => rfl
  | case2 => rfl
  | case3 _ _ ih => simp [ih]

/--
Assigns `led` to the first free place. If there is none, it is not assigned.
-/
def assign (slots : LedSlots n) (led : Nat) : LedSlots n :=
  ⟨(fillFirst led slots.toList).toArray, by simp⟩

def only (n led : Nat) : LedSlots n :=
  (free n).assign led

end LedSlots

end WallSwitch
