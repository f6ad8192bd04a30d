import WallSwitch.Pin

/-!
This module contains total maps from pins. The pins are finitely many, the invalid one included, so
a map is a vector with one cell for each of them and two maps are equal if they agree on all pins.
-/

namespace WallSwitch

namespace Pin

theorem cell_lt (port : Fin 4) (number : Fin 9) : 9 * port.val + number.val < 37 := by
  omega

/--
The cell of a pin in a `PinMap`: 36 cells for the lines and the last one for the invalid pin.
-/
def cell : Pin → Fin 37
  | .invalid => Fin.last 36
  | .line port number => ⟨9 * port.val + number.val, cell_lt port number⟩

def ofCell (i : Fin 37) : Pin :=
  if h : i.val < 36 then
    .line ⟨i / 9, by omega⟩ ⟨i % 9, by omega⟩
  else
    .invalid

@[simp]
theorem ofCell_cell (pin : Pin) : ofCell pin.cell = pin := by
  cases pin with
  | invalid => rfl
  | line port number =>
    have hlt : 9 * port.val + number.val < 36 := by omega
    have hdiv : (9 * port.val + number.val) / 9 = port.val := by omega
    have hmod : (9 * port.val + number.val) % 9 = number.val := by omega
    simp [ofCell, cell, hlt, hdiv, hmod]

@[simp]
theorem cell_ofCell (i : Fin 37) : (ofCell i).cell = i := by
  unfold ofCell
  split
  . apply Fin.ext
    simp only [cell]
    omega
  . apply Fin.ext
    have hlast : (cell .invalid).val = 36 := rfl
    omega

theorem cell_injective {p q : Pin} (h : p.cell = q.cell) : p = q := by
  rw [← ofCell_cell p, h, ofCell_cell]

end Pin

structure PinMap (α : Type) where
  cells : Vector α 37

namespace PinMap

variable {α : Type}

def const (a : α) : PinMap α :=
  ⟨Vector.replicate 37 a⟩

def get (m : PinMap α) (pin : Pin) : α :=
  m.cells[pin.cell]

def set (m : PinMap α) (pin : Pin) (a : α) : PinMap α :=
  ⟨m.cells.set pin.cell a⟩

@[simp]
theorem get_const (a : α) (pin : Pin) : (const a).get pin = a := by
  simp [const, get]

@[simp]
theorem get_set_self (m : PinMap α) (pin : Pin) (a : α) : (m.set pin a).get pin = a := by
  simp [set, get]

theorem get_set_of_ne (m : PinMap α) {p q : Pin} (a : α) (h : p ≠ q) :
    (m.set p a).get q = m.get q := by
  have hcell : p.cell.val ≠ q.cell.val := fun e => h (Pin.cell_injective (Fin.ext e))
  simp [set, get, Vector.getElem_set_ne _ _ hcell]

theorem get_set (m : PinMap α) (p q : Pin) (a : α) :
    (m.set p a).get q = if p = q then a else m.get q := by
  split
  . next h => rw [h, get_set_self]
  . next h => exact get_set_of_ne m a h

@[ext]
theorem ext {m n : PinMap α} (h : ∀ pin, m.get pin = n.get pin) : m = n := by
  cases m with
  | mk ms =>
    cases n with
    | mk ns =>
      congr 1
      apply Vector.ext
      intro i hi
      have := h (Pin.ofCell ⟨i, hi⟩)
      simpa [get] using this

end PinMap

end WallSwitch
