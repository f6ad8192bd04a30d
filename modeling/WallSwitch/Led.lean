import WallSwitch.Board.Command

/-!
This module contains LEDs.
-/

namespace WallSwitch

namespace Led

def levelFor (led : Led) (lit : Bool) : Bool :=
  lit == led.activeHigh

def drive (led : Led) (lit : Bool) : List Command :=
  [.write led.pin (led.levelFor lit)]

def setUp (led : Led) : List Command :=
  .configure led.pin .output :: led.drive false

end Led

end WallSwitch
