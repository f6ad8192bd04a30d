import WallSwitch.Device.Basic

/-!
This module contains what switches do. A toggle switch acts on every flip. A momentary switch reports
its presses; its relay and the devices bound to it follow at the stage of a press that its settings
name.
-/

namespace WallSwitch

namespace Controller

/-! ### Relays and bound devices -/

/--
Has a switch act on its relay. `closed?` is the position of a toggle switch; a press has none and
always toggles.
-/
def actOnRelay (switch : Switch) (closed? : Option Bool) : Step Controller :=
  match switch.relay? with
  | none => .skip
  | some relay =>
    match switch.action, closed? with
    | .onOff, some closed => setRelay relay closed
    | .offOn, some closed => setRelay relay !closed
    | _, _ => toggleRelay relay

def commandFor (controller : Controller) (switch : Switch) (closed? : Option Bool) : OnOff :=
  let relay? := switch.relay?.bind controller.relays.get?
  match switch.action, closed?, relay? with
  | .onOff, some closed, _ => .ofState closed
  | .offOn, some closed, _ => .ofState !closed
  | .toggleSmartSync, _, some relay => .ofState relay.isOn
  | .toggleSmartOpposite, _, some relay => .ofState !relay.isOn
  | _, _, _ => .toggle

/--
Tells the devices that are bound to switch `i` what its settings and its relay call for.
-/
def sendBound (i : Nat) (switch : Switch) (closed? : Option Bool) : Step Controller :=
  .emit fun controller => [.sendBound i (controller.commandFor switch closed?)]

/-! ### Toggle switches -/

def flipAction (closed : Bool) : PressAction :=
  if closed then .positionOn else .positionOff

def onFlip (i : Nat) (switch : Switch) (closed : Bool) : Step Controller :=
  (Step.emit fun _ => [.report i (flipAction closed)]).andThen <|
    (if switch.relayMode = .detached then Step.skip else actOnRelay switch (some closed)).andThen <|
      sendBound i switch (some closed)

/-! ### Momentary switches -/

def isDownAt (switch : Switch) (closed : Bool) : Bool :=
  closed != (switch.mode == .momentaryNc)

def onStage (switch : Switch) (stage : PressStage) : Step Controller :=
  (if switch.relayMode = .following stage then actOnRelay switch none else Step.skip).andThen <|
    if switch.boundStage = stage then sendBound switch.index switch none else .skip

def setLongPressed (i : Nat) (long : Bool) : Step Controller :=
  .update fun controller =>
    { controller with longPressed := controller.longPressed.setIfInBounds i long }

def wasLongPressed (controller : Controller) (i : Nat) : Bool :=
  controller.longPressed[i]?.getD false

def onDown (i : Nat) (switch : Switch) : Step Controller :=
  (setLongPressed i false).andThen <|
    (Step.emit fun _ => [
      .report i .press,
      .schedule (.buttonHold switch.button) switch.longPressMs.toNat]).andThen <|
      onStage switch .pressStart

def onUp (i : Nat) (switch : Switch) : Step Controller :=
  (Step.emit fun _ => [
    .cancel (.buttonHold switch.button),
    .report i .released]).andThen <|
    .choose fun controller =>
      if controller.wasLongPressed i then .skip else onStage switch .shortPress

def onLongPress (i : Nat) (switch : Switch) : Step Controller :=
  (setLongPressed i true).andThen <|
    (Step.emit fun _ => [.report i .longPress]).andThen <|
      onStage switch .longPress

/-! ### Contacts and holds -/

def onSwitchMoved (i : Nat) (closed : Bool) : Step Controller :=
  .choose fun controller =>
    match controller.switch? i with
    | none => .skip
    | some switch =>
      match switch.mode with
      | .toggle => onFlip i switch closed
      | .momentary | .momentaryNc =>
        if isDownAt switch closed then onDown i switch else onUp i switch

/--
What switch `i` does at the end of its long-press time, if it is still down.
-/
def onSwitchHeld (i : Nat) : Step Controller :=
  .choose fun controller =>
    match controller.switch? i with
    | none => .skip
    | some switch =>
      if switch.mode.isMomentary && isDownAt switch (controller.contacts.isClosed switch.button) then
        onLongPress i switch
      else
        .skip

end Controller

end WallSwitch
