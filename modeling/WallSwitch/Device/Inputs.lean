import WallSwitch.Device.Switches

/-!
This module contains what a device does when contacts close and open, when time passes and when pins
are changed from outside.
-/

namespace WallSwitch

namespace Controller

def resetHoldMs : Nat := 2000

def onContact (event : ContactEvent) : Step Controller :=
  .choose fun controller =>
    match controller.contacts.action? event.index with
    | none => .skip
    | some .factoryReset =>
      .emit fun _ =>
        if event.closed then [.schedule (.buttonHold event.index) resetHoldMs]
        else [.cancel (.buttonHold event.index)]
    | some (.switch i) => onSwitchMoved i event.closed

/--
What a device does at the end of the time for which button `i` is held, if it still is.
-/
def onHoldElapsed (i : Nat) : Step Controller :=
  .choose fun controller =>
    match controller.contacts.action? i with
    | none => .skip
    | some .factoryReset =>
      if controller.contacts.isClosed i then onResets (ResetTimer.schedule .full 0) else .skip
    | some (.switch j) => onSwitchHeld j

def takeNotifications (notifications : List (Notification Nat)) : Step Controller :=
  .update fun controller =>
    let contacts := notifications.foldl
      (fun contacts notification => contacts.onLevel notification.payload notification.high)
      controller.contacts
    { controller with contacts := contacts }

/--
Deals with all changes of contacts that are to come, the first one first.
-/
def handleContacts : Step Controller :=
  .choose fun controller =>
    let (events, contacts) := controller.contacts.drain
    (Step.update fun controller => { controller with contacts := contacts }).andThen <|
      .forEach onContact events

end Controller

namespace Device

def onEdge (device : Device) : Device :=
  device.step (Controller.onWatcher PinWatcher.onEdge)

def settle (device : Device) : Device :=
  let (notifications, watcher, board) := device.part.watcher.pass device.board
  let device : Device := ⟨{ device.part with watcher := watcher }, board⟩
  device.step ((Controller.takeNotifications notifications).andThen Controller.handleContacts)

def fire (task : Task) (device : Device) : Device :=
  match task with
  | .relayPulse i => device.step (Controller.onRelays (RelayBank.continuePulse i))
  | .settle => device.settle
  | .buttonHold i => device.step (Controller.onHoldElapsed i)
  | .reset => device.step (Controller.onResets ResetTimer.fire)

def input (device : Device) (pin : Pin) (high : Bool) : Device :=
  Wired.input device onEdge pin high

def run (device : Device) (ms : Nat) : Device :=
  Wired.run device fire ms

end Device

end WallSwitch
