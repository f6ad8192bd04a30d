import WallSwitch.Device.Inputs
import WallSwitch.Startup

/-!
This module contains the start of a device. What can fail comes first: until the configuration is
known to be good, no pin is touched and the network hears nothing.
-/

namespace WallSwitch

def Board.loadSwitches (board : Board) : List Switch → List Switch × Board
  | [] => ([], board)
  | switch :: more =>
    let (stored, board) := board.loadRecord SwitchRecord (Key.switch switch.index)
    let (more, board) := loadSwitches board more
    match stored with
    | .ok record => (Controller.applyRecord switch record :: more, board)
    | .error _ => (switch :: more, board)

namespace Controller

def ofConfig (text : ConfigText) (config : DeviceConfig) (topology : Topology) : Controller where
  text := text
  config := config
  topology := topology
  relays := .ofConfig config
  contacts := .ofConfig config
  watcher := .empty
  light := .ofConfig config
  resets := .idle
  longPressed := Vector.replicate 5 false

/--
Tells the network which firmware images the device takes, if the configuration says so.
-/
def announceImageType : Step Controller :=
  .emit fun controller => controller.config.imageType.toList.map .setImageType

def setUpLeds : Step Controller :=
  .emit fun controller => controller.config.leds.flatMap Led.setUp

def announceTopology : Step Controller :=
  .emit fun controller => [.announce controller.topology]

end Controller

namespace Device

def loadStatusLed (device : Device) : Device :=
  let (stored, board) := device.board.loadRecord BasicRecord Key.basic
  let device : Device := ⟨device.part, board⟩
  match stored with
  | .ok record => device.step (Controller.onLight (StatusLight.setManual record.networkLedOn))
  | .error _ => device

def setUpContacts (device : Device) : Device :=
  let (contacts, board) := device.part.contacts.setUp device.board
  ⟨{ device.part with contacts := contacts }, board⟩

def watchButton (device : Device) (i : Nat) : Device :=
  match device.part.contacts.button? i with
  | none => device
  | some button =>
    match device.part.watcher.watch device.board button.pin i with
    | .ok (watcher, board) => ⟨{ device.part with watcher := watcher }, board⟩
    | .error _ => device

def watchButtons (device : Device) : Device :=
  (List.range device.part.contacts.size).foldl watchButton device

def recallRelay (device : Device) (i : Nat) : Device :=
  let (stored, board) := device.board.loadRecord RelayRecord (Key.relay i)
  let device : Device := ⟨device.part, board⟩
  match stored with
  | .ok record => if record.on then device.step (Controller.onRelays (RelayBank.turnOn i)) else device
  | .error _ => device

def recallRelays (device : Device) : Device :=
  (List.range device.part.relays.size).foldl recallRelay device

def compareRole (device : Device) (role : Role) : Device :=
  let (_, resets, board) := device.board.compareRole role device.part.resets
  ⟨{ device.part with resets := resets }, board⟩

def start (device : Device) (role : Role) : Device :=
  let device := device.step Controller.announceImageType
  let device := device.step (Controller.onRelays RelayBank.setUp)
  let device := device.step Controller.setUpLeds
  let device := device.loadStatusLed
  let device := device.setUpContacts
  let device := device.watchButtons
  let device := device.step Controller.announceTopology
  let device := device.recallRelays
  let device := device.step (Controller.onStatus device.board.network)
  device.compareRole role

/--
Starts a device on a board. If its configuration text is refused, the device wipes itself instead,
and all that is left is the board.
-/
def boot (board : Board) (role : Role) : Except (ConfigError × Board) Device :=
  let (_, board) := board.updateVersion
  let (text, board) := board.loadConfigText
  match text.compile with
  | (.error error, _) => .error (error, board.performAll ResetKind.full.commands)
  | (.ok blueprint, text) =>
    let (switches, board) := board.loadSwitches blueprint.config.switches
    let config := { blueprint.config with switches := switches }
    .ok (start ⟨.ofConfig text config blueprint.topology, board⟩ role)

end Device

end WallSwitch
