import WallSwitch.ConfigText
import WallSwitch.ResetTimer
import WallSwitch.Settings.Keeping
import WallSwitch.Settings.Key

/-!
This module contains what a device looks up in its settings memory when it starts: the version of the
settings, its configuration text, and the role that it had the last time.
-/

namespace WallSwitch

inductive Role where
  | router
  | endDevice
deriving DecidableEq, Repr

namespace Role

def code : Role → UInt8
  | .router => 0
  | .endDevice => 1

def ofCode? (code : UInt8) : Option Role :=
  if code = 0 then some .router else if code = 1 then some .endDevice else none

@[simp]
theorem ofCode?_code (role : Role) : ofCode? role.code = some role := by
  cases role <;> rfl

end Role

/--
What was found out about the version of the settings.
-/
inductive VersionCheck where
  /-- There was none that could be read. -/
  | initialized
  | current
  /-- The settings were those of another version. -/
  | migrated (old : UInt16)
deriving DecidableEq, Repr

/--
What was found out about the role of the device.
-/
inductive RoleCheck where
  /-- There was none that could be read. -/
  | firstBoot
  | unchanged
  /-- The device had another role, perhaps one that is unknown. -/
  | changed (old : Option Role)
deriving DecidableEq, Repr

namespace Board

def settingsVersion : UInt16 := 1

/--
Brings the version of the settings up to date. All versions so far have the same layout.
-/
def updateVersion (board : Board) : VersionCheck × Board :=
  let (stored, board) := board.loadRecord VersionRecord Key.version
  let update := board.performAll (Record.save Key.version (⟨settingsVersion⟩ : VersionRecord))
  match stored with
  | .ok record =>
    if record.version = settingsVersion then (.current, board)
    else (.migrated record.version, update)
  | .error _ => (.initialized, update)

/--
Looks up the configuration text. A text that is missing, empty, too long or cannot be read is
replaced by the built-in one.
-/
def loadConfigText (board : Board) : ConfigText × Board :=
  let (answer, board) := board.load Key.config ConfigText.maxLength
  match answer.toOption.bind fun bytes => (ConfigText.ofBytes bytes).toOption with
  | some text => (if text.isEmpty then .builtIn else text, board)
  | none => (.builtIn, board)

def roleChangeDelay : Nat := 2000

/--
Compares the role with the one that the device had the last time. If it changed, the device leaves
the network and reboots, to join again in its new role.
-/
def compareRole (board : Board) (role : Role) (timer : ResetTimer) :
    RoleCheck × ResetTimer × Board :=
  let (stored, board) := board.loadRecord RoleRecord Key.role
  let update := board.performAll (Record.save Key.role (⟨role.code⟩ : RoleRecord))
  match stored with
  | .ok record =>
    if record.role = role.code then
      (.unchanged, timer, board)
    else
      let reboot := ResetTimer.schedule .reboot roleChangeDelay
      (.changed (Role.ofCode? record.role), reboot.state timer,
        update.performAll (.leaveNetwork :: reboot.commands timer))
  | .error _ => (.firstBoot, timer, update)

end Board

end WallSwitch
