import WallSwitch.Proofs.ConfigText.Refusal
import WallSwitch.Proofs.Device.Fresh
import WallSwitch.Proofs.Device.Recalling

/-!
This module contains the proof that a device either starts as its configuration text describes it or
does nothing but wipe itself, and that it starts the next time if it was wiped.
-/

namespace WallSwitch

/-! ### What a board was asked for -/

def Command.announced? : Command → Option Topology
  | .announce topology => some topology
  | _ => none

def Event.isForMemory : Event → Bool
  | .command order _ => order.isForMemory
  | .load .. => true
  | .read .. | .fire .. => false

namespace Board

def announcements (board : Board) : List Topology :=
  board.orders.filterMap fun order => order.2.announced?

def activity (board : Board) : List (Nat × Event) :=
  board.history.filter fun entry => !entry.2.isForMemory

variable {board : Board} {command : Command}

theorem announcements_perform (board : Board) (command : Command) :
    (board.perform command).announcements = board.announcements ++ command.announced?.toList := by
  unfold announcements
  rw [orders_perform, List.filterMap_append]
  cases command <;> rfl

theorem announcements_perform_of_isForStart (h : command.isForStart = true) (board : Board) :
    (board.perform command).announcements = board.announcements := by
  rw [announcements_perform]
  cases command with
  | announce topology => cases h
  | _ => exact List.append_nil _

theorem announcements_read (board : Board) (pin : Pin) :
    (board.read pin).2.announcements = board.announcements := by
  unfold announcements
  rw [orders_read]

theorem announcements_load (board : Board) (key room : Nat) :
    (board.load key room).2.announcements = board.announcements := by
  unfold announcements
  rw [orders_load]

theorem activity_record (board : Board) (event : Event) :
    (board.record event).activity
      =
    board.activity ++ if event.isForMemory then [] else [(board.now, event)] := by
  unfold activity history record
  rw [List.reverse_cons, List.filter_append]
  cases h : event.isForMemory <;> simp [h]

theorem activity_load (board : Board) (key room : Nat) :
    (board.load key room).2.activity = board.activity :=
  (board.activity_record _).trans (List.append_nil _)

theorem erasures_load (board : Board) (key room : Nat) :
    (board.load key room).2.erasures = board.erasures := by
  unfold erasures
  rw [orders_load]

theorem activity_perform_of_isForMemory (h : command.isForMemory = true) (board : Board) :
    (board.perform command).activity = board.activity := by
  obtain ⟨fault, htrace⟩ := board.trace_perform command
  unfold activity history
  rw [htrace, List.reverse_cons, List.filter_append]
  simp [Event.isForMemory, h]

theorem store_perform_erase (h : board.memory.unerasable = false) :
    (board.perform .erase).memory.store = board.memory.store.clear := by
  have herase : board.memory.erase = .ok { board.memory with store := board.memory.store.clear } :=
    if_neg (by simp [h])
  unfold perform attempt execute
  dsimp only
  rw [herase]
  rfl

theorem exists_full_reset (board : Board) :
    ∃ memory fault, board.performAll ResetKind.full.commands
      =
    { board with
      memory := memory
      trace := (board.now, .command .restart none) :: (board.now, .command .leaveNetwork none)
        :: (board.now, .command .erase fault) :: board.trace }
      ∧ (board.memory.unerasable = false → memory.store = board.memory.store.clear) := by
  obtain ⟨memory, fault, herased⟩ := board.exists_perform_erase
  refine ⟨memory, fault, ?_, ?_⟩
  . unfold ResetKind.commands
    rw [performAll_cons, herased]
    rfl
  . intro h
    have hstore := store_perform_erase h
    rw [herased] at hstore
    exact hstore

theorem unerasable_perform_save (board : Board) (key : Nat) (item : Bytes) :
    (board.perform (.save key item)).memory.unerasable = board.memory.unerasable := by
  rcases board.perform_save key item with ⟨_, hmemory⟩ | ⟨store, _, hmemory⟩
  . rw [hmemory]
  . rw [hmemory]

theorem memory_read_updateVersion {key : Nat} (h : key ≠ Key.version) (room : Nat) (board : Board) :
    board.updateVersion.2.memory.read key room = board.memory.read key room := by
  unfold SettingsMemory.read
  rw [unreadable_updateVersion, Store.read_congr (board.get?_updateVersion h)]

theorem loadConfigText_updateVersion (board : Board) :
    board.updateVersion.2.loadConfigText.1 = board.loadConfigText.1 := by
  have hread := memory_read_updateVersion (by decide : Key.config ≠ Key.version)
    ConfigText.maxLength board
  unfold loadConfigText load
  rw [hread]
  dsimp only
  split <;> rfl

end Board

theorem Store.configText_clear (store : Store) : store.clear.configText = .builtIn := rfl

theorem Store.settings_clear (store : Store) (config : DeviceConfig) :
    (store.clear.settings config).config = config := by
  have hrecalled : store.clear.recalled = id := rfl
  unfold settings
  rw [hrecalled, List.map_id]

namespace ConfigText

theorem exists_builtIn :
    ∃ blueprint, builtIn.compile.1 = .ok blueprint ∧ blueprint.topology.endpoints.length = 1 := by
  have hlength : builtIn.compile.1.toOption.map (·.topology.endpoints.length) = some 1 := by
    decide +kernel
  cases hcompile : builtIn.compile.1 with
  | error error =>
    rw [hcompile] at hlength
    cases hlength
  | ok blueprint =>
    rw [hcompile] at hlength
    exact ⟨blueprint, rfl, Option.some.inj hlength⟩

end ConfigText

namespace Device

/-! ### Refusing a configuration -/

variable {board : Board} {role : Role} {device : Device}

/--
What is left of a board whose device wiped itself.
-/
def wiped (board : Board) : Board :=
  board.updateVersion.2.loadConfigText.2.performAll ResetKind.full.commands

theorem boot_of_error {error : ConfigError} (h : board.loadConfigText.1.compile.1 = .error error)
    (role : Role) : boot board role = .error (error, wiped board) := by
  rw [← board.loadConfigText_updateVersion] at h
  unfold boot wiped
  dsimp only
  cases hanswer : board.updateVersion.2.loadConfigText.1.compile with
  | mk answer text =>
    rw [hanswer] at h
    subst h
    rfl

theorem compile_of_boot_error {error : ConfigError} {next : Board}
    (h : boot board role = .error (error, next)) :
    board.loadConfigText.1.compile.1 = .error error ∧ next = wiped board := by
  cases hcompile : board.loadConfigText.1.compile.1 with
  | error other =>
    rw [boot_of_error hcompile] at h
    cases h
    exact ⟨rfl, rfl⟩
  | ok blueprint =>
    rw [← board.loadConfigText_updateVersion] at hcompile
    unfold boot at h
    dsimp only at h
    split at h
    . next hanswer =>
      rw [hanswer] at hcompile
      cases hcompile
    . cases h

theorem now_lookUp (board : Board) : board.updateVersion.2.loadConfigText.2.now = board.now :=
  Board.lookUp_keeps (fun _ _ _ => rfl) (fun _ _ board => board.now_perform _) board

theorem activity_wiped (board : Board) :
    (wiped board).activity = board.activity ++
      [(board.now, .command .leaveNetwork none), (board.now, .command .restart none)] := by
  have hlooked : board.updateVersion.2.loadConfigText.2.activity = board.activity :=
    Board.lookUp_keeps (fun key room board => board.activity_load key room)
      (fun _ _ board => Board.activity_perform_of_isForMemory rfl board) board
  rw [← hlooked, ← now_lookUp board]
  unfold wiped
  obtain ⟨memory, fault, hreset, _⟩ := board.updateVersion.2.loadConfigText.2.exists_full_reset
  rw [hreset]
  simp [Board.activity, Board.history, Event.isForMemory, Command.isForMemory]

theorem erasures_wiped (board : Board) : (wiped board).erasures = board.erasures ++ [board.now] := by
  have hsave (key : Nat) (item : Bytes) (board : Board) :
      (board.perform (.save key item)).erasures = board.erasures := by
    apply Board.erasures_perform_of_ne
    nofun
  have hlooked : board.updateVersion.2.loadConfigText.2.erasures = board.erasures :=
    Board.lookUp_keeps (fun key room board => board.erasures_load key room) hsave board
  rw [← hlooked, ← now_lookUp board]
  unfold wiped Board.erasures
  rw [Board.orders_performAll, List.filter_append, List.map_append]
  rfl

theorem wiped_frame (board : Board) :
    wiped board = { board with memory := (wiped board).memory, trace := (wiped board).trace } := by
  have hframe (memory : SettingsMemory) (trace : List (Nat × Event)) :
      { wiped board with memory := memory, trace := trace }
        = { board with memory := memory, trace := trace } := by
    let rest (next : Board) : Board := { next with memory := memory, trace := trace }
    have hsave (key : Nat) (item : Bytes) (board : Board) :
        rest (board.perform (.save key item)) = rest board := by
      obtain ⟨_, _, hsaved⟩ := board.exists_perform_save key item
      rw [hsaved]
    have hlooked : rest board.updateVersion.2.loadConfigText.2 = rest board :=
      Board.lookUp_keeps (fun _ _ _ => rfl) hsave board
    unfold wiped
    obtain ⟨_, _, hreset, _⟩ := board.updateVersion.2.loadConfigText.2.exists_full_reset
    rw [hreset]
    exact hlooked
  generalize wiped board = next at hframe ⊢
  exact hframe next.memory next.trace

theorem exists_store_wiped (h : board.memory.unerasable = false) :
    ∃ store : Store, (wiped board).memory.store = store.clear := by
  have hlooked : board.updateVersion.2.loadConfigText.2.memory.unerasable = false :=
    (Board.lookUp_keeps (f := fun board => board.memory.unerasable) (fun _ _ _ => rfl)
      (fun key item board => board.unerasable_perform_save key item) board).trans h
  obtain ⟨_, _, hreset, hstore⟩ := board.updateVersion.2.loadConfigText.2.exists_full_reset
  unfold wiped
  rw [hreset]
  exact ⟨_, hstore hlooked⟩

/-! ### Accepting a configuration -/

def origin (controller : Controller) : ConfigText × Topology :=
  (controller.text, controller.topology)

theorem topology_of_origin {controller next : Controller} (h : origin next = origin controller) :
    next.topology = controller.topology :=
  congrArg Prod.snd h

theorem origin_readied (device : Device) : origin device.readied.part = origin device.part := by
  have hcontacts (next : Device) : origin next.setUpContacts.part = origin next.part := rfl
  rw [readied_eq, watchButtons_keeps_part (f := origin) (fun _ _ => rfl), hcontacts,
    prepared_keeps_part (f := origin) (fun _ _ => rfl)]

theorem origin_start (device : Device) (role : Role) :
    origin (device.start role).part = origin device.part := by
  have hannounced (next : Device) :
      origin (next.step Controller.announceTopology).part = origin next.part := rfl
  have hrecalled : origin device.recalled.part = origin device.part := by
    unfold recalled
    rw [recallRelays_keeps_part (f := origin) (fun _ _ => rfl), hannounced, origin_readied]
  rw [start_eq, compareRole_eq, ← hrecalled]
  generalize device.recalled = recalled
  unfold origin
  rw [part_step, Controller.onStatus, Step.state_andThen]
  dsimp only
  split <;> rfl

theorem announcements_start (device : Device) (role : Role) :
    (device.start role).board.announcements = device.board.announcements ++ [device.part.topology] := by
  have hcommand (command : Command) (h : command.isForStart = true) (board : Board) :=
    Board.announcements_perform_of_isForStart h board
  have hquiet (command : Command) (htopic : command.topic ∈ [.outputs, .settings, .reset]) :=
    hcommand command (Command.isForStart_of_topic htopic)
  have houtputs (command : Command) (htopic : command.topic = .outputs) :=
    hquiet command (by simp [htopic])
  have hload (key room : Nat) (board : Board) := board.announcements_load key room
  have hreadied := start_keeps_readied
    (fun command h => hcommand command (Command.isForStart_of_isForSetUp h))
    (fun pin board => board.announcements_read pin) hload device
  have htopology := topology_of_origin (origin_readied device)
  rw [start_eq, start_keeps_compareRole hload hquiet (hcommand _ rfl)]
  unfold recalled
  rw [start_keeps_recallRelays hload houtputs, ← hreadied, ← htopology]
  generalize device.readied = readied
  exact readied.board.announcements_perform (.announce readied.part.topology)

theorem announcements_lookUp (board : Board) :
    board.updateVersion.2.loadConfigText.2.announcements = board.announcements :=
  Board.lookUp_keeps (fun key room board => board.announcements_load key room)
    (fun _ _ board => Board.announcements_perform_of_isForStart rfl board) board

theorem announced_of_boot (h : boot board role = .ok device) :
    ∃ blueprint, board.loadConfigText.1.compile = (.ok blueprint, device.part.text)
      ∧ device.part.topology = blueprint.topology
      ∧ device.board.announcements = board.announcements ++ [blueprint.topology] := by
  obtain ⟨blueprint, hcompile, hdevice⟩ := exists_of_boot h
  have hlooked := announcements_lookUp board
  rw [board.loadConfigText_updateVersion] at hcompile hdevice
  generalize board.updateVersion.2.loadConfigText.2 = looked at hdevice hlooked
  have hswitches : (looked.loadSwitches blueprint.config.switches).2.announcements
      = board.announcements :=
    (Board.loadSwitches_keeps (fun key room board => board.announcements_load key room) _ _).trans
      hlooked
  have horigin := origin_start ⟨.ofConfig board.loadConfigText.1.compile.2
    (startConfig blueprint looked) blueprint.topology,
    (looked.loadSwitches blueprint.config.switches).2⟩ role
  have hannounced := announcements_start ⟨.ofConfig board.loadConfigText.1.compile.2
    (startConfig blueprint looked) blueprint.topology,
    (looked.loadSwitches blueprint.config.switches).2⟩ role
  rw [← hdevice] at horigin hannounced
  refine ⟨blueprint, Prod.ext hcompile (congrArg Prod.fst horigin).symm,
    topology_of_origin horigin, ?_⟩
  rw [hannounced, ← hswitches]
  rfl

/-! ### Starting again -/

theorem boot_of_cleared {store : Store} (hmemory : board.memory = .sound store.clear) (role : Role) :
    ∃ device, boot board role = .ok device
      ∧ ConfigText.builtIn.compile
        = (.ok ⟨device.part.config, device.part.topology⟩, device.part.text)
      ∧ device.part.topology.endpoints.length = 1 := by
  obtain ⟨blueprint, hbuiltIn, hlength⟩ := ConfigText.exists_builtIn
  have hreadable : board.memory.unreadable = [] := by
    rw [hmemory]
    rfl
  have htext : board.memory.store.configText = .builtIn := by
    rw [hmemory]
    exact store.configText_clear
  rw [← htext] at hbuiltIn
  obtain ⟨device, hboot, hsettings⟩ := exists_boot hreadable hbuiltIn role
  obtain ⟨blueprint', hcompile, htopology, _⟩ := announced_of_boot hboot
  rw [Board.loadConfigText_eq hreadable] at hcompile
  have hsame : blueprint' = blueprint := by
    rw [hcompile] at hbuiltIn
    exact Except.ok.inj hbuiltIn
  have hconfig : device.part.config = blueprint.config := by
    have hkept : device.part.config = (board.memory.store.settings blueprint.config).config :=
      congrArg DeviceSettings.config hsettings
    rw [hkept, hmemory]
    exact store.settings_clear blueprint.config
  rw [hsame] at hcompile htopology
  refine ⟨device, hboot, ?_, ?_⟩
  . rw [← htext, hcompile, hconfig, htopology]
  . rw [htopology, hlength]

/--
A device starts unless its configuration text is refused. If it is, the device erases its settings,
leaves the network and restarts, and does nothing else: then it starts the next time, if the settings
could be erased. If it is not, the network is told once what the text describes.
-/
theorem boot_all_or_nothing (board : Board) (role : Role) :
    (∀ error, (∃ next, boot board role = .error (error, next))
        ↔ board.loadConfigText.1.compile.1 = .error error)
      ∧ (∀ error next, boot board role = .error (error, next) →
        error ≠ .topologyOverflow
          ∧ (∀ length, error ≠ .configTooLong length)
          ∧ next = { board with memory := next.memory, trace := next.trace }
          ∧ next.activity = board.activity ++
            [(board.now, .command .leaveNetwork none), (board.now, .command .restart none)]
          ∧ next.erasures = board.erasures ++ [board.now]
          ∧ (board.memory.unerasable = false → ∀ again role',
            again.memory = .sound next.memory.store →
              ∃ device, boot again role' = .ok device
                ∧ ConfigText.builtIn.compile
                  = (.ok ⟨device.part.config, device.part.topology⟩, device.part.text)
                ∧ device.part.topology.endpoints.length = 1))
      ∧ ∀ device, boot board role = .ok device →
        ∃ blueprint, board.loadConfigText.1.compile = (.ok blueprint, device.part.text)
          ∧ device.part.topology = blueprint.topology
          ∧ device.board.announcements = board.announcements ++ [blueprint.topology] := by
  refine ⟨?_, ?_, fun device => announced_of_boot⟩
  . intro error
    constructor
    . rintro ⟨next, hboot⟩
      exact (compile_of_boot_error hboot).1
    . intro hcompile
      exact ⟨wiped board, boot_of_error hcompile role⟩
  . intro error next hboot
    obtain ⟨hcompile, rfl⟩ := compile_of_boot_error hboot
    have hrefused := ConfigText.refused_of_compile hcompile
    refine ⟨?_, ?_, wiped_frame board, activity_wiped board, erasures_wiped board, ?_⟩
    . rintro rfl
      cases hrefused
    . rintro length rfl
      cases hrefused
    . intro herasable again role' hmemory
      obtain ⟨store, hstore⟩ := exists_store_wiped herasable
      rw [hstore] at hmemory
      exact boot_of_cleared hmemory role'

theorem boot_all_or_nothing_of_long_name :
    let text := List.replicate 32 0x41 ++ Bytes.ascii ";TS0012;"
    let board := Board.idle [] .notJoined (.sound ⟨8, 128, [(Key.config, text)]⟩)
    ∃ next device, boot board .router = .error (.manufacturerTooLong 32, next)
      ∧ next.activity = [(0, .command .leaveNetwork none), (0, .command .restart none)]
      ∧ next.erasures = [0]
      ∧ boot { board with memory := .sound next.memory.store } .endDevice = .ok device
      ∧ device.board.announcements = [device.part.topology]
      ∧ device.part.topology.endpoints.length = 1 := by
  intro text board
  obtain ⟨hrefused, hwiped, _⟩ := boot_all_or_nothing board .router
  have hcompile : board.loadConfigText.1.compile.1 = .error (.manufacturerTooLong 32) := by
    decide +kernel
  obtain ⟨next, hboot⟩ := (hrefused _).mpr hcompile
  obtain ⟨_, _, _, hactivity, herasures, hagain⟩ := hwiped _ next hboot
  let cleared := { board with memory := .sound next.memory.store }
  obtain ⟨device, hstarted, _, hlength⟩ := hagain rfl cleared .endDevice rfl
  obtain ⟨_, _, haccepted⟩ := boot_all_or_nothing cleared .endDevice
  obtain ⟨blueprint, _, htopology, hannounced⟩ := haccepted device hstarted
  refine ⟨next, device, hboot, hactivity, herasures, hstarted, ?_, hlength⟩
  rw [hannounced, htopology]
  rfl

end Device

end WallSwitch
