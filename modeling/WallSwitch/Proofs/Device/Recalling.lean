import WallSwitch.Proofs.Device.Starting

/-!
This module contains what a device finds in its settings memory when it starts, and that it starts
with just that.
-/

namespace WallSwitch

/--
What a device comes back with when it is started again.
-/
structure DeviceSettings where
  config : DeviceConfig
  /-- Which relays are on. -/
  relays : List Bool
  /-- Whether a dedicated LED is lit while the device is joined. -/
  statusLed : Bool

def Controller.settings (controller : Controller) : DeviceSettings where
  config := controller.config
  relays := controller.relays.states
  statusLed := controller.light.manual

namespace Store

def configText (store : Store) : ConfigText :=
  match (store.read Key.config ConfigText.maxLength).toOption.bind
      fun bytes => (ConfigText.ofBytes bytes).toOption with
  | some text => if text.isEmpty then .builtIn else text
  | none => .builtIn

def recalled (store : Store) (switch : Switch) : Switch :=
  ((store.record? SwitchRecord (Key.switch switch.index)).map
    (Controller.applyRecord switch)).getD switch

def relayIsOn (store : Store) (i : Nat) : Bool :=
  (store.record? RelayRecord (Key.relay i)).any (·.on)

def statusLedIsOn (store : Store) : Bool :=
  ((store.record? BasicRecord Key.basic).map (·.networkLedOn)).getD true

def settings (store : Store) (config : DeviceConfig) : DeviceSettings where
  config := { config with switches := config.switches.map store.recalled }
  relays := (List.range config.relays.length).map store.relayIsOn
  statusLed := store.statusLedIsOn

variable {store next : Store}

theorem configText_congr (h : next.get? Key.config = store.get? Key.config) :
    next.configText = store.configText := by
  unfold configText
  rw [read_congr h]

theorem recalled_congr {switch : Switch}
    (h : next.get? (Key.switch switch.index) = store.get? (Key.switch switch.index)) :
    next.recalled switch = store.recalled switch := by
  unfold recalled
  rw [record?_congr h]

theorem relayIsOn_congr {i : Nat} (h : next.get? (Key.relay i) = store.get? (Key.relay i)) :
    next.relayIsOn i = store.relayIsOn i := by
  unfold relayIsOn
  rw [record?_congr h]

theorem statusLedIsOn_congr (h : next.get? Key.basic = store.get? Key.basic) :
    next.statusLedIsOn = store.statusLedIsOn := by
  unfold statusLedIsOn
  rw [record?_congr h]

theorem map_recalled_congr {switches : List Switch}
    (h : ∀ switch ∈ switches,
      next.get? (Key.switch switch.index) = store.get? (Key.switch switch.index)) :
    switches.map next.recalled = switches.map store.recalled :=
  List.map_congr_left fun switch hmem => recalled_congr (h switch hmem)

theorem map_relayIsOn_congr {count : Nat}
    (h : ∀ i < count, next.get? (Key.relay i) = store.get? (Key.relay i)) :
    (List.range count).map next.relayIsOn = (List.range count).map store.relayIsOn :=
  List.map_congr_left fun i hmem => relayIsOn_congr (h i (List.mem_range.mp hmem))

theorem settings_congr {config : DeviceConfig}
    (hswitches : ∀ switch ∈ config.switches,
      next.get? (Key.switch switch.index) = store.get? (Key.switch switch.index))
    (hrelays : ∀ i < config.relays.length, next.get? (Key.relay i) = store.get? (Key.relay i))
    (hbasic : next.get? Key.basic = store.get? Key.basic) :
    next.settings config = store.settings config := by
  unfold settings
  rw [map_recalled_congr hswitches, map_relayIsOn_congr hrelays, statusLedIsOn_congr hbasic]

end Store

/-! ### What a board loads -/

namespace Board

variable {board : Board}

theorem kept_loadConfigText (board : Board) : board.loadConfigText.2.kept = board.kept :=
  loadConfigText_keeps (fun _ _ board => kept_record rfl board) board

theorem loadConfigText_eq (h : board.memory.unreadable = []) :
    board.loadConfigText.1 = board.memory.store.configText := by
  unfold loadConfigText load Store.configText
  rw [SettingsMemory.read_eq h]
  dsimp only
  generalize Option.bind _ _ = found
  cases found <;> rfl

theorem kept_loadSwitches (switches : List Switch) (board : Board) :
    (board.loadSwitches switches).2.kept = board.kept :=
  loadSwitches_keeps (fun _ _ board => kept_record rfl board) switches board

theorem memory_loadRecord (α : Type) [Record α] (key : Nat) (board : Board) :
    (board.loadRecord α key).2.memory = board.memory :=
  memory_of_kept_eq (kept_loadRecord α key board)

theorem loadSwitches_eq (switches : List Switch) :
    ∀ (board : Board), board.memory.unreadable = [] →
      (board.loadSwitches switches).1 = switches.map board.memory.store.recalled := by
  induction switches with
  | nil =>
    intro board _
    rfl
  | cons switch switches ih =>
    intro board h
    have hmemory := memory_loadRecord SwitchRecord (Key.switch switch.index) board
    have hmore := ih (board.loadRecord SwitchRecord (Key.switch switch.index)).2 (hmemory ▸ h)
    have hstored := toOption_loadRecord SwitchRecord (Key.switch switch.index) h
    rw [hmemory] at hmore
    unfold loadSwitches
    dsimp only
    rw [List.map_cons, Store.recalled, ← hstored, hmore]
    cases (board.loadRecord SwitchRecord (Key.switch switch.index)).1 <;> rfl

theorem get?_updateVersion {key : Nat} (h : key ≠ Key.version) (board : Board) :
    board.updateVersion.2.memory.store.get? key = board.memory.store.get? key := by
  have hupdate := get?_save_of_ne h (⟨settingsVersion⟩ : VersionRecord)
    (board.loadRecord VersionRecord Key.version).2
  unfold updateVersion
  dsimp only
  split
  . split
    . rfl
    . exact hupdate
  . exact hupdate

theorem unreadable_updateVersion (board : Board) :
    board.updateVersion.2.memory.unreadable = board.memory.unreadable := by
  have hupdate := unreadable_save Key.version (⟨settingsVersion⟩ : VersionRecord)
    (board.loadRecord VersionRecord Key.version).2
  unfold updateVersion
  dsimp only
  split
  . split
    . rfl
    . exact hupdate
  . exact hupdate

theorem get?_compareRole {key : Nat} (h : key ≠ Key.role) (role : Role) (timer : ResetTimer)
    (board : Board) :
    (board.compareRole role timer).2.2.memory.store.get? key = board.memory.store.get? key := by
  have hupdate := get?_save_of_ne h (⟨role.code⟩ : RoleRecord)
    (board.loadRecord RoleRecord Key.role).2
  unfold compareRole
  dsimp only
  split
  . split
    . rfl
    . rw [memory_of_kept_eq (kept_performAll ?_ _), hupdate]
      . rfl
      . simp [ResetTimer.schedule, Step.commands, Command.isForMemory]
  . exact hupdate

end Board

namespace Controller

variable {controller : Controller} {status : NetworkStatus}

theorem settings_onStatus : ((onStatus status).state controller).settings = controller.settings := by
  unfold onStatus
  rw [Step.state_andThen]
  split <;> rfl

end Controller

/-! ### Stages of the start -/

namespace Device

variable {device : Device}

/--
What a device would come back with, and what is left of it on the board.
-/
def snapshot (device : Device) : DeviceSettings × SettingsMemory × Nat :=
  (device.part.settings, device.board.kept)

theorem settings_of_snapshot {settings : DeviceSettings} {kept : SettingsMemory × Nat}
    (h : device.snapshot = (settings, kept)) : device.part.settings = settings :=
  congrArg Prod.fst h

theorem kept_of_snapshot {settings : DeviceSettings} {kept : SettingsMemory × Nat}
    (h : device.snapshot = (settings, kept)) : device.board.kept = kept :=
  congrArg Prod.snd h

theorem snapshot_step (next : Step Controller)
    (hsettings : (next.state device.part).settings = device.part.settings)
    (hcommands : ∀ command ∈ next.commands device.part, command.isForMemory = false) :
    (device.step next).snapshot = device.snapshot := by
  unfold snapshot
  rw [part_step, board_step, hsettings, Board.kept_performAll hcommands]

theorem snapshot_onStatus (device : Device) (status : NetworkStatus) :
    (device.step (Controller.onStatus status)).snapshot = device.snapshot :=
  snapshot_step _ Controller.settings_onStatus Controller.isForMemory_onStatus

theorem snapshot_setUpContacts : device.setUpContacts.snapshot = device.snapshot :=
  congrArg (Prod.mk _) (Contacts.setUpAll_keeps (fun _ _ board => Board.kept_perform rfl board)
    (fun _ _ => Board.kept_read _) device.board)

theorem snapshot_watchButton (i : Nat) : (device.watchButton i).snapshot = device.snapshot := by
  unfold watchButton
  split
  . rfl
  . split
    . next hwatch => exact congrArg (Prod.mk _) (PinWatcher.kept_watch hwatch)
    . rfl

theorem snapshot_watchButtons : device.watchButtons.snapshot = device.snapshot :=
  List.foldlRecOn (motive := fun next : Device => next.snapshot = device.snapshot) _ _ rfl
    fun _ hnext i _ => (snapshot_watchButton i).trans hnext

theorem snapshot_loadStatusLed (h : device.board.memory.unreadable = []) :
    device.loadStatusLed.snapshot
      =
    ({ device.part.settings with
      statusLed := ((device.board.memory.store.record? BasicRecord Key.basic).map
        (·.networkLedOn)).getD device.part.light.manual }, device.board.kept) := by
  have hloaded := Board.kept_loadRecord BasicRecord Key.basic device.board
  rw [← Board.toOption_loadRecord BasicRecord Key.basic h]
  unfold loadStatusLed
  dsimp only
  cases (device.board.loadRecord BasicRecord Key.basic).1 with
  | error error => exact congrArg (Prod.mk _) hloaded
  | ok record =>
    have hquiet : ∀ command ∈ StatusLight.refresh.commands
        { device.part.light with manual := record.networkLedOn }, command.isForMemory = false :=
      StatusLight.isForMemory_refresh
    exact congrArg (Prod.mk _) ((Board.kept_performAll hquiet _).trans hloaded)

/-! ### Relays -/

def turnOnIf (isOn : Nat → Bool) (states : List Bool) (i : Nat) : List Bool :=
  if isOn i then states.set i true else states

theorem foldl_turnOnIf (isOn : Nat → Bool) (size n : Nat) :
    (List.range n).foldl (turnOnIf isOn) (List.replicate size false)
      =
    (List.range size).map fun i => decide (i < n) && isOn i := by
  -- The places behind `n` are still off.
  induction n with
  | zero => simp
  | succ n ih =>
    rw [List.range_succ, List.foldl_append, ih, List.foldl_cons, List.foldl_nil]
    unfold turnOnIf
    split
    . next hon =>
      apply List.ext_getElem (by simp)
      intro i _ _
      by_cases hi : n = i
      . subst hi
        simp [hon]
      . have hlt : decide (i < n + 1) = decide (i < n) := decide_eq_decide.mpr (by omega)
        rw [List.getElem_set_ne hi, List.getElem_map, List.getElem_map, List.getElem_range, hlt]
    . next hoff =>
      apply List.map_congr_left
      intro i _
      by_cases hi : n = i
      . subst hi
        simp [hoff]
      . rw [decide_eq_decide.mpr (by omega : i < n + 1 ↔ i < n)]

theorem foldl_turnOnIf_range (isOn : Nat → Bool) (size : Nat) :
    (List.range size).foldl (turnOnIf isOn) (List.replicate size false)
      =
    (List.range size).map isOn := by
  rw [foldl_turnOnIf]
  apply List.map_congr_left
  intro i hmem
  simp [List.mem_range.mp hmem]

theorem snapshot_recallRelay (h : device.board.memory.unreadable = []) (i : Nat) :
    (device.recallRelay i).snapshot
      =
    ({ device.part.settings with
      relays := turnOnIf device.board.memory.store.relayIsOn device.part.settings.relays i },
      device.board.kept) := by
  have hloaded := Board.kept_loadRecord RelayRecord (Key.relay i) device.board
  have hstored := Board.toOption_loadRecord RelayRecord (Key.relay i) h
  unfold turnOnIf recallRelay
  rw [Store.relayIsOn, ← hstored]
  dsimp only
  generalize (device.board.loadRecord RelayRecord (Key.relay i)).1 = stored
  cases stored with
  | error error => exact congrArg (Prod.mk _) hloaded
  | ok record =>
    have hset := Board.kept_performAll (device.part.relays.move_set i true).isForMemory
      (device.board.loadRecord RelayRecord (Key.relay i)).2
    have hon : (Except.ok record : Except StoreError RelayRecord).toOption.any (·.on) = record.on :=
      rfl
    rw [hon]
    dsimp only
    split
    . apply Prod.ext
      . change DeviceSettings.mk _ ((RelayBank.set i true).state device.part.relays).states _ = _
        rw [RelayBank.states_set]
        rfl
      . exact hset.trans hloaded
    . exact congrArg (Prod.mk _) hloaded

theorem snapshot_foldl_recallRelay (places : List Nat) :
    ∀ (device : Device), device.board.memory.unreadable = [] →
      (places.foldl recallRelay device).snapshot
        =
      ({ device.part.settings with
        relays := places.foldl (turnOnIf device.board.memory.store.relayIsOn)
          device.part.settings.relays }, device.board.kept) := by
  induction places with
  | nil =>
    intro device _
    rfl
  | cons i places ih =>
    intro device h
    have hrecalled := snapshot_recallRelay h i
    have hsettings := settings_of_snapshot hrecalled
    have hkept := kept_of_snapshot hrecalled
    have hmemory := Board.memory_of_kept_eq hkept
    rw [List.foldl_cons, List.foldl_cons, ih _ (hmemory ▸ h), hsettings, hkept, hmemory]

theorem snapshot_recallRelays {size : Nat} (h : device.board.memory.unreadable = [])
    (hoff : device.part.settings.relays = List.replicate size false) :
    device.recallRelays.snapshot
      =
    ({ device.part.settings with
      relays := (List.range size).map device.board.memory.store.relayIsOn }, device.board.kept) := by
  have hsize : device.part.relays.size = size := by
    have hlength := congrArg List.length hoff
    rwa [List.length_replicate, Controller.settings, RelayBank.length_states] at hlength
  unfold recallRelays
  rw [snapshot_foldl_recallRelay _ device h, hoff, hsize, foldl_turnOnIf_range]

/-! ### Starting and booting -/

theorem snapshot_prepared :
    (((device.step Controller.announceImageType).step (Controller.onRelays RelayBank.setUp)).step
      Controller.setUpLeds).snapshot = device.snapshot := by
  have himage : (device.step Controller.announceImageType).snapshot = device.snapshot := by
    apply snapshot_step _ rfl
    simp [Controller.announceImageType, Command.isForMemory]
  have hrelays : ((device.step Controller.announceImageType).step
      (Controller.onRelays RelayBank.setUp)).snapshot = device.snapshot :=
    (snapshot_step _ rfl RelayBank.isForMemory_setUp).trans himage
  refine (snapshot_step _ rfl ?_).trans hrelays
  intro command hmem
  obtain ⟨led, _, hsetUp⟩ := List.mem_flatMap.mp hmem
  apply Command.isForMemory_of_topic
  simp [Led.topic_of_mem_setUp hsetUp]

theorem snapshot_readied (h : device.board.memory.unreadable = []) :
    device.readied.snapshot
      =
    ({ device.part.settings with
      statusLed := ((device.board.memory.store.record? BasicRecord Key.basic).map
        (·.networkLedOn)).getD device.part.settings.statusLed }, device.board.kept) := by
  have hprepared := device.snapshot_prepared
  unfold readied
  dsimp only
  generalize ((device.step Controller.announceImageType).step
    (Controller.onRelays RelayBank.setUp)).step Controller.setUpLeds = prepared at hprepared ⊢
  have hsettings := settings_of_snapshot hprepared
  have hkept := kept_of_snapshot hprepared
  have hmemory := Board.memory_of_kept_eq hkept
  have hmanual : prepared.part.light.manual = device.part.settings.statusLed :=
    congrArg DeviceSettings.statusLed hsettings
  rw [snapshot_watchButtons, snapshot_setUpContacts, snapshot_loadStatusLed (hmemory ▸ h), hsettings,
    hkept, hmemory, hmanual]

theorem snapshot_recalled {size : Nat} (h : device.board.memory.unreadable = [])
    (hoff : device.part.settings.relays = List.replicate size false) :
    device.recalled.snapshot
      =
    (⟨device.part.config, (List.range size).map device.board.memory.store.relayIsOn,
      ((device.board.memory.store.record? BasicRecord Key.basic).map
        (·.networkLedOn)).getD device.part.light.manual⟩, device.board.kept) := by
  have hreadied := snapshot_readied h
  have hannounced : (device.readied.step Controller.announceTopology).snapshot
      = device.readied.snapshot := by
    apply snapshot_step _ rfl
    simp [Controller.announceTopology, Command.isForMemory]
  unfold recalled
  generalize device.readied.step Controller.announceTopology = announced at hannounced ⊢
  rw [hreadied] at hannounced
  have hsettings := settings_of_snapshot hannounced
  have hkept := kept_of_snapshot hannounced
  have hmemory := Board.memory_of_kept_eq hkept
  have hstates : announced.part.settings.relays = List.replicate size false := by
    rw [hsettings]
    exact hoff
  rw [snapshot_recallRelays (hmemory ▸ h) hstates, hsettings, hkept, hmemory]
  rfl

theorem get?_compareRole {key : Nat} (h : key ≠ Key.role) (device : Device) (role : Role) :
    (device.compareRole role).board.memory.store.get? key = device.board.memory.store.get? key := by
  rw [compareRole_eq]
  exact Board.get?_compareRole h role device.part.resets device.board

theorem settings_compareRole (device : Device) (role : Role) :
    (device.compareRole role).part.settings = device.part.settings := by
  rw [compareRole_eq]
  rfl

theorem get?_start {size key : Nat} (h : device.board.memory.unreadable = [])
    (hoff : device.part.settings.relays = List.replicate size false) (hkey : key ≠ Key.role)
    (role : Role) :
    (device.start role).board.memory.store.get? key = device.board.memory.store.get? key := by
  have hrecalled : device.recalled.board.kept = device.board.kept :=
    kept_of_snapshot (snapshot_recalled h hoff)
  have hstatus := kept_of_snapshot
    (snapshot_onStatus device.recalled device.recalled.board.network)
  rw [start_eq, get?_compareRole hkey, Board.memory_of_kept_eq (hstatus.trans hrecalled)]

theorem settings_start {size : Nat} (h : device.board.memory.unreadable = [])
    (hoff : device.part.settings.relays = List.replicate size false) (role : Role) :
    (device.start role).part.settings
      =
    ⟨device.part.config, (List.range size).map device.board.memory.store.relayIsOn,
      ((device.board.memory.store.record? BasicRecord Key.basic).map
        (·.networkLedOn)).getD device.part.light.manual⟩ := by
  have hstatus := settings_of_snapshot
    (snapshot_onStatus device.recalled device.recalled.board.network)
  rw [start_eq, settings_compareRole, hstatus]
  exact settings_of_snapshot (snapshot_recalled h hoff)

variable {board : Board} {role : Role} {blueprint : Blueprint}

theorem settings_ofConfig (text : ConfigText) (config : DeviceConfig) (topology : Topology) :
    (Controller.ofConfig text config topology).settings
      =
    ⟨config, List.replicate config.relays.length false, true⟩ := by
  have hrelays : (RelayBank.ofConfig config).states
      = List.replicate config.relays.length false := by
    unfold RelayBank.states RelayBank.ofConfig
    rw [List.map_map]
    exact List.map_const'
  rw [← hrelays]
  rfl

theorem settings_updateVersion (board : Board) (config : DeviceConfig) :
    board.updateVersion.2.memory.store.settings config = board.memory.store.settings config := by
  apply Store.settings_congr
  . intro switch _
    exact board.get?_updateVersion (by unfold Key.switch Key.basic Key.version; omega)
  . intro i _
    exact board.get?_updateVersion (by unfold Key.relay Key.basic Key.version; omega)
  . exact board.get?_updateVersion (by decide)

theorem exists_fresh_of_boot (h : boot board role = .ok device)
    (hreadable : board.memory.unreadable = []) :
    ∃ (blueprint : Blueprint) (fresh : Device),
      board.memory.store.configText.compile.1 = .ok blueprint
      ∧ device = fresh.start role
      ∧ fresh.board.memory = board.updateVersion.2.memory
      ∧ fresh.part.settings =
        { config := (board.memory.store.settings blueprint.config).config
          relays := List.replicate blueprint.config.relays.length false
          statusLed := true } := by
  obtain ⟨blueprint, hcompile, hdevice⟩ := exists_of_boot h
  have hversion := settings_updateVersion board blueprint.config
  have htext := Store.configText_congr
    (board.get?_updateVersion (by decide : Key.config ≠ Key.version))
  have hread := board.unreadable_updateVersion.trans hreadable
  generalize board.updateVersion.2 = versioned at hcompile hdevice hversion htext hread ⊢
  have hloaded := Board.memory_of_kept_eq versioned.kept_loadConfigText
  have hswitches := Board.loadSwitches_eq blueprint.config.switches versioned.loadConfigText.2
    (hloaded ▸ hread)
  refine ⟨blueprint, _, ?_, hdevice, ?_, ?_⟩
  . rw [← htext, ← Board.loadConfigText_eq hread, hcompile]
  . exact (Board.memory_of_kept_eq (Board.kept_loadSwitches _ _)).trans hloaded
  . have hconfig : startConfig blueprint versioned.loadConfigText.2
        = (board.memory.store.settings blueprint.config).config := by
      rw [← hversion, startConfig, hswitches, hloaded]
      rfl
    rw [← hconfig]
    exact settings_ofConfig _ _ _

theorem settings_of_boot (h : boot board role = .ok device)
    (hreadable : board.memory.unreadable = []) :
    ∃ blueprint, board.memory.store.configText.compile.1 = .ok blueprint
      ∧ device.part.settings = board.memory.store.settings blueprint.config
      ∧ ∀ key, key ≠ Key.version → key ≠ Key.role →
        device.board.memory.store.get? key = board.memory.store.get? key := by
  obtain ⟨blueprint, fresh, hcompile, hdevice, hmemory, hfresh⟩ := exists_fresh_of_boot h hreadable
  have hread : fresh.board.memory.unreadable = [] := by
    rw [hmemory, Board.unreadable_updateVersion, hreadable]
  have hoff := congrArg DeviceSettings.relays hfresh
  refine ⟨blueprint, hcompile, ?_, ?_⟩
  . have hconfig : fresh.part.config = (board.memory.store.settings blueprint.config).config :=
      congrArg DeviceSettings.config hfresh
    have hmanual : fresh.part.light.manual = true := congrArg DeviceSettings.statusLed hfresh
    rw [hdevice, settings_start hread hoff, hmemory, hconfig, hmanual, ← settings_updateVersion]
    rfl
  . intro key hversion hrole
    rw [hdevice, get?_start hread hoff hrole, hmemory, Board.get?_updateVersion hversion]

theorem exists_boot (hreadable : board.memory.unreadable = [])
    (hcompile : board.memory.store.configText.compile.1 = .ok blueprint) (role : Role) :
    ∃ device, boot board role = .ok device
      ∧ device.part.settings = board.memory.store.settings blueprint.config := by
  have htext : board.updateVersion.2.loadConfigText.1 = board.memory.store.configText := by
    rw [Board.loadConfigText_eq (board.unreadable_updateVersion.trans hreadable),
      Store.configText_congr (board.get?_updateVersion (by decide))]
  have hboot : ∃ device, boot board role = .ok device := by
    unfold boot
    rw [← htext] at hcompile
    dsimp only
    cases hanswer : board.updateVersion.2.loadConfigText.1.compile with
    | mk answer text =>
      rw [hanswer] at hcompile
      subst hcompile
      exact ⟨_, rfl⟩
  obtain ⟨device, hdevice⟩ := hboot
  obtain ⟨blueprint', hcompile', hsettings, _⟩ := settings_of_boot hdevice hreadable
  cases hcompile.symm.trans hcompile'
  exact ⟨device, hdevice, hsettings⟩

end Device

end WallSwitch
