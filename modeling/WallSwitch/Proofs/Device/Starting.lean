import WallSwitch.Device.Boot
import WallSwitch.Proofs.ConfigText.Compiled
import WallSwitch.Proofs.Device.Parts
import WallSwitch.Proofs.Device.Topics

/-!
This module contains the start of a device, step by step: what it makes of its configuration, and
that the parts that come out are those that the configuration describes.
-/

namespace WallSwitch

/-! ### What a board looks up -/

namespace Board

section

variable {β : Type} {f : Board → β}
variable (hload : ∀ key room, ∀ board : Board, f (board.load key room).2 = f board)
include hload

theorem loadConfigText_keeps (board : Board) : f board.loadConfigText.2 = f board := by
  have hloaded : f (board.load Key.config ConfigText.maxLength).2 = f board := hload _ _ board
  unfold loadConfigText
  dsimp only
  split
  . exact hloaded
  . exact hloaded

theorem loadSwitches_keeps (switches : List Switch) :
    ∀ board : Board, f (board.loadSwitches switches).2 = f board := by
  induction switches with
  | nil =>
    intro board
    rfl
  | cons switch switches ih =>
    intro board
    have hloaded : f (board.loadRecord SwitchRecord (Key.switch switch.index)).2 = f board :=
      hload _ _ board
    unfold loadSwitches
    dsimp only
    split
    . exact (ih _).trans hloaded
    . exact (ih _).trans hloaded

theorem updateVersion_keeps
    (hsave : ∀ key item, ∀ board : Board, f (board.perform (.save key item)) = f board)
    (board : Board) : f board.updateVersion.2 = f board := by
  have hloaded : f (board.loadRecord VersionRecord Key.version).2 = f board := hload _ _ board
  have hsaved : f ((board.loadRecord VersionRecord Key.version).2.performAll
      (Record.save Key.version (⟨settingsVersion⟩ : VersionRecord))) = f board := by
    rw [Record.save_eq]
    exact (hsave _ _ _).trans hloaded
  unfold updateVersion
  dsimp only
  split
  . split
    . exact hloaded
    . exact hsaved
  . exact hsaved

theorem lookUp_keeps
    (hsave : ∀ key item, ∀ board : Board, f (board.perform (.save key item)) = f board)
    (board : Board) : f board.updateVersion.2.loadConfigText.2 = f board :=
  (loadConfigText_keeps hload _).trans (updateVersion_keeps hload hsave board)

theorem compareRole_keeps
    (hcommand : ∀ command : Command, command.topic ∈ [.settings, .reset] →
      ∀ board : Board, f (board.perform command) = f board)
    (hleave : ∀ board : Board, f (board.perform .leaveNetwork) = f board) (role : Role)
    (timer : ResetTimer) (board : Board) : f (board.compareRole role timer).2.2 = f board := by
  have hloaded : f (board.loadRecord RoleRecord Key.role).2 = f board := hload _ _ board
  have hsaved : f ((board.loadRecord RoleRecord Key.role).2.performAll
      (Record.save Key.role (⟨role.code⟩ : RoleRecord))) = f board := by
    rw [Record.save_eq]
    exact (hcommand _ (by simp [Command.topic]) _).trans hloaded
  unfold compareRole
  dsimp only
  split
  . split
    . exact hloaded
    . rw [performAll_cons]
      refine Eq.trans ?_ ((hleave _).trans hsaved)
      apply performAll_keeps
      intro command hmem
      apply hcommand
      simp only [ResetTimer.schedule, Step.commands, List.mem_singleton] at hmem
      simp [hmem, Command.topic, Task.topic]
  . exact hsaved

end

end Board

theorem Contacts.setUpAll_keeps {β : Type} {f : Board → β} {contacts : List Contact}
    (hconfigure : ∀ pin pull, ∀ board : Board,
      f (board.perform (.configure pin (.input pull))) = f board)
    (hread : ∀ contact ∈ contacts, ∀ board : Board, f (board.read contact.button.pin).2 = f board) :
    ∀ board : Board, f (setUpAll board contacts).2 = f board := by
  induction contacts with
  | nil =>
    intro board
    rfl
  | cons contact contacts ih =>
    intro board
    rw [List.forall_mem_cons] at hread
    unfold setUpAll
    exact (ih hread.2 _).trans ((hread.1 _).trans (hconfigure _ _ board))

namespace Device

def Assembled (device : Device) (config : DeviceConfig) : Prop :=
  device.part.config = config ∧ device.part.BuiltFrom config

variable {config : DeviceConfig} {device : Device}

theorem assembled_ofConfig (text : ConfigText) (config : DeviceConfig) (topology : Topology)
    (board : Board) : Assembled ⟨.ofConfig text config topology, board⟩ config := by
  refine ⟨rfl, RelayBank.builtFrom_ofConfig config, rfl, rfl, ?_, ?_⟩
  . simp only [Controller.ofConfig, Contacts.ofConfig, List.map_map]
    exact List.map_id _
  . intro pin hmem
    simp [Controller.ofConfig, PinWatcher.pins, PinWatcher.watched, PinWatcher.empty] at hmem

namespace Assembled

theorem step (h : device.Assembled config) (next : Step Controller)
    (hstate : next.state device.part = device.part) : (device.step next).Assembled config := by
  unfold Assembled
  rw [part_step, hstate]
  exact h

theorem loadStatusLed (h : device.Assembled config) : device.loadStatusLed.Assembled config := by
  unfold Device.loadStatusLed
  dsimp only
  split
  . exact ⟨h.1, h.2.relays, h.2.leds, h.2.dedicated, h.2.buttons, h.2.watched⟩
  . exact h

theorem buttons_setUpAll (contacts : List Contact) :
    ∀ (board : Board),
      (Contacts.setUpAll board contacts).1.map (·.button) = contacts.map (·.button) := by
  induction contacts with
  | nil =>
    intro board
    rfl
  | cons contact contacts ih =>
    intro board
    unfold Contacts.setUpAll
    simp [ih]

theorem setUpContacts (h : device.Assembled config) : device.setUpContacts.Assembled config :=
  ⟨h.1, h.2.relays, h.2.leds, h.2.dedicated, (buttons_setUpAll _ _).trans h.2.buttons, h.2.watched⟩

theorem watchButton (h : device.Assembled config) (i : Nat) :
    (device.watchButton i).Assembled config := by
  unfold Device.watchButton
  split
  . exact h
  . next button hbutton =>
    split
    . next watcher board hwatch =>
      refine ⟨h.1, h.2.relays, h.2.leds, h.2.dedicated, h.2.buttons, ?_⟩
      intro pin hmem
      rcases (PinWatcher.mem_pins_watch_iff hwatch).mp hmem with hnew | hold
      . have hget : (device.part.contacts.contacts.map (·.button))[i]? = some button := by
          rw [List.getElem?_map]
          exact hbutton
        rw [h.2.buttons] at hget
        rw [hnew]
        exact List.mem_map_of_mem (List.mem_of_getElem? hget)
      . exact h.2.watched pin hold
    . exact h

theorem recallRelay (h : device.Assembled config) (i : Nat) :
    (device.recallRelay i).Assembled config := by
  unfold Device.recallRelay
  dsimp only
  split
  . split
    . exact ⟨h.1, h.2.move (device.part.relays.move_set i true)⟩
    . exact h
  . exact h

theorem onStatus (h : device.Assembled config) (status : NetworkStatus) :
    (device.step (Controller.onStatus status)).Assembled config := by
  refine ⟨?_, h.2.onStatus status⟩
  rw [part_step, Controller.onStatus, Step.state_andThen]
  split
  . exact h.1
  . exact h.1

theorem compareRole (h : device.Assembled config) (role : Role) :
    (device.compareRole role).Assembled config :=
  ⟨h.1, h.2.relays, h.2.leds, h.2.dedicated, h.2.buttons, h.2.watched⟩

theorem announceTopology (h : device.Assembled config) :
    (device.step Controller.announceTopology).Assembled config :=
  h.step _ rfl

end Assembled

/-! ### Stages of the start -/

theorem compareRole_eq (device : Device) (role : Role) :
    device.compareRole role
      =
    ⟨{ device.part with resets := (device.board.compareRole role device.part.resets).2.1 },
      (device.board.compareRole role device.part.resets).2.2⟩ := by
  unfold compareRole
  obtain ⟨_, _, _⟩ := device.board.compareRole role device.part.resets
  rfl

def readied (device : Device) : Device :=
  let device := device.step Controller.announceImageType
  let device := device.step (Controller.onRelays RelayBank.setUp)
  let device := device.step Controller.setUpLeds
  device.loadStatusLed.setUpContacts.watchButtons

/--
The device before it looks at its contacts.
-/
def prepared (device : Device) : Device :=
  (((device.step Controller.announceImageType).step (Controller.onRelays RelayBank.setUp)).step
    Controller.setUpLeds).loadStatusLed

theorem readied_eq (device : Device) :
    device.readied = device.prepared.setUpContacts.watchButtons := rfl

/--
The device before it looks at the network.
-/
def recalled (device : Device) : Device :=
  (device.readied.step Controller.announceTopology).recallRelays

theorem start_eq (device : Device) (role : Role) :
    device.start role
      =
    (device.recalled.step (Controller.onStatus device.recalled.board.network)).compareRole role := by
  unfold start recalled readied
  dsimp only

section Parts

variable {β : Type} {f : Controller → β}

theorem prepared_keeps_part
    (h : ∀ controller light, f { controller with light := light } = f controller)
    (device : Device) : f device.prepared.part = f device.part := by
  unfold prepared loadStatusLed
  dsimp only
  split
  . exact h _ _
  . rfl

theorem watchButtons_keeps_part
    (h : ∀ controller watcher, f { controller with watcher := watcher } = f controller)
    (device : Device) : f device.watchButtons.part = f device.part := by
  refine List.foldlRecOn (motive := fun next : Device => f next.part = f device.part) _ _ rfl ?_
  intro next hnext i _
  unfold watchButton
  split
  . exact hnext
  . split
    . exact (h _ _).trans hnext
    . exact hnext

theorem recallRelays_keeps_part
    (h : ∀ controller relays, f { controller with relays := relays } = f controller)
    (device : Device) : f device.recallRelays.part = f device.part := by
  refine List.foldlRecOn (motive := fun next : Device => f next.part = f device.part) _ _ rfl ?_
  intro next hnext i _
  unfold recallRelay
  dsimp only
  split
  . split
    . exact (h _ _).trans hnext
    . exact hnext
  . exact hnext

end Parts

theorem Assembled.watchButtons (h : device.Assembled config) :
    device.watchButtons.Assembled config :=
  List.foldlRecOn (motive := fun device => Assembled device config) _ _ h
    fun _ hdevice i _ => Assembled.watchButton hdevice i

theorem Assembled.recallRelays (h : device.Assembled config) :
    device.recallRelays.Assembled config :=
  List.foldlRecOn (motive := fun device => Assembled device config) _ _ h
    fun _ hdevice i _ => Assembled.recallRelay hdevice i

theorem Assembled.prepared (h : device.Assembled config) : device.prepared.Assembled config := by
  have himage := h.step Controller.announceImageType rfl
  have hrelays := himage.step (Controller.onRelays RelayBank.setUp) rfl
  have hleds := hrelays.step Controller.setUpLeds rfl
  exact hleds.loadStatusLed

theorem Assembled.readied (h : device.Assembled config) : device.readied.Assembled config :=
  h.prepared.setUpContacts.watchButtons

theorem Assembled.recalled (h : device.Assembled config) : device.recalled.Assembled config :=
  h.readied.announceTopology.recallRelays

theorem Assembled.start (h : device.Assembled config) (role : Role) :
    (device.start role).Assembled config := by
  rw [start_eq]
  exact (h.recalled.onStatus _).compareRole role

/-! ### Booting -/

theorem loadSwitches_map_place (switches : List Switch) :
    ∀ (board : Board), (board.loadSwitches switches).1.map (·.place) = switches.map (·.place) := by
  induction switches with
  | nil =>
    intro board
    rfl
  | cons switch switches ih =>
    intro board
    unfold Board.loadSwitches
    dsimp only
    split
    . rw [List.map_cons, List.map_cons, ih]
      rfl
    . rw [List.map_cons, List.map_cons, ih]

/--
The configuration that a device starts with: that of its text, with the settings of switches that are
kept.
-/
def startConfig (blueprint : Blueprint) (board : Board) : DeviceConfig :=
  { blueprint.config with switches := (board.loadSwitches blueprint.config.switches).1 }

theorem exists_of_map_boot {board : Board} {role : Role} {α : Type} {f : Device → α} {a : α}
    (h : (boot board role).toOption.map f = some a) :
    ∃ device, boot board role = .ok device ∧ f device = a := by
  cases hboot : boot board role with
  | error error =>
    rw [hboot] at h
    cases h
  | ok device =>
    rw [hboot] at h
    exact ⟨device, rfl, Option.some.inj h⟩

theorem exists_of_boot {board : Board} {role : Role} (h : boot board role = .ok device) :
    ∃ blueprint, board.updateVersion.2.loadConfigText.1.compile.1 = .ok blueprint
      ∧ device = start ⟨.ofConfig board.updateVersion.2.loadConfigText.1.compile.2
          (startConfig blueprint board.updateVersion.2.loadConfigText.2) blueprint.topology,
        (board.updateVersion.2.loadConfigText.2.loadSwitches blueprint.config.switches).2⟩ role := by
  unfold boot at h
  dsimp only at h
  split at h
  . cases h
  . next blueprint text hcompile =>
    refine ⟨blueprint, congrArg Prod.fst hcompile, ?_⟩
    rw [hcompile, startConfig]
    dsimp only
    exact (Except.ok.inj h).symm

theorem exists_assembled_keeping_of_boot {β : Type} {f : Board → β}
    (hload : ∀ key room, ∀ board : Board, f (board.load key room).2 = f board)
    (hsave : ∀ key item, ∀ board : Board, f (board.perform (.save key item)) = f board)
    {board : Board} {role : Role} (h : boot board role = .ok device) :
    ∃ fresh : Device, fresh.Assembled device.part.config ∧ fresh.part.watcher.watched = []
      ∧ f fresh.board = f board ∧ device = fresh.start role := by
  obtain ⟨blueprint, _, hdevice⟩ := exists_of_boot h
  have hfresh := assembled_ofConfig board.updateVersion.2.loadConfigText.1.compile.2
    (startConfig blueprint board.updateVersion.2.loadConfigText.2) blueprint.topology
    (board.updateVersion.2.loadConfigText.2.loadSwitches blueprint.config.switches).2
  have hconfig := (hfresh.start role).1
  rw [← hdevice] at hconfig
  rw [hconfig]
  exact ⟨_, hfresh, rfl, (Board.loadSwitches_keeps hload blueprint.config.switches _).trans
    (Board.lookUp_keeps hload hsave board), hdevice⟩

theorem exists_assembled_of_boot {board : Board} {role : Role} (h : boot board role = .ok device) :
    ∃ fresh : Device, fresh.Assembled device.part.config ∧ fresh.part.watcher.watched = []
      ∧ fresh.board.bounces = board.bounces ∧ device = fresh.start role :=
  exists_assembled_keeping_of_boot (fun _ _ _ => rfl) (fun _ _ board => board.bounces_perform _) h

theorem builtFrom_of_boot {board : Board} {role : Role} (h : boot board role = .ok device) :
    device.part.BuiltFrom device.part.config := by
  obtain ⟨fresh, hfresh, _, _, hdevice⟩ := exists_assembled_of_boot h
  have hstarted := hfresh.start role
  rw [← hdevice] at hstarted
  exact hstarted.2

theorem config_of_boot {board : Board} {role : Role} (h : boot board role = .ok device) :
    ∃ (text : ConfigText) (blueprint : Blueprint) (switches : List Switch),
      text.compile.1 = .ok blueprint
        ∧ switches.map (·.place) = blueprint.config.switches.map (·.place)
        ∧ device.part.config = { blueprint.config with switches := switches } := by
  obtain ⟨blueprint, hcompile, hdevice⟩ := exists_of_boot h
  refine ⟨_, blueprint, _, hcompile,
    loadSwitches_map_place _ board.updateVersion.2.loadConfigText.2, ?_⟩
  rw [hdevice]
  exact ((assembled_ofConfig _ _ _ _).start role).1

theorem numbered_of_boot {board : Board} {role : Role} (h : boot board role = .ok device) :
    device.part.config.Numbered := by
  obtain ⟨text, blueprint, switches, hcompile, hswitches, hconfig⟩ := config_of_boot h
  have hnumbered := ConfigText.numbered_of_compile hcompile
  have hlength := congrArg List.length hswitches
  rw [List.length_map, List.length_map] at hlength
  have hindices := congrArg (List.map Prod.fst) hswitches
  rw [List.map_map, List.map_map] at hindices
  rw [hconfig]
  refine ⟨?_, hnumbered.relays⟩
  rw [hlength, ← hnumbered.switches]
  exact hindices

theorem paired_of_boot {board : Board} {role : Role} (h : boot board role = .ok device) :
    device.part.config.Paired := by
  obtain ⟨text, blueprint, switches, hcompile, hswitches, hconfig⟩ := config_of_boot h
  have hbuttons := congrArg (List.map Prod.snd) hswitches
  rw [List.map_map, List.map_map] at hbuttons
  rw [hconfig]
  intro i button
  rw [← ConfigText.paired_of_compile hcompile i button]
  exact iff_of_eq (congrArg (fun buttons => buttons[i]? = some button) hbuttons)

theorem count_le_of_boot {board : Board} {role : Role} (h : boot board role = .ok device)
    (kind : Peripherals) : device.part.config.count kind ≤ 5 := by
  obtain ⟨text, blueprint, switches, hcompile, hswitches, hconfig⟩ := config_of_boot h
  have hlength := congrArg List.length hswitches
  rw [List.length_map, List.length_map] at hlength
  have hcount := ConfigText.count_le_of_compile hcompile kind
  rw [hconfig]
  cases kind with
  | switches => exact hlength.trans_le hcount
  | _ => exact hcount

theorem ledsAssigned_of_boot {board : Board} {role : Role} (h : boot board role = .ok device) :
    ∃ shown, device.part.config.LedsAssigned shown := by
  obtain ⟨text, blueprint, switches, hcompile, _, hconfig⟩ := config_of_boot h
  obtain ⟨shown, hassigned⟩ := ConfigText.ledsAssigned_of_compile hcompile
  rw [hconfig]
  exact ⟨shown, hassigned.nodup, hassigned.inRange, hassigned.length_le, hassigned.indicators,
    hassigned.dedicated, hassigned.borrowed⟩

end Device

end WallSwitch
