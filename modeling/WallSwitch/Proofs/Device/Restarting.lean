import WallSwitch.Proofs.Device.Recalling

/-!
This module contains that a device that is started again comes back as it was. Whatever changes a
setting also keeps it, under a key that nothing else is kept under.
-/

namespace WallSwitch

theorem RelayBank.states_observe (bank : RelayBank) (i param : Nat) :
    ((observe i param).step.state bank).states = bank.states :=
  map_observe bank i param fun _ => rfl

/-! ### What is kept of a single setting -/

namespace Store

variable {store next : Store} {config : DeviceConfig}

theorem recalled_of_record {switch new : Switch}
    (hsaved : store.record? SwitchRecord (Key.switch switch.index)
      = some (Controller.recordOf new))
    (hindex : new.index = switch.index) (hbutton : new.button = switch.button) :
    store.recalled switch = new := by
  unfold recalled
  rw [hsaved, Option.map_some, Option.getD_some]
  cases new
  cases hindex
  cases hbutton
  simp [Controller.applyRecord, Controller.recordOf]

theorem index_recalled (store : Store) (switch : Switch) :
    (store.recalled switch).index = switch.index := by
  unfold recalled
  cases store.record? SwitchRecord (Key.switch switch.index) <;> rfl

theorem button_recalled (store : Store) (switch : Switch) :
    (store.recalled switch).button = switch.button := by
  unfold recalled
  cases store.record? SwitchRecord (Key.switch switch.index) <;> rfl

theorem settings_of_save_relay {i : Nat} {on : Bool} (hnumbered : config.Numbered)
    (hlength : config.switches.length ≤ 5)
    (hother : ∀ key, key ≠ Key.relay i → next.get? key = store.get? key)
    (hsaved : next.record? RelayRecord (Key.relay i) = some ⟨on⟩) :
    next.settings config
      =
    { store.settings config with relays := (store.settings config).relays.set i on } := by
  have hrecalled : config.switches.map next.recalled = config.switches.map store.recalled := by
    apply map_recalled_congr
    intro switch hmem
    have hlt := hnumbered.index_lt hmem
    exact hother _ (by unfold Key.switch Key.relay; omega)
  have hrelays : (List.range config.relays.length).map next.relayIsOn
      = ((List.range config.relays.length).map store.relayIsOn).set i on := by
    apply List.ext_getElem (by simp)
    intro j _ _
    by_cases hij : i = j
    . subst hij
      simp [relayIsOn, hsaved]
    . rw [List.getElem_set_ne hij, List.getElem_map, List.getElem_map]
      exact relayIsOn_congr (hother _ (by unfold Key.relay; rw [List.getElem_range]; omega))
  have hstatusLed : next.statusLedIsOn = store.statusLedIsOn :=
    statusLedIsOn_congr (hother _ (by unfold Key.relay; omega))
  unfold settings
  rw [hrecalled, hrelays, hstatusLed]

theorem settings_of_save_switch {i : Nat} {new : Switch} (hi : i < 5)
    (hnumbered : config.Numbered)
    (hother : ∀ key, key ≠ Key.switch i → next.get? key = store.get? key)
    (hsaved : next.record? SwitchRecord (Key.switch i) = some (Controller.recordOf new))
    (hnew : ∀ switch, (store.settings config).config.switches[i]? = some switch →
      new.index = switch.index ∧ new.button = switch.button) :
    next.settings config
      =
    { store.settings config with
      config := { (store.settings config).config with
        switches := (store.settings config).config.switches.set i new } } := by
  have hrecalled : config.switches.map next.recalled
      = (config.switches.map store.recalled).set i new := by
    apply List.ext_getElem (by simp)
    intro j hj _
    rw [List.length_map] at hj
    have hget : config.switches[j]? = some config.switches[j] := List.getElem?_eq_getElem hj
    have hplace := hnumbered.index_switch hget
    by_cases hij : i = j
    . subst hij
      rw [List.getElem_set_self, List.getElem_map]
      obtain ⟨hnewIndex, hnewButton⟩ := hnew (store.recalled config.switches[i]) (by
        unfold settings
        rw [List.getElem?_map, hget]
        rfl)
      rw [index_recalled] at hnewIndex
      rw [button_recalled] at hnewButton
      exact recalled_of_record (by rw [hplace, hsaved]) hnewIndex hnewButton
    . rw [List.getElem_set_ne hij, List.getElem_map, List.getElem_map]
      apply recalled_congr
      rw [hplace]
      exact hother _ (by unfold Key.switch; omega)
  have hrelays : (List.range config.relays.length).map next.relayIsOn
      = (List.range config.relays.length).map store.relayIsOn :=
    map_relayIsOn_congr fun j _ => hother _ (by unfold Key.switch Key.relay; omega)
  have hstatusLed : next.statusLedIsOn = store.statusLedIsOn :=
    statusLedIsOn_congr (hother _ (by unfold Key.switch; omega))
  unfold settings
  rw [hrecalled, hrelays, hstatusLed]

theorem settings_of_save_basic {on : Bool}
    (hother : ∀ key, key ≠ Key.basic → next.get? key = store.get? key)
    (hsaved : next.record? BasicRecord Key.basic = some ⟨on⟩) :
    next.settings config = { store.settings config with statusLed := on } := by
  have hswitches : config.switches.map next.recalled = config.switches.map store.recalled :=
    map_recalled_congr fun switch _ => hother _ (by unfold Key.switch; omega)
  have hrelays : (List.range config.relays.length).map next.relayIsOn
      = (List.range config.relays.length).map store.relayIsOn :=
    map_relayIsOn_congr fun i _ => hother _ (by unfold Key.relay; omega)
  have hon : next.statusLedIsOn = on := by
    unfold statusLedIsOn
    rw [hsaved]
    rfl
  unfold settings
  rw [hswitches, hrelays, hon]

end Store

theorem Board.stored_of_save {α : Type} [Record α] [LawfulRecord α] {board : Board} {key : Nat}
    {record : α} {quiet : List Command} (hquiet : ∀ command ∈ quiet, command.isForMemory = false)
    (hlost : (board.performAll (quiet ++ Record.save key record)).lostSaves = board.lostSaves) :
    (∀ other, other ≠ key →
        (board.performAll (quiet ++ Record.save key record)).memory.store.get? other
          = board.memory.store.get? other)
      ∧ (board.performAll (quiet ++ Record.save key record)).memory.store.record? α key
        = some record := by
  have hkept := kept_performAll hquiet board
  rw [performAll_append] at hlost ⊢
  constructor
  . intro other hother
    rw [get?_save_of_ne hother, memory_of_kept_eq hkept]
  . exact record?_save record (hlost.trans (lostSaves_of_kept_eq hkept).symm)

theorem Board.memory_powerCycle (board : Board) : board.powerCycle.memory = board.memory := rfl

namespace Controller

structure KeptOn (controller : Controller) (board : Board) (blueprint : Blueprint) : Prop where
  text : board.memory.store.configText.compile.1 = .ok blueprint
  settings : controller.settings = board.memory.store.settings blueprint.config

variable {controller next : Controller} {board board' : Board} {blueprint : Blueprint}
variable {commands : List Command}

namespace KeptOn

theorem of_store_eq (h : controller.KeptOn board blueprint)
    (hsettings : next.settings = controller.settings)
    (hstore : board'.memory.store = board.memory.store) : next.KeptOn board' blueprint :=
  ⟨hstore ▸ h.text, by rw [hsettings, hstore, h.settings]⟩

theorem of_kept_eq (h : controller.KeptOn board blueprint)
    (hsettings : next.settings = controller.settings) (hkept : board'.kept = board.kept) :
    next.KeptOn board' blueprint := by
  apply h.of_store_eq hsettings
  rw [Board.memory_of_kept_eq hkept]

theorem performAll (h : controller.KeptOn board blueprint)
    (hsettings : next.settings = controller.settings)
    (hcommands : ∀ command ∈ commands, command.isForMemory = false) :
    next.KeptOn (board.performAll commands) blueprint :=
  h.of_kept_eq hsettings (Board.kept_performAll hcommands board)

theorem of_save (h : controller.KeptOn board blueprint) {key : Nat} (hkey : Key.config ≠ key)
    (hother : ∀ other, other ≠ key →
      board'.memory.store.get? other = board.memory.store.get? other)
    (hsettings : next.settings = board'.memory.store.settings blueprint.config) :
    next.KeptOn board' blueprint where
  text := by
    rw [Store.configText_congr (hother Key.config hkey)]
    exact h.text
  settings := hsettings

theorem length_switches_le (h : controller.KeptOn board blueprint) :
    blueprint.config.switches.length ≤ 5 :=
  ConfigText.count_le_of_compile h.text .switches

theorem setRelay (h : controller.KeptOn board blueprint) (i : Nat) (on : Bool)
    (hlost : (board.performAll ((setRelay i on).commands controller)).lostSaves = board.lostSaves) :
    ((setRelay i on).state controller).KeptOn
      (board.performAll ((Controller.setRelay i on).commands controller)) blueprint := by
  unfold Controller.setRelay at hlost ⊢
  rw [Step.commands_choose] at hlost
  rw [Step.state_choose, Step.commands_choose]
  by_cases hi : i < controller.relays.size
  . rw [if_pos hi] at hlost ⊢
    have hquiet : ∀ command ∈ (onRelays (RelayBank.set i on)).commands controller,
        command.isForMemory = false := (controller.relays.move_set i on).isForMemory
    obtain ⟨hother, hsaved⟩ := Board.stored_of_save hquiet hlost
    have hstored := Store.settings_of_save_relay (ConfigText.numbered_of_compile h.text)
      h.length_switches_le hother hsaved
    apply h.of_save (by unfold Key.config Key.relay Key.basic; omega) hother
    rw [hstored, ← h.settings]
    change DeviceSettings.mk _ ((RelayBank.set i on).state controller.relays).states _ = _
    rw [RelayBank.states_set]
    rfl
  . rw [if_neg hi]
    exact h

theorem chooseStatusLed (h : controller.KeptOn board blueprint) (on : Bool)
    (hlost : (board.performAll ((chooseStatusLed on).commands controller)).lostSaves
      = board.lostSaves) :
    ((chooseStatusLed on).state controller).KeptOn
      (board.performAll ((Controller.chooseStatusLed on).commands controller)) blueprint := by
  unfold Controller.chooseStatusLed at hlost ⊢
  rw [Step.commands_andThen] at hlost ⊢
  have hquiet : ∀ command ∈ (onLight (StatusLight.setManual on)).commands controller,
      command.isForMemory = false := StatusLight.isForMemory_refresh
  obtain ⟨hother, hsaved⟩ := Board.stored_of_save hquiet hlost
  apply h.of_save (by decide) hother
  rw [Store.settings_of_save_basic hother hsaved, ← h.settings]
  rfl

theorem changeSwitch (h : controller.KeptOn board blueprint) (i : Nat) {change : Switch → Switch}
    (hchange : ∀ switch, (change switch).index = switch.index
      ∧ (change switch).button = switch.button)
    (hlost : (board.performAll ((changeSwitch i change).step.commands controller)).lostSaves
      = board.lostSaves) :
    ((changeSwitch i change).step.state controller).KeptOn
      (board.performAll ((Controller.changeSwitch i change).step.commands controller)) blueprint := by
  have hswitches : controller.config.switches
      = (board.memory.store.settings blueprint.config).config.switches := by
    rw [← h.settings]
    rfl
  simp only [Controller.changeSwitch, Request.step, Step.state, Step.commands] at hlost ⊢
  cases hget : controller.switch? i with
  | none => exact h
  | some switch =>
    rw [hget] at hlost
    dsimp only at hlost ⊢
    have hi : i < 5 := by
      have hlt : i < controller.config.switches.length := (List.getElem?_eq_some_iff.mp hget).1
      rw [hswitches, Store.settings, List.length_map] at hlt
      exact Nat.lt_of_lt_of_le hlt h.length_switches_le
    have hquiet : ∀ command ∈ ([] : List Command), command.isForMemory = false := by simp
    obtain ⟨hother, hsaved⟩ := Board.stored_of_save hquiet hlost
    have hstored := Store.settings_of_save_switch hi (ConfigText.numbered_of_compile h.text) hother
      hsaved (by
        intro old hold
        rw [← hswitches] at hold
        cases hget.symm.trans hold
        exact hchange switch)
    apply h.of_save (by unfold Key.config Key.switch Key.basic; omega) hother
    rw [hstored, ← h.settings]
    rfl

theorem onEdge (h : controller.KeptOn board blueprint) :
    ((onWatcher PinWatcher.onEdge).state controller).KeptOn
      (board.performAll ((onWatcher PinWatcher.onEdge).commands controller)) blueprint := by
  have hquiet : ∀ command ∈ (onWatcher PinWatcher.onEdge).commands controller,
      command.isForMemory = false := PinWatcher.isForMemory_onEdge
  exact h.performAll rfl hquiet

theorem reaction (hreaction : Reaction controller next commands) :
    ∀ (board : Board), controller.KeptOn board blueprint →
      (board.performAll commands).lostSaves = board.lostSaves →
        next.KeptOn (board.performAll commands) blueprint := by
  have hmessages {commands : List Command} (h : ∀ command ∈ commands, command.isMessage = true) :
      ∀ command ∈ commands, command.isForMemory = false := by
    intro command hmem
    have hmessage := h command hmem
    cases command with
    | save | erase => cases hmessage
    | _ => rfl
  induction hreaction with
  | rest =>
    intro board h _
    exact h
  | setRelay controller i on =>
    intro board h hlost
    exact h.setRelay i on hlost
  | tell controller hcommands =>
    intro board h _
    exact h.performAll rfl (hmessages hcommands)
  | note controller contacts longPressed hcontacts =>
    intro board h _
    exact h.of_kept_eq rfl rfl
  | askReset controller resets hcommands =>
    intro board h _
    exact h.performAll rfl (hmessages hcommands)
  | @trans _ _ _ first second _ _ ih ihnext =>
    intro board h hlost
    rw [Board.performAll_append] at hlost ⊢
    -- Saves that are lost stay lost, so neither part loses one if both together do not.
    have hfirst := Board.lostSaves_le_performAll first board
    have hsecond := Board.lostSaves_le_performAll second (board.performAll first)
    exact ihnext _ (ih board h (by omega)) (by omega)

theorem call (h : controller.KeptOn board blueprint) {asked : DeviceCall}
    (hkeeps : ∀ call, asked ≠ .bank call)
    (hlost : (board.performAll (asked.step.commands controller)).lostSaves = board.lostSaves) :
    (asked.step.state controller).KeptOn (board.performAll (asked.step.commands controller))
      blueprint := by
  cases asked with
  | setRelay i on => exact h.setRelay i on hlost
  | toggleRelay i => exact h.setRelay i _ hlost
  | onStatus status => exact h.performAll settings_onStatus isForMemory_onStatus
  | chooseStatusLed on => exact h.chooseStatusLed on hlost
  | changeSwitch i change =>
    rw [DeviceCall.step_changeSwitch] at hlost ⊢
    refine h.changeSwitch i ?_ hlost
    intro switch
    cases change <;> exact ⟨rfl, rfl⟩
  | bank asked => exact absurd rfl (hkeeps asked)
  | observe i param =>
    apply h.performAll
    . change DeviceSettings.mk _ ((RelayBank.observe i param).step.state controller.relays).states _
        = _
      rw [RelayBank.states_observe]
      rfl
    . simp
  | onEdge => exact h.onEdge

end KeptOn

end Controller

/--
The event leaves the configuration text alone, fires no reset, and does not ask the relays past the
device.
-/
def DeviceEvent.IsOrdinary : DeviceEvent → Prop
  | .reconfigure _ => False
  | .fire task _ => task ≠ .reset
  | .call asked => ∀ call, asked ≠ .bank call
  | .input .. | .board _ => True

namespace Device

variable {device : Device} {board : Board} {role : Role} {blueprint : Blueprint}

theorem kept_begun (device : Device) (task : Task) (time : Nat) :
    (device.begun task time).board.kept = device.board.kept :=
  Board.kept_record rfl _

theorem kept_passed (device : Device) : device.passed.board.kept = device.board.kept :=
  device.part.watcher.kept_pass device.board

theorem lostSaves_le_step (device : Device) (next : Step Controller) :
    device.board.lostSaves ≤ (device.step next).board.lostSaves :=
  Board.lostSaves_le_performAll _ device.board

theorem lostSaves_le_fire (device : Device) (task : Task) :
    device.board.lostSaves ≤ (device.fire task).board.lostSaves := by
  cases task with
  | settle =>
    obtain ⟨commands, _, hboard⟩ := device.exists_reaction_settle
    have hsettle : (device.fire .settle).board = device.passed.board.performAll commands := hboard
    rw [hsettle, ← Board.lostSaves_of_kept_eq device.kept_passed]
    exact Board.lostSaves_le_performAll commands _
  | _ => exact lostSaves_le_step device _

theorem lostSaves_le_happen (device : Device) (event : DeviceEvent) :
    device.board.lostSaves ≤ (device.happen event).board.lostSaves := by
  cases event with
  | call asked => exact lostSaves_le_step device _
  | reconfigure bytes =>
    simp only [happen, reconfigure]
    cases ConfigText.ofBytes bytes with
    | error error => exact Nat.le_refl _
    | ok text => exact lostSaves_le_step device _
  | fire task time =>
    rw [← Board.lostSaves_of_kept_eq (device.kept_begun task time)]
    exact lostSaves_le_fire (device.begun task time) task
  | input pin high =>
    simp only [happen, input, Wired.input]
    split
    . exact Board.lostSaves_le_performAll _ (device.board.setLevel pin high)
    . exact Nat.le_refl _
  | board event => cases event <;> exact Nat.le_refl _

theorem lostSaves_le_after (events : List DeviceEvent) :
    ∀ (device : Device), device.board.lostSaves ≤ (device.after events).board.lostSaves := by
  induction events with
  | nil =>
    intro device
    exact Nat.le_refl _
  | cons event events ih =>
    intro device
    exact Nat.le_trans (lostSaves_le_happen device event) (ih _)

theorem keptOn_fire (h : device.part.KeptOn device.board blueprint) {task : Task}
    (htask : task ≠ .reset) (hlost : (device.fire task).board.lostSaves = device.board.lostSaves) :
    (device.fire task).part.KeptOn (device.fire task).board blueprint := by
  cases task with
  | relayPulse i =>
    have hmove := device.part.relays.move_continuePulse i
    refine h.performAll ?_ hmove.isForMemory
    change DeviceSettings.mk _ ((RelayBank.continuePulse i).state device.part.relays).states _ = _
    rw [hmove.states_eq]
    rfl
  | settle =>
    obtain ⟨commands, hreaction, hboard⟩ := device.exists_reaction_settle
    have hsettle : (device.fire .settle).board = device.passed.board.performAll commands := hboard
    have hpassed : device.passed.part.KeptOn device.passed.board blueprint :=
      h.of_kept_eq rfl device.kept_passed
    rw [hsettle] at hlost ⊢
    rw [← Board.lostSaves_of_kept_eq device.kept_passed] at hlost
    exact Controller.KeptOn.reaction hreaction device.passed.board hpassed hlost
  | buttonHold i =>
    exact Controller.KeptOn.reaction (Controller.reacts_onHoldElapsed i) device.board h hlost
  | reset => exact absurd rfl htask

theorem keptOn_happen (h : device.part.KeptOn device.board blueprint) {event : DeviceEvent}
    (hevent : event.IsOrdinary)
    (hlost : (device.happen event).board.lostSaves = device.board.lostSaves) :
    (device.happen event).part.KeptOn (device.happen event).board blueprint := by
  cases event with
  | call asked => exact h.call hevent hlost
  | reconfigure bytes => exact hevent.elim
  | fire task time =>
    have hbegun : (device.begun task time).part.KeptOn (device.begun task time).board blueprint :=
      h.of_kept_eq rfl (device.kept_begun task time)
    rw [← Board.lostSaves_of_kept_eq (device.kept_begun task time)] at hlost
    exact keptOn_fire hbegun hevent hlost
  | input pin high =>
    have hchanged : device.part.KeptOn (device.board.setLevel pin high) blueprint :=
      h.of_store_eq rfl rfl
    simp only [happen, input, Wired.input]
    split
    . exact hchanged.onEdge
    . exact hchanged
  | board event => cases event <;> exact h.of_store_eq rfl rfl

theorem keptOn_after (events : List DeviceEvent) :
    ∀ (device : Device), device.part.KeptOn device.board blueprint →
      (∀ event ∈ events, event.IsOrdinary) →
        (device.after events).board.lostSaves = device.board.lostSaves →
          (device.after events).part.KeptOn (device.after events).board blueprint := by
  induction events with
  | nil =>
    intro device h _ _
    exact h
  | cons event events ih =>
    intro device h hordinary hlost
    rw [List.forall_mem_cons] at hordinary
    rw [after_cons] at hlost ⊢
    have hfirst := lostSaves_le_happen device event
    have hlater := lostSaves_le_after events (device.happen event)
    exact ih _ (keptOn_happen h hordinary.1 (by omega)) hordinary.2 (by omega)

theorem keptOn_of_boot (h : boot board role = .ok device) (hreadable : board.memory.unreadable = []) :
    ∃ blueprint, device.part.KeptOn device.board blueprint := by
  obtain ⟨blueprint, hcompile, hsettings, hget⟩ := settings_of_boot h hreadable
  have hnumbered := ConfigText.numbered_of_compile hcompile
  have hswitches : blueprint.config.switches.length ≤ 5 :=
    ConfigText.count_le_of_compile hcompile .switches
  have hrelays : blueprint.config.relays.length ≤ 5 :=
    ConfigText.count_le_of_compile hcompile .relays
  have htext := Store.configText_congr (hget Key.config (by decide) (by decide))
  refine ⟨blueprint, by rw [htext, hcompile], ?_⟩
  rw [hsettings]
  symm
  apply Store.settings_congr
  . intro switch hmem
    have hlt := hnumbered.index_lt hmem
    unfold Key.switch Key.basic
    exact hget _ (by unfold Key.version; omega) (by unfold Key.role; omega)
  . intro i hi
    unfold Key.relay Key.basic
    exact hget _ (by unfold Key.version; omega) (by unfold Key.role; omega)
  . exact hget _ (by decide) (by decide)

/--
A device that is started again, on any board with the settings memory that the first run left behind
and in any role, comes back with the configuration, the relays and the status LED that it had. The
settings memory may have held anything when the device was first started.
-/
theorem restart_restores (hboot : boot board role = .ok device)
    (hreadable : board.memory.unreadable = []) {events : List DeviceEvent}
    (hordinary : ∀ event ∈ events, event.IsOrdinary)
    (hsaved : (device.after events).board.lostSaves = device.board.lostSaves) {board' : Board}
    (hstore : board'.memory.store = (device.after events).board.memory.store)
    (hreadable' : board'.memory.unreadable = []) (role' : Role) :
    ∃ device', boot board' role' = .ok device'
      ∧ device'.part.config = (device.after events).part.config
      ∧ device'.part.relays.states = (device.after events).part.relays.states
      ∧ device'.part.light.manual = (device.after events).part.light.manual := by
  obtain ⟨blueprint, hkept⟩ := keptOn_of_boot hboot hreadable
  obtain ⟨htext, hsettings⟩ := keptOn_after events device hkept hordinary hsaved
  rw [← hstore] at htext hsettings
  obtain ⟨device', hdevice', hrestored⟩ := exists_boot hreadable' htext role'
  have hsame := hrestored.trans hsettings.symm
  exact ⟨device', hdevice', congrArg DeviceSettings.config hsame,
    congrArg DeviceSettings.relays hsame, congrArg DeviceSettings.statusLed hsame⟩

theorem restart_restores_after_flip :
    let store : Store := ⟨16, 256, [(Key.config, Bytes.ascii "Acme;ACME-1;SA1u;RA0;IC0;LD0;"),
      (Key.switch 0, [1, 2, 3])]⟩
    let board := Board.idle [] .joined (.sound store)
    let events := [.call (.changeSwitch 0 (.longPressMs 1234)), .input (.line 0 1) true,
      .fire .settle 3, .call (.chooseStatusLed false)]
    ∃ device device', boot board .router = .ok device
      ∧ boot (device.after events).board.powerCycle .endDevice = .ok device'
      ∧ device'.part.config.switches.map (·.longPressMs) = [1234]
      ∧ device'.part.relays.states = [true] ∧ device'.part.light.manual = false := by
  intro store board events
  have hfacts : (boot board .router).toOption.map (fun device =>
      ((device.after events).part.config.switches.map (·.longPressMs),
        (device.after events).part.relays.states, (device.after events).part.light.manual,
        (device.after events).board.memory.unreadable,
        decide ((device.after events).board.lostSaves = device.board.lostSaves)))
        =
      some ([1234], [true], false, [], true) := by
    decide +kernel
  obtain ⟨device, hboot, hdevice⟩ := exists_of_map_boot hfacts
  simp only [Prod.mk.injEq, decide_eq_true_eq] at hdevice
  obtain ⟨hswitches, hstates, hmanual, hreadable, hsaved⟩ := hdevice
  have hordinary : ∀ event ∈ events, event.IsOrdinary := by
    simp [events, DeviceEvent.IsOrdinary]
  have hmemory := (device.after events).board.memory_powerCycle
  obtain ⟨device', hdevice', hconfig, hrelays, hlight⟩ := restart_restores hboot rfl hordinary hsaved
    (congrArg SettingsMemory.store hmemory) (by rw [hmemory, hreadable]) .endDevice
  exact ⟨device, device', hboot, hdevice', by rw [hconfig, hswitches], by rw [hrelays, hstates],
    by rw [hlight, hmanual]⟩

end Device

end WallSwitch
