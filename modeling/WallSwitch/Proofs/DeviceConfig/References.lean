import WallSwitch.Proofs.DeviceConfig.Capacity
import WallSwitch.Proofs.DeviceConfig.Leds

/-!
This module contains how the parts of a configuration refer to each other. They do so rightly
whatever peripherals were added, and whichever of them there was no room for.
-/

namespace WallSwitch

namespace Peripheral

def contact? : Peripheral → Option (Pin × Pull)
  | .switch pin pull => some (pin, pull)
  | _ => none

def relayPins? : Peripheral → Option (Pin × Option Pin)
  | .relay pin offPin? => some (pin, offPin?)
  | _ => none

end Peripheral

namespace DeviceConfig

def addIfRoom (config : DeviceConfig) (peripheral : Peripheral) : DeviceConfig :=
  match config.add peripheral with
  | .ok config' => config'
  | .error _ => config

def addAllIfRoom (config : DeviceConfig) (peripherals : List Peripheral) : DeviceConfig :=
  peripherals.foldl addIfRoom config

/--
The peripherals that there is room for, if they are added one after the other.
-/
def accepted (config : DeviceConfig) : List Peripheral → List Peripheral
  | [] => []
  | peripheral :: peripherals =>
    match config.add peripheral with
    | .ok config' => peripheral :: config'.accepted peripherals
    | .error _ => config.accepted peripherals

variable {config config' : DeviceConfig} {before peripherals : List Peripheral}
variable {peripheral : Peripheral}

theorem foldlM_accepted (peripherals : List Peripheral) :
    ∀ (config : DeviceConfig),
      (config.accepted peripherals).foldlM add config = .ok (config.addAllIfRoom peripherals) := by
  induction peripherals with
  | nil =>
    intro config
    rfl
  | cons peripheral peripherals ih =>
    intro config
    unfold accepted addAllIfRoom
    rw [List.foldl_cons, addIfRoom]
    cases hadd : config.add peripheral with
    | error error => exact ih config
    | ok next =>
      rw [List.foldlM_cons, hadd]
      exact ih next

theorem foldlM_add_induction_on {P : DeviceConfig → List Peripheral → Prop}
    (hadd : ∀ config before peripheral config', config.add peripheral = .ok config' →
      P config before → P config' (before ++ [peripheral]))
    (peripherals : List Peripheral) :
    ∀ (config : DeviceConfig) (before : List Peripheral),
      peripherals.foldlM add config = .ok config' → P config before →
      P config' (before ++ peripherals) := by
  induction peripherals with
  | nil =>
    intro config before hfold h
    cases hfold
    rw [List.append_nil]
    exact h
  | cons peripheral peripherals ih =>
    intro config before hfold h
    rw [List.foldlM_cons] at hfold
    cases hfirst : config.add peripheral with
    | error error =>
      rw [hfirst] at hfold
      cases hfold
    | ok next =>
      rw [hfirst] at hfold
      rw [List.append_cons]
      exact ih next _ hfold (hadd config before peripheral next hfirst h)

theorem addAllIfRoom_induction {P : DeviceConfig → List Peripheral → Prop}
    (hadd : ∀ config before peripheral config', config.add peripheral = .ok config' →
      P config before → P config' (before ++ [peripheral]))
    (h : P config []) (peripherals : List Peripheral) :
    P (config.addAllIfRoom peripherals) (config.accepted peripherals) :=
  foldlM_add_induction_on hadd _ config [] (foldlM_accepted peripherals config) h

/-! ### Room -/

theorem fits_of_add (hholds : config.Holds before) (hbefore : Fits before)
    (hadd : config.add peripheral = .ok config') :
    config'.Holds (before ++ [peripheral]) ∧ Fits (before ++ [peripheral]) := by
  by_cases hfits : Fits (before ++ [peripheral])
  . obtain ⟨next, hnext, hholds'⟩ := add_of_fits hholds hfits
    rw [hadd] at hnext
    cases hnext
    exact ⟨hholds', hfits⟩
  . rw [add_of_not_fits hholds hbefore hfits] at hadd
    cases hadd

/-! ### Switches and relays -/

section

variable {α β : Type} {f : α → Option β} {as : List α} {a : α} {b : β}

theorem filterMap_append_of_none (h : f a = none) : (as ++ [a]).filterMap f = as.filterMap f := by
  rw [List.filterMap_append, List.filterMap_cons_none h, List.filterMap_nil, List.append_nil]

theorem filterMap_append_of_some (h : f a = some b) :
    (as ++ [a]).filterMap f = as.filterMap f ++ [b] := by
  rw [List.filterMap_append, List.filterMap_cons_some h, List.filterMap_nil]

end

/--
The switches and the relays are those among the peripherals, in order. Every switch refers to the
button that is its contact, and the buttons of switches have the order of the switches.
-/
structure Lists (config : DeviceConfig) (peripherals : List Peripheral) : Prop where
  relays : config.relays
    = (peripherals.filterMap Peripheral.relayPins?).mapIdx fun j pins => ⟨j, pins.1, pins.2, true⟩
  contacts : config.switches.map (fun switch => config.buttons[switch.button]?)
    = (peripherals.filterMap Peripheral.contact?).mapIdx fun i contact =>
        some ⟨contact.1, contact.2, .switch i⟩
  standard : ∀ i switch, config.switches[i]? = some switch →
    { switch with mode := .toggle } = Switch.standard i switch.button
  button_lt : ∀ switch ∈ config.switches, switch.button < config.buttons.length
  ordered : (config.switches.map (·.button)).Pairwise (· < ·)

theorem lists_named (manufacturer model : Bytes) : (named manufacturer model).Lists [] where
  relays := rfl
  contacts := rfl
  standard := by simp [named, empty]
  button_lt := by simp [named, empty]
  ordered := List.Pairwise.nil

namespace Lists

theorem length_switches (h : config.Lists before) :
    config.switches.length = (before.filterMap Peripheral.contact?).length := by
  have hlength := congrArg List.length h.contacts
  rw [List.length_map, List.length_mapIdx] at hlength
  exact hlength

theorem contacts_append (h : config.Lists before) (more : List Button) :
    config.switches.map (fun switch => (config.buttons ++ more)[switch.button]?)
      =
    config.switches.map fun switch => config.buttons[switch.button]? := by
  apply List.map_congr_left
  intro switch hmem
  exact List.getElem?_append_left (h.button_lt switch hmem)

theorem addButton (h : config.Lists before) (button : Button) :
    (config.addButton button).Lists before where
  relays := h.relays
  contacts := (h.contacts_append [button]).trans h.contacts
  standard := h.standard
  button_lt := by
    intro switch hmem
    have hlt := h.button_lt switch hmem
    simp only [DeviceConfig.addButton, List.length_append]
    omega
  ordered := h.ordered

theorem addSwitch (h : config.Lists before) (pin : Pin) (pull : Pull) :
    (config.addSwitch pin pull).Lists (before ++ [.switch pin pull]) where
  relays := by
    rw [filterMap_append_of_none rfl]
    exact h.relays
  contacts := by
    have hcontacts : (before ++ [Peripheral.switch pin pull]).filterMap Peripheral.contact?
        = before.filterMap Peripheral.contact? ++ [(pin, pull)] := filterMap_append_of_some rfl
    have hkept := h.contacts_append [⟨pin, pull, .switch config.switches.length⟩]
    rw [hcontacts, List.mapIdx_concat, ← h.contacts, ← hkept, ← h.length_switches]
    simp [DeviceConfig.addSwitch, DeviceConfig.addButton, Switch.standard]
  standard := by
    intro i switch hget
    rcases getElem?_append_singleton_eq_some.mp hget with hold | ⟨rfl, rfl⟩
    . exact h.standard i switch hold
    . rfl
  button_lt := by
    intro switch hmem
    simp only [DeviceConfig.addSwitch, DeviceConfig.addButton, List.length_append,
      List.length_singleton, List.mem_append, List.mem_singleton] at hmem ⊢
    rcases hmem with hold | rfl
    . exact Nat.lt_succ_of_lt (h.button_lt switch hold)
    . exact Nat.lt_succ_self _
  ordered := by
    simp only [DeviceConfig.addSwitch, List.map_append, List.map_cons, List.map_nil]
    rw [List.pairwise_append]
    refine ⟨h.ordered, List.pairwise_singleton _ _, ?_⟩
    intro place hplace later hlater
    obtain ⟨switch, hmem, rfl⟩ := List.mem_map.mp hplace
    rw [List.mem_singleton.mp hlater]
    exact h.button_lt switch hmem

theorem addRelay (h : config.Lists before) (pin : Pin) (offPin? : Option Pin) :
    (config.addRelay pin offPin?).Lists (before ++ [.relay pin offPin?]) where
  relays := by
    have hlength : config.relays.length = (before.filterMap Peripheral.relayPins?).length := by
      rw [h.relays, List.length_mapIdx]
    have hpins : (before ++ [Peripheral.relay pin offPin?]).filterMap Peripheral.relayPins?
        = before.filterMap Peripheral.relayPins? ++ [(pin, offPin?)] := filterMap_append_of_some rfl
    rw [hpins, List.mapIdx_concat, ← h.relays, ← hlength]
    rfl
  contacts := by
    rw [filterMap_append_of_none rfl]
    exact h.contacts
  standard := h.standard
  button_lt := h.button_lt
  ordered := h.ordered

theorem makeMomentary (h : config.Lists before) :
    (config.extend .momentarySwitches).Lists before where
  relays := h.relays
  contacts := by
    simp only [extend, List.map_map]
    exact h.contacts
  standard := by
    intro i switch hget
    simp only [extend, List.getElem?_map, Option.map_eq_some_iff] at hget
    obtain ⟨old, hold, rfl⟩ := hget
    exact h.standard i old hold
  button_lt := by
    intro switch hmem
    obtain ⟨old, hold, rfl⟩ := List.mem_map.mp hmem
    exact h.button_lt old hold
  ordered := by
    simp only [extend, List.map_map]
    exact h.ordered

theorem keep (h : config.Lists before) (hbuttons : config'.buttons = config.buttons)
    (hswitches : config'.switches = config.switches) (hrelays : config'.relays = config.relays)
    (hcontact : peripheral.contact? = none) (hpins : peripheral.relayPins? = none) :
    config'.Lists (before ++ [peripheral]) where
  relays := by
    rw [filterMap_append_of_none hpins, hrelays]
    exact h.relays
  contacts := by
    rw [filterMap_append_of_none hcontact, hswitches, hbuttons]
    exact h.contacts
  standard := by
    rw [hswitches]
    exact h.standard
  button_lt := by
    rw [hswitches, hbuttons]
    exact h.button_lt
  ordered := by
    rw [hswitches]
    exact h.ordered

theorem extend (h : config.Lists before) (peripheral : Peripheral) :
    (config.extend peripheral).Lists (before ++ [peripheral]) := by
  cases peripheral with
  | button pin pull => exact (h.addButton ⟨pin, pull, .factoryReset⟩).keep rfl rfl rfl rfl rfl
  | switch pin pull => exact h.addSwitch pin pull
  | relay pin offPin? => exact h.addRelay pin offPin?
  | momentarySwitches => exact h.makeMomentary.keep rfl rfl rfl rfl rfl
  | _ => exact h.keep rfl rfl rfl rfl rfl

theorem getElem?_contact (h : config.Lists before) {i : Nat} {switch : Switch}
    (hget : config.switches[i]? = some switch) :
    ∃ contact, (before.filterMap Peripheral.contact?)[i]? = some contact
      ∧ config.buttons[switch.button]? = some ⟨contact.1, contact.2, .switch i⟩ := by
  have hcontact := congrArg (·[i]?) h.contacts
  simp only [List.getElem?_map, List.getElem?_mapIdx, hget, Option.map_some] at hcontact
  obtain ⟨contact, hsome, heq⟩ := Option.map_eq_some_iff.mp hcontact.symm
  exact ⟨contact, hsome, heq.symm⟩

end Lists

/-! ### LEDs -/

theorem LedsAssigned.lt_of_mem_relayIndicators {shown : List Nat} (h : config.LedsAssigned shown)
    {led : Nat} (hmem : some led ∈ config.relayIndicators.toList) : led < config.leds.length := by
  rw [h.indicators, LedSlots.mem_filled] at hmem
  exact h.inRange led hmem

theorem LedsAssigned.lt_of_mem_networkLeds {shown : List Nat} (h : config.LedsAssigned shown)
    {led : Nat} (hmem : some led ∈ config.networkLeds.toList) : led < config.leds.length := by
  cases hdedicated : config.hasDedicatedLed with
  | true =>
    obtain ⟨only, _, hlt, hleds⟩ := h.dedicated hdedicated
    rw [hleds, LedSlots.mem_filled, List.mem_singleton] at hmem
    rw [hmem]
    exact hlt
  | false =>
    rw [h.borrowed hdedicated, LedSlots.mem_filled] at hmem
    exact h.inRange led (List.mem_of_mem_take hmem)

/-! ### All references -/

structure Consistent (config : DeviceConfig) (peripherals : List Peripheral) : Prop where
  numbered : config.Numbered
  paired : config.Paired
  lists : config.Lists peripherals
  leds : ∃ shown, config.LedsAssigned shown
  holds : config.Holds peripherals
  fits : Fits peripherals

namespace Consistent

theorem named (manufacturer model : Bytes) : (named manufacturer model).Consistent [] where
  numbered := ⟨rfl, rfl⟩
  paired := by simp [Paired, DeviceConfig.named, empty]
  lists := lists_named manufacturer model
  leds := ⟨[], ledsAssigned_named _ rfl rfl rfl⟩
  holds := holds_named manufacturer model
  fits := fits_nil

theorem add (h : config.Consistent before) (hadd : config.add peripheral = .ok config') :
    config'.Consistent (before ++ [peripheral]) := by
  obtain ⟨shown, hshown⟩ := h.leds
  obtain ⟨hholds, hfits⟩ := fits_of_add h.holds h.fits hadd
  have hleds := hshown.add hadd
  have heq := eq_extend_of_add hadd
  subst heq
  exact ⟨h.numbered.extend peripheral, h.paired.extend peripheral, h.lists.extend peripheral, hleds,
    hholds, hfits⟩

theorem count_le (h : config.Consistent peripherals) (kind : Peripherals) :
    config.count kind ≤ 5 := by
  rw [h.holds kind]
  exact h.fits kind

end Consistent

theorem consistent_addAllIfRoom (manufacturer model : Bytes) (peripherals : List Peripheral) :
    ((named manufacturer model).addAllIfRoom peripherals).Consistent
      ((named manufacturer model).accepted peripherals) := by
  apply addAllIfRoom_induction
  . intro config before peripheral config' hadd h
    exact h.add hadd
  . exact .named manufacturer model

theorem relayNumber_of_standard {i : Nat} {switch : Switch} (hlt : i < 5)
    (hstandard : { switch with mode := .toggle } = Switch.standard i switch.button) :
    switch.relayNumber.toNat = i + 1 := by
  have hnumber : switch.relayNumber = UInt8.ofNat (i + 1) := congrArg Switch.relayNumber hstandard
  rw [hnumber, UInt8.toNat_ofNat']
  exact Nat.mod_eq_of_lt (by omega)

/--
Whatever peripherals are added to a configuration, those that there is no room for being left out:
its switches and relays are the ones among them, numbered in order, every switch belongs to the relay
with its number and to the button with its contact, all other buttons reset the device, and there is
an LED behind every reference to one.
-/
theorem references_agree (manufacturer model : Bytes) (peripherals : List Peripheral) :
    let config := (named manufacturer model).addAllIfRoom peripherals
    let accepted := (named manufacturer model).accepted peripherals
    config.relays = (accepted.filterMap Peripheral.relayPins?).mapIdx
        (fun j pins => ⟨j, pins.1, pins.2, true⟩)
      ∧ (∀ j (relay : RelayDrive), config.relays[j]? = some relay → relay.index = j)
      ∧ config.switches.length = (accepted.filterMap Peripheral.contact?).length
      ∧ (∀ i (switch : Switch), config.switches[i]? = some switch → switch.index = i
          ∧ switch.relayNumber.toNat = i + 1
          ∧ { switch with mode := .toggle } = Switch.standard i switch.button
          ∧ ∃ contact, (accepted.filterMap Peripheral.contact?)[i]? = some contact
            ∧ config.buttons[switch.button]? = some ⟨contact.1, contact.2, .switch i⟩)
      ∧ (∀ place (button : Button) i, config.buttons[place]? = some button →
          button.action = .switch i →
          ∃ switch : Switch, config.switches[i]? = some switch ∧ switch.button = place)
      ∧ (config.switches.map (·.button)).Pairwise (· < ·)
      ∧ (∀ place (button : Button), config.buttons[place]? = some button →
          (∀ switch ∈ config.switches, switch.button ≠ place) → button.action = .factoryReset)
      ∧ (∀ led, some led ∈ config.relayIndicators.toList → led < config.leds.length)
      ∧ ∀ led, some led ∈ config.networkLeds.toList → led < config.leds.length := by
  intro config accepted
  have h : config.Consistent accepted := consistent_addAllIfRoom manufacturer model peripherals
  obtain ⟨shown, hshown⟩ := h.leds
  have hswitch {place : Nat} {button : Button} {i : Nat}
      (hbutton : config.buttons[place]? = some button) (haction : button.action = .switch i) :
      ∃ switch, config.switches[i]? = some switch ∧ switch.button = place := by
    have hpaired := (h.paired i place).mpr (by rw [List.getElem?_map, hbutton, ← haction]; rfl)
    rw [List.getElem?_map] at hpaired
    exact Option.map_eq_some_iff.mp hpaired
  refine ⟨h.lists.relays, fun j relay => h.numbered.index_relay, h.lists.length_switches, ?_,
    fun place button i => hswitch, h.lists.ordered, ?_, fun led => hshown.lt_of_mem_relayIndicators,
    fun led => hshown.lt_of_mem_networkLeds⟩
  . intro i switch hget
    have hlt : i < 5 :=
      Nat.lt_of_lt_of_le (List.getElem?_eq_some_iff.mp hget).1 (h.count_le .switches)
    have hstandard := h.lists.standard i switch hget
    exact ⟨h.numbered.index_switch hget, relayNumber_of_standard hlt hstandard, hstandard,
      h.lists.getElem?_contact hget⟩
  . intro place button hbutton hother
    cases haction : button.action with
    | factoryReset => rfl
    | switch i =>
      obtain ⟨switch, hget, heq⟩ := hswitch hbutton haction
      exact absurd heq (hother switch (List.mem_of_getElem? hget))

end DeviceConfig

end WallSwitch
