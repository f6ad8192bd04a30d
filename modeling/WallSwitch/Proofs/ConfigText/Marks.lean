import Mathlib.Logic.Relation
import WallSwitch.Proofs.ConfigText.Compiled
import WallSwitch.Proofs.DeviceConfig.StatusLed

/-!
This module contains what the entries of a configuration text amount to that add no part of their
own, but say something about others or about the whole device. It depends on where they stand in
different ways, and never on how often they are repeated in place.
-/

namespace WallSwitch

namespace Peripheral

def imageType? : Peripheral → Option UInt32
  | .imageType value => some value
  | _ => none

def isMark : Peripheral → Bool
  | .momentarySwitches | .simultaneousPulses => true
  | _ => false

/--
The modes of the switches among the peripherals, in order. Those are momentary that the mark stands
behind.
-/
def modes : List Peripheral → List SwitchMode
  | [] => []
  | .switch .. :: later =>
    (if .momentarySwitches ∈ later then .momentary else .toggle) :: modes later
  | _ :: later => modes later

variable {peripheral : Peripheral}

theorem modes_concat_switch (peripherals : List Peripheral) (pin : Pin) (pull : Pull) :
    modes (peripherals ++ [.switch pin pull]) = modes peripherals ++ [.toggle] := by
  induction peripherals with
  | nil => rfl
  | cons peripheral peripherals ih =>
    rw [List.cons_append]
    cases peripheral with
    | switch => simp [modes, ih]
    | _ => exact ih

theorem modes_concat_momentarySwitches (peripherals : List Peripheral) :
    modes (peripherals ++ [.momentarySwitches])
      =
    (modes peripherals).map fun _ => .momentary := by
  induction peripherals with
  | nil => rfl
  | cons peripheral peripherals ih =>
    rw [List.cons_append]
    cases peripheral with
    | switch => simp [modes, ih]
    | _ => exact ih

theorem modes_concat_of_other (hcontact : peripheral.contact? = none)
    (hmark : peripheral ≠ .momentarySwitches) (peripherals : List Peripheral) :
    modes (peripherals ++ [peripheral]) = modes peripherals := by
  induction peripherals with
  | nil =>
    cases peripheral with
    | switch => cases hcontact
    | _ => rfl
  | cons first peripherals ih =>
    rw [List.cons_append]
    cases first with
    | switch => simp [modes, ih, hmark.symm]
    | _ => exact ih

theorem length_modes (peripherals : List Peripheral) :
    (modes peripherals).length = (peripherals.filterMap contact?).length := by
  induction peripherals with
  | nil => rfl
  | cons peripheral peripherals ih =>
    cases peripheral with
    | switch => exact congrArg (· + 1) ih
    | _ => exact ih

theorem getElem?_modes (before after : List Peripheral) (pin : Pin) (pull : Pull) :
    (modes (before ++ .switch pin pull :: after))[(before.filterMap contact?).length]?
      =
    some (if .momentarySwitches ∈ after then .momentary else .toggle) := by
  induction before with
  | nil => rfl
  | cons peripheral before ih =>
    cases peripheral with
    | switch => exact ih
    | _ => exact ih

theorem ofEntry?_eq_simultaneousPulses {entry : Entry} :
    ofEntry? entry = some .simultaneousPulses ↔ entry.startsWith simultaneousMark = true := by
  unfold ofEntry?
  grind

end Peripheral

namespace DeviceConfig

variable {config config' : DeviceConfig} {added peripherals : List Peripheral}
variable {peripheral : Peripheral}

structure Marked (config : DeviceConfig) (added : List Peripheral) : Prop where
  modes : config.switches.map (·.mode) = Peripheral.modes added
  simultaneous : config.simultaneousPulses = true ↔ .simultaneousPulses ∈ added
  imageType : config.imageType = (added.filterMap Peripheral.imageType?).getLast?

theorem marked_named (manufacturer model : Bytes) : (named manufacturer model).Marked [] where
  modes := rfl
  simultaneous := by simp [named, empty]
  imageType := rfl

namespace Marked

theorem makeMomentary (h : config.Marked added) :
    (config.extend .momentarySwitches).Marked (added ++ [.momentarySwitches]) where
  modes := by
    rw [Peripheral.modes_concat_momentarySwitches, ← h.modes]
    simp [DeviceConfig.extend]
  simultaneous := by simpa [DeviceConfig.extend] using h.simultaneous
  imageType := by
    rw [getLast?_filterMap_concat]
    exact h.imageType

theorem keep (h : config.Marked added) (hswitches : config'.switches = config.switches)
    (hsimultaneous : config'.simultaneousPulses = config.simultaneousPulses)
    (himageType : config'.imageType = config.imageType) (hcontact : peripheral.contact? = none)
    (hmark : peripheral.isMark = false) (himage : peripheral.imageType? = none) :
    config'.Marked (added ++ [peripheral]) where
  modes := by
    have hother : peripheral ≠ .momentarySwitches := by
      rintro rfl
      cases hmark
    rw [hswitches, h.modes, Peripheral.modes_concat_of_other hcontact hother]
  simultaneous := by
    have hother : peripheral ≠ .simultaneousPulses := by
      rintro rfl
      cases hmark
    simp [hsimultaneous, h.simultaneous, hother.symm]
  imageType := by
    rw [himageType, h.imageType, getLast?_filterMap_concat, himage]
    rfl

theorem extend (h : config.Marked added) (peripheral : Peripheral) :
    (config.extend peripheral).Marked (added ++ [peripheral]) := by
  cases peripheral with
  | switch pin pull =>
    refine ⟨?_, by simpa [DeviceConfig.extend, addSwitch, addButton] using h.simultaneous, ?_⟩
    . rw [Peripheral.modes_concat_switch, ← h.modes]
      simp [DeviceConfig.extend, addSwitch, Switch.standard]
    . rw [getLast?_filterMap_concat]
      exact h.imageType
  | imageType value =>
    refine ⟨?_, by simpa [DeviceConfig.extend] using h.simultaneous, ?_⟩
    . rw [Peripheral.modes_concat_of_other rfl (by simp)]
      exact h.modes
    . rw [getLast?_filterMap_concat]
      rfl
  | simultaneousPulses =>
    refine ⟨?_, by simp [DeviceConfig.extend], ?_⟩
    . rw [Peripheral.modes_concat_of_other rfl (by simp)]
      exact h.modes
    . rw [getLast?_filterMap_concat]
      exact h.imageType
  | momentarySwitches => exact h.makeMomentary
  | _ => exact h.keep rfl rfl rfl rfl rfl rfl

theorem foldlM_add (h : config.Marked []) (hfold : peripherals.foldlM add config = .ok config') :
    config'.Marked peripherals := by
  apply foldlM_add_induction_on (P := Marked) _ peripherals config [] hfold h
  intro config before peripheral config' hadd hbefore
  rw [eq_extend_of_add hadd]
  exact hbefore.extend peripheral

end Marked

theorem add_of_isMark (hmark : peripheral.isMark = true)
    (h : config.add peripheral = .ok config') : config'.add peripheral = .ok config' := by
  cases peripheral with
  | simultaneousPulses =>
    cases h
    rfl
  | momentarySwitches =>
    cases h
    simp only [add, List.map_map]
    rfl
  | _ => cases hmark

theorem foldlM_add_of_isMark (hmark : peripheral.isMark = true) (later : List Peripheral)
    (config : DeviceConfig) :
    (peripheral :: peripheral :: later).foldlM add config
      =
    (peripheral :: later).foldlM add config := by
  rw [List.foldlM_cons, List.foldlM_cons]
  cases hadd : config.add peripheral with
  | error error => rfl
  | ok next =>
    change (peripheral :: later).foldlM add next = later.foldlM add next
    rw [List.foldlM_cons, add_of_isMark hmark hadd]
    rfl

end DeviceConfig

/-! ### Entries that make no difference -/

/--
One more entry that makes no difference: it describes nothing, or it makes a mark for the second
time in a row.
-/
inductive Padding : List Entry → List Entry → Prop where
  | unknown (before after : List Entry) {entry : Entry} (hentry : entry.isEmpty = false)
      (h : Peripheral.ofEntry? entry = none) :
    Padding (before ++ after) (before ++ entry :: after)
  | again (before after : List Entry) {entry other : Entry} {mark : Peripheral}
      (hmark : mark.isMark = true) (h : Peripheral.ofEntry? entry = some mark)
      (hother : Peripheral.ofEntry? other = some mark) :
    Padding (before ++ entry :: after) (before ++ entry :: other :: after)

theorem Padding.foldlM_add {first second : List Entry} (h : Padding first second)
    (config : DeviceConfig) :
    (second.filterMap Peripheral.ofEntry?).foldlM DeviceConfig.add config
      =
    (first.filterMap Peripheral.ofEntry?).foldlM DeviceConfig.add config := by
  cases h with
  | unknown before after hentry h =>
    rw [List.filterMap_append, List.filterMap_append, List.filterMap_cons_none h]
  | again before after hmark h hother =>
    rw [List.filterMap_append, List.filterMap_append, List.filterMap_cons_some h,
      List.filterMap_cons_some hother, List.filterMap_cons_some h, List.foldlM_append,
      List.foldlM_append]
    simp only [DeviceConfig.foldlM_add_of_isMark hmark]

theorem foldlM_add_of_padded {first second : List Entry}
    (h : Relation.EqvGen Padding first second) (config : DeviceConfig) :
    (second.filterMap Peripheral.ofEntry?).foldlM DeviceConfig.add config
      =
    (first.filterMap Peripheral.ofEntry?).foldlM DeviceConfig.add config := by
  induction h with
  | rel first second h => exact h.foldlM_add config
  | refl entries => rfl
  | symm first second _ ih => exact ih.symm
  | trans first second third _ _ ihfirst ihsecond => exact ihsecond.trans ihfirst

namespace ConfigText

def peripheralEntries (text : ConfigText) : List Entry :=
  (text.entries.drop 2).takeWhile fun entry => !entry.isEmpty

variable {text other : ConfigText} {blueprint : Blueprint}

theorem peripherals_eq (text : ConfigText) :
    text.peripherals = text.peripheralEntries.filterMap Peripheral.ofEntry? := rfl

theorem marked_of_compile (h : text.compile.1 = .ok blueprint) :
    blueprint.config.Marked text.peripherals :=
  (DeviceConfig.marked_named _ _).foldlM_add (assembled_of_compile h).1

theorem imageType_of_compile (h : text.compile.1 = .ok blueprint) :
    blueprint.topology.imageType = blueprint.config.imageType := by
  obtain ⟨_, hholds, hfits⟩ := assembled_of_compile h
  have htopology := topology_of_compile h
  rw [Topology.ofConfig_eq (DeviceConfig.endpointCount_le_of_fits hholds hfits)] at htopology
  rw [← Except.ok.inj htopology]

theorem compile_of_padded (hmanufacturer : other.manufacturer = text.manufacturer)
    (hmodel : other.model = text.model)
    (h : Relation.EqvGen Padding text.peripheralEntries other.peripheralEntries) :
    other.compile.1 = text.compile.1 := by
  have hfirst : other.entryAt 0 = text.entryAt 0 := congrArg Entry.mk hmanufacturer
  have hsecond : other.entryAt 1 = text.entryAt 1 := congrArg Entry.mk hmodel
  rw [compile_eq, compile_eq, hfirst, hsecond]
  simp only [peripherals_eq, foldlM_add_of_padded h]

/--
In a text that compiles, a switch is momentary if the mark of momentary switches stands somewhere
behind it, and toggles otherwise. Pulses are simultaneous if that is marked anywhere. The image type
is the one that is given last, in the configuration as in the topology. Entries that describe
nothing may be put in or taken out, and marks repeated, and the text still compiles to the same.
-/
theorem compiled_as_marked :
    (∀ (text : ConfigText) (blueprint : Blueprint), text.compile.1 = .ok blueprint →
        let config := blueprint.config
        config.switches.length = (text.peripherals.filterMap Peripheral.contact?).length
          ∧ (∀ before pin pull after, text.peripherals = before ++ .switch pin pull :: after →
              ∃ switch : Switch,
                config.switches[(before.filterMap Peripheral.contact?).length]? = some switch
                  ∧ switch.mode
                    = if .momentarySwitches ∈ after then .momentary else .toggle)
          ∧ (config.simultaneousPulses = true ↔ ∃ entry ∈ text.peripheralEntries,
              entry.startsWith Peripheral.simultaneousMark = true)
          ∧ config.imageType = (text.peripherals.filterMap Peripheral.imageType?).getLast?
          ∧ blueprint.topology.imageType = config.imageType)
      ∧ ∀ text other : ConfigText, other.manufacturer = text.manufacturer →
          other.model = text.model →
          Relation.EqvGen Padding text.peripheralEntries other.peripheralEntries →
          other.compile.1 = text.compile.1 := by
  refine ⟨?_, fun text other => compile_of_padded⟩
  intro text blueprint h config
  have hmarked : config.Marked text.peripherals := marked_of_compile h
  refine ⟨?_, ?_, ?_, hmarked.imageType, imageType_of_compile h⟩
  . rw [← Peripheral.length_modes, ← hmarked.modes, List.length_map]
  . intro before pin pull after hsplit
    have hmode := Peripheral.getElem?_modes before after pin pull
    rw [← hsplit, ← hmarked.modes, List.getElem?_map, Option.map_eq_some_iff] at hmode
    exact hmode
  . rw [hmarked.simultaneous, peripherals_eq, List.mem_filterMap]
    simp only [Peripheral.ofEntry?_eq_simultaneousPulses]

theorem compiled_as_marked_twice :
    let text : ConfigText := ⟨Bytes.ascii "a;b;SB0u;M;SB1u;SLP;i7;i5;"⟩
    let other : ConfigText := ⟨Bytes.ascii "a;b;SB0u;X;M;Mm;SB1u;SLP;i7;i5;"⟩
    ∃ blueprint, text.compile.1 = .ok blueprint ∧ other.compile.1 = .ok blueprint
      ∧ (∃ switch : Switch, blueprint.config.switches[0]? = some switch
          ∧ switch.mode = .momentary)
      ∧ (∃ switch : Switch, blueprint.config.switches[1]? = some switch ∧ switch.mode = .toggle)
      ∧ blueprint.config.simultaneousPulses = true
      ∧ blueprint.topology.imageType = some 5 := by
  intro text other
  have hpadded : Relation.EqvGen Padding text.peripheralEntries other.peripheralEntries := by
    let first : Entry := ⟨Bytes.ascii "SB0u"⟩
    let unknown : Entry := ⟨Bytes.ascii "X"⟩
    let mark : Entry := ⟨Bytes.ascii "M"⟩
    let again : Entry := ⟨Bytes.ascii "Mm"⟩
    let later : List Entry := [⟨Bytes.ascii "SB1u"⟩, ⟨Bytes.ascii "SLP"⟩, ⟨Bytes.ascii "i7"⟩,
      ⟨Bytes.ascii "i5"⟩]
    have hentries : text.peripheralEntries = first :: mark :: later := by decide +kernel
    have hother : other.peripheralEntries = first :: unknown :: mark :: again :: later := by
      decide +kernel
    have hmark : Peripheral.ofEntry? mark = some .momentarySwitches := by decide
    have hagain : Peripheral.ofEntry? again = some .momentarySwitches := by decide
    have hunknown : unknown.isEmpty = false ∧ Peripheral.ofEntry? unknown = none := by decide
    rw [hentries, hother]
    exact .trans _ _ _ (.rel _ _ (.again [first] later rfl hmark hagain))
      (.rel _ _ (.unknown [first] (mark :: again :: later) hunknown.1 hunknown.2))
  have hperipherals : text.peripherals = .switch (.line 1 0) .up :: .momentarySwitches
      :: .switch (.line 1 1) .up :: [.simultaneousPulses, .imageType 7, .imageType 5] := by
    decide +kernel
  have hfits : DeviceConfig.Fits text.peripherals := by
    rw [hperipherals, DeviceConfig.fits_iff]
    decide
  obtain ⟨blueprint, h⟩ := compile_of_fits (by decide) (by decide) hfits
  obtain ⟨_, hmodes, hsimultaneous, himage, htopology⟩ := compiled_as_marked.1 text blueprint h
  refine ⟨blueprint, h, ?_, ?_, ?_, ?_, ?_⟩
  . rw [compiled_as_marked.2 text other (by decide) (by decide) hpadded, h]
  . exact hmodes [] _ _ _ hperipherals
  . exact hmodes [_, _] _ _ _ hperipherals
  . exact hsimultaneous.mpr ⟨⟨Bytes.ascii "SLP"⟩, by decide +kernel, by decide⟩
  . rw [htopology, himage, hperipherals]
    rfl

end ConfigText

end WallSwitch
