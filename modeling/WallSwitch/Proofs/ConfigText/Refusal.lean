import WallSwitch.Proofs.ConfigText.Reference
import WallSwitch.Proofs.DeviceConfig.Capacity
import WallSwitch.Proofs.Topology.Layout

/-!
This module contains which configuration texts are refused, and for which reason.
-/

namespace WallSwitch

namespace DeviceConfig

theorem nameOf_of_le {entry : Entry} (tooLong : Nat → ConfigError)
    (h : entry.bytes.length ≤ 31) : nameOf entry tooLong = .ok entry.bytes :=
  if_pos h

theorem nameOf_of_lt {entry : Entry} (tooLong : Nat → ConfigError)
    (h : 31 < entry.bytes.length) : nameOf entry tooLong = .error (tooLong entry.bytes.length) :=
  if_neg (Nat.not_le.mpr h)

theorem endpointCount_le_of_fits {config : DeviceConfig} {peripherals : List Peripheral}
    (hholds : config.Holds peripherals) (h : Fits peripherals) :
    config.endpointCount ≤ Topology.maxEndpoints := by
  have hswitches := h .switches
  have hrelays := h .relays
  rw [← hholds .switches] at hswitches
  rw [← hholds .relays] at hrelays
  unfold endpointCount Topology.maxEndpoints
  unfold count at hswitches hrelays
  dsimp only at hswitches hrelays
  omega

end DeviceConfig

namespace ConfigText

open DeviceConfig

def entryAt (text : ConfigText) (i : Nat) : Entry :=
  text.entries[i]?.getD ⟨[]⟩

def manufacturer (text : ConfigText) : Bytes :=
  (text.entryAt 0).bytes

def model (text : ConfigText) : Bytes :=
  (text.entryAt 1).bytes

def peripherals (text : ConfigText) : List Peripheral :=
  described (text.entries.drop 2)

/--
The reason for which a text is refused. The names come first, and then the first peripheral that
there is no room for.
-/
inductive Refused (text : ConfigText) : ConfigError → Prop where
  | manufacturer (h : 31 < text.manufacturer.length) :
    Refused text (.manufacturerTooLong text.manufacturer.length)
  | model (hmanufacturer : text.manufacturer.length ≤ 31) (h : 31 < text.model.length) :
    Refused text (.modelTooLong text.model.length)
  | misfit {before after : List Peripheral} {peripheral : Peripheral}
      (hmanufacturer : text.manufacturer.length ≤ 31) (hmodel : text.model.length ≤ 31)
      (hperipherals : text.peripherals = before ++ peripheral :: after) (hbefore : Fits before)
      (h : ¬ Fits (before ++ [peripheral])) :
    Refused text (.capacityExceeded (lacking before peripheral))

variable {text : ConfigText}

/-! ### Compiling, case by case -/

theorem compile_eq (text : ConfigText) :
    text.compile.1 = do
      let manufacturer ← nameOf (text.entryAt 0) .manufacturerTooLong
      let model ← nameOf (text.entryAt 1) .modelTooLong
      let config ← text.peripherals.foldlM add (named manufacturer model)
      let topology ← Topology.ofConfig config
      return ⟨config, topology⟩ :=
  text.compile_eq_ofEntries

theorem compile_of_manufacturer (h : 31 < text.manufacturer.length) :
    text.compile.1 = .error (.manufacturerTooLong text.manufacturer.length) := by
  rw [compile_eq, nameOf_of_lt _ h]
  rfl

theorem compile_of_model (hmanufacturer : text.manufacturer.length ≤ 31)
    (h : 31 < text.model.length) :
    text.compile.1 = .error (.modelTooLong text.model.length) := by
  rw [compile_eq, nameOf_of_le _ hmanufacturer, nameOf_of_lt _ h]
  rfl

theorem compile_of_misfit {before after : List Peripheral} {peripheral : Peripheral}
    (hmanufacturer : text.manufacturer.length ≤ 31) (hmodel : text.model.length ≤ 31)
    (hperipherals : text.peripherals = before ++ peripheral :: after) (hbefore : Fits before)
    (h : ¬ Fits (before ++ [peripheral])) :
    text.compile.1 = .error (.capacityExceeded (lacking before peripheral)) := by
  have hfold := foldlM_add_of_not_fits (holds_named text.manufacturer text.model) hbefore h after
  rw [← hperipherals] at hfold
  rw [compile_eq, nameOf_of_le _ hmanufacturer, nameOf_of_le _ hmodel]
  change (text.peripherals.foldlM add (named text.manufacturer text.model) >>= _) = _
  rw [hfold]
  rfl

theorem compile_of_fits (hmanufacturer : text.manufacturer.length ≤ 31)
    (hmodel : text.model.length ≤ 31) (h : Fits text.peripherals) :
    ∃ blueprint, text.compile.1 = .ok blueprint := by
  obtain ⟨config, hconfig, hholds⟩ :=
    foldlM_add_of_fits text.peripherals (holds_named text.manufacturer text.model) h
  have htopology := Topology.ofConfig_eq (endpointCount_le_of_fits hholds h)
  rw [compile_eq, nameOf_of_le _ hmanufacturer, nameOf_of_le _ hmodel]
  change ∃ blueprint, (text.peripherals.foldlM add (named text.manufacturer text.model) >>= _) = _
  rw [hconfig]
  change ∃ blueprint, (Topology.ofConfig config >>= _) = _
  rw [htopology]
  exact ⟨_, rfl⟩

theorem Refused.compile_eq {error : ConfigError} (h : text.Refused error) :
    text.compile.1 = .error error := by
  cases h with
  | manufacturer h => exact compile_of_manufacturer h
  | model hmanufacturer h => exact compile_of_model hmanufacturer h
  | misfit hmanufacturer hmodel hperipherals hbefore h =>
    exact compile_of_misfit hmanufacturer hmodel hperipherals hbefore h

theorem compiled_or_refused (text : ConfigText) :
    (text.manufacturer.length ≤ 31 ∧ text.model.length ≤ 31 ∧ Fits text.peripherals)
      ∨ ∃ error, text.Refused error := by
  by_cases hmanufacturer : text.manufacturer.length ≤ 31
  . by_cases hmodel : text.model.length ≤ 31
    . by_cases h : Fits text.peripherals
      . exact .inl ⟨hmanufacturer, hmodel, h⟩
      . obtain ⟨before, peripheral, after, hperipherals, hbefore, hmisfit⟩ :=
          exists_first_misfit h
        exact .inr ⟨_, .misfit hmanufacturer hmodel hperipherals hbefore hmisfit⟩
    . exact .inr ⟨_, .model hmanufacturer (Nat.lt_of_not_le hmodel)⟩
  . exact .inr ⟨_, .manufacturer (Nat.lt_of_not_le hmanufacturer)⟩

theorem refused_of_compile {error : ConfigError} (hcompile : text.compile.1 = .error error) :
    text.Refused error := by
  rcases text.compiled_or_refused with ⟨hmanufacturer, hmodel, h⟩ | ⟨other, h⟩
  . obtain ⟨blueprint, hok⟩ := compile_of_fits hmanufacturer hmodel h
    rw [hok] at hcompile
    contradiction
  . rw [h.compile_eq] at hcompile
    rw [← Except.error.inj hcompile]
    exact h

/--
A text compiles if and only if its names are short enough and its peripherals fit. Otherwise it is
refused because of the first thing in it that is not so, and never because of the endpoints or of
its own length.
-/
theorem compile_refuses_first_fault (text : ConfigText) :
    ((∃ blueprint, text.compile.1 = .ok blueprint)
      ↔
        text.manufacturer.length ≤ 31 ∧ text.model.length ≤ 31
          ∧ taken text.peripherals .buttons ≤ 5 ∧ taken text.peripherals .leds ≤ 5
          ∧ taken text.peripherals .relays ≤ 5)
      ∧ (∀ error, text.compile.1 = .error error ↔ text.Refused error)
      ∧ text.compile.1 ≠ .error .topologyOverflow
      ∧ ∀ length, text.compile.1 ≠ .error (.configTooLong length) := by
  rw [← fits_iff]
  have hrefused (error : ConfigError) :
      text.compile.1 = .error error ↔ text.Refused error :=
    ⟨refused_of_compile, Refused.compile_eq⟩
  refine ⟨⟨?_, ?_⟩, hrefused, ?_, ?_⟩
  . rintro ⟨blueprint, hok⟩
    rcases text.compiled_or_refused with h | ⟨error, h⟩
    . exact h
    . rw [h.compile_eq] at hok
      contradiction
  . rintro ⟨hmanufacturer, hmodel, h⟩
    exact compile_of_fits hmanufacturer hmodel h
  . intro hcompile
    cases (hrefused _).mp hcompile
  . intro length hcompile
    cases (hrefused _).mp hcompile

end ConfigText

end WallSwitch
