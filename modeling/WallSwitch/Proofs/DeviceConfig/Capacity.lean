import Mathlib.Data.List.Induction
import WallSwitch.Proofs.DeviceConfig.Extending

/-!
This module contains the room that a configuration has for peripherals: which lists of them fit, and
what is said of the first peripheral that does not.
-/

namespace WallSwitch

/--
Whether the peripheral takes one of the limited places of this kind. A switch takes two: its own, and
that of a button for its contact.
-/
def Peripheral.takes : Peripheral → Peripherals → Bool
  | .button .., .buttons => true
  | .switch .., .buttons => true
  | .switch .., .switches => true
  | .statusLed .., .leds => true
  | .indicatorLed .., .leds => true
  | .relay .., .relays => true
  | _, _ => false

namespace DeviceConfig

def taken (peripherals : List Peripheral) (kind : Peripherals) : Nat :=
  peripherals.countP (·.takes kind)

def Fits (peripherals : List Peripheral) : Prop :=
  ∀ kind, taken peripherals kind ≤ 5

/--
What there are too many of if `peripheral` does not fit behind those `before` it. A switch for which
all contacts are taken is one switch too many only if all of them are taken by switches.
-/
def lacking (before : List Peripheral) : Peripheral → Peripherals
  | .relay .. => .relays
  | .statusLed .. | .indicatorLed .. => .leds
  | .switch .. => if taken before .switches = 5 then .switches else .buttons
  | .button .. | .imageType _ | .simultaneousPulses | .momentarySwitches => .buttons

def Holds (config : DeviceConfig) (peripherals : List Peripheral) : Prop :=
  ∀ kind, config.count kind = taken peripherals kind

variable {config config' : DeviceConfig} {before front back peripherals : List Peripheral}
variable {peripheral : Peripheral} {kind : Peripherals}

@[simp]
theorem taken_nil : taken [] kind = 0 := rfl

theorem taken_append (front back : List Peripheral) (kind : Peripherals) :
    taken (front ++ back) kind = taken front kind + taken back kind :=
  List.countP_append

theorem taken_append_singleton (before : List Peripheral) (peripheral : Peripheral)
    (kind : Peripherals) :
    taken (before ++ [peripheral]) kind
      =
    taken before kind + if peripheral.takes kind then 1 else 0 := by
  rw [taken_append]
  simp [taken, List.countP_singleton]

/-! ### Lists that fit -/

theorem fits_nil : Fits [] := by
  intro kind
  simp

theorem taken_switches_le (peripherals : List Peripheral) :
    taken peripherals .switches ≤ taken peripherals .buttons := by
  apply List.countP_mono_left
  intro peripheral _ h
  cases peripheral with
  | switch pin pull => rfl
  | _ => contradiction

theorem fits_iff :
    Fits peripherals
      ↔
    taken peripherals .buttons ≤ 5 ∧ taken peripherals .leds ≤ 5
      ∧ taken peripherals .relays ≤ 5 := by
  constructor
  . intro h
    exact ⟨h .buttons, h .leds, h .relays⟩
  . rintro ⟨hbuttons, hleds, hrelays⟩ kind
    cases kind with
    | buttons => exact hbuttons
    | leds => exact hleds
    | relays => exact hrelays
    | switches => exact Nat.le_trans (taken_switches_le peripherals) hbuttons

theorem Fits.of_append (h : Fits (front ++ back)) : Fits front := by
  intro kind
  have hkind := h kind
  rw [taken_append] at hkind
  omega

theorem exists_first_misfit (h : ¬ Fits peripherals) :
    ∃ before peripheral after, peripherals = before ++ peripheral :: after ∧ Fits before
      ∧ ¬ Fits (before ++ [peripheral]) := by
  induction peripherals using List.reverseRecOn with
  | nil => exact absurd fits_nil h
  | append_singleton front peripheral ih =>
    by_cases hfront : Fits front
    . exact ⟨front, peripheral, [], rfl, hfront, h⟩
    . obtain ⟨before, misfit, after, rfl, hbefore, hmisfit⟩ := ih hfront
      exact ⟨before, misfit, after ++ [peripheral], by simp, hbefore, hmisfit⟩

/-! ### Adding one peripheral -/

def named (manufacturer model : Bytes) : DeviceConfig :=
  { empty with manufacturer := manufacturer, model := model }

theorem holds_named (manufacturer model : Bytes) : (named manufacturer model).Holds [] := by
  intro kind
  cases kind <;> rfl

theorem Holds.add (hholds : config.Holds before)
    (hcount : ∀ kind, config'.count kind
      = config.count kind + if peripheral.takes kind then 1 else 0) :
    config'.Holds (before ++ [peripheral]) := by
  intro kind
  rw [taken_append_singleton, hcount, hholds kind]

theorem capacity_eq (kind : Peripherals) : capacity kind = 5 := by
  cases kind <;> rfl

theorem reserve_of_lt (hholds : config.Holds before) (h : taken before kind < 5) :
    config.reserve kind = .ok () := by
  unfold reserve
  rw [hholds kind, capacity_eq, if_pos h]

theorem reserve_of_full (hholds : config.Holds before) (h : taken before kind = 5) :
    config.reserve kind = .error (.capacityExceeded kind) := by
  unfold reserve
  rw [hholds kind, capacity_eq, h, if_neg (Nat.lt_irrefl 5)]

theorem reserve_of_fits (hholds : config.Holds before) (h : Fits (before ++ [peripheral]))
    (htakes : peripheral.takes kind = true) : config.reserve kind = .ok () := by
  have hkind := h kind
  rw [taken_append_singleton, if_pos htakes] at hkind
  exact reserve_of_lt hholds hkind

theorem count_extend (config : DeviceConfig) (peripheral : Peripheral) (kind : Peripherals) :
    (config.extend peripheral).count kind
      =
    config.count kind + if peripheral.takes kind then 1 else 0 := by
  cases peripheral <;> cases kind <;>
    simp [extend, count, Peripheral.takes, addButton, addSwitch, addStatusLed, addIndicatorLed,
      addRelay]

theorem add_of_fits (hholds : config.Holds before) (h : Fits (before ++ [peripheral])) :
    ∃ config', config.add peripheral = .ok config' ∧ config'.Holds (before ++ [peripheral]) := by
  have hreserve (kind : Peripherals) (htakes : peripheral.takes kind = true) :=
    reserve_of_fits hholds h htakes
  refine ⟨config.extend peripheral, ?_, hholds.add (config.count_extend peripheral)⟩
  cases peripheral with
  | button pin pull =>
    rw [add, hreserve .buttons rfl]
    rfl
  | switch pin pull =>
    rw [add, hreserve .switches rfl, hreserve .buttons rfl]
    rfl
  | statusLed pin activeHigh | indicatorLed pin activeHigh =>
    rw [add, hreserve .leds rfl]
    rfl
  | relay pin offPin? =>
    rw [add, hreserve .relays rfl]
    rfl
  | imageType | simultaneousPulses | momentarySwitches => rfl

theorem exists_full_of_not_fits (hbefore : Fits before) (h : ¬ Fits (before ++ [peripheral])) :
    ∃ kind, peripheral.takes kind = true ∧ taken before kind = 5 := by
  unfold Fits at h
  rw [not_forall] at h
  obtain ⟨kind, hkind⟩ := h
  have hroom := hbefore kind
  rw [taken_append_singleton] at hkind
  split at hkind
  . next htakes => exact ⟨kind, htakes, by omega⟩
  . omega

theorem add_of_not_fits (hholds : config.Holds before) (hbefore : Fits before)
    (h : ¬ Fits (before ++ [peripheral])) :
    config.add peripheral = .error (.capacityExceeded (lacking before peripheral)) := by
  obtain ⟨kind, htakes, hfull⟩ := exists_full_of_not_fits hbefore h
  have hreserve := reserve_of_full hholds hfull
  cases peripheral with
  | button pin pull =>
    cases kind with
    | buttons =>
      rw [add, hreserve]
      rfl
    | _ => contradiction
  | switch pin pull =>
    -- The place among the switches is asked for first, whichever of the two is missing.
    by_cases hswitches : taken before .switches = 5
    . rw [add, reserve_of_full hholds hswitches, lacking, if_pos hswitches]
      rfl
    . have hlt : taken before .switches < 5 := Nat.lt_of_le_of_ne (hbefore .switches) hswitches
      rw [add, reserve_of_lt hholds hlt, lacking, if_neg hswitches]
      cases kind with
      | buttons =>
        rw [hreserve]
        rfl
      | switches => exact absurd hfull hswitches
      | _ => contradiction
  | statusLed pin activeHigh =>
    cases kind with
    | leds =>
      rw [add, hreserve]
      rfl
    | _ => contradiction
  | indicatorLed pin activeHigh =>
    cases kind with
    | leds =>
      rw [add, hreserve]
      rfl
    | _ => contradiction
  | relay pin offPin? =>
    cases kind with
    | relays =>
      rw [add, hreserve]
      rfl
    | _ => contradiction
  | _ => contradiction

/-! ### Adding many peripherals -/

theorem foldlM_add_of_fits (peripherals : List Peripheral) :
    ∀ {config : DeviceConfig} {before : List Peripheral}, config.Holds before →
      Fits (before ++ peripherals) →
      ∃ config', peripherals.foldlM add config = .ok config'
        ∧ config'.Holds (before ++ peripherals) := by
  induction peripherals with
  | nil =>
    intro config before hholds _
    refine ⟨config, rfl, ?_⟩
    rw [List.append_nil]
    exact hholds
  | cons peripheral peripherals ih =>
    intro config before hholds h
    rw [List.append_cons] at h ⊢
    obtain ⟨config', hadd, hholds'⟩ := add_of_fits hholds h.of_append
    rw [List.foldlM_cons, hadd]
    exact ih hholds' h

theorem foldlM_add_of_not_fits (hholds : config.Holds []) (hbefore : Fits before)
    (h : ¬ Fits (before ++ [peripheral])) (after : List Peripheral) :
    (before ++ peripheral :: after).foldlM add config
      =
    .error (.capacityExceeded (lacking before peripheral)) := by
  obtain ⟨config', hfirst, hholds'⟩ := foldlM_add_of_fits before hholds hbefore
  rw [List.foldlM_append, hfirst]
  have hadd := add_of_not_fits hholds' hbefore h
  change List.foldlM add config' (peripheral :: after) = _
  rw [List.foldlM_cons, hadd]
  rfl

end DeviceConfig

end WallSwitch
