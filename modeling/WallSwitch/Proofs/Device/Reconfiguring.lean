import WallSwitch.Proofs.ConfigText.Restoring
import WallSwitch.Proofs.Device.Booting

/-!
This module contains what becomes of a new configuration text, from the bytes that a device is given
to the text that it starts with the next time. Whatever a settings memory holds, the text that is
found there is one that a device can be given.
-/

namespace WallSwitch

namespace ConfigText

def front (bytes : Bytes) : Bytes :=
  bytes.takeWhile (· != terminator)

/--
The text is one that a device can keep: there is something to it, it has no terminator, and it fits.
-/
structure Sound (text : ConfigText) : Prop where
  nonempty : text.bytes ≠ []
  clean : terminator ∉ text.bytes
  fits : text.bytes.length ≤ 256

variable {bytes : Bytes} {text : ConfigText}

theorem not_mem_front (bytes : Bytes) : terminator ∉ front bytes := by
  intro hmem
  simpa using List.mem_takeWhile_imp hmem

theorem front_eq_self (h : terminator ∉ bytes) : front bytes = bytes := by
  apply List.takeWhile_eq_self_iff.mpr
  intro byte hmem
  rw [bne_iff_ne]
  rintro rfl
  exact h hmem

theorem length_front_le (bytes : Bytes) : (front bytes).length ≤ bytes.length :=
  (List.takeWhile_sublist _).length_le

theorem ofBytes_of_le (h : (front bytes).length ≤ maxLength) : ofBytes bytes = .ok ⟨front bytes⟩ :=
  if_pos h

theorem ofBytes_of_lt (h : maxLength < (front bytes).length) :
    ofBytes bytes = .error (.configTooLong (front bytes).length) :=
  if_neg (Nat.not_le_of_lt h)

theorem sound_builtIn : builtIn.Sound :=
  ⟨by decide, by decide +kernel, by decide +kernel⟩

theorem compile_of_clean (hclean : terminator ∉ text.bytes) : text.compile.2 = text := by
  obtain ⟨n, hcompile⟩ := text.compile_eq_restore_take
  rw [hcompile]
  exact restore_take hclean n (Nat.le_refl _)

end ConfigText

open ConfigText

namespace SettingsMemory

structure HoldsText (memory : SettingsMemory) (bytes : Bytes) : Prop where
  readable : Key.config ∉ memory.unreadable
  stored : ∃ item, memory.store.get? Key.config = some item ∧ item.length ≤ 256
    ∧ front item = bytes
  nonempty : bytes ≠ []

end SettingsMemory

namespace Board

variable {board : Board} {item bytes : Bytes} {error : StoreError}

theorem loadConfigText_of_error
    (h : board.memory.read Key.config maxLength = .error error) :
    board.loadConfigText.1 = .builtIn := by
  unfold loadConfigText load
  rw [h]
  rfl

theorem loadConfigText_of_read (h : board.memory.read Key.config maxLength = .ok item) :
    board.loadConfigText.1 = if front item = [] then .builtIn else ⟨front item⟩ := by
  obtain ⟨_, _, hroom⟩ := SettingsMemory.get?_of_read h
  have htext := ofBytes_of_le ((length_front_le item).trans hroom)
  unfold loadConfigText load
  rw [h]
  simp only [Except.toOption, Option.bind_some, htext, isEmpty, List.isEmpty_iff]

theorem loadConfigText_of_holdsText (h : board.memory.HoldsText bytes) :
    board.loadConfigText.1 = ⟨bytes⟩ := by
  obtain ⟨item, hget, hroom, hfront⟩ := h.stored
  rw [loadConfigText_of_read (SettingsMemory.read_of_get? h.readable hget hroom), hfront,
    if_neg h.nonempty]

theorem loadConfigText_of_not_holdsText (h : ∀ bytes, ¬board.memory.HoldsText bytes) :
    board.loadConfigText.1 = .builtIn := by
  cases hread : board.memory.read Key.config maxLength with
  | error error => exact loadConfigText_of_error hread
  | ok item =>
    rw [loadConfigText_of_read hread]
    apply if_pos
    by_contra hfront
    obtain ⟨hreadable, hget, hroom⟩ := SettingsMemory.get?_of_read hread
    exact h (front item) ⟨hreadable, ⟨item, hget, hroom, rfl⟩, hfront⟩

theorem sound_loadConfigText (board : Board) : board.loadConfigText.1.Sound := by
  by_cases h : ∃ bytes, board.memory.HoldsText bytes
  . obtain ⟨bytes, hholds⟩ := h
    rw [loadConfigText_of_holdsText hholds]
    obtain ⟨item, _, hroom, rfl⟩ := hholds.stored
    exact ⟨hholds.nonempty, not_mem_front item, (length_front_le item).trans hroom⟩
  . rw [loadConfigText_of_not_holdsText (not_exists.mp h)]
    exact sound_builtIn

theorem loadConfigText_of_get? (hclean : terminator ∉ bytes) (hroom : bytes.length ≤ maxLength)
    (hreadable : Key.config ∉ board.memory.unreadable)
    (hget : board.memory.store.get? Key.config = some bytes) :
    board.loadConfigText.1 = if bytes = [] then .builtIn else ⟨bytes⟩ := by
  rw [loadConfigText_of_read (SettingsMemory.read_of_get? hreadable hget hroom),
    front_eq_self hclean]

end Board

namespace Device

variable {device : Device} {bytes : Bytes} {board : Board} {role : Role}

theorem text_of_boot (h : boot board role = .ok device) :
    device.part.text = board.loadConfigText.1 := by
  obtain ⟨blueprint, hcompile, _⟩ := announced_of_boot h
  have htext : board.loadConfigText.1.compile.2 = device.part.text := congrArg Prod.snd hcompile
  rw [← htext]
  exact compile_of_clean board.sound_loadConfigText.clean

theorem reconfigure_of_lt (device : Device) (h : maxLength < (front bytes).length) :
    device.reconfigure bytes = .error (.configTooLong (front bytes).length) := by
  unfold reconfigure
  rw [ofBytes_of_lt h]
  rfl

theorem reconfigure_of_le (device : Device) (h : (front bytes).length ≤ maxLength) :
    device.reconfigure bytes = .ok (device.step (Controller.acceptText ⟨front bytes⟩)) := by
  unfold reconfigure
  rw [ofBytes_of_le h]
  rfl

theorem commands_acceptText (text : ConfigText) (controller : Controller) :
    (Controller.acceptText text).commands controller
      = [.save Key.config text.bytes, .schedule .reset ResetTimer.standardDelay] := rfl

theorem board_acceptText (device : Device) (text : ConfigText) :
    (device.step (Controller.acceptText text)).board
      =
    { device.board with
      agenda := device.board.agenda.schedule .reset ResetTimer.standardDelay
      memory := (device.board.memory.write Key.config text.bytes).toOption.getD device.board.memory
      trace := (device.step (Controller.acceptText text)).board.trace } := by
  rw [board_step, commands_acceptText]
  unfold Board.performAll Board.perform Board.attempt Board.execute Board.record
  simp only [List.foldl_cons, List.foldl_nil]
  split
  . next hwrite =>
    rw [hwrite]
    rfl
  . next hwrite =>
    rw [hwrite]
    rfl

/--
A text of more than 256 bytes in front of a terminator is refused, and nothing happens. Any other is
taken: the device goes on as it is and reboots after 300 milliseconds, even if the text could not be
saved. If it could, the next start finds it, or the built-in text if it is empty. Whatever the settings
memory holds, a start finds a text that a device can be given.
-/
theorem text_reaches_next_start (device : Device) (bytes : Bytes) :
    let text := front bytes
    (∀ error, device.reconfigure bytes = .error error
        ↔ 256 < text.length ∧ error = .configTooLong text.length)
      ∧ (256 < text.length → device.happen (.reconfigure bytes) = device)
      ∧ (text.length ≤ 256 → ∃ next, device.reconfigure bytes = .ok next
        ∧ device.happen (.reconfigure bytes) = next
        ∧ next.part = { device.part with text := ⟨text⟩, resets := ⟨some .reboot⟩ }
        ∧ next.board = { device.board with
          agenda := device.board.agenda.schedule .reset 300
          memory := (device.board.memory.write Key.config text).toOption.getD device.board.memory
          trace := next.board.trace }
        ∧ next.board.due .reset = [device.board.now + 300]
        ∧ (∀ task, task ≠ .reset → next.board.due task = device.board.due task)
        ∧ ∀ memory, device.board.memory.write Key.config text = .ok memory →
          ∀ later : Board, later.memory.store = next.board.memory.store →
            Key.config ∉ later.memory.unreadable →
              later.loadConfigText.1 = if text = [] then .builtIn else ⟨text⟩)
      ∧ ∀ board : Board, board.loadConfigText.1.Sound
        ∧ (∀ found, board.memory.HoldsText found → board.loadConfigText.1 = ⟨found⟩)
        ∧ ((∀ found, ¬board.memory.HoldsText found) → board.loadConfigText.1 = .builtIn)
        ∧ ∀ role started, boot board role = .ok started →
          started.part.text = board.loadConfigText.1 := by
  intro text
  refine ⟨?_, ?_, ?_, ?_⟩
  . intro error
    by_cases hlong : 256 < text.length
    . rw [reconfigure_of_lt device hlong]
      constructor
      . intro herror
        exact ⟨hlong, (Except.error.inj herror).symm⟩
      . rintro ⟨_, rfl⟩
        rfl
    . rw [reconfigure_of_le device (Nat.le_of_not_lt hlong)]
      constructor
      . intro herror
        cases herror
      . intro herror
        exact absurd herror.1 hlong
  . intro hlong
    exact congrArg (·.toOption.getD device) (reconfigure_of_lt device hlong)
  . intro hfits
    have htaken := reconfigure_of_le device hfits
    have hboard := board_acceptText device ⟨text⟩
    refine ⟨_, htaken, congrArg (·.toOption.getD device) htaken, rfl, hboard, ?_, ?_, ?_⟩
    . rw [hboard]
      exact Agenda.due_schedule_self _
    . intro task hne
      rw [hboard]
      exact Agenda.due_schedule_of_ne hne.symm _
    . intro memory hwrite later hstore hreadable
      apply Board.loadConfigText_of_get? (not_mem_front bytes) hfits hreadable
      rw [hstore, hboard]
      dsimp only
      rw [hwrite]
      exact SettingsMemory.get?_write hwrite
  . intro board
    exact ⟨board.sound_loadConfigText, fun _ => Board.loadConfigText_of_holdsText,
      Board.loadConfigText_of_not_holdsText, fun _ _ => text_of_boot⟩

theorem text_reaches_next_start_without_rest :
    let board := Board.idle [] .notJoined (.sound (.empty 8 256))
    let text := Bytes.ascii "a;b;RA0;"
    ∃ device next restarted, boot board .router = .ok device
      ∧ device.reconfigure (text ++ terminator :: Bytes.ascii "RA1;") = .ok next
      ∧ next.part.text = ⟨text⟩ ∧ next.part.config = device.part.config
      ∧ next.board.due .reset = [next.board.now + 300]
      ∧ boot next.board.powerCycle .router = .ok restarted ∧ restarted.part.text = ⟨text⟩
      ∧ device.reconfigure (List.replicate 257 0x41) = .error (.configTooLong 257) := by
  intro board text
  let bytes := text ++ terminator :: Bytes.ascii "RA1;"
  have hfacts : (boot board .router).toOption.map (fun device =>
      ((device.board.memory.write Key.config text).toOption.isSome,
        (device.reconfigure bytes).toOption.map fun next => (next.board.memory.unreadable,
          (boot next.board.powerCycle .router).toOption.map fun _ => ())))
        = some (true, some ([], some ())) := by
    decide +kernel
  obtain ⟨device, hboot, hdevice⟩ := exists_of_map_boot hfacts
  obtain ⟨hsaved, hnext⟩ := Prod.mk.inj hdevice
  have hwrite : ∃ memory, device.board.memory.write Key.config text = .ok memory := by
    cases hwrite : device.board.memory.write Key.config text with
    | error error =>
      rw [hwrite] at hsaved
      cases hsaved
    | ok memory => exact ⟨memory, rfl⟩
  obtain ⟨memory, hwrite⟩ := hwrite
  have hfront : front bytes = text := by decide +kernel
  obtain ⟨_, _, htaken, hstart⟩ := text_reaches_next_start device bytes
  rw [hfront] at htaken
  obtain ⟨next, hreconfigure, _, hpart, hboard, hdue, _, hfound⟩ := htaken (by decide +kernel)
  rw [hreconfigure] at hnext
  obtain ⟨hreadable, hagain⟩ := Prod.mk.inj (Option.some.inj hnext)
  obtain ⟨restarted, hrestarted, _⟩ := exists_of_map_boot hagain
  have htext : next.board.powerCycle.loadConfigText.1 = ⟨text⟩ := by
    apply hfound memory hwrite next.board.powerCycle rfl
    change Key.config ∉ next.board.memory.unreadable
    rw [hreadable]
    exact List.not_mem_nil
  obtain ⟨_, _, _, hstarted⟩ := hstart next.board.powerCycle
  obtain ⟨hrefused, _⟩ := text_reaches_next_start device (List.replicate 257 0x41)
  have hlong : front (List.replicate 257 0x41) = List.replicate 257 0x41 :=
    front_eq_self (by decide +kernel)
  rw [hlong] at hrefused
  refine ⟨device, next, restarted, hboot, hreconfigure, ?_, ?_, ?_, hrestarted, ?_, ?_⟩
  . rw [hpart]
  . rw [hpart]
  . have hnow : next.board.now = device.board.now := by
      rw [hboard]
      rfl
    rw [hdue, hnow]
  . rw [hstarted .router restarted hrestarted, htext]
  . rw [List.length_replicate] at hrefused
    exact (hrefused _).mpr ⟨by decide, rfl⟩

end Device

end WallSwitch
