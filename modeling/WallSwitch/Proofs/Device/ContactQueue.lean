import WallSwitch.Proofs.Device.Happenings
import WallSwitch.Proofs.Device.Watching

/-!
This module contains the proof that no change of a contact is lost. A pass queues one change of every
button at most and there are not as many buttons as places in the queue, so it never fills up. All
changes that were taken from the queue and all that are left there lead from the positions that the
contacts had at first to those that they have now.
-/

namespace WallSwitch

/-! ### The contacts alone -/

namespace Contacts

inductive Use where
  /-- The pin of button `i` has this level. -/
  | level (i : Nat) (high : Bool)
  /-- The first change is taken from the queue. -/
  | next
deriving DecidableEq, Repr

/--
The changes that are taken from the queue, and the contacts afterwards.
-/
def use (contacts : Contacts) : Use → List ContactEvent × Contacts
  | .level i high => ([], contacts.onLevel i high)
  | .next => (contacts.next.1.toList, contacts.next.2)

def useAll (contacts : Contacts) : List Use → List ContactEvent × Contacts
  | [] => ([], contacts)
  | first :: uses =>
    let (event, contacts) := contacts.use first
    let (events, contacts) := contacts.useAll uses
    (event ++ events, contacts)

def Admits (contacts : Contacts) : Use → Prop
  | .level i high => contacts.change? i high ≠ none → contacts.queue.length < queueLength
  | .next => True

def HasRoom (contacts : Contacts) : List Use → Prop
  | [] => True
  | first :: uses => contacts.Admits first ∧ (contacts.use first).2.HasRoom uses

instance (contacts : Contacts) : (use : Use) → Decidable (contacts.Admits use)
  | .level i high => inferInstanceAs
    (Decidable (contacts.change? i high ≠ none → contacts.queue.length < queueLength))
  | .next => .isTrue trivial

instance decidableHasRoom :
    (contacts : Contacts) → (uses : List Use) → Decidable (contacts.HasRoom uses)
  | _, [] => .isTrue trivial
  | contacts, first :: uses =>
    have := decidableHasRoom (contacts.use first).2 uses
    inferInstanceAs (Decidable (contacts.Admits first ∧ (contacts.use first).2.HasRoom uses))

variable {contacts : Contacts}

theorem queue_next (contacts : Contacts) :
    contacts.next.1.toList ++ contacts.next.2.queue = contacts.queue := by
  unfold next
  split
  . next hqueue => simp [hqueue]
  . next hqueue => simp [hqueue]

theorem isClosed_next (contacts : Contacts) (button : Nat) :
    contacts.next.2.isClosed button = contacts.isClosed button := by
  unfold next
  split <;> rfl

theorem exists_events_use {first : Use} (h : contacts.Admits first) :
    ∃ events, (contacts.use first).1 ++ (contacts.use first).2.queue = contacts.queue ++ events
      ∧ ∀ button, Alternates (contacts.isClosed button)
        (Prompt.positions button (events.map .moved)) ((contacts.use first).2.isClosed button) := by
  cases first with
  | level i high =>
    exact ⟨_, contacts.queue_onLevel i high h, contacts.alternates_onLevel i high⟩
  | next =>
    exact ⟨[], contacts.queue_next.trans (List.append_nil _).symm, contacts.isClosed_next⟩

theorem exists_events_useAll (uses : List Use) :
    ∀ contacts : Contacts, contacts.HasRoom uses →
      ∃ events, (contacts.useAll uses).1 ++ (contacts.useAll uses).2.queue = contacts.queue ++ events
        ∧ ∀ button, Alternates (contacts.isClosed button)
          (Prompt.positions button (events.map .moved))
          ((contacts.useAll uses).2.isClosed button) := by
  induction uses with
  | nil =>
    intro contacts _
    exact ⟨[], (List.append_nil _).symm, fun _ => rfl⟩
  | cons first uses ih =>
    intro contacts h
    obtain ⟨events, hqueue, hfirst⟩ := exists_events_use h.1
    obtain ⟨more, hqueue', hmore⟩ := ih _ h.2
    refine ⟨events ++ more, ?_, ?_⟩
    . rw [← List.append_assoc, ← hqueue, List.append_assoc, ← hqueue', ← List.append_assoc]
      rfl
    . intro button
      rw [List.map_append, Prompt.positions_append]
      exact alternates_append.mpr ⟨_, hfirst button, hmore button⟩

end Contacts

/-! ### The buttons of a device -/

theorem PinWatcher.exists_payloads_watch {watcher watcher' : PinWatcher Nat} {board board' : Board}
    {pin : Pin} {payload : Nat} (hwatch : watcher.watch board pin payload = .ok (watcher', board')) :
    ∃ others, others.Sublist (watcher.watched.map (·.payload))
      ∧ (watcher'.watched.map (·.payload)).Perm (payload :: others) := by
  obtain ⟨before, old, later, hwatched, hadded, _⟩ := watched_watch hwatch
  refine ⟨(before ++ later).map (·.payload), ?_, ?_⟩
  . rw [hwatched, List.append_assoc]
    exact ((List.Sublist.refl before).append (List.sublist_append_right _ later)).map _
  . rw [hadded, List.map_append, List.map_cons, List.map_append]
    exact List.perm_middle

namespace Device

variable {device : Device} {board : Board} {role : Role} {config : DeviceConfig}

structure WatchesOnceBelow (device : Device) (k : Nat) : Prop where
  below : ∀ i ∈ device.part.watcher.watched.map (·.payload), i < k
  nodup : (device.part.watcher.watched.map (·.payload)).Nodup

theorem WatchesOnceBelow.watchButton {k : Nat} (h : device.WatchesOnceBelow k) :
    (device.watchButton k).WatchesOnceBelow (k + 1) := by
  have hkept : device.WatchesOnceBelow (k + 1) :=
    ⟨fun i hmem => Nat.lt_succ_of_lt (h.below i hmem), h.nodup⟩
  unfold Device.watchButton
  split
  . exact hkept
  . split
    . next watcher board hwatch =>
      obtain ⟨others, hothers, hpayloads⟩ := PinWatcher.exists_payloads_watch hwatch
      constructor
      . intro i hmem
        rw [hpayloads.mem_iff, List.mem_cons] at hmem
        rcases hmem with rfl | hother
        . exact Nat.lt_succ_self i
        . exact Nat.lt_succ_of_lt (h.below i (hothers.subset hother))
      . rw [hpayloads.nodup_iff, List.nodup_cons]
        exact ⟨fun hmem => Nat.lt_irrefl k (h.below k (hothers.subset hmem)), hothers.nodup h.nodup⟩
    . exact hkept

theorem nodup_payloads_of_boot (h : boot board role = .ok device) :
    (device.part.watcher.watched.map (·.payload)).Nodup := by
  obtain ⟨fresh, _, hnone, _, hdevice⟩ := exists_assembled_of_boot h
  obtain ⟨_, _, hwatched, _⟩ := part_start fresh role
  have hunwatched : fresh.prepared.setUpContacts.part.watcher.watched = [] :=
    (watched_prepared fresh).trans hnone
  rw [hdevice, hwatched, readied_eq]
  generalize fresh.prepared.setUpContacts = attended at hunwatched ⊢
  have honce (n : Nat) : ((List.range n).foldl watchButton attended).WatchesOnceBelow n := by
    induction n with
    | zero => constructor <;> simp [hunwatched]
    | succ n ih =>
      rw [List.range_succ, List.foldl_append]
      exact ih.watchButton
  exact (honce attended.part.contacts.size).nodup

theorem Attends.length_notified_lt (h : device.Attends) {first later : List (Notification Nat)}
    {notification : Notification Nat}
    (hpass : (device.part.watcher.pass device.board).1 = first ++ notification :: later) :
    (device.part.contacts.notified first).queue.length < Contacts.queueLength := by
  have hlength := length_notifications_le device.part.watcher device.board
  have hfew := h.few
  rw [hpass, List.length_append, List.length_cons] at hlength
  have hroom : device.part.contacts.queue.length + first.length ≤ Contacts.queueLength := by
    rw [h.queue, List.length_nil]
    omega
  obtain ⟨events, hqueue, hindices, _⟩ := Contacts.exists_events_notified first _ hroom
  have hevents := hindices.length_le
  rw [List.length_map, List.length_map] at hevents
  rw [hqueue, h.queue, List.nil_append]
  omega

/--
Whatever happens to a device, a pass queues one change of every button at most and finds room for each,
and its queue is empty afterwards. What the device then does is what the turns do that the buttons take
for these changes, one after the other. They lead from the position that the contact of a button had
after the start to the one that it has, each to the opposite of the one before. For contacts alone, so
do the changes that were taken from the queue and those that are left there, as long as there is room
for all.
-/
theorem no_change_is_lost :
    (∀ (board : Board) (role : Role) (device : Device), boot board role = .ok device →
      ∀ happenings : List Happening,
        let last := device.through happenings
        device.Throughout MeetsInTurns happenings
          ∧ last.part.contacts.queue = []
          ∧ (last.noted.part.contacts.queue.map (·.index)).Nodup
          ∧ (∀ first notification later,
            (last.part.watcher.pass last.board).1 = first ++ notification :: later →
              (last.part.contacts.notified first).queue.length < Contacts.queueLength)
          ∧ ∀ button, Alternates (device.part.contacts.isClosed button)
            (Prompt.positions button ((device.turnsThrough happenings).map (·.prompt)))
            (last.part.contacts.isClosed button))
      ∧ ∀ (contacts : Contacts) (uses : List Contacts.Use), contacts.queue = [] →
        contacts.HasRoom uses → ∀ button, Alternates (contacts.isClosed button)
          (Prompt.positions button
            (((contacts.useAll uses).1 ++ (contacts.useAll uses).2.queue).map .moved))
          ((contacts.useAll uses).2.isClosed button) := by
  constructor
  . intro board role device hboot happenings last
    have hattends := attends_of_boot hboot
    have haccounted := hattends.accounted_through happenings
    have hwatched : last.part.watcher.watched = device.part.watcher.watched :=
      hattends.watched_through happenings
    refine ⟨throughout_of_forall meet_eq happenings device, haccounted.attends.queue, ?_,
      fun _ _ _ => haccounted.attends.length_notified_lt, ?_⟩
    . have honce := nodup_payloads_of_boot hboot
      rw [← hwatched] at honce
      exact (haccounted.attends.exists_noted.1.trans (payloads_pass _ _)).nodup honce
    . intro button
      have halternates := haccounted.alternates button
      rw [List.append_nil] at halternates
      exact halternates
  . intro contacts uses hqueue hroom
    obtain ⟨events, hevents, halternates⟩ := Contacts.exists_events_useAll uses contacts hroom
    rw [hevents, hqueue, List.nil_append]
    exact halternates

/--
Two buttons share a pin. Only the second one notices that the pin goes high and low again.
-/
theorem no_change_is_lost_of_shared_pin :
    let store : Store := ⟨16, 256, [(Key.config, Bytes.ascii "Acme;ACME-1;SB1u;BB1u;RC2;")]⟩
    let board := Board.idle [] .joined (.sound store)
    let pin := Pin.line 1 1
    let happenings := [.board fun board => board.setLevel pin true, .task .settle,
      .event (.input pin false), .task .settle]
    let contacts : Contacts := ⟨[⟨⟨pin, .up, .factoryReset⟩, true⟩], []⟩
    let uses := [.level 0 true, .level 0 false, .next, .level 0 true]
    ∃ device, boot board .router = .ok device
      ∧ device.part.contacts.isClosed 0 = true ∧ device.part.contacts.isClosed 1 = true
      ∧ Prompt.positions 0 ((device.turnsThrough happenings).map (·.prompt)) = []
      ∧ Prompt.positions 1 ((device.turnsThrough happenings).map (·.prompt)) = [false, true]
      ∧ (device.through happenings).part.contacts.queue = []
      ∧ (device.through happenings).part.contacts.isClosed 1 = true
      ∧ contacts.HasRoom uses
      ∧ (contacts.useAll uses).1 = [⟨0, false⟩]
      ∧ Alternates true (false :: Prompt.positions 0 ((contacts.useAll uses).2.queue.map .moved))
        ((contacts.useAll uses).2.isClosed 0) := by
  intro store board pin happenings contacts uses
  obtain ⟨hdevices, hcontacts⟩ := no_change_is_lost
  have hroom : contacts.HasRoom uses := by decide
  have hpopped : (contacts.useAll uses).1 = [⟨0, false⟩] := by decide
  have hreplayed := hcontacts contacts uses rfl hroom 0
  rw [hpopped] at hreplayed
  have hfacts : (boot board .router).toOption.map (fun device =>
      decide (device.part.contacts.isClosed 0 = true ∧ device.part.contacts.isClosed 1 = true
        ∧ Prompt.positions 0 ((device.turnsThrough happenings).map (·.prompt)) = []
        ∧ Prompt.positions 1 ((device.turnsThrough happenings).map (·.prompt)) = [false, true]))
        = some true := by
    decide +kernel
  obtain ⟨device, hboot, hdevice⟩ := exists_of_map_boot hfacts
  rw [decide_eq_true_eq] at hdevice
  obtain ⟨hfirst, hclosed, hnone, hpositions⟩ := hdevice
  obtain ⟨_, hqueue, _, _, halternates⟩ := hdevices board .router device hboot happenings
  have hlast := halternates 1
  rw [hpositions] at hlast
  exact ⟨device, hboot, hfirst, hclosed, hnone, hpositions, hqueue, hlast.2.2, hroom, hpopped,
    hreplayed⟩

end Device

end WallSwitch
