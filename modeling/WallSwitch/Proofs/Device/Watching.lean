import WallSwitch.Proofs.Device.Outputs
import WallSwitch.Proofs.Device.Positions

/-!
This module contains what a device watches when it has started: the pins of its buttons, each for the
edge that leaves its level, if the pins can be told from each other and from the outputs.
-/

namespace WallSwitch

/--
What a pin is at, and whether a change of it is noticed.
-/
structure Attention where
  level : Bool
  bounces : List Bool
  enabled : Bool
  armed : Option Edge
  /-- When the pins are to be read. -/
  passes : List Nat

namespace Attention

def Awaits (attention : Attention) : Prop :=
  attention.enabled = true ∧ attention.armed = some (.leaving attention.level)

/--
The contact of the pin is noted as it is, and any change of it is noticed, unless the pins are to be
read anyway.
-/
structure Notices (attention : Attention) (contact : Contact) : Prop where
  steady : attention.bounces = []
  idle : attention.passes = [] → attention.Awaits
    ∧ contact.closed = Contact.closedAt contact.button.pull attention.level
  masked : attention.passes ≠ [] → attention.enabled = false

end Attention

namespace Board

def attention (board : Board) (pin : Pin) : Attention where
  level := board.level pin
  bounces := board.bounces.get pin
  enabled := board.interruptEnabled.get pin
  armed := board.armedEdge.get pin
  passes := board.due .settle

variable {board : Board} {pin other : Pin} {command : Command} {commands : List Command}

theorem attention_perform (htopic : command.topic ≠ .inputs)
    (hwrite : ∀ high, command ≠ .write pin high) (board : Board) :
    (board.perform command).attention pin = board.attention pin := by
  have hinterruption := interruption_perform_of_topic htopic board
  have henabled : (board.perform command).interruptEnabled = board.interruptEnabled :=
    congrArg Prod.fst hinterruption
  have harmed : (board.perform command).armedEdge = board.armedEdge :=
    congrArg Prod.snd hinterruption
  unfold attention
  rw [level_perform_of_ne board hwrite, bounces_perform, henabled, harmed,
    due_perform_of_topic (by exact htopic)]

theorem attention_performAll (htopics : ∀ command ∈ commands, command.topic ≠ .inputs)
    (hwrites : ∀ high, .write pin high ∉ commands) (board : Board) :
    (board.performAll commands).attention pin = board.attention pin := by
  apply performAll_keeps (f := fun board => board.attention pin)
  intro command hmem board
  apply attention_perform (htopics command hmem)
  rintro high rfl
  exact hwrites high hmem

theorem attention_performAll_of_topic
    (h : ∀ command ∈ commands, command.topic ∉ [.outputs, .inputs]) (board : Board) :
    (board.performAll commands).attention pin = board.attention pin := by
  apply attention_performAll
  . intro command hmem heq
    exact h command hmem (by simp [heq])
  . intro high hmem
    exact h _ hmem List.mem_cons_self

theorem attention_setLevel_of_ne (h : other ≠ pin) (high : Bool) :
    (board.setLevel other high).attention pin = board.attention pin := by
  unfold attention
  congr 1
  exact PinMap.get_set_of_ne _ _ h

theorem attention_setBounces_of_ne (h : other ≠ pin) (levels : List Bool) :
    (board.setBounces other levels).attention pin = board.attention pin := by
  unfold attention
  congr 1
  exact PinMap.get_set_of_ne _ _ h

theorem read_of_steady (h : board.bounces.get pin = []) :
    board.read pin = (board.level pin, board.record (.read pin (board.level pin))) := by
  unfold read
  rw [h]

end Board

namespace PinWatcher

variable {α : Type} {watcher watcher' : PinWatcher α} {board board' : Board} {pin other : Pin}
variable {payload : α}

theorem attention_watch_of_ne (hwatch : watcher.watch board pin payload = .ok (watcher', board'))
    (hsteady : board.bounces.get pin = []) (h : pin ≠ other) :
    board'.attention other = board.attention other := by
  rw [board_watch hwatch, Board.read_of_steady hsteady]
  unfold Board.attention
  congr 1
  . exact PinMap.get_set_of_ne _ _ h
  . exact PinMap.get_set_of_ne _ _ h

theorem attention_watch_self (hwatch : watcher.watch board pin payload = .ok (watcher', board'))
    (hsteady : board.bounces.get pin = []) :
    board'.attention pin
      =
    { board.attention pin with
      enabled := true, armed := some (.leaving (board.level pin)) } := by
  rw [board_watch hwatch, Board.read_of_steady hsteady]
  unfold Board.attention
  congr 1
  . exact PinMap.get_set_self ..
  . exact PinMap.get_set_self ..

theorem length_watched_watch_le (hwatch : watcher.watch board pin payload = .ok (watcher', board')) :
    watcher'.watched.length ≤ watcher.watched.length + 1 := by
  obtain ⟨before, old, later, hwatched, hadded, _⟩ := watched_watch hwatch
  rw [hwatched, hadded]
  simp only [List.length_append, List.length_cons]
  omega

end PinWatcher

namespace Controller

structure Watches (controller : Controller) : Prop where
  known : ∀ watched ∈ controller.watcher.watched,
    (controller.contacts.button? watched.payload).map (·.pin) = some watched.pin
  every : ∀ i button, controller.contacts.button? i = some button →
    ⟨button.pin, i⟩ ∈ controller.watcher.watched
  nodup : controller.watcher.pins.Nodup

theorem button?_congr {controller next : Controller} (h : next.wiring = controller.wiring) (i : Nat) :
    next.contacts.button? i = controller.contacts.button? i := by
  have hbuttons := congrArg (fun wiring => wiring.1[i]?) h
  simp only [wiring, List.getElem?_map] at hbuttons
  exact hbuttons

theorem Watches.congr {controller next : Controller} (h : controller.Watches)
    (hbutton : ∀ i, next.contacts.button? i = controller.contacts.button? i)
    (hwatched : next.watcher.watched = controller.watcher.watched) : next.Watches where
  known := by
    intro watched hmem
    rw [hwatched] at hmem
    rw [hbutton]
    exact h.known watched hmem
  every := by
    intro i button hget
    rw [hbutton] at hget
    rw [hwatched]
    exact h.every i button hget
  nodup := by
    unfold PinWatcher.pins
    rw [hwatched]
    exact h.nodup

end Controller

namespace DeviceConfig

/--
Every button has a pin for itself, which is none of the outputs.
-/
structure ButtonsApart (config : DeviceConfig) : Prop where
  valid : ∀ button ∈ config.buttons, button.pin.isValid = true
  nodup : (config.buttons.map (·.pin)).Nodup
  outputs : ∀ button ∈ config.buttons, button.pin ∉ config.outputPins

instance : DecidablePred ButtonsApart := fun config =>
  decidable_of_iff ((∀ button ∈ config.buttons, button.pin.isValid = true)
      ∧ (config.buttons.map (·.pin)).Nodup
      ∧ ∀ button ∈ config.buttons, button.pin ∉ config.outputPins)
    ⟨fun h => ⟨h.1, h.2.1, h.2.2⟩, fun h => ⟨h.valid, h.nodup, h.outputs⟩⟩

end DeviceConfig

namespace Device

open Controller

/-! ### Watching one button after the other -/

structure WatchesBelow (device : Device) (k : Nat) : Prop where
  known : ∀ watched ∈ device.part.watcher.watched, watched.payload < k
    ∧ (device.part.contacts.button? watched.payload).map (·.pin) = some watched.pin
  every : ∀ i button, i < k → device.part.contacts.button? i = some button →
    ⟨button.pin, i⟩ ∈ device.part.watcher.watched
  nodup : device.part.watcher.pins.Nodup
  few : device.part.watcher.watched.length ≤ k
  awaits : ∀ watched ∈ device.part.watcher.watched, (device.board.attention watched.pin).Awaits

variable {device : Device} {k : Nat} {config : DeviceConfig} {board : Board} {role : Role}

theorem mem_buttons_of_button? (hbuilt : device.part.BuiltFrom config) {i : Nat} {button : Button}
    (h : device.part.contacts.button? i = some button) : button ∈ config.buttons := by
  rw [← hbuilt.buttons]
  exact List.mem_of_getElem? ((List.getElem?_map ..).trans h)

theorem pin_injective_of_nodup (hnodup : (config.buttons.map (·.pin)).Nodup)
    (hbuilt : device.part.BuiltFrom config) {i j : Nat} {pin : Pin}
    (hi : (device.part.contacts.button? i).map (·.pin) = some pin)
    (hj : (device.part.contacts.button? j).map (·.pin) = some pin) : i = j := by
  have hget (i : Nat) : (device.part.contacts.button? i).map (·.pin)
      = (config.buttons.map (·.pin))[i]? := by
    rw [← hbuilt.buttons, List.getElem?_map, List.getElem?_map]
    rfl
  rw [hget] at hi hj
  obtain ⟨hlt, _⟩ := List.getElem?_eq_some_iff.mp hi
  exact (List.getElem?_inj hlt hnodup).mp (hi.trans hj.symm)

theorem size_contacts (hbuilt : device.part.BuiltFrom config) :
    device.part.contacts.size = config.buttons.length := by
  rw [← hbuilt.buttons, List.length_map]
  rfl

theorem WatchesBelow.pin_not_mem (h : device.WatchesBelow k) (hapart : config.ButtonsApart)
    (hbuilt : device.part.BuiltFrom config) {button : Button}
    (hbutton : device.part.contacts.button? k = some button) :
    button.pin ∉ device.part.watcher.pins := by
  intro hpin
  obtain ⟨watched, hwatched, hsame⟩ := List.mem_map.mp hpin
  obtain ⟨hlt, hother⟩ := h.known watched hwatched
  have heq := pin_injective_of_nodup hapart.nodup hbuilt hother
    (by rw [hbutton]; exact congrArg some hsame.symm)
  exact Nat.ne_of_lt hlt heq

theorem WatchesBelow.watchButton (h : device.WatchesBelow k) (hapart : config.ButtonsApart)
    (hbuilt : device.part.BuiltFrom config) (hk : k < 5)
    (hsteady : ∀ button ∈ config.buttons, device.board.bounces.get button.pin = []) {button : Button}
    (hbutton : device.part.contacts.button? k = some button) :
    (device.watchButton k).WatchesBelow (k + 1) := by
  have hmem := mem_buttons_of_button? hbuilt hbutton
  have hroom : device.part.watcher.watched.length < 16 := by
    have hfew := h.few
    omega
  obtain ⟨watcher, board, hwatch⟩ := PinWatcher.exists_watch (hapart.valid button hmem) hroom k
  have hnew := h.pin_not_mem hapart hbuilt hbutton
  have hmem_iff := PinWatcher.mem_watched_watch_iff hwatch h.nodup
  have hdevice : device.watchButton k = ⟨{ device.part with watcher := watcher }, board⟩ := by
    unfold Device.watchButton
    rw [hbutton]
    dsimp only
    rw [hwatch]
  rw [hdevice]
  refine ⟨?_, ?_, PinWatcher.nodup_pins_watch hwatch h.nodup, ?_, ?_⟩
  . intro watched hin
    rcases (hmem_iff watched).mp hin with rfl | ⟨hbefore, _⟩
    . exact ⟨Nat.lt_succ_self k, by rw [hbutton]; rfl⟩
    . obtain ⟨hlt, hknown⟩ := h.known watched hbefore
      exact ⟨Nat.lt_succ_of_lt hlt, hknown⟩
  . intro i other hi hother
    apply (hmem_iff _).mpr
    rcases Nat.lt_succ_iff_lt_or_eq.mp hi with hlt | rfl
    . have hbefore := h.every i other hlt hother
      refine .inr ⟨hbefore, ?_⟩
      rintro hsame
      exact hnew (hsame ▸ List.mem_map_of_mem hbefore)
    . left
      rw [Option.some.inj (hother.symm.trans hbutton)]
  . exact (PinWatcher.length_watched_watch_le hwatch).trans (Nat.succ_le_succ h.few)
  . intro watched hin
    rcases (hmem_iff watched).mp hin with rfl | ⟨hbefore, hother⟩
    . rw [PinWatcher.attention_watch_self hwatch (hsteady button hmem)]
      exact ⟨rfl, rfl⟩
    . rw [PinWatcher.attention_watch_of_ne hwatch (hsteady button hmem) hother.symm]
      exact h.awaits watched hbefore

theorem contacts_watchButton (device : Device) (i : Nat) :
    (device.watchButton i).part.contacts = device.part.contacts := by
  unfold Device.watchButton
  split
  . rfl
  . split <;> rfl

theorem inputs_watchButton {i : Nat}
    (hsteady : ∀ button, device.part.contacts.button? i = some button →
      device.board.bounces.get button.pin = []) :
    (device.watchButton i).board.SameInputs device.board := by
  unfold Device.watchButton
  split
  . exact ⟨rfl, rfl⟩
  . next button hbutton =>
    split
    . next watcher board hwatch =>
      dsimp only
      rw [PinWatcher.board_watch hwatch, Board.read_of_steady (hsteady button hbutton)]
      exact ⟨rfl, rfl⟩
    . exact ⟨rfl, rfl⟩

theorem watchesBelow_foldl (hassembled : device.Assembled config) (hapart : config.ButtonsApart)
    (hfew : config.buttons.length ≤ 5) (hnone : device.part.watcher.watched = [])
    (hsteady : ∀ button ∈ config.buttons, device.board.bounces.get button.pin = []) (n : Nat) :
    n ≤ device.part.contacts.size →
      ((List.range n).foldl watchButton device).Assembled config
        ∧ ((List.range n).foldl watchButton device).part.contacts = device.part.contacts
        ∧ ((List.range n).foldl watchButton device).board.SameInputs device.board
        ∧ ((List.range n).foldl watchButton device).WatchesBelow n := by
  -- Reading and arming one pin leaves the contacts and all inputs as they are for the next.
  induction n with
  | zero =>
    intro _
    refine ⟨hassembled, rfl, ⟨rfl, rfl⟩, ?_, ?_, ?_, ?_, ?_⟩
    . simp [hnone]
    . intro i button hi
      exact absurd hi (Nat.not_lt_zero i)
    . simp [PinWatcher.pins, hnone]
    . simp [hnone]
    . simp [hnone]
  | succ n ih =>
    intro hn
    obtain ⟨hnext, hcontacts, hinputs, hwatches⟩ := ih (Nat.le_of_succ_le hn)
    rw [List.range_succ, List.foldl_append, List.foldl_cons, List.foldl_nil]
    generalize (List.range n).foldl watchButton device = next at hnext hcontacts hinputs hwatches ⊢
    have hsteady' : ∀ button ∈ config.buttons, next.board.bounces.get button.pin = [] := by
      rw [hinputs.bounces]
      exact hsteady
    have hlt : n < next.part.contacts.contacts.length := by
      rw [hcontacts]
      exact hn
    have hbutton : next.part.contacts.button? n = some next.part.contacts.contacts[n].button := by
      unfold Contacts.button?
      rw [List.getElem?_eq_getElem hlt]
      rfl
    have hsame : (next.watchButton n).board.SameInputs next.board :=
      inputs_watchButton fun button hbutton =>
        hsteady' button (mem_buttons_of_button? hnext.2 hbutton)
    refine ⟨hnext.watchButton n, (contacts_watchButton next n).trans hcontacts, ?_, ?_⟩
    . exact hsame.trans hinputs
    . have hk : n < 5 := (hn.trans_eq (size_contacts hassembled.2)).trans hfew
      exact hwatches.watchButton hapart hnext.2 hk hsteady' hbutton

/-! ### The number of pins -/

theorem length_watched_watchButton_le (device : Device) (i : Nat) :
    (device.watchButton i).part.watcher.watched.length
      ≤ device.part.watcher.watched.length + 1 := by
  unfold Device.watchButton
  split
  . exact Nat.le_succ _
  . split
    . next watcher board hwatch => exact PinWatcher.length_watched_watch_le hwatch
    . exact Nat.le_succ _

theorem length_watched_foldl_le (indices : List Nat) : ∀ (device : Device),
    (indices.foldl watchButton device).part.watcher.watched.length
      ≤ device.part.watcher.watched.length + indices.length := by
  induction indices with
  | nil =>
    intro device
    exact Nat.le_refl _
  | cons i indices ih =>
    intro device
    have hfirst := length_watched_watchButton_le device i
    have hrest := ih (device.watchButton i)
    rw [List.foldl_cons, List.length_cons]
    omega

theorem watched_prepared (device : Device) :
    device.prepared.part.watcher.watched = device.part.watcher.watched :=
  prepared_keeps_part (f := fun controller => controller.watcher.watched) (fun _ _ => rfl) device

theorem length_watched_readied_le {fresh : Device} (hassembled : fresh.Assembled config)
    (hnone : fresh.part.watcher.watched = []) :
    fresh.readied.part.watcher.watched.length ≤ config.buttons.length := by
  have hattended := hassembled.prepared.setUpContacts
  have hunwatched : fresh.prepared.setUpContacts.part.watcher.watched = [] :=
    (watched_prepared fresh).trans hnone
  rw [readied_eq]
  generalize fresh.prepared.setUpContacts = attended at hattended hunwatched ⊢
  have hsize := size_contacts hattended.2
  have hlength := length_watched_foldl_le (List.range attended.part.contacts.size) attended
  rw [hunwatched, List.length_nil, Nat.zero_add, List.length_range, hsize] at hlength
  unfold watchButtons
  rw [hsize]
  exact hlength

/-! ### Reading the contacts -/

theorem setUpAll_of_steady (contacts : List Contact) :
    ∀ board : Board, (∀ contact ∈ contacts, board.bounces.get contact.button.pin = []) →
      (Contacts.setUpAll board contacts).1
          = contacts.map (fun contact => { contact with
            closed := Contact.closedAt contact.button.pull (board.level contact.button.pin) })
        ∧ (Contacts.setUpAll board contacts).2.SameInputs board := by
  induction contacts with
  | nil =>
    intro board _
    exact ⟨rfl, rfl, rfl⟩
  | cons contact contacts ih =>
    intro board hsteady
    rw [List.forall_mem_cons] at hsteady
    let configured := board.perform (.configure contact.button.pin (.input contact.button.pull))
    have hconfigured : configured.bounces.get contact.button.pin = [] := hsteady.1
    obtain ⟨hcontacts, hinputs⟩ := ih
      (configured.record (.read contact.button.pin (configured.level contact.button.pin))) hsteady.2
    unfold Contacts.setUpAll
    dsimp only
    rw [Board.read_of_steady hconfigured]
    exact ⟨congrArg _ hcontacts, hinputs.levels, hinputs.bounces⟩

/-! ### After the start -/

structure Alert (device : Device) (config : DeviceConfig) : Prop where
  matched : device.part.Matched
  built : device.part.BuiltFrom config
  watches : device.part.Watches
  notices : ∀ contact ∈ device.part.contacts.contacts,
    (device.board.attention contact.button.pin).Notices contact

variable {pin : Pin} {commands : List Command}

theorem attention_performAll_of_covers (hpin : pin ∉ config.outputPins)
    (hcovers : config.CoversWrites commands)
    (htopics : ∀ command ∈ commands, command.topic ≠ .inputs) (board : Board) :
    (board.performAll commands).attention pin = board.attention pin :=
  Board.attention_performAll htopics (hcovers.not_mem hpin) board

theorem attention_recallRelay (hbuilt : device.part.BuiltFrom config)
    (hpin : pin ∉ config.outputPins) (i : Nat) :
    (device.recallRelay i).board.attention pin = device.board.attention pin := by
  have hmove := device.part.relays.move_set i true
  unfold recallRelay
  dsimp only
  split
  . split
    . apply attention_performAll_of_covers hpin (.move hbuilt.relays hmove)
      intro command hmem
      simp [hmove.topic command hmem]
    . rfl
  . rfl

theorem attention_recalled {fresh : Device} (hassembled : fresh.Assembled config)
    (hpin : pin ∉ config.outputPins) :
    fresh.recalled.board.attention pin = fresh.readied.board.attention pin := by
  have hannounced : (fresh.readied.step Controller.announceTopology).board.attention pin
      = fresh.readied.board.attention pin := by
    apply Board.attention_performAll_of_topic
    simp [Controller.announceTopology, Command.topic]
  have hstep := hassembled.readied.announceTopology
  unfold recalled
  generalize fresh.readied.step Controller.announceTopology = announced at hannounced hstep ⊢
  -- The relays are turned on one after the other, by a bank that is wired as the configuration says.
  refine (List.foldlRecOn (motive := fun next : Device => next.Assembled config
    ∧ next.board.attention pin = fresh.readied.board.attention pin) _ _ ⟨hstep, hannounced⟩ ?_).2
  rintro next ⟨hnext, hattention⟩ i _
  exact ⟨hnext.recallRelay i, (attention_recallRelay hnext.2 hpin i).trans hattention⟩

theorem attention_start {fresh : Device} (hassembled : fresh.Assembled config)
    (hpin : pin ∉ config.outputPins) (role : Role) :
    (fresh.start role).board.attention pin = fresh.readied.board.attention pin := by
  have hbuilt := hassembled.recalled
  have hattention := attention_recalled hassembled hpin
  rw [start_eq, compareRole_eq]
  generalize fresh.recalled = recalled at hbuilt hattention ⊢
  have hshown : (recalled.step (Controller.onStatus recalled.board.network)).board.attention pin
      = fresh.readied.board.attention pin := by
    refine Eq.trans ?_ hattention
    apply attention_performAll_of_covers hpin (.onStatus hbuilt.2 _)
    intro command hmem
    simp [Controller.topic_onStatus command hmem]
  refine Eq.trans ?_ hshown
  apply Board.compareRole_keeps (f := fun board => board.attention pin)
  . intro key room board
    rfl
  . intro command htopic board
    apply Board.attention_perform
    . rintro heq
      rw [heq] at htopic
      simp at htopic
    . rintro high rfl
      simp [Command.topic] at htopic
  . intro board
    rfl

theorem setUpContacts_of_steady (hsteady : ∀ pin, device.board.bounces.get pin = []) :
    device.setUpContacts.board.SameInputs device.board
      ∧ ∀ contact ∈ device.setUpContacts.part.contacts.contacts,
        contact.closed = Contact.closedAt contact.button.pull (device.board.level contact.button.pin) := by
  obtain ⟨hread, hinputs⟩ := setUpAll_of_steady device.part.contacts.contacts device.board
    fun contact _ => hsteady contact.button.pin
  refine ⟨hinputs, ?_⟩
  intro contact hmem
  change contact ∈ (Contacts.setUpAll device.board device.part.contacts.contacts).1 at hmem
  rw [hread] at hmem
  obtain ⟨old, _, rfl⟩ := List.mem_map.mp hmem
  rfl

theorem watches_of_watchesBelow (h : device.WatchesBelow device.part.contacts.size) :
    device.part.Watches where
  known := fun watched hmem => (h.known watched hmem).2
  every := by
    intro i button hbutton
    refine h.every i button ?_ hbutton
    obtain ⟨contact, hget, _⟩ := Option.map_eq_some_iff.mp hbutton
    exact (List.getElem?_eq_some_iff.mp hget).1
  nodup := h.nodup

theorem watches_readied {fresh : Device} (hassembled : fresh.Assembled config)
    (hapart : config.ButtonsApart) (hfew : config.buttons.length ≤ 5)
    (hnone : fresh.part.watcher.watched = [])
    (hsteady : ∀ pin, fresh.board.bounces.get pin = []) :
    fresh.readied.part.Watches ∧ ∀ contact ∈ fresh.readied.part.contacts.contacts,
      (fresh.readied.board.attention contact.button.pin).bounces = []
        ∧ (fresh.readied.board.attention contact.button.pin).Awaits
        ∧ contact.closed = Contact.closedAt contact.button.pull
          (fresh.readied.board.attention contact.button.pin).level := by
  have hprepared := hassembled.prepared
  have hunwatched : fresh.prepared.part.watcher.watched = [] := (watched_prepared fresh).trans hnone
  have hbounces : fresh.prepared.board.bounces = fresh.board.bounces :=
    start_keeps_prepared (fun command _ board => board.bounces_perform command) (fun _ _ _ => rfl)
      fresh
  rw [readied_eq]
  generalize fresh.prepared = prepared at hprepared hunwatched hbounces ⊢
  have hsteady' : ∀ pin, prepared.board.bounces.get pin = [] := by
    rw [hbounces]
    exact hsteady
  obtain ⟨hinputs, hclosed⟩ := setUpContacts_of_steady hsteady'
  have hattended := hprepared.setUpContacts
  have hunwatched' : prepared.setUpContacts.part.watcher.watched = [] := hunwatched
  rw [← hinputs.bounces] at hsteady'
  unfold watchButtons
  generalize prepared.setUpContacts = attended at hattended hclosed hinputs hsteady' hunwatched' ⊢
  obtain ⟨_, hcontacts, hkept, hwatches⟩ := watchesBelow_foldl hattended hapart hfew hunwatched'
    (fun button _ => hsteady' button.pin) attended.part.contacts.size (Nat.le_refl _)
  generalize (List.range attended.part.contacts.size).foldl watchButton attended = watched
    at hcontacts hkept hwatches ⊢
  rw [← hcontacts] at hwatches
  have hfound := watches_of_watchesBelow hwatches
  refine ⟨hfound, ?_⟩
  intro contact hmem
  obtain ⟨i, hget⟩ := List.getElem?_of_mem hmem
  have hbutton : watched.part.contacts.button? i = some contact.button :=
    congrArg (Option.map Contact.button) hget
  rw [hcontacts] at hmem
  refine ⟨?_, hwatches.awaits _ (hfound.every i contact.button hbutton), ?_⟩
  . change watched.board.bounces.get contact.button.pin = []
    rw [hkept.bounces, hsteady']
  . rw [hclosed contact hmem]
    change _ = Contact.closedAt _ (watched.board.levels.get contact.button.pin)
    rw [hkept.levels, hinputs.levels]
    rfl

theorem exists_steady_of_boot (h : boot board role = .ok device)
    (hsteady : ∀ pin, board.bounces.get pin = []) :
    ∃ fresh : Device, fresh.Assembled device.part.config ∧ fresh.part.watcher.watched = []
      ∧ (∀ pin, fresh.board.bounces.get pin = []) ∧ device = fresh.start role := by
  obtain ⟨fresh, hfresh, hnone, hbounces, hdevice⟩ := exists_assembled_of_boot h
  refine ⟨fresh, hfresh, hnone, ?_, hdevice⟩
  intro pin
  rw [hbounces, hsteady]

theorem attends_of_boot (h : boot board role = .ok device) : device.Attends := by
  obtain ⟨fresh, hfresh, hnone, _, hdevice⟩ := exists_assembled_of_boot h
  obtain ⟨_, _, hwatched, _⟩ := part_start fresh role
  rw [← hdevice] at hwatched
  refine ⟨matched_of_boot h, (waiting_of_boot h).1, ?_⟩
  rw [hwatched]
  have hlength := length_watched_readied_le hfresh hnone
  have hfew : device.part.config.buttons.length ≤ 5 := count_le_of_boot h .buttons
  unfold Contacts.queueLength
  omega

theorem alert_of_boot (h : boot board role = .ok device) (hidle : board.agenda.pending = [])
    (hsteady : ∀ pin, board.bounces.get pin = []) (hapart : device.part.config.ButtonsApart) :
    device.Alert device.part.config := by
  obtain ⟨fresh, hfresh, hnone, hsteady, hdevice⟩ := exists_steady_of_boot h hsteady
  have hbuilt := builtFrom_of_boot h
  obtain ⟨hwatches, hnotices⟩ := watches_readied hfresh hapart
    (count_le_of_boot h .buttons) hnone hsteady
  obtain ⟨hcontacts, _, hwatched, _⟩ := part_start fresh role
  rw [← hdevice] at hcontacts hwatched
  have hfound : device.part.Watches := by
    apply hwatches.congr _ hwatched
    intro i
    rw [hcontacts]
  refine ⟨matched_of_boot h, hbuilt, hfound, ?_⟩
  intro contact hmem
  have hbutton : contact.button ∈ device.part.config.buttons := by
    rw [← hbuilt.buttons]
    exact List.mem_map_of_mem hmem
  have hattention := attention_start hfresh (hapart.outputs contact.button hbutton) role
  rw [← hdevice] at hattention
  rw [hcontacts] at hmem
  obtain ⟨hbounces, hawaits, hclosed⟩ := hnotices contact hmem
  rw [hattention]
  refine ⟨hbounces, fun _ => ⟨hawaits, hclosed⟩, ?_⟩
  intro hpasses
  exfalso
  apply hpasses
  rw [← hattention]
  exact due_of_boot h hidle (by simp [Task.topic])

end Device

end WallSwitch
