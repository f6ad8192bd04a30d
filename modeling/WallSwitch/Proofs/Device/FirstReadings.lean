import WallSwitch.Proofs.Board.Scripts
import WallSwitch.Proofs.Device.Watching

/-!
This module contains what a device learns about a contact when it starts. It reads the pin of a button
twice: the contact is noted as the first read finds it, and the pin is armed for the edge that
leaves the level that the second one finds. If the contact bounces in between, these do not fit.
-/

namespace WallSwitch

theorem Contact.closedAt_inj {pull : Pull} {high high' : Bool} :
    closedAt pull high = closedAt pull high' ↔ high = high' := by
  cases pull <;> simp [closedAt]

namespace Board

/--
What is found at a pin now and later, whether it interrupts, and on which edge.
-/
def outlook (board : Board) (pin : Pin) : (List Bool × (Nat → Bool)) × Bool × Option Edge :=
  (board.script pin, board.interruptEnabled.get pin, board.armedEdge.get pin)

theorem upcoming_agree_iff {board : Board} {pin : Pin} :
    board.upcoming pin 0 = board.upcoming pin 1
      ↔ ∀ first second later, board.bounces.get pin = first :: second :: later → first = second := by
  unfold upcoming rest
  match board.bounces.get pin with
  | [] => simp
  | [high] => simp
  | first :: second :: later => simp

end Board

namespace Contacts

structure HasPinAlone (contacts : Contacts) (i : Nat) (button : Button) : Prop where
  exists_button : contacts.button? i = some button
  valid : button.pin.isValid = true
  alone : ∀ j other, contacts.button? j = some other → other.pin = button.pin → j = i

variable {contacts next : Contacts} {i : Nat} {button : Button}

theorem HasPinAlone.of_nodup (hbutton : contacts.button? i = some button)
    (hvalid : button.pin.isValid = true)
    (hnodup : (contacts.contacts.map fun contact => contact.button.pin).Nodup) :
    contacts.HasPinAlone i button := by
  refine ⟨hbutton, hvalid, ?_⟩
  intro j other hother hpin
  have hget (k : Nat) : (contacts.contacts.map fun contact => contact.button.pin)[k]?
      = (contacts.button? k).map (·.pin) := by
    rw [List.getElem?_map]
    exact (Option.map_map ..).symm
  have hi := (hget i).trans (congrArg (Option.map Button.pin) hbutton)
  have hj := (hget j).trans (congrArg (Option.map Button.pin) hother)
  obtain ⟨hlt, _⟩ := List.getElem?_eq_some_iff.mp hj
  exact (List.getElem?_inj hlt hnodup).mp (by rw [hi, hj, Option.map_some, Option.map_some, hpin])

theorem HasPinAlone.congr (h : contacts.HasPinAlone i button)
    (hbuttons : ∀ j, next.button? j = contacts.button? j) : next.HasPinAlone i button := by
  refine ⟨(hbuttons i).trans h.exists_button, h.valid, ?_⟩
  intro j other hother
  exact h.alone j other ((hbuttons j).symm.trans hother)

theorem isClosed_eq {contact : Contact} (h : contacts.contacts[i]? = some contact) :
    contacts.isClosed i = contact.closed := by
  unfold isClosed
  rw [h]
  rfl

theorem script_configure (board : Board) (pin other : Pin) (pull : Pull) :
    (board.perform (.configure pin (.input pull))).script other = board.script other := by
  apply Board.script_perform_of_ne
  intro high heq
  cases heq

theorem script_setUpAll_of_ne {contacts : List Contact} {pin : Pin}
    (h : ∀ contact ∈ contacts, contact.button.pin ≠ pin) (board : Board) :
    (setUpAll board contacts).2.script pin = board.script pin :=
  setUpAll_keeps (f := fun board => board.script pin) (fun other pull board =>
    script_configure board other pin pull) (fun contact hmem => Board.script_read_of_ne (h contact hmem))
    board

theorem setUpAll_alone {contact : Contact} {contacts : List Contact} : ∀ {i : Nat},
    contacts[i]? = some contact →
      (∀ j other, contacts[j]? = some other → other.button.pin = contact.button.pin → j = i) →
        ∀ board : Board,
          (setUpAll board contacts).1[i]? = some { contact with
            closed := Contact.closedAt contact.button.pull (board.upcoming contact.button.pin 0) }
          ∧ (setUpAll board contacts).2.script contact.button.pin
            = (board.found contact.button.pin ++ [board.upcoming contact.button.pin 0],
              fun k => board.upcoming contact.button.pin (k + 1)) := by
  induction contacts with
  | nil =>
    intro i hget
    cases hget
  | cons first contacts ih =>
    intro i hget halone board
    have hscript := script_configure board first.button.pin contact.button.pin first.button.pull
    have hfound : Board.found _ _ = _ := congrArg Prod.fst hscript
    have hupcoming : Board.upcoming _ _ = _ := congrArg Prod.snd hscript
    unfold setUpAll
    dsimp only
    cases i with
    | zero =>
      cases hget
      -- No contact behind this one reads its pin again.
      have hothers : ∀ other ∈ contacts, other.button.pin ≠ contact.button.pin := by
        intro other hmem hpin
        obtain ⟨j, hj⟩ := List.getElem?_of_mem hmem
        cases halone (j + 1) other hj hpin
      rw [script_setUpAll_of_ne hothers, Board.script_read_self, Board.read_eq_upcoming, hfound,
        hupcoming]
      exact ⟨rfl, rfl⟩
    | succ i =>
      have hother : first.button.pin ≠ contact.button.pin := by
        intro hpin
        cases halone 0 first rfl hpin
      obtain ⟨hcontact, hrest⟩ := ih (i := i) hget (fun j other hj hpin =>
        Nat.succ.inj (halone (j + 1) other hj hpin))
        ((board.perform (.configure first.button.pin (.input first.button.pull))).read
          first.button.pin).2
      have hread := (Board.script_read_of_ne hother _).trans hscript
      have hfound : Board.found _ _ = _ := congrArg Prod.fst hread
      have hupcoming : Board.upcoming _ _ = _ := congrArg Prod.snd hread
      rw [hupcoming] at hcontact hrest
      rw [hfound] at hrest
      exact ⟨hcontact, hrest⟩

end Contacts

namespace PinWatcher

variable {α : Type} {watcher watcher' : PinWatcher α} {board board' : Board} {pin other : Pin}
variable {payload : α}

theorem script_armed (board : Board) (pin other : Pin) (high : Bool) :
    (board.performAll [arm pin high, .enableInterrupt pin]).script other = board.script other := by
  apply Board.performAll_keeps (f := fun board => board.script other)
  intro command hmem board
  apply Board.script_perform_of_ne
  rintro level rfl
  simp [arm] at hmem

theorem outlook_watch_of_ne (hwatch : watcher.watch board pin payload = .ok (watcher', board'))
    (h : pin ≠ other) : board'.outlook other = board.outlook other := by
  rw [board_watch hwatch]
  refine Prod.ext ((script_armed _ pin other _).trans (Board.script_read_of_ne h board))
    (Prod.ext ?_ ?_)
  . exact (PinMap.get_set_of_ne _ _ h).trans
      (congrArg (PinMap.get · other) (board.interruptEnabled_read pin))
  . exact (PinMap.get_set_of_ne _ _ h).trans
      (congrArg (PinMap.get · other) (board.armedEdge_read pin))

theorem outlook_watch_self (hwatch : watcher.watch board pin payload = .ok (watcher', board')) :
    board'.outlook pin
      =
    ((board.found pin ++ [board.upcoming pin 0], fun k => board.upcoming pin (k + 1)), true,
      some (.leaving (board.upcoming pin 0))) := by
  rw [board_watch hwatch, Board.read_eq_upcoming]
  refine Prod.ext ((script_armed _ pin pin _).trans (Board.script_read_self board pin))
    (Prod.ext ?_ ?_)
  . exact PinMap.get_set_self ..
  . exact PinMap.get_set_self ..

end PinWatcher

namespace Device

variable {device : Device} {board : Board} {role : Role} {i : Nat} {button : Button} {pin : Pin}

/-! ### The first read -/

theorem button?_setUpContacts (device : Device) (j : Nat) :
    device.setUpContacts.part.contacts.button? j = device.part.contacts.button? j := by
  have hbuttons := congrArg (fun buttons : List Button => buttons[j]?)
    (Assembled.buttons_setUpAll device.part.contacts.contacts device.board)
  simp only [List.getElem?_map] at hbuttons
  exact hbuttons

theorem setUpContacts_alone (h : device.part.contacts.HasPinAlone i button) :
    device.setUpContacts.part.contacts.isClosed i
        = Contact.closedAt button.pull (device.board.upcoming button.pin 0)
      ∧ device.setUpContacts.board.script button.pin
        = (device.board.found button.pin ++ [device.board.upcoming button.pin 0],
          fun k => device.board.upcoming button.pin (k + 1)) := by
  obtain ⟨contact, hget, hcontact⟩ := Option.map_eq_some_iff.mp h.exists_button
  subst hcontact
  have halone (j : Nat) (other : Contact) (hother : device.part.contacts.contacts[j]? = some other) :
      other.button.pin = contact.button.pin → j = i :=
    h.alone j other.button (congrArg (Option.map Contact.button) hother)
  obtain ⟨hcontact, hscript⟩ := Contacts.setUpAll_alone hget halone device.board
  have hset : device.setUpContacts.part.contacts.contacts[i]? = some _ := hcontact
  exact ⟨Contacts.isClosed_eq hset, hscript⟩

/-! ### The second read -/

theorem outlook_watchButton_of_ne {j : Nat}
    (h : ∀ other, device.part.contacts.button? j = some other → other.pin ≠ pin) :
    (device.watchButton j).board.outlook pin = device.board.outlook pin := by
  unfold watchButton
  split
  . rfl
  . next other hother =>
    split
    . next hwatch => exact PinWatcher.outlook_watch_of_ne hwatch (h other hother)
    . rfl

theorem foldl_watchButton_of_ne (indices : List Nat)
    (h : ∀ j ∈ indices, ∀ other, device.part.contacts.button? j = some other → other.pin ≠ pin) :
    (indices.foldl watchButton device).part.contacts = device.part.contacts
      ∧ (indices.foldl watchButton device).board.outlook pin = device.board.outlook pin := by
  refine List.foldlRecOn (motive := fun next : Device => next.part.contacts = device.part.contacts
    ∧ next.board.outlook pin = device.board.outlook pin) indices _ ⟨rfl, rfl⟩ ?_
  rintro next ⟨hcontacts, houtlook⟩ j hmem
  refine ⟨(contacts_watchButton next j).trans hcontacts, ?_⟩
  refine (outlook_watchButton_of_ne ?_).trans houtlook
  rw [hcontacts]
  exact h j hmem

theorem outlook_watchButton_self (hbutton : device.part.contacts.button? i = some button)
    (hvalid : button.pin.isValid = true) (hroom : device.part.watcher.watched.length < 16) :
    (device.watchButton i).board.outlook button.pin
      =
    ((device.board.found button.pin ++ [device.board.upcoming button.pin 0],
      fun k => device.board.upcoming button.pin (k + 1)), true,
      some (.leaving (device.board.upcoming button.pin 0))) := by
  obtain ⟨watcher, board, hwatch⟩ := PinWatcher.exists_watch hvalid hroom i
  unfold watchButton
  rw [hbutton]
  dsimp only
  rw [hwatch]
  exact PinWatcher.outlook_watch_self hwatch

theorem outlook_watchButtons (h : device.part.contacts.HasPinAlone i button)
    (hnone : device.part.watcher.watched = []) (hfew : device.part.contacts.size ≤ 16) :
    device.watchButtons.board.outlook button.pin
      =
    ((device.board.found button.pin ++ [device.board.upcoming button.pin 0],
      fun k => device.board.upcoming button.pin (k + 1)), true,
      some (.leaving (device.board.upcoming button.pin 0))) := by
  obtain ⟨contact, hget, _⟩ := Option.map_eq_some_iff.mp h.exists_button
  have hlt : i < device.part.contacts.size := (List.getElem?_eq_some_iff.mp hget).1
  -- The buttons before and after this one are watched under other pins.
  obtain ⟨before, later, hrange⟩ := List.append_of_mem (List.mem_range.mpr hlt)
  have hnodup := List.nodup_range (n := device.part.contacts.size)
  rw [hrange, List.nodup_middle, List.nodup_cons, List.mem_append, not_or] at hnodup
  have hothers (indices : List Nat) (hmem : i ∉ indices) : ∀ j ∈ indices, ∀ other,
      device.part.contacts.button? j = some other → other.pin ≠ button.pin := by
    intro j hj other hother hpin
    rw [h.alone j other hother hpin] at hj
    exact hmem hj
  unfold watchButtons
  rw [hrange, List.foldl_append, List.foldl_cons]
  have hlength := length_watched_foldl_le before device
  obtain ⟨hcontacts, houtlook⟩ := foldl_watchButton_of_ne before (hothers before hnodup.1.1)
  generalize before.foldl watchButton device = reached at hlength hcontacts houtlook ⊢
  have hroom : reached.part.watcher.watched.length < 16 := by
    have htotal := congrArg List.length hrange
    simp only [List.length_range, List.length_append, List.length_cons] at htotal
    rw [hnone, List.length_nil] at hlength
    omega
  have hfound := congrArg (fun outlook => outlook.1.1) houtlook
  have hupcoming := congrArg (fun outlook => outlook.1.2) houtlook
  dsimp only [Board.outlook, Board.script] at hfound hupcoming
  have hself := outlook_watchButton_self (hcontacts ▸ h.exists_button) h.valid hroom
  rw [hfound, hupcoming] at hself
  rw [← hself]
  apply (foldl_watchButton_of_ne later _).2
  rw [contacts_watchButton, hcontacts]
  exact hothers later hnodup.1.2

/-! ### The whole start -/

theorem found_start (device : Device) (role : Role) (pin : Pin) :
    (device.start role).board.found pin = device.readied.board.found pin
      ∧ (device.start role).board.interruption = device.readied.board.interruption := by
  rw [← Prod.mk.injEq]
  have hcommand (command : Command) (htopic : command.topic ≠ .inputs) (board : Board) :
      ((board.perform command).found pin, (board.perform command).interruption)
        = (board.found pin, board.interruption) := by
    rw [board.found_perform, Board.interruption_perform_of_topic htopic]
  apply start_keeps_from_readied (f := fun board => (board.found pin, board.interruption))
  . intro key room board
    rw [board.found_load]
    rfl
  . intro command htopic board
    apply hcommand
    intro heq
    simp [heq] at htopic
  . exact hcommand _ (by decide)
  . intro topology board
    apply hcommand
    simp [Command.topic]

theorem exists_prepared_of_boot (h : boot board role = .ok device) (pin : Pin) :
    ∃ prepared : Device, prepared.Assembled device.part.config
      ∧ prepared.part.watcher.watched = []
      ∧ prepared.board.found pin = board.found pin
      ∧ prepared.board.bounces = board.bounces
      ∧ device.part.contacts = prepared.setUpContacts.watchButtons.part.contacts
      ∧ device.board.found pin = prepared.setUpContacts.watchButtons.board.found pin
      ∧ device.board.interruption = prepared.setUpContacts.watchButtons.board.interruption := by
  have hload (key room : Nat) (board : Board) :
      ((board.load key room).2.found pin, (board.load key room).2.bounces)
        = (board.found pin, board.bounces) := by
    rw [board.found_load]
    rfl
  have hperform (command : Command) (board : Board) :
      ((board.perform command).found pin, (board.perform command).bounces)
        = (board.found pin, board.bounces) := by
    rw [board.found_perform, board.bounces_perform]
  obtain ⟨fresh, hfresh, hnone, hkept, hdevice⟩ := exists_assembled_keeping_of_boot
    (f := fun board => (board.found pin, board.bounces)) hload (fun _ _ => hperform _) h
  have hprepared := (start_keeps_prepared (f := fun board => (board.found pin, board.bounces))
    (fun command _ => hperform command) hload fresh).trans hkept
  obtain ⟨hcontacts, _, _, _⟩ := part_start fresh role
  obtain ⟨hfound, hinterruption⟩ := found_start fresh role pin
  rw [hdevice]
  exact ⟨fresh.prepared, hdevice ▸ hfresh.prepared, (watched_prepared fresh).trans hnone,
    congrArg Prod.fst hprepared, congrArg Prod.snd hprepared, hcontacts, hfound, hinterruption⟩

/--
The pin of button `i` is armed for the edge that leaves the level at which its contact is as noted.
-/
def ArmedAsNoted (device : Device) (i : Nat) (button : Button) : Prop :=
  ∃ high, device.part.contacts.isClosed i = Contact.closedAt button.pull high
    ∧ device.board.armedEdge.get button.pin = some (.leaving high)

instance (device : Device) (i : Nat) (button : Button) : Decidable (device.ArmedAsNoted i button) :=
  inferInstanceAs (Decidable (∃ high, device.part.contacts.isClosed i
    = Contact.closedAt button.pull high ∧ device.board.armedEdge.get button.pin = some (.leaving high)))

theorem armedAsNoted_iff {first second : Bool}
    (hclosed : device.part.contacts.isClosed i = Contact.closedAt button.pull first)
    (harmed : device.board.armedEdge.get button.pin = some (.leaving second)) :
    device.ArmedAsNoted i button ↔ first = second := by
  unfold ArmedAsNoted
  rw [hclosed, harmed]
  constructor
  . rintro ⟨high, hnoted, hedge⟩
    rw [Contact.closedAt_inj.mp hnoted, Edge.leaving_injective (Option.some.inj hedge)]
  . intro h
    exact ⟨first, rfl, by rw [h]⟩

theorem queue_onLevel_not (hbutton : device.part.contacts.button? i = some button)
    (hqueue : device.part.contacts.queue = []) {first second : Bool}
    (hclosed : device.part.contacts.isClosed i = Contact.closedAt button.pull first) :
    (device.part.contacts.onLevel i (!second)).queue
      =
    if first = second then [⟨i, Contact.closedAt button.pull (!second)⟩] else [] := by
  obtain ⟨contact, hget, rfl⟩ := Option.map_eq_some_iff.mp hbutton
  rw [Contacts.isClosed_eq hget] at hclosed
  have hmoved : Contact.closedAt contact.button.pull (!second) = contact.closed ↔ first ≠ second := by
    rw [hclosed, Contact.closedAt_inj]
    cases first <;> cases second <;> decide
  rw [Contacts.queue_onLevel _ _ _ fun _ => by rw [hqueue]; decide, hqueue, List.nil_append]
  unfold Contacts.change?
  rw [hget, Option.bind_some]
  by_cases h : first = second
  . rw [if_pos h, if_neg fun hsame => hmoved.mp hsame h]
    rfl
  . rw [if_neg h, if_pos (hmoved.mpr h)]
    rfl

/--
A device that starts reads the pin of a button twice, if the button has it for itself. The contact is
noted as it is at the level found first, and the pin is armed for the edge that leaves the level found
second, so that it interrupts on the first change from there. That change is noted, and the pin armed
as the contact was noted, exactly if the two levels are the same. They are, unless the first two
bounces of the pin differ.
-/
theorem armed_as_noted_iff_reads_agree (h : boot board role = .ok device)
    (hbutton : device.part.contacts.HasPinAlone i button) :
    let contacts := device.part.contacts
    let agree := ∀ first second later,
      board.bounces.get button.pin = first :: second :: later → first = second
    ∃ first second, device.board.found button.pin = board.found button.pin ++ [first, second]
      ∧ contacts.isClosed i = Contact.closedAt button.pull first
      ∧ device.board.interruptEnabled.get button.pin = true
      ∧ device.board.armedEdge.get button.pin = some (.leaving second)
      ∧ (first = second ↔ agree)
      ∧ (device.ArmedAsNoted i button ↔ agree)
      ∧ (contacts.onLevel i (!second)).queue
        = if first = second then [⟨i, Contact.closedAt button.pull (!second)⟩] else [] := by
  intro contacts agree
  obtain ⟨prepared, hassembled, hnone, hfound, hbounces, hcontacts, hread, hinterruption⟩ :=
    exists_prepared_of_boot h button.pin
  have hfew : prepared.setUpContacts.part.contacts.size ≤ 16 := by
    have hcount := count_le_of_boot h .buttons
    rw [size_contacts hassembled.setUpContacts.2]
    exact hcount.trans (by decide)
  rw [watchButtons_keeps_part (f := fun controller => controller.contacts) fun _ _ => rfl]
    at hcontacts
  have hset : prepared.setUpContacts.part.contacts.HasPinAlone i button := by
    rw [← hcontacts]
    exact hbutton
  have hprepared := hset.congr fun j => (button?_setUpContacts prepared j).symm
  obtain ⟨hclosed, hscript⟩ := setUpContacts_alone hprepared
  have houtlook := outlook_watchButtons hset hnone hfew
  simp only [Board.outlook, Board.script, Board.interruption, Prod.mk.injEq]
    at hscript houtlook hinterruption
  obtain ⟨hfirst, hnext⟩ := hscript
  obtain ⟨⟨hboth, _⟩, henabled, harmed⟩ := houtlook
  rw [hfirst, hnext, hfound, ← hread, List.append_assoc] at hboth
  rw [← hinterruption.1] at henabled
  rw [hnext, ← hinterruption.2] at harmed
  rw [← hcontacts] at hclosed
  have hagree : prepared.board.upcoming button.pin 0 = prepared.board.upcoming button.pin 1 ↔ agree := by
    rw [Board.upcoming_agree_iff, hbounces]
  exact ⟨_, _, hboth, hclosed, henabled, harmed, hagree, (armedAsNoted_iff hclosed harmed).trans hagree,
    queue_onLevel_not hbutton.exists_button (waiting_of_boot h).1 hclosed⟩

theorem armed_as_noted_of_late_bounce :
    let store : Store := ⟨16, 256, [(Key.config, Bytes.ascii "Acme;ACME-1;RB2;SB0u;")]⟩
    let pin := Pin.line 1 0
    let board := (Board.idle [] .joined (.sound store)).setBounces pin [false, false, true]
    ∃ device button, boot board .router = .ok device
      ∧ device.part.contacts.HasPinAlone 0 button
      ∧ device.part.contacts.isClosed 0 = true
      ∧ device.board.armedEdge.get pin = some .rising
      ∧ device.ArmedAsNoted 0 button := by
  intro store pin board
  have hfacts : (boot board .router).toOption.map (fun device =>
      decide ((device.part.contacts.button? 0).map (fun button => (button.pin, button.pull))
          = some (pin, .up)
        ∧ (device.part.contacts.contacts.map fun contact => contact.button.pin).Nodup
        ∧ device.board.found pin = board.found pin ++ [false, false])) = some true := by
    decide +kernel
  obtain ⟨device, hboot, hdevice⟩ := exists_of_map_boot hfacts
  rw [decide_eq_true_eq] at hdevice
  obtain ⟨hplace, hnodup, hread⟩ := hdevice
  obtain ⟨button, hbutton, hplace⟩ := Option.map_eq_some_iff.mp hplace
  obtain ⟨hpin, hpull⟩ := Prod.mk.inj hplace
  have halone : device.part.contacts.HasPinAlone 0 button :=
    .of_nodup hbutton (by rw [hpin]; rfl) hnodup
  obtain ⟨first, second, hfound, hclosed, _, harmed, _, hnoted, _⟩ :=
    armed_as_noted_iff_reads_agree hboot halone
  have hagree : ∀ first second later,
      board.bounces.get button.pin = first :: second :: later → first = second := by
    rw [hpin]
    intro first second later hbounces
    have hscript : [false, false, true] = first :: second :: later := hbounces
    cases hscript
    rfl
  rw [hpin, hread, List.append_cancel_left_eq] at hfound
  cases hfound
  rw [hpull] at hclosed
  rw [hpin] at harmed
  exact ⟨device, button, hboot, halone, hclosed, harmed, hnoted.mpr hagree⟩

/--
A contact that is open bounces while the device starts: the first read finds it closed, the second one
finds it open. When it closes, the device takes it for closed already, and the relay stays off.
-/
theorem press_lost_after_bounce_at_start :
    let store : Store := ⟨16, 256, [(Key.config, Bytes.ascii "Acme;ACME-1;RB2;SB0u;")]⟩
    let pin := Pin.line 1 0
    let board := (Board.idle [] .joined (.sound store)).setBounces pin [false, true]
    let press := [.input pin false, .fire .settle 3]
    ∃ device button, boot board .router = .ok device
      ∧ device.part.contacts.HasPinAlone 0 button
      ∧ device.part.contacts.isClosed 0 = true
      ∧ device.board.level pin = true
      ∧ ¬device.ArmedAsNoted 0 button
      ∧ device.Timely press
      ∧ device.turns press = []
      ∧ (device.after press).part.relays.isOn 0 = false := by
  intro store pin board press
  have hfacts : (boot board .router).toOption.map (fun device =>
      decide ((device.part.contacts.button? 0).map (·.pin) = some pin
        ∧ (device.part.contacts.contacts.map fun contact => contact.button.pin).Nodup
        ∧ device.part.contacts.isClosed 0 = true
        ∧ device.board.level pin = true
        ∧ (∀ button ∈ device.part.contacts.button? 0, ¬device.ArmedAsNoted 0 button)
        ∧ device.Timely press
        ∧ device.turns press = []
        ∧ (device.after press).part.relays.isOn 0 = false)) = some true := by
    decide +kernel
  obtain ⟨device, hboot, hdevice⟩ := exists_of_map_boot hfacts
  rw [decide_eq_true_eq] at hdevice
  obtain ⟨hpin, hnodup, hclosed, hlevel, hnoted, hlater⟩ := hdevice
  obtain ⟨button, hbutton, hpin⟩ := Option.map_eq_some_iff.mp hpin
  have halone : device.part.contacts.HasPinAlone 0 button :=
    .of_nodup hbutton (by rw [hpin]; rfl) hnodup
  exact ⟨device, button, hboot, halone, hclosed, hlevel, hnoted button hbutton, hlater⟩

end Device

end WallSwitch
