import WallSwitch.Proofs.RelayBank.Completion

/-!
This module contains the proof that relays are independent of each other where they may be pulsed
at the same time. What a relay does, and when, is what it would do if no other relay were ever
switched.
-/

namespace WallSwitch

/--
Whether the command is about relay `i`, which is wired to `pins`: it writes to a pin of the relay or
is about its task.
-/
def Command.isAbout (i : Nat) (pins : List Pin) : Command → Bool
  | .write pin _ => pin ∈ pins
  | .schedule task _ | .cancel task => task = .relayPulse i
  | _ => false

def Event.isAbout (i : Nat) (pins : List Pin) : Event → Bool
  | .command order _ => order.isAbout i pins
  | .fire task _ => task = .relayPulse i
  | .read .. | .load .. => false

def BankUse.concerns (i : Nat) : BankUse → Bool
  | .command asked _ => asked.target?.all (· = i)
  | .wait _ => true

def Board.historyOf (board : Board) (i : Nat) (pins : List Pin) : List (Nat × Event) :=
  board.history.filter fun entry => entry.2.isAbout i pins

def Command.dueAfter (now : Nat) (due : List Nat) : Command → List Nat
  | .schedule _ delay => [now + delay]
  | .cancel _ => []
  | _ => due

theorem Command.isAbout_of_write {command : Command} {pins : List Pin}
    (h : ∃ pin high, command = .write pin high ∧ pin ∈ pins) (i : Nat) :
    command.isAbout i pins = true := by
  obtain ⟨pin, high, rfl, hpin⟩ := h
  simpa [isAbout] using hpin

theorem Command.isAbout_eq_false {command : Command} {i : Nat} {pins : List Pin}
    (htask : command.task? ≠ some (.relayPulse i))
    (hwrite : ∀ pin high, command = .write pin high → pin ∉ pins) :
    command.isAbout i pins = false := by
  cases command with
  | write pin high => simpa [isAbout] using hwrite pin high rfl
  | schedule task | cancel task => simpa [isAbout, task?] using htask
  | _ => rfl

namespace Relay

variable {relay : Relay} {command : Command}

theorem exists_write_of_mem_release (h : command ∈ relay.release) :
    ∃ pin high, command = .write pin high ∧ pin ∈ relay.pins := by
  obtain ⟨pin, hpin, rfl⟩ := List.mem_map.mp h
  exact ⟨pin, _, rfl, mem_pins_iff.mpr (.inl hpin)⟩

theorem exists_write_of_mem_indicate (h : command ∈ relay.indicate) :
    ∃ pin high, command = .write pin high ∧ pin ∈ relay.pins := by
  obtain ⟨led, hled, hdrive⟩ := List.mem_flatMap.mp h
  rw [Led.drive, List.mem_singleton] at hdrive
  rw [Option.mem_toList] at hled
  exact ⟨led.pin, _, hdrive, mem_pins_iff.mpr (.inr ⟨led, hled, rfl⟩)⟩

end Relay

/--
The part that relay `i` has in a bank on a board: the relay itself, the times at which its task is
due, and what happened about it.
-/
structure Share where
  relay? : Option Relay
  due : List Nat
  history : List (Nat × Event)

namespace Share

def take (now : Nat) (share : Share) (command : Command) : Share where
  relay? := share.relay?
  due := command.dueAfter now share.due
  history := share.history ++ [(now, .command command none)]

def finish (i time : Nat) (share : Share) (relay : Relay) : Share :=
  relay.release.foldl (take time)
    ⟨some (relay.withPulse .idle), [], share.history ++ [(time, .fire (.relayPulse i) time)]⟩

/--
The share of relay `i` after all that is due by the time `limit` was run: its pulse has ended if it
was to end by then.
-/
def runTo (i limit : Nat) (share : Share) : Share :=
  match share.relay?, share.due with
  | some relay, [time] => if time ≤ limit then share.finish i time relay else share
  | _, _ => share

theorem runTo_of_lt {i limit : Nat} {share : Share} (h : ∀ time ∈ share.due, limit < time) :
    share.runTo i limit = share := by
  unfold runTo
  split
  . next relay time _ hdue =>
    rw [hdue, List.forall_mem_singleton] at h
    exact if_neg (Nat.not_le.mpr h)
  . rfl

theorem runTo_of_le {i limit time : Nat} {share : Share} {relay : Relay}
    (hrelay : share.relay? = some relay) (hdue : share.due = [time]) (h : time ≤ limit) :
    share.runTo i limit = share.finish i time relay := by
  unfold runTo
  rw [hrelay, hdue]
  exact if_pos h

end Share

namespace RelayBank

def share (i : Nat) (pins : List Pin) (wired : Wired RelayBank) : Share where
  relay? := wired.part.get? i
  due := wired.board.due (.relayPulse i)
  history := wired.board.historyOf i pins

end RelayBank

namespace Board

variable {i : Nat} {pins : List Pin} {command : Command}

theorem due_perform_of_isAbout (h : command.isAbout i pins = true) (board : Board) :
    (board.perform command).due (.relayPulse i)
      =
    command.dueAfter board.now (board.due (.relayPulse i)) := by
  cases command with
  | write => rfl
  | schedule task delay =>
    have htask : task = .relayPulse i := by simpa [Command.isAbout] using h
    subst htask
    exact board.due_perform_schedule _ _
  | cancel task =>
    have htask : task = .relayPulse i := by simpa [Command.isAbout] using h
    subst htask
    exact board.due_perform_cancel _
  | _ => cases h

theorem due_perform_of_not_isAbout (h : command.isAbout i pins = false) (board : Board) :
    (board.perform command).due (.relayPulse i) = board.due (.relayPulse i) := by
  apply due_perform_of_task?
  cases command with
  | schedule | cancel => simpa [Command.isAbout, Command.task?] using h
  | _ => simp [Command.task?]

theorem historyOf_perform_of_isAbout (h : command.isAbout i pins = true) (board : Board) :
    (board.perform command).historyOf i pins
      =
    board.historyOf i pins ++ [(board.now, .command command none)] := by
  have htrace : (board.perform command).trace
      = (board.now, .command command none) :: board.trace := by
    cases command with
    | write | schedule | cancel => rfl
    | _ => cases h
  unfold historyOf history
  rw [htrace, List.reverse_cons, List.filter_append]
  simp [Event.isAbout, h]

theorem historyOf_perform_of_not_isAbout (h : command.isAbout i pins = false) (board : Board) :
    (board.perform command).historyOf i pins = board.historyOf i pins := by
  obtain ⟨fault, htrace⟩ := board.trace_perform command
  unfold historyOf history
  rw [htrace, List.reverse_cons, List.filter_append]
  simp [Event.isAbout, h]

theorem historyOf_begin_self (board : Board) (i time : Nat) (pins : List Pin) :
    (board.begin (.relayPulse i) time).historyOf i pins
      =
    board.historyOf i pins ++ [(time, .fire (.relayPulse i) time)] := by
  simp [historyOf, history, begin, record, Event.isAbout, now, Agenda.goTo]

theorem historyOf_begin_of_ne {task : Task} (h : task ≠ .relayPulse i) (board : Board)
    (time : Nat) :
    (board.begin task time).historyOf i pins = board.historyOf i pins := by
  simp [historyOf, history, begin, record, Event.isAbout, h]

end Board

namespace RelayBank

variable {config : DeviceConfig} {bank other next : RelayBank} {wired alone : Wired RelayBank}
variable {i j : Nat} {pins : List Pin} {relay : Relay} {drive : RelayDrive} {task : Task}
variable {time limit : Nat} {commands : List Command}

/-! ### Shares and commands -/

theorem share_performAll (commands : List Command) :
    ∀ board : Board, share i pins ⟨bank, board.performAll commands⟩
      =
    (commands.filter (Command.isAbout i pins)).foldl (Share.take board.now)
      (share i pins ⟨bank, board⟩) := by
  induction commands with
  | nil =>
    intro board
    rfl
  | cons command commands ih =>
    intro board
    rw [Board.performAll_cons, ih, Board.now_perform]
    cases h : command.isAbout i pins with
    | true =>
      rw [List.filter_cons_of_pos h, List.foldl_cons]
      congr 1
      unfold share
      rw [Board.historyOf_perform_of_isAbout h, Board.due_perform_of_isAbout h]
      rfl
    | false =>
      rw [List.filter_cons_of_neg (by simp [h])]
      congr 1
      unfold share
      rw [Board.historyOf_perform_of_not_isAbout h, Board.due_perform_of_not_isAbout h]

theorem share_step_of_apart {step : Step RelayBank}
    (hspares : wired.part.SparesAt i (step.state wired.part) (step.commands wired.part))
    (hwrite : ∀ pin high, .write pin high ∈ step.commands wired.part → pin ∉ pins) :
    share i pins (wired.step step) = share i pins wired := by
  have hnone : (step.commands wired.part).filter (Command.isAbout i pins) = [] := by
    rw [List.filter_eq_nil_iff]
    intro command hmem
    rw [Bool.not_eq_true]
    apply Command.isAbout_eq_false (hspares.2 command hmem)
    rintro pin high rfl
    exact hwrite pin high hmem
  unfold Wired.step
  rw [share_performAll, hnone]
  unfold share
  rw [hspares.1]
  rfl

theorem share_step_congr {first second : Step RelayBank}
    (hget : (first.state wired.part).get? i = (second.state alone.part).get? i)
    (hcommands : (first.commands wired.part).filter (Command.isAbout i pins)
      = (second.commands alone.part).filter (Command.isAbout i pins))
    (hnow : wired.board.now = alone.board.now)
    (hshare : share i pins wired = share i pins alone) :
    share i pins (wired.step first) = share i pins (alone.step second) := by
  unfold Wired.step
  rw [share_performAll, share_performAll, hcommands, hnow]
  unfold share at hshare ⊢
  rw [Share.mk.injEq] at hshare
  rw [hget, hshare.2.1, hshare.2.2]

/-! ### Calls -/

theorem isBlocked_of_simultaneous (h : bank.simultaneous = true) (i : Nat) :
    bank.isBlocked i = false := by
  simp [isBlocked, h]

theorem set_alike (hfree : bank.simultaneous = true) (hfree' : other.simultaneous = true)
    (hget : bank.get? i = other.get? i) (on : Bool) :
    ((set i on).state bank).get? i = ((set i on).state other).get? i
      ∧ (set i on).commands bank = (set i on).commands other := by
  unfold Step.state Step.commands
  cases hrelay : other.get? i with
  | none =>
    rw [hrelay] at hget
    rw [set_of_size_le (List.getElem?_eq_none_iff.mp hget),
      set_of_size_le (List.getElem?_eq_none_iff.mp hrelay)]
    exact ⟨hget.trans hrelay.symm, rfl⟩
  | some relay =>
    rw [hrelay] at hget
    cases hlatching : relay.drive.isLatching with
    | false =>
      rw [set_of_plain on hget hlatching, set_of_plain on hrelay hlatching]
      exact ⟨(get?_put_self hget _).trans (get?_put_self hrelay _).symm, rfl⟩
    | true =>
      rw [set_of_not_isBlocked on hget hlatching (isBlocked_of_simultaneous hfree i),
        set_of_not_isBlocked on hrelay hlatching (isBlocked_of_simultaneous hfree' i)]
      exact ⟨(get?_put_self hget _).trans (get?_put_self hrelay _).symm, rfl⟩

theorem flatMap_of_getElem? {α β : Type} {f : α → List β} {as : List α} {a : α} {i : Nat}
    (ha : as[i]? = some a) (h : ∀ j b, as[j]? = some b → j ≠ i → f b = []) :
    as.flatMap f = f a := by
  induction as generalizing i with
  | nil => cases ha
  | cons head tail ih =>
    rw [List.flatMap_cons]
    cases i with
    | zero =>
      have hrest : tail.flatMap f = [] := by
        rw [List.flatMap_eq_nil_iff]
        intro b hmem
        obtain ⟨j, hj⟩ := List.getElem?_of_mem hmem
        exact h (j + 1) b hj (Nat.succ_ne_zero j)
      rw [hrest, List.append_nil, Option.some.inj ha]
    | succ i =>
      rw [h 0 head rfl (Nat.succ_ne_zero i).symm, List.nil_append]
      apply ih ha
      intro j b hj hne
      exact h (j + 1) b hj fun heq => hne (Nat.succ.inj heq)

theorem not_isAbout_of_write (hbuilt : bank.BuiltFrom config) (hnodup : config.relayPins.Nodup)
    (hget : bank.get? i = some relay) {other : Relay} (hother : bank.get? j = some other)
    (hne : j ≠ i) {command : Command}
    (h : ∃ pin high, command = .write pin high ∧ pin ∈ other.pins) :
    command.isAbout i relay.pins = false := by
  obtain ⟨pin, high, rfl, hpin⟩ := h
  simpa [Command.isAbout] using hbuilt.not_mem_pins hnodup hget hother hne.symm hpin

theorem filter_indicateAll (hbuilt : bank.BuiltFrom config) (hnodup : config.relayPins.Nodup)
    (hget : bank.get? i = some relay) :
    (indicateAll.commands bank).filter (Command.isAbout i relay.pins) = relay.indicate := by
  rw [indicateAll, Step.commands_emit, List.filter_flatMap, flatMap_of_getElem? hget]
  . rw [List.filter_eq_self]
    intro command hmem
    exact Command.isAbout_of_write (Relay.exists_write_of_mem_indicate hmem) i
  . intro j other hj hne
    rw [List.filter_eq_nil_iff]
    intro command hmem
    rw [Bool.not_eq_true]
    exact not_isAbout_of_write hbuilt hnodup hget hj hne (Relay.exists_write_of_mem_indicate hmem)

structure Concurrent (config : DeviceConfig) (wired : Wired RelayBank) : Prop where
  simultaneous : config.simultaneousPulses = true
  nodup : config.relayPins.Nodup
  builtFrom : wired.part.BuiltFrom config
  timed : Timed wired

namespace Concurrent

theorem free (h : Concurrent config wired) : wired.part.simultaneous = true :=
  h.builtFrom.simultaneous.trans h.simultaneous

theorem pulse_ne_waiting (h : Concurrent config wired) (hget : wired.part.get? i = some relay) :
    relay.pulse ≠ .waiting := by
  intro hwaiting
  have hexclusive := h.timed.waiting i relay hget hwaiting
  rw [h.free] at hexclusive
  contradiction

theorem happen (h : Concurrent config wired) {event : BankEvent} (htimely : IsTimely wired event) :
    Concurrent config (happen wired event) :=
  ⟨h.simultaneous, h.nodup, h.builtFrom.happen event, h.timed.happen htimely⟩

theorem exists_relay (h : Concurrent config wired) (hdrive : config.relays[i]? = some drive) :
    ∃ relay, wired.part.get? i = some relay ∧ config.pinsOf drive = relay.pins := by
  rw [← h.builtFrom.drives, List.getElem?_map, Option.map_eq_some_iff] at hdrive
  obtain ⟨relay, hget, rfl⟩ := hdrive
  exact ⟨relay, hget, (h.builtFrom.pins_eq hget).symm⟩

theorem share_call_of_ne (h : Concurrent config wired) (hdrive : config.relays[i]? = some drive)
    {asked : BankCall} (htarget : asked.target? = some j) (hne : j ≠ i) :
    share i (config.pinsOf drive) (wired.step asked.step)
      =
    share i (config.pinsOf drive) wired := by
  obtain ⟨relay, hget, hpins⟩ := h.exists_relay hdrive
  rw [hpins]
  obtain ⟨on, hset, _⟩ := BankCall.exists_set htarget (Eq.refl (wired.part.get? j))
  have hspares := sparesAt_set hne wired.part on
  have hmove := wired.part.move_set j on
  unfold Step.state Step.commands at hspares hmove
  rw [← hset] at hspares hmove
  apply share_step_of_apart hspares
  intro pin high hmem
  obtain ⟨other, hother, hpin⟩ := hmove.mem_pins_of_write hmem
  exact h.builtFrom.not_mem_pins h.nodup hget hother hne.symm hpin

theorem share_call_congr (h : Concurrent config wired) (halone : Concurrent config alone)
    (hdrive : config.relays[i]? = some drive) {asked : BankCall} (hcommand : asked.isCommand = true)
    (htarget : asked.target?.all (· = i) = true) (hnow : wired.board.now = alone.board.now)
    (hshare : share i (config.pinsOf drive) wired = share i (config.pinsOf drive) alone) :
    share i (config.pinsOf drive) (wired.step asked.step)
      =
    share i (config.pinsOf drive) (alone.step asked.step) := by
  obtain ⟨relay, hget, hpins⟩ := h.exists_relay hdrive
  rw [hpins] at hshare ⊢
  have hrelay : wired.part.get? i = alone.part.get? i := congrArg Share.relay? hshare
  cases hcalled : asked.target? with
  | none =>
    cases asked with
    | indicateAll =>
      refine share_step_congr hrelay ?_ hnow hshare
      rw [BankCall.step, filter_indicateAll h.builtFrom h.nodup hget,
        filter_indicateAll halone.builtFrom halone.nodup (hrelay ▸ hget)]
    | continuePulse => cases hcommand
    | set | turnOn | turnOff | toggle => cases hcalled
  | some j =>
    have hj : j = i := by simpa [hcalled] using htarget
    subst hj
    obtain ⟨on, hset, hset'⟩ := BankCall.exists_set hcalled hrelay
    have halike := set_alike h.free halone.free hrelay on
    unfold Step.state Step.commands at halike
    rw [← hset, ← hset'] at halike
    exact share_step_congr halike.1 (congrArg _ halike.2) hnow hshare

/-! ### Tasks -/

theorem exists_finish (h : Concurrent config wired) (htimely : IsTimely wired (.fire task time)) :
    ∃ j relay, task = .relayPulse j ∧ wired.part.get? j = some relay
      ∧ wired.board.due (.relayPulse j) = [time]
      ∧ RelayBank.happen wired (.fire task time)
          = ⟨(wired.part.put j (relay.withPulse .idle)).yieldSupply j,
            (wired.board.begin task time).performAll relay.release⟩ := by
  have hmem : time ∈ wired.board.due task := Agenda.mem_due_of_next? htimely
  obtain ⟨j, relay, rfl, hget⟩ := h.timed.tasks task time hmem
  have hrelay := h.timed.relays j relay hget
  have hdue : wired.board.due (.relayPulse j) = [time] := by
    rcases hrelay.due_cases with hnone | ⟨due, hdue, _⟩
    . rw [hnone] at hmem
      cases hmem
    . rw [hdue, List.mem_singleton] at hmem
      rw [hdue, hmem]
  refine ⟨j, relay, rfl, hget, hdue, ?_⟩
  cases hpulse : relay.pulse with
  | idle =>
    rw [hrelay.idle hpulse] at hdue
    cases hdue
  | active => exact happen_fire (continuePulse_of_active hget hpulse) time
  | waiting => exact absurd hpulse (h.pulse_ne_waiting hget)

theorem share_finish_self (hget : wired.part.get? i = some relay)
    (hdue : wired.board.due (.relayPulse i) = [time]) (hlimit : time ≤ limit) :
    (share i relay.pins
      ⟨(wired.part.put i (relay.withPulse .idle)).yieldSupply i,
        (wired.board.begin (.relayPulse i) time).performAll relay.release⟩).runTo i limit
      =
    (share i relay.pins wired).runTo i limit := by
  have hown : relay.release.filter (Command.isAbout i relay.pins) = relay.release := by
    rw [List.filter_eq_self]
    intro command hmem
    exact Command.isAbout_of_write (Relay.exists_write_of_mem_release hmem) i
  have hnone : ((wired.board.begin (.relayPulse i) time).performAll relay.release).due
      (.relayPulse i) = [] := by
    rw [Board.due_performAll_of_task? (relay.task?_ne_of_mem_release _), Board.due_begin_self]
  have hended : (share i relay.pins wired).runTo i limit
      = (share i relay.pins wired).finish i time relay :=
    Share.runTo_of_le hget hdue hlimit
  rw [hended, Share.runTo_of_lt (by simp [share, hnone]), share_performAll, hown]
  unfold share Share.finish
  rw [get?_yieldSupply, get?_put_self hget, Board.due_begin_self, Board.historyOf_begin_self]
  rfl

theorem share_finish_of_ne (h : Concurrent config wired) (hget : wired.part.get? i = some relay)
    {other : Relay} (hother : wired.part.get? j = some other) (hne : j ≠ i) (time : Nat) :
    share i relay.pins
      ⟨(wired.part.put j (other.withPulse .idle)).yieldSupply j,
        (wired.board.begin (.relayPulse j) time).performAll other.release⟩
      =
    share i relay.pins wired := by
  have hapart : other.release.filter (Command.isAbout i relay.pins) = [] := by
    rw [List.filter_eq_nil_iff]
    intro command hmem
    rw [Bool.not_eq_true]
    exact not_isAbout_of_write h.builtFrom h.nodup hget hother hne
      (Relay.exists_write_of_mem_release hmem)
  have htask : Task.relayPulse j ≠ .relayPulse i := by simpa using hne
  rw [share_performAll, hapart]
  unfold share
  rw [get?_yieldSupply, get?_put_of_ne hne, Board.historyOf_begin_of_ne htask,
    Board.due_begin_of_ne htask]
  rfl

theorem runTo_share_happen (h : Concurrent config wired) (hdrive : config.relays[i]? = some drive)
    (htimely : IsTimely wired (.fire task time)) (hlimit : time ≤ limit) :
    (share i (config.pinsOf drive) (RelayBank.happen wired (.fire task time))).runTo i limit
      =
    (share i (config.pinsOf drive) wired).runTo i limit := by
  obtain ⟨relay, hget, hpins⟩ := h.exists_relay hdrive
  obtain ⟨j, other, rfl, hother, hdue, hfinish⟩ := h.exists_finish htimely
  rw [hpins, hfinish]
  by_cases hij : j = i
  . subst hij
    have hsame : relay = other := Option.some.inj (hget.symm.trans hother)
    subst hsame
    exact share_finish_self hget hdue hlimit
  . rw [h.share_finish_of_ne hget hother hij]

theorem runTo_share_runTasks (h : Concurrent config wired)
    (hdrive : config.relays[i]? = some drive) (limit fuel : Nat) :
    (share i (config.pinsOf drive) (Wired.runTasks fire limit fuel wired)).runTo i limit
      =
    (share i (config.pinsOf drive) wired).runTo i limit := by
  suffices hran : Concurrent config (Wired.runTasks fire limit fuel wired)
      ∧ (share i (config.pinsOf drive) (Wired.runTasks fire limit fuel wired)).runTo i limit
        = (share i (config.pinsOf drive) wired).runTo i limit from hran.2
  apply Wired.runTasks_invariant fun later => Concurrent config later
    ∧ (share i (config.pinsOf drive) later).runTo i limit
      = (share i (config.pinsOf drive) wired).runTo i limit
  . intro later task due hlater hnext
    have htimely : IsTimely later (.fire task due) := Agenda.next?_self hnext
    rw [fire_begin, hlater.1.runTo_share_happen hdrive htimely (Agenda.le_of_next? hnext)]
    exact ⟨hlater.1.happen htimely, hlater.2⟩
  . exact ⟨h, rfl⟩

theorem share_run (h : Concurrent config wired) (hdrive : config.relays[i]? = some drive)
    (hsize : wired.part.size ≤ DeviceConfig.capacity .relays) (ms : Nat) :
    share i (config.pinsOf drive) (run wired ms)
      =
    (share i (config.pinsOf drive) wired).runTo i (wired.board.now + ms) := by
  have hnext := next?_runTasks h.timed hsize ms (Nat.le_refl _)
  rw [← h.runTo_share_runTasks hdrive _ (Wired.tasksPerMs * (ms + 1)), Share.runTo_of_lt]
  . rfl
  . intro time hmem
    exact Agenda.lt_of_next?_eq_none hnext hmem

end Concurrent

/-! ### Runs -/

section

variable {board : Board} (hsimultaneous : config.simultaneousPulses = true)
variable (hnodup : config.relayPins.Nodup)
variable (hsize : config.relays.length ≤ DeviceConfig.capacity .relays)
variable (hpending : board.agenda.pending = [])

include hsimultaneous hnodup hsize hpending

theorem concurrent_used (uses : List BankUse) :
    Concurrent config (used ((ofConfig config).started board) uses) := by
  have h := inUse_used config board uses hsize hpending
  exact ⟨hsimultaneous, hnodup, h.builtFrom, h.timed⟩

theorem share_used (hdrive : config.relays[i]? = some drive) (uses : List BankUse) :
    let wired := used ((ofConfig config).started board) uses
    let alone := used ((ofConfig config).started board) (uses.filter (BankUse.concerns i))
    wired.board.now = alone.board.now
      ∧ share i (config.pinsOf drive) wired = share i (config.pinsOf drive) alone := by
  have hused := concurrent_used hsimultaneous hnodup hsize hpending
  have hfits (uses : List BankUse) := (inUse_used config board uses hsize hpending).size_le
  -- What is true of a bank in use is known of both runs, so the last use comes off first.
  induction uses using List.reverseRecOn with
  | nil => exact ⟨rfl, rfl⟩
  | append_singleton uses asked ih =>
    obtain ⟨hnow, hshare⟩ := ih
    intro wired alone
    have hwired : wired = use (used ((ofConfig config).started board) uses) asked :=
      List.foldl_concat _ _ _ _
    cases hconcerns : asked.concerns i with
    | true =>
      have halone : alone = use (used ((ofConfig config).started board)
          (uses.filter (BankUse.concerns i))) asked := by
        unfold alone used
        rw [List.filter_append, List.filter_singleton, hconcerns]
        exact List.foldl_concat _ _ _ _
      rw [hwired, halone]
      cases asked with
      | command asked hcommand =>
        refine ⟨?_, (hused _).share_call_congr (hused _) hdrive hcommand hconcerns hnow hshare⟩
        simpa [use] using hnow
      | wait ms =>
        rw [use, use, (hused _).share_run hdrive (hfits _), (hused _).share_run hdrive (hfits _),
          hnow, hshare]
        exact ⟨congrArg (· + ms) hnow, rfl⟩
    | false =>
      have halone : alone
          = used ((ofConfig config).started board) (uses.filter (BankUse.concerns i)) := by
        unfold alone
        rw [List.filter_append, List.filter_singleton, hconcerns]
        exact congrArg _ (List.append_nil _)
      rw [hwired, halone]
      cases asked with
      | command asked hcommand =>
        obtain ⟨j, hcalled, hne⟩ : ∃ j, asked.target? = some j ∧ j ≠ i := by
          simpa [BankUse.concerns, Option.all_eq_false] using hconcerns
        refine ⟨?_, ((hused _).share_call_of_ne hdrive hcalled hne).trans hshare⟩
        simpa [use] using hnow
      | wait ms => cases hconcerns

end

/--
Where relays may be pulsed at the same time and have pins of their own, they are independent of each
other. None of them ever waits. For each relay, its state and its pulse, when its task is due, and
all that is written to its pins or happens to its task, at whatever time, are as they would have
been if the other relays had not been switched.
-/
theorem relays_independent (config : DeviceConfig) (board : Board) (uses : List BankUse)
    (hsimultaneous : config.simultaneousPulses = true) (hnodup : config.relayPins.Nodup)
    (hsize : config.relays.length ≤ DeviceConfig.capacity .relays)
    (hpending : board.agenda.pending = []) :
    let start := (ofConfig config).started board
    (∀ moment, moment <+: eventsOf start uses →
        ∀ relay ∈ (after start moment).part.relays, relay.pulse ≠ .waiting)
      ∧ ∀ i drive, config.relays[i]? = some drive →
          let wired := used start uses
          let alone := used start (uses.filter (BankUse.concerns i))
          wired.board.now = alone.board.now
            ∧ wired.part.get? i = alone.part.get? i
            ∧ wired.board.due (.relayPulse i) = alone.board.due (.relayPulse i)
            ∧ wired.board.historyOf i (config.pinsOf drive)
                = alone.board.historyOf i (config.pinsOf drive) := by
  intro start
  constructor
  . intro moment hmoment relay hmem
    obtain ⟨i, hget⟩ := List.getElem?_of_mem hmem
    have hstart : Timed start := timed_started config hpending
    have htimely := timely_eventsOf uses hstart (by rw [size_started]; exact hsize)
    have h : Concurrent config (after start moment) :=
      ⟨hsimultaneous, hnodup, builtFrom_after config board moment,
        hstart.after (htimely.of_prefix hmoment)⟩
    exact h.pulse_ne_waiting hget
  . intro i drive hdrive wired alone
    obtain ⟨hnow, hshare⟩ := share_used hsimultaneous hnodup hsize hpending hdrive uses
    exact ⟨hnow, congrArg Share.relay? hshare, congrArg Share.due hshare,
      congrArg Share.history hshare⟩

theorem relays_independent_two_relays :
    let config := { (DeviceConfig.empty.addRelay (.line 0 0) (some (.line 0 1))).addRelay
      (.line 1 0) (some (.line 1 1)) with simultaneousPulses := true }
    let board := Board.idle [] .notJoined (.sound (.empty 8 128))
    let start := (ofConfig config).started board
    let uses := [.command (.turnOn 0) rfl, .wait 30, .command (.turnOn 1) rfl, .wait 30,
      .command (.toggle 0) rfl, .command .indicateAll rfl, .wait 200]
    let alone := used start [.wait 30, .command (.turnOn 1) rfl, .wait 30,
      .command .indicateAll rfl, .wait 200]
    config.simultaneousPulses = true ∧ config.relayPins.Nodup
      ∧ config.relays.length ≤ DeviceConfig.capacity .relays ∧ board.agenda.pending = []
      ∧ (used start uses).board.pulses 0 = [⟨60, .line 0 1, true⟩, ⟨0, .line 0 0, true⟩]
      ∧ (used start uses).part.get? 1 = alone.part.get? 1
      ∧ (used start uses).board.historyOf 1 [.line 1 0, .line 1 1]
          = alone.board.historyOf 1 [.line 1 0, .line 1 1]
      ∧ alone.board.pulses 1 = [⟨30, .line 1 0, true⟩] := by
  intro config board start uses alone
  have hpulses : (used start uses).board.pulses 0 = [⟨60, .line 0 1, true⟩, ⟨0, .line 0 0, true⟩]
      ∧ alone.board.pulses 1 = [⟨30, .line 1 0, true⟩] := by
    decide +kernel +revert
  have hnodup : config.relayPins.Nodup := by decide
  have hsize : config.relays.length ≤ DeviceConfig.capacity .relays := by decide
  obtain ⟨_, hindependent⟩ := relays_independent config board uses rfl hnodup hsize rfl
  obtain ⟨_, hrelay, _, hhistory⟩ := hindependent 1 _ rfl
  exact ⟨rfl, hnodup, hsize, rfl, hpulses.1, hrelay, hhistory, hpulses.2⟩

end RelayBank

end WallSwitch
