import WallSwitch.Proofs.Board.Scripts
import WallSwitch.Proofs.PinWatcher.Settling

/-!
This module contains the proof that a pass ends with the first reading that agrees with the one
before it, and that this is what the contacts come to rest at if all of them stop bouncing in time.
-/

namespace WallSwitch

/--
What is found changes `n` times in a row, and never again.
-/
def SettlesAfter (found : Nat → Bool) (n : Nat) : Prop :=
  (∀ k < n, found (k + 1) ≠ found k) ∧ ∀ k, n ≤ k → found k = found n

theorem SettlesAfter.eq_rest_of_repeat {board : Board} {pin : Pin} {n k : Nat}
    (h : SettlesAfter (board.upcoming pin) n)
    (hrepeat : board.upcoming pin (k + 1) = board.upcoming pin k) :
    board.upcoming pin k = board.rest pin := by
  have hn : n ≤ k := Nat.le_of_not_lt fun hlt => h.1 k hlt hrepeat
  let last := max k (board.bounces.get pin).length
  have hlast : board.upcoming pin last = board.rest pin :=
    board.upcoming_eq_rest (Nat.le_succ_of_le (Nat.le_max_right ..))
  rw [← hlast, h.2 k hn, h.2 last (Nat.le_trans hn (Nat.le_max_left ..))]

theorem settlesAfter_of_bounces {board : Board} {pin : Pin} {n : Nat}
    (hlength : (board.bounces.get pin).length ≤ n + 1)
    (hchanges : ∀ k < n, board.upcoming pin (k + 1) ≠ board.upcoming pin k) :
    SettlesAfter (board.upcoming pin) n := by
  refine ⟨hchanges, ?_⟩
  intro k hk
  rw [board.upcoming_eq_rest (Nat.le_trans hlength (Nat.succ_le_succ hk)),
    board.upcoming_eq_rest hlength]

namespace PinWatcher

theorem exists_settle (pins : List Pin) (tries : Nat) : ∀ (levels : List Bool) (board : Board),
    ∃ n ≤ tries,
      (∀ k < n, compared pins levels board (k + 1) ≠ compared pins levels board k)
        ∧ (n = tries ∨ compared pins levels board (n + 1) = compared pins levels board n)
        ∧ (settle pins (tries + 1) levels board).1 = compared pins levels board (n + 1)
        ∧ (settle pins (tries + 1) levels board).2.reads = board.reads
          ++ (List.range (n + 1)).flatMap fun k => pins.zip (compared pins levels board (k + 1)) := by
  have hreads (levels : List Bool) (board : Board) : (attempted pins levels board).2.reads
      = board.reads ++ pins.zip (compared pins levels board 1) := by
    rw [← compared_attempted]
    unfold attempted
    rw [Board.reads_readAll, Board.reads_performAll]
    rfl
  induction tries with
  | zero =>
    intro levels board
    refine ⟨0, Nat.le_refl 0, nofun, .inl rfl, ?_, ?_⟩
    . rw [settle_succ, ← compared_attempted]
      split
      . next heq => exact heq.symm
      . rfl
    . rw [settle_succ]
      split <;> simpa [settle] using hreads levels board
  | succ tries ih =>
    intro levels board
    rw [settle_succ]
    by_cases heq : (attempted pins levels board).1 = levels
    . rw [if_pos heq]
      have hfirst : compared pins levels board 1 = levels := by
        rw [← compared_attempted]
        exact heq
      refine ⟨0, Nat.zero_le _, nofun, .inr hfirst, hfirst.symm, ?_⟩
      simpa using hreads levels board
    -- The reading is what the next one is compared with, so all later ones move down by one.
    . rw [if_neg heq]
      obtain ⟨n, hn, hbefore, hlast, hlevels, hmore⟩ :=
        ih (attempted pins levels board).1 (attempted pins levels board).2
      simp only [compared_attempted] at hbefore hlast hlevels hmore
      refine ⟨n + 1, Nat.succ_le_succ hn, ?_, hlast.imp_left (congrArg Nat.succ), hlevels, ?_⟩
      . rw [Nat.forall_lt_succ_left]
        refine ⟨?_, hbefore⟩
        rw [← compared_attempted]
        exact heq
      . rw [hmore, hreads, List.append_assoc, List.range_succ_eq_map (n := n + 1),
          List.flatMap_cons, List.flatMap_map]

variable {α : Type} {watcher : PinWatcher α}

theorem compared_readAll (board : Board) (pins : List Pin) (k : Nat) :
    compared pins (board.readAll pins).1 (board.readAll pins).2 k = board.reading pins k := by
  cases k <;> rfl

theorem exists_pass (watcher : PinWatcher α) (board : Board) :
    ∃ n < settleTries,
      (∀ k < n, board.reading watcher.pins (k + 1) ≠ board.reading watcher.pins k)
        ∧ (n + 1 = settleTries
          ∨ board.reading watcher.pins (n + 1) = board.reading watcher.pins n)
        ∧ (watcher.pass board).1 = watcher.notifications (board.reading watcher.pins (n + 1))
        ∧ (watcher.pass board).2.2.reads = board.reads
          ++ (List.range (n + 2)).flatMap fun k =>
            watcher.pins.zip (board.reading watcher.pins k) := by
  obtain ⟨n, hn, hbefore, hlast, hlevels, hreads⟩ := exists_settle watcher.pins 49
    (board.readAll watcher.pins).1 (board.readAll watcher.pins).2
  simp only [compared_readAll] at hbefore hlast hlevels hreads
  have htries : settleTries = 49 + 1 := rfl
  refine ⟨n, Nat.lt_succ_of_le hn, hbefore, hlast.imp_left (congrArg Nat.succ), ?_, ?_⟩
  . unfold pass
    dsimp only
    rw [htries, hlevels]
  . unfold pass
    dsimp only
    rw [htries, Board.reads_performAll, hreads, Board.reads_readAll, List.append_assoc,
      List.range_succ_eq_map (n := n + 1), List.flatMap_cons, List.flatMap_map]
    rfl

theorem armed_pass (hnodup : watcher.pins.Nodup) {board : Board}
    (hagree : ∃ k < settleTries,
      board.reading watcher.pins (k + 1) = board.reading watcher.pins k) :
    ∀ notification ∈ (watcher.pass board).1,
      (watcher.pass board).2.2.armedEdge.get notification.pin
        = some (.leaving notification.high) := by
  have hiff := armed_settle_iff hnodup 49 (board.readAll watcher.pins).1
    (board.readAll watcher.pins).2 (Board.length_readAll _ _)
  simp only [compared_readAll] at hiff
  have hedges (pin : Pin) (board : Board) :
      (board.performAll (watcher.pins.map .enableInterrupt)).armedEdge.get pin
        = board.armedEdge.get pin := by
    apply Board.armedEdge_performAll_of_not_armed
    simp
  have htries : settleTries = 49 + 1 := rfl
  unfold pass
  dsimp only
  simp only [hedges]
  rw [htries] at hagree ⊢
  refine (forall_notifications watcher _ fun pin high =>
    (settle watcher.pins (49 + 1) _ _).2.armedEdge.get pin = some (.leaving high)).mpr ?_
  exact hiff.mpr hagree

theorem notifications_map (watcher : PinWatcher α) (level : Pin → Bool) :
    watcher.notifications (watcher.pins.map level)
      =
    watcher.watched.map fun watched => ⟨watched.pin, level watched.pin, watched.payload⟩ := by
  unfold notifications pins
  rw [List.map_map, List.zipWith_map_right, List.zipWith_self]
  rfl

theorem upcoming_eq_rest_of_agree {pins : List Pin} {board : Board} (hnodup : pins.Nodup)
    (hsettles : ∀ pin ∈ pins, ∃ n, SettlesAfter (board.upcoming pin) n) {k : Nat}
    (hagree : board.reading pins (k + 1) = board.reading pins k) :
    ∀ pin ∈ pins, board.upcoming pin (k + 1) = board.rest pin := by
  intro pin hmem
  rw [Board.reading_eq_upcoming hnodup, Board.reading_eq_upcoming hnodup] at hagree
  have hrepeat : board.upcoming pin (k + 1) = board.upcoming pin k :=
    List.map_inj_left.mp hagree pin hmem
  obtain ⟨n, hn⟩ := hsettles pin hmem
  exact hrepeat.trans (hn.eq_rest_of_repeat hrepeat)

theorem agree_of_settles {pins : List Pin} {board : Board} (hnodup : pins.Nodup) {k : Nat}
    (hsettles : ∀ pin ∈ pins, ∃ n ≤ k, SettlesAfter (board.upcoming pin) n) :
    board.reading pins (k + 1) = board.reading pins k := by
  rw [Board.reading_eq_upcoming hnodup, Board.reading_eq_upcoming hnodup]
  apply List.map_congr_left
  intro pin hmem
  obtain ⟨n, hle, hn⟩ := hsettles pin hmem
  rw [hn.2 (k + 1) (Nat.le_succ_of_le hle), hn.2 k hle]

/--
A pass takes readings of all pins, each pin once for every reading, and at most 51 of them. It stops
at the first one that agrees with the one before it, and notifies of that one, or of the last one. If
every pin alternates until it comes to rest, and all do so in time, however long each of them takes,
then every pin is notified of once, with the level that it comes to rest at, and is left armed for the
edge that leaves this level.
-/
theorem converges_on_settled_levels (h : watcher.Reachable) (board : Board) :
    let passed := watcher.pass board
    let levels (k : Nat) := watcher.pins.map fun pin => board.upcoming pin k
    watcher.pins.Nodup
      ∧ (∃ n < settleTries,
        passed.2.2.reads = board.reads
            ++ (List.range (n + 2)).flatMap (fun k => watcher.pins.zip (levels k))
          ∧ (∀ k < n, levels (k + 1) ≠ levels k)
          ∧ (levels (n + 1) = levels n ∨ n + 1 = settleTries)
          ∧ passed.1 = watcher.watched.map fun watched =>
            ⟨watched.pin, board.upcoming watched.pin (n + 1), watched.payload⟩)
      ∧ ((∀ pin ∈ watcher.pins, ∃ n < settleTries, SettlesAfter (board.upcoming pin) n) →
        (passed.1 = watcher.watched.map fun watched =>
            ⟨watched.pin, board.rest watched.pin, watched.payload⟩)
          ∧ ∀ pin ∈ watcher.pins,
            passed.2.2.interruptEnabled.get pin = true
              ∧ passed.2.2.armedEdge.get pin = some (.leaving (board.rest pin))) := by
  intro passed levels
  have hnodup := h.nodup_pins
  obtain ⟨n, hn, hbefore, hlast, hnotified, hreads⟩ := exists_pass watcher board
  simp only [Board.reading_eq_upcoming hnodup] at hbefore hreads
  refine ⟨hnodup, ⟨n, hn, hreads, hbefore, ?_, ?_⟩, ?_⟩
  . simp only [Board.reading_eq_upcoming hnodup] at hlast
    exact hlast.symm
  . rw [Board.reading_eq_upcoming hnodup, notifications_map] at hnotified
    exact hnotified
  . intro hsettles
    have hlasts : board.reading watcher.pins (49 + 1) = board.reading watcher.pins 49 :=
      agree_of_settles hnodup fun pin hmem => by
        obtain ⟨m, hm, hsettled⟩ := hsettles pin hmem
        exact ⟨m, Nat.le_of_lt_succ hm, hsettled⟩
    have hagree : board.reading watcher.pins (n + 1) = board.reading watcher.pins n := by
      cases hlast with
      | inl hceiling =>
        cases hceiling
        exact hlasts
      | inr hagree => exact hagree
    have hrest : ∀ pin ∈ watcher.pins, board.upcoming pin (n + 1) = board.rest pin :=
      upcoming_eq_rest_of_agree hnodup
        (fun pin hmem => (hsettles pin hmem).imp fun _ => And.right) hagree
    have hnotified : passed.1 = watcher.watched.map fun watched =>
        ⟨watched.pin, board.rest watched.pin, watched.payload⟩ := by
      refine hnotified.trans ?_
      rw [Board.reading_eq_upcoming hnodup, List.map_congr_left hrest, notifications_map]
    refine ⟨hnotified, ?_⟩
    intro pin hmem
    have henabled : passed.2.2.interruptEnabled.get pin = true := by
      rw [interruptEnabled_pass]
      simp [hmem]
    obtain ⟨watched, hwatched, rfl⟩ := List.mem_map.mp hmem
    refine ⟨henabled, armed_pass hnodup ⟨n, hn, hagree⟩
      ⟨watched.pin, board.rest watched.pin, watched.payload⟩ ?_⟩
    rw [hnotified]
    exact List.mem_map_of_mem hwatched

theorem converges_on_settled_levels_of_two_contacts :
    let slow := Pin.line 1 3
    let quick := Pin.line 0 2
    let watcher : PinWatcher Nat :=
      ⟨((Vector.replicate 16 none).set 0 (some ⟨slow, 7⟩) (by decide)).set 1 (some ⟨quick, 9⟩)
        (by decide), 3, 0⟩
    let board := ((Board.idle [] .notJoined (.sound (.empty 8 128))).setBounces slow
      ((List.range 50).map (· % 2 == 1))).setBounces quick [true, false]
    watcher.Reachable
      ∧ (∀ pin ∈ watcher.pins, ∃ n < settleTries, SettlesAfter (board.upcoming pin) n)
      ∧ (watcher.pass board).1 = [⟨slow, true, 7⟩, ⟨quick, false, 9⟩]
      ∧ (watcher.pass board).2.2.armedEdge.get slow = some .falling
      ∧ (watcher.pass board).2.2.armedEdge.get quick = some .rising := by
  intro slow quick watcher board
  have hreachable : watcher.Reachable := by
    have hslow : Reachable ⟨(Vector.replicate 16 none).set 0 (some ⟨slow, 7⟩), 3, 0⟩ :=
      reachable_single rfl
    have hwatch : PinWatcher.watch ⟨(Vector.replicate 16 none).set 0 (some ⟨slow, 7⟩), 3, 0⟩
        (.idle [] .notJoined (.sound (.empty 8 128))) quick 9 = .ok (watcher, _) := rfl
    exact .watch hslow hwatch
  have hsettles : ∀ pin ∈ watcher.pins, ∃ n < settleTries,
      SettlesAfter (board.upcoming pin) n := by
    have hpins : watcher.pins = [slow, quick] := by decide +kernel
    rw [hpins, List.forall_mem_cons, List.forall_mem_singleton]
    exact ⟨⟨49, by decide, settlesAfter_of_bounces (by decide +kernel) (by decide +kernel)⟩,
      ⟨1, by decide, settlesAfter_of_bounces (by decide +kernel) (by decide +kernel)⟩⟩
  obtain ⟨_, _, hsettled⟩ := converges_on_settled_levels hreachable board
  obtain ⟨hnotified, harmed⟩ := hsettled hsettles
  have hrests : board.rest slow = true ∧ board.rest quick = false := by decide +kernel
  have hlevels : (watcher.watched.map fun watched =>
      (⟨watched.pin, board.rest watched.pin, watched.payload⟩ : Notification Nat))
        = [⟨slow, true, 7⟩, ⟨quick, false, 9⟩] := by decide +kernel
  have hslow := (harmed slow (by decide +kernel)).2
  have hquick := (harmed quick (by decide +kernel)).2
  rw [hrests.1] at hslow
  rw [hrests.2] at hquick
  exact ⟨hreachable, hsettles, hnotified.trans hlevels, hslow, hquick⟩

end PinWatcher

end WallSwitch
