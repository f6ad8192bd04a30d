import Mathlib.Data.List.Chain
import WallSwitch.Proofs.Device.Recalling

/-!
This module contains the proof that what a device checks whenever it starts settles at once. From the
second start on the settings are those of the present version, and the role is compared with that of
the start before; the network is left when it is another one, and never else.
-/

namespace WallSwitch

namespace Store

theorem record?_eq_none_iff {α : Type} [Record α] {store : Store} {key : Nat} :
    store.record? α key = none
      ↔ store.get? key = none ∨ ∃ item, store.get? key = some item
        ∧ (132 < item.length ∨ (Record.ofItem? item : Option α) = none) := by
  unfold record? read
  cases store.get? key with
  | none => simp [Except.toOption]
  | some item =>
    have hroom : Record.maxLength + Checksum.sealLength = 132 := rfl
    rw [hroom]
    by_cases hlength : item.length ≤ 132
    . simp [hlength, Except.toOption, Nat.not_lt.mpr hlength]
    . simp [hlength, Except.toOption, Nat.lt_of_not_le hlength]

end Store

theorem Role.code_injective {role other : Role} (h : role.code = other.code) : role = other := by
  have hroles := congrArg Role.ofCode? h
  rw [ofCode?_code, ofCode?_code] at hroles
  exact Option.some.inj hroles

def RoleCheck.isChange : RoleCheck → Bool
  | .changed _ => true
  | .firstBoot | .unchanged => false

namespace Board

def departures (board : Board) : List Nat :=
  (board.orders.filter fun order => order.2 = .leaveNetwork).map (·.1)

variable {board : Board} {key : Nat} {role : Role} {timer : ResetTimer}

/-! ### What is found -/

theorem loadRecord_eq_ok_iff {α : Type} [Record α] {record : α} :
    (board.loadRecord α key).1 = .ok record
      ↔ key ∉ board.memory.unreadable ∧ board.memory.store.record? α key = some record := by
  by_cases hreadable : key ∈ board.memory.unreadable
  . have hfault : (board.loadRecord α key).1 = .error .readError := by
      unfold loadRecord load SettingsMemory.read
      rw [if_pos (List.contains_iff_mem.mpr hreadable)]
      rfl
    simp [hfault, hreadable]
  . have hload := toOption_loadRecord_of_readable α hreadable
    rw [← hload]
    cases (board.loadRecord α key).1 <;> simp [hreadable, Except.toOption]

/-! ### Versions -/

theorem updateVersion_of_current
    (h : (board.loadRecord VersionRecord Key.version).1 = .ok ⟨settingsVersion⟩) :
    board.updateVersion = (.current, (board.loadRecord VersionRecord Key.version).2) := by
  unfold updateVersion
  dsimp only
  rw [h]
  exact if_pos rfl

theorem exists_updateVersion_of_other
    (h : (board.loadRecord VersionRecord Key.version).1 ≠ .ok ⟨settingsVersion⟩) :
    ∃ answer, board.updateVersion
      = (answer, (board.loadRecord VersionRecord Key.version).2.performAll
        (Record.save Key.version (⟨settingsVersion⟩ : VersionRecord))) := by
  unfold updateVersion
  dsimp only
  cases hload : (board.loadRecord VersionRecord Key.version).1 with
  | error error => exact ⟨_, rfl⟩
  | ok record =>
    have hne : record.version ≠ settingsVersion := by
      rintro heq
      apply h
      rw [hload, ← heq]
    exact ⟨_, if_neg hne⟩

theorem record?_updateVersion (hsaved : board.updateVersion.2.lostSaves = board.lostSaves) :
    board.updateVersion.2.memory.store.record? VersionRecord Key.version
      = some ⟨settingsVersion⟩ := by
  have hkept := kept_loadRecord VersionRecord Key.version board
  by_cases h : (board.loadRecord VersionRecord Key.version).1 = .ok ⟨settingsVersion⟩
  . rw [updateVersion_of_current h, memory_of_kept_eq hkept]
    exact (loadRecord_eq_ok_iff.mp h).2
  . obtain ⟨answer, hupdate⟩ := exists_updateVersion_of_other h
    rw [hupdate] at hsaved ⊢
    apply record?_save
    rw [hsaved, lostSaves_of_kept_eq hkept]

/-! ### Roles -/

theorem compareRole_cases (board : Board) (role : Role) (timer : ResetTimer) :
    let loaded := (board.loadRecord RoleRecord Key.role).2
    let update := loaded.performAll (Record.save Key.role (⟨role.code⟩ : RoleRecord))
    ((board.loadRecord RoleRecord Key.role).1 = .ok ⟨role.code⟩
        ∧ board.compareRole role timer = (.unchanged, timer, loaded))
      ∨ (∃ code, (board.loadRecord RoleRecord Key.role).1 = .ok ⟨code⟩ ∧ code ≠ role.code
        ∧ board.compareRole role timer
          = (.changed (Role.ofCode? code), ⟨some .reboot⟩,
            update.performAll [.leaveNetwork, .schedule .reset 2000]))
      ∨ ((∀ record, (board.loadRecord RoleRecord Key.role).1 ≠ .ok record)
        ∧ board.compareRole role timer = (.firstBoot, timer, update)) := by
  unfold compareRole
  dsimp only
  cases hload : (board.loadRecord RoleRecord Key.role).1 with
  | error error => exact .inr (.inr ⟨nofun, rfl⟩)
  | ok record =>
    by_cases hsame : record.role = role.code
    . exact .inl ⟨by rw [← hsame], if_pos hsame⟩
    . exact .inr (.inl ⟨record.role, rfl, hsame, if_neg hsame⟩)

theorem record?_compareRole
    (hsaved : (board.compareRole role timer).2.2.lostSaves = board.lostSaves) :
    (board.compareRole role timer).2.2.memory.store.record? RoleRecord Key.role
      = some ⟨role.code⟩ := by
  have hkept := kept_loadRecord RoleRecord Key.role board
  rw [← lostSaves_of_kept_eq hkept] at hsaved
  rcases board.compareRole_cases role timer with ⟨hload, h⟩ | ⟨code, _, _, h⟩ | ⟨_, h⟩
  . rw [h, memory_of_kept_eq hkept]
    exact (loadRecord_eq_ok_iff.mp hload).2
  . rw [h] at hsaved ⊢
    have hleft (board : Board) :
        (board.performAll [.leaveNetwork, .schedule .reset 2000]).kept = board.kept :=
      kept_performAll (by simp [Command.isForMemory]) board
    rw [lostSaves_of_kept_eq (hleft _)] at hsaved
    rw [memory_of_kept_eq (hleft _)]
    exact record?_save _ hsaved
  . rw [h] at hsaved ⊢
    exact record?_save _ hsaved

theorem departures_performAll (commands : List Command) (board : Board) :
    (board.performAll commands).departures
      =
    board.departures ++ (commands.filter (· = .leaveNetwork)).map fun _ => board.now := by
  unfold departures
  rw [orders_performAll, List.filter_append, List.map_append, List.filter_map, List.map_map]
  rfl

theorem left_iff_changed (board : Board) (role : Role) (timer : ResetTimer) :
    let (answer, resets, after) := board.compareRole role timer
    after.departures = board.departures ++ (if answer.isChange then [board.now] else [])
      ∧ resets = (if answer.isChange then ⟨some .reboot⟩ else timer)
      ∧ after.due .reset = (if answer.isChange then [board.now + 2000] else board.due .reset) := by
  have hdepartures : (board.loadRecord RoleRecord Key.role).2.departures = board.departures := by
    unfold departures
    rw [show (board.loadRecord RoleRecord Key.role).2.orders = board.orders from orders_load ..]
  have hdue : (board.loadRecord RoleRecord Key.role).2.due .reset = board.due .reset := rfl
  have hnow : (board.loadRecord RoleRecord Key.role).2.now = board.now := rfl
  have hcases := board.compareRole_cases role timer
  generalize (board.loadRecord RoleRecord Key.role).2 = loaded at hcases hdepartures hdue hnow
  dsimp only at hcases
  rw [Record.save_eq] at hcases
  rcases hcases with ⟨_, h⟩ | ⟨code, _, _, h⟩ | ⟨_, h⟩
  . rw [h]
    simp [RoleCheck.isChange, hdepartures, hdue]
  . rw [h]
    simp only [RoleCheck.isChange, if_true, departures_performAll, now_performAll, hdepartures, hnow]
    refine ⟨by simp, trivial, ?_⟩
    rw [performAll_cons, performAll_cons, performAll_nil, due_perform_schedule]
    simp [hnow, now_perform]
  . rw [h]
    simp only [RoleCheck.isChange, departures_performAll, hdepartures, hnow]
    refine ⟨by simp, rfl, ?_⟩
    rw [due_performAll_of_topic, hdue]
    . rfl
    . simp [Command.topic, Task.topic]

end Board

/--
A comparison of the role that a device has with the role that it had, with the board that it is made
on and the reset that waits there.
-/
structure RoleComparison where
  board : Board
  role : Role
  timer : ResetTimer

namespace RoleComparison

def answer (comparison : RoleComparison) : RoleCheck :=
  (comparison.board.compareRole comparison.role comparison.timer).1

def resets (comparison : RoleComparison) : ResetTimer :=
  (comparison.board.compareRole comparison.role comparison.timer).2.1

def after (comparison : RoleComparison) : Board :=
  (comparison.board.compareRole comparison.role comparison.timer).2.2

variable {comparison : RoleComparison}

theorem answer_eq_firstBoot_iff :
    comparison.answer = .firstBoot
      ↔ Key.role ∈ comparison.board.memory.unreadable
        ∨ comparison.board.memory.store.record? RoleRecord Key.role = none := by
  unfold answer
  rcases comparison.board.compareRole_cases comparison.role comparison.timer with
    ⟨hload, h⟩ | ⟨code, hload, _, h⟩ | ⟨hnone, h⟩
  . obtain ⟨hread, hfound⟩ := Board.loadRecord_eq_ok_iff.mp hload
    simp [h, hread, hfound]
  . obtain ⟨hread, hfound⟩ := Board.loadRecord_eq_ok_iff.mp hload
    simp [h, hread, hfound]
  . rw [h]
    refine iff_of_true rfl ?_
    by_contra hfound
    rw [not_or, ← ne_eq, Option.ne_none_iff_exists'] at hfound
    obtain ⟨hread, record, hrecord⟩ := hfound
    exact hnone record (Board.loadRecord_eq_ok_iff.mpr ⟨hread, hrecord⟩)

theorem answer_of_record? {before : Role}
    (hread : Key.role ∉ comparison.board.memory.unreadable)
    (hfound : comparison.board.memory.store.record? RoleRecord Key.role = some ⟨before.code⟩) :
    comparison.answer = if comparison.role = before then .unchanged else .changed (some before) := by
  have hload : (comparison.board.loadRecord RoleRecord Key.role).1 = .ok ⟨before.code⟩ :=
    Board.loadRecord_eq_ok_iff.mpr ⟨hread, hfound⟩
  unfold answer
  rcases comparison.board.compareRole_cases comparison.role comparison.timer with
    ⟨hsame, h⟩ | ⟨code, hother, hne, h⟩ | ⟨hnone, h⟩
  . have hcode : before.code = comparison.role.code := by simpa [hload] using hsame
    rw [h, if_pos (Role.code_injective hcode.symm)]
  . have hcode : before.code = code := by simpa [hload] using hother
    rw [h, ← hcode, Role.ofCode?_code, if_neg]
    rintro rfl
    exact hne hcode.symm
  . exact absurd hload (hnone _)

end RoleComparison

/-! ### One check after the other -/

/--
Checks of what is kept under a key, one after the other, with the board that each is made on and the
one that it leaves behind. What is kept stays as it is in between, nothing that a check saves is lost,
and from the second check on the key can be read.
-/
structure Successive {α : Type} (key : Nat) (before after : α → Board) (checks : List α) : Prop where
  kept : checks.IsChain fun check later =>
    (before later).memory.store.get? key = (after check).memory.store.get? key
  saved : ∀ check ∈ checks, (after check).lostSaves = (before check).lostSaves
  readable : ∀ later ∈ checks.tail, key ∉ (before later).memory.unreadable

section

variable {α : Type} {key : Nat} {before after : α → Board} {checks : List α}

theorem Successive.isChain {R : α → α → Prop} (h : Successive key before after checks)
    (hstep : ∀ check later, (after check).lostSaves = (before check).lostSaves →
      key ∉ (before later).memory.unreadable →
      (before later).memory.store.get? key = (after check).memory.store.get? key → R check later) :
    checks.IsChain R :=
  h.kept.imp_of_mem_tail_imp fun check later hcheck hlater hkept =>
    hstep check later (h.saved check hcheck) (h.readable later hlater) hkept

theorem forall_mem_tail_of_isChain {P : α → Prop} (h : checks.IsChain fun _ later => P later) :
    ∀ later ∈ checks.tail, P later := by
  induction h with
  | nil => simp
  | singleton => simp
  | cons_cons hfirst _ ih => exact List.forall_mem_cons.mpr ⟨hfirst, ih⟩

end

/--
However often a device starts, and whatever it found the first time, the version of its settings is
brought up to date once, and every later look at it changes nothing. Its role is compared with that of
the start before. It is the first start only if no role can be read, and the network is left, with a
reboot after two seconds, just when the role is another one. Nothing else that is kept changes.
-/
theorem start_checks_settle {versions : List Board} {roles : List RoleComparison}
    (hversions : Successive Key.version id (fun board => board.updateVersion.2) versions)
    (hroles : Successive Key.role RoleComparison.board RoleComparison.after roles) :
    (∀ board ∈ versions,
        board.updateVersion.2.memory.store.record? VersionRecord Key.version = some ⟨1⟩
          ∧ ∀ key, key ≠ Key.version →
            board.updateVersion.2.memory.store.get? key = board.memory.store.get? key)
      ∧ (∀ later ∈ versions.tail,
        later.updateVersion.1 = .current
          ∧ later.updateVersion.2.memory = later.memory
          ∧ later.updateVersion.2.orders = later.orders)
      ∧ (roles.IsChain fun earlier later =>
        later.answer
          = if later.role = earlier.role then .unchanged else .changed (some earlier.role))
      ∧ ∀ check ∈ roles,
        let board := check.board
        let memory := board.memory
        (check.answer = .firstBoot
            ↔ memory.store.get? Key.role = none ∨ Key.role ∈ memory.unreadable
              ∨ ∃ item, memory.store.get? Key.role = some item
                ∧ (132 < item.length ∨ (Record.ofItem? item : Option RoleRecord) = none))
          ∧ check.after.departures
            = board.departures ++ (if check.answer.isChange then [board.now] else [])
          ∧ check.resets = (if check.answer.isChange then ⟨some .reboot⟩ else check.timer)
          ∧ check.after.due .reset
            = (if check.answer.isChange then [board.now + 2000] else board.due .reset)
          ∧ ∀ key, key ≠ Key.role →
            check.after.memory.store.get? key = memory.store.get? key := by
  refine ⟨?_, ?_, ?_, ?_⟩
  . intro board hmem
    exact ⟨Board.record?_updateVersion (hversions.saved board hmem),
      fun key hkey => board.get?_updateVersion hkey⟩
  . apply forall_mem_tail_of_isChain
    apply hversions.isChain
    intro check later hsaved hread hkept
    have hfound := Board.record?_updateVersion hsaved
    rw [← Store.record?_congr hkept] at hfound
    have hload := Board.loadRecord_eq_ok_iff.mpr ⟨hread, hfound⟩
    rw [show id later = later from rfl] at hload
    rw [Board.updateVersion_of_current hload]
    exact ⟨rfl, rfl, Board.orders_load ..⟩
  . apply hroles.isChain
    intro earlier later hsaved hread hkept
    apply RoleComparison.answer_of_record? hread
    rw [Store.record?_congr hkept]
    exact Board.record?_compareRole hsaved
  . intro check _ board memory
    obtain ⟨hdepartures, hresets, hdue⟩ := board.left_iff_changed check.role check.timer
    refine ⟨?_, hdepartures, hresets, hdue, ?_⟩
    . rw [RoleComparison.answer_eq_firstBoot_iff, Store.record?_eq_none_iff, or_left_comm]
    . intro key hkey
      exact board.get?_compareRole hkey check.role check.timer

theorem start_checks_settle_after_damage :
    let found : Board := .idle [] .notJoined (.sound ⟨16, 256, [(Key.role, [1, 2, 3, 4, 5])]⟩)
    let first : RoleComparison := ⟨found.updateVersion.2, .router, .idle⟩
    let second : RoleComparison := ⟨first.after, .endDevice, .idle⟩
    let third : RoleComparison := ⟨second.after, .endDevice, .idle⟩
    Successive Key.version id (fun board => board.updateVersion.2) [found, third.after]
      ∧ Successive Key.role RoleComparison.board RoleComparison.after [first, second, third]
      ∧ third.after.updateVersion.1 = .current
      ∧ first.answer = .firstBoot ∧ second.answer = .changed (some .router)
      ∧ third.answer = .unchanged ∧ third.after.departures = [0] := by
  intro found first second third
  have hversions : Successive Key.version id (fun board => board.updateVersion.2)
      [found, third.after] :=
    ⟨.cons_cons (by decide +kernel) (.singleton _), by decide +kernel, by decide +kernel⟩
  have hroles : Successive Key.role RoleComparison.board RoleComparison.after
      [first, second, third] :=
    ⟨.cons_cons rfl (.cons_cons rfl (.singleton _)), by decide +kernel, by decide +kernel⟩
  obtain ⟨_, hcurrent, hanswers, hchecks⟩ := start_checks_settle hversions hroles
  obtain ⟨hsecond, hrest⟩ := List.isChain_cons_cons.mp hanswers
  obtain ⟨hthird, _⟩ := List.isChain_cons_cons.mp hrest
  have hdamaged : first.answer = .firstBoot :=
    (hchecks first (.head _)).1.mpr (.inr (.inr ⟨[1, 2, 3, 4, 5], rfl, .inr (by decide +kernel)⟩))
  have hleft : third.after.departures = [0] := by decide +kernel
  exact ⟨hversions, hroles, (hcurrent third.after (.head _)).1, hdamaged, hsecond, hthird, hleft⟩

end WallSwitch
