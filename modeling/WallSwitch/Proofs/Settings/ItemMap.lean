import Mathlib.Data.Finmap
import WallSwitch.Proofs.Settings.Kept

/-!
This module contains the proof that a store is a finite map from keys to items, with room for so
many of them and no more, however it is used.
-/

namespace WallSwitch

inductive StoreUse where
  | read (key room : Nat)
  | write (key : Nat) (item : Bytes)
  | clear
  | contains (key : Nat)
  | size
deriving DecidableEq, Repr

/--
What a store is to hold: the items under their keys.
-/
abbrev ItemMap := Finmap fun _ : Nat => Bytes

namespace ItemMap

/--
Whether a map for `maxItems` items of `maxLength` bytes takes an item. One that replaces another
always finds room.
-/
def Takes (maxItems maxLength : Nat) (map : ItemMap) (key : Nat) (item : Bytes) : Prop :=
  item.length ≤ maxLength ∧ (key ∈ map ∨ map.keys.card < maxItems)

instance (maxItems maxLength : Nat) (map : ItemMap) (key : Nat) (item : Bytes) :
    Decidable (map.Takes maxItems maxLength key item) :=
  inferInstanceAs (Decidable (item.length ≤ maxLength ∧ (key ∈ map ∨ map.keys.card < maxItems)))

def use (maxItems maxLength : Nat) (map : ItemMap) : StoreUse → ItemMap
  | .write key item => if map.Takes maxItems maxLength key item then map.insert key item else map
  | .clear => ∅
  | .read .. | .contains _ | .size => map

def used (maxItems maxLength : Nat) (map : ItemMap) (uses : List StoreUse) : ItemMap :=
  uses.foldl (use maxItems maxLength) map

theorem not_takes_iff {maxItems maxLength key : Nat} {map : ItemMap} {item : Bytes}
    (hcard : map.keys.card ≤ maxItems) :
    ¬map.Takes maxItems maxLength key item
      ↔ maxLength < item.length ∨ (key ∉ map ∧ map.keys.card = maxItems) := by
  unfold Takes
  by_cases hmem : key ∈ map
  . simp [hmem]
  . simp only [hmem, false_or, not_false_eq_true, true_and]
    omega

theorem mem_use_iff {maxItems maxLength key : Nat} {map : ItemMap} {asked : StoreUse} :
    key ∈ map.use maxItems maxLength asked
      ↔ (∃ item, asked = .write key item ∧ map.Takes maxItems maxLength key item)
        ∨ (asked ≠ .clear ∧ key ∈ map) := by
  cases asked with
  | write other item =>
    simp only [use, StoreUse.write.injEq, ne_eq, reduceCtorEq, not_false_eq_true, true_and]
    split
    . next htakes =>
      rw [Finmap.mem_insert]
      constructor
      . rintro (rfl | hmem)
        . exact .inl ⟨item, ⟨rfl, rfl⟩, htakes⟩
        . exact .inr hmem
      . rintro (⟨_, ⟨rfl, _⟩, _⟩ | hmem)
        . exact .inl rfl
        . exact .inr hmem
    . next hfull =>
      constructor
      . exact .inr
      . rintro (⟨_, ⟨rfl, rfl⟩, htakes⟩ | hmem)
        . exact absurd htakes hfull
        . exact hmem
  | clear => simp [use, Finmap.notMem_empty]
  | _ => simp [use]

end ItemMap

namespace Store

def use (store : Store) : StoreUse → Store
  | .write key item => (store.write key item).toOption.getD store
  | .clear => store.clear
  | .read .. | .contains _ | .size => store

def used (store : Store) (uses : List StoreUse) : Store :=
  uses.foldl use store

def TookSince (store : Store) (uses : List StoreUse) (key : Nat) : Prop :=
  ∃ before item later, uses = before ++ .write key item :: later ∧ .clear ∉ later
    ∧ ∃ next, (store.used before).write key item = .ok next

variable {store next : Store} {map : ItemMap} {key : Nat} {item : Bytes}

theorem use_write_of_ok (h : store.write key item = .ok next) :
    store.use (.write key item) = next := by
  simp [use, h, Except.toOption]

theorem use_write_of_error {error : StoreError} (h : store.write key item = .error error) :
    store.use (.write key item) = store := by
  simp [use, h, Except.toOption]

theorem limits_use (store : Store) (asked : StoreUse) :
    (store.use asked).maxItems = store.maxItems ∧ (store.use asked).maxLength = store.maxLength := by
  cases asked with
  | write key item =>
    unfold use write
    dsimp only
    split <;> exact ⟨rfl, rfl⟩
  | _ => exact ⟨rfl, rfl⟩

theorem limits_used (store : Store) (uses : List StoreUse) :
    (store.used uses).maxItems = store.maxItems ∧ (store.used uses).maxLength = store.maxLength :=
  List.foldlRecOn (motive := fun next : Store =>
      next.maxItems = store.maxItems ∧ next.maxLength = store.maxLength) uses use ⟨rfl, rfl⟩
    fun next hnext asked _ =>
      ⟨(next.limits_use asked).1.trans hnext.1, (next.limits_use asked).2.trans hnext.2⟩

/-! ### Keys -/

theorem keys_put (key : Nat) (item : Bytes) (items : List (Nat × Bytes)) :
    (put key item items).map (·.1)
      =
    if key ∈ items.map (·.1) then items.map (·.1) else items.map (·.1) ++ [key] := by
  induction items with
  | nil => rfl
  | cons entry items ih =>
    obtain ⟨place, old⟩ := entry
    unfold put
    by_cases hplace : place = key
    . simp [hplace]
    . have hne : key ≠ place := Ne.symm hplace
      rw [if_neg hplace, List.map_cons, ih]
      by_cases hmem : key ∈ items.map (·.1)
      . simp [hmem]
      . simp [hmem, hne]

theorem nodup_put (h : store.keys.Nodup) (key : Nat) (item : Bytes) :
    ((put key item store.items).map (·.1)).Nodup := by
  rw [keys_put]
  split
  . exact h
  . next hnew =>
    rw [← List.concat_eq_append]
    exact List.Nodup.concat hnew h

theorem size_put (key : Nat) (item : Bytes) (items : List (Nat × Bytes)) :
    (put key item items).length
      =
    if key ∈ items.map (·.1) then items.length else items.length + 1 := by
  have hkeys := congrArg List.length (keys_put key item items)
  rw [List.length_map] at hkeys
  rw [hkeys]
  split <;> simp

theorem mem_keys_iff : key ∈ store.keys ↔ store.contains key = true := by
  unfold keys contains get?
  induction store.items with
  | nil => simp
  | cons entry items ih =>
    obtain ⟨place, old⟩ := entry
    rw [List.map_cons, List.mem_cons, ih, lookup_cons]
    by_cases h : key = place <;> simp [h]

/-! ### The map of a store -/

/--
The store holds what the map holds, each item in one place only, and no more than it has room for.
-/
structure Represents (store : Store) (map : ItemMap) : Prop where
  get? : ∀ key, store.get? key = map.lookup key
  nodup : store.keys.Nodup
  few : store.size ≤ store.maxItems

namespace Represents

theorem empty (maxItems maxLength : Nat) : (Store.empty maxItems maxLength).Represents ∅ where
  get? key := by
    rw [Finmap.lookup_empty]
    rfl
  nodup := List.nodup_nil
  few := Nat.zero_le _

theorem contains_iff (h : store.Represents map) (key : Nat) :
    store.contains key = true ↔ key ∈ map := by
  unfold contains
  rw [h.get?, Finmap.lookup_isSome]

theorem size_eq (h : store.Represents map) : store.size = map.keys.card := by
  have hkeys : map.keys = store.keys.toFinset := by
    ext key
    rw [Finmap.mem_keys, List.mem_toFinset, mem_keys_iff, h.contains_iff]
  rw [hkeys, List.toFinset_card_of_nodup h.nodup]
  exact (List.length_map _).symm

theorem write_eq (h : store.Represents map) (key : Nat) (item : Bytes) :
    store.write key item
      =
    if map.Takes store.maxItems store.maxLength key item then
      .ok { store with items := put key item store.items }
    else
      .error .full := by
  have htakes : (item.length ≤ store.maxLength ∧ (store.contains key ∨ store.size < store.maxItems))
      ↔ map.Takes store.maxItems store.maxLength key item := by
    rw [h.contains_iff, h.size_eq]
    rfl
  exact if_congr htakes rfl rfl

theorem put (h : store.Represents map)
    (htakes : map.Takes store.maxItems store.maxLength key item) :
    { store with items := Store.put key item store.items }.Represents (map.insert key item) where
  get? other := by
    refine (lookup_put store.items key other item).trans ?_
    split
    . next heq => rw [heq, Finmap.lookup_insert]
    . next hne => rw [Finmap.lookup_insert_of_ne map hne, ← h.get?]; rfl
  nodup := nodup_put h.nodup key item
  few := by
    obtain ⟨_, hroom⟩ := htakes
    rw [← h.contains_iff, ← h.size_eq, ← mem_keys_iff] at hroom
    refine (Nat.le_of_eq (size_put key item store.items)).trans ?_
    split
    . exact h.few
    . next hnew => exact hroom.resolve_left hnew

theorem use (h : store.Represents map) (asked : StoreUse) :
    (store.use asked).Represents (map.use store.maxItems store.maxLength asked) := by
  cases asked with
  | write key item =>
    have hwrite := h.write_eq key item
    unfold ItemMap.use
    dsimp only
    split
    . next htakes =>
      rw [if_pos htakes] at hwrite
      rw [use_write_of_ok hwrite]
      exact h.put htakes
    . next hfull =>
      rw [if_neg hfull] at hwrite
      rw [use_write_of_error hwrite]
      exact h
  | clear => exact .empty store.maxItems store.maxLength
  | _ => exact h

theorem used (uses : List StoreUse) : ∀ {store : Store} {map : ItemMap}, store.Represents map →
    (store.used uses).Represents (map.used store.maxItems store.maxLength uses) := by
  induction uses with
  | nil =>
    intro store map h
    exact h
  | cons asked uses ih =>
    intro store map h
    obtain ⟨hitems, hlength⟩ := store.limits_use asked
    have hnext := ih (h.use asked)
    rw [hitems, hlength] at hnext
    exact hnext

theorem read_answers (h : store.Represents map) (key room : Nat) :
    (store.read key room = .error .notFound ↔ key ∉ map)
      ∧ (store.read key room = .error .sizeMismatch
        ↔ ∃ item, map.lookup key = some item ∧ room < item.length)
      ∧ ∀ item, store.read key room = .ok item ↔ map.lookup key = some item ∧ item.length ≤ room := by
  unfold read
  rw [h.get?, ← Finmap.lookup_eq_none]
  cases map.lookup key with
  | none => simp
  | some item =>
    dsimp only
    by_cases hroom : item.length ≤ room
    . rw [if_pos hroom]
      refine ⟨by simp, by simp [hroom], fun other => ⟨?_, ?_⟩⟩
      . intro heq
        cases heq
        exact ⟨rfl, hroom⟩
      . rintro ⟨heq, _⟩
        cases heq
        rfl
    . rw [if_neg hroom]
      refine ⟨by simp, by simp [Nat.lt_of_not_le hroom], fun other => ⟨nofun, ?_⟩⟩
      rintro ⟨heq, hfits⟩
      cases heq
      exact absurd hfits hroom

theorem exists_write_iff (h : store.Represents map) (key : Nat) (item : Bytes) :
    (∃ next, store.write key item = .ok next)
      ↔ map.Takes store.maxItems store.maxLength key item := by
  rw [h.write_eq]
  split
  . next htakes => exact iff_of_true ⟨_, rfl⟩ htakes
  . next hfull => exact iff_of_false nofun hfull

theorem write_answers (h : store.Represents map) (key : Nat) (item : Bytes) :
    (store.write key item = .error .full
        ↔ store.maxLength < item.length ∨ (key ∉ map ∧ map.keys.card = store.maxItems))
      ∧ ∀ error, store.write key item = .error error →
        error = .full ∧ store.use (.write key item) = store := by
  have hcard : map.keys.card ≤ store.maxItems := h.size_eq ▸ h.few
  have hwrite := h.write_eq key item
  rw [← ItemMap.not_takes_iff hcard]
  by_cases htakes : map.Takes store.maxItems store.maxLength key item
  . rw [if_pos htakes] at hwrite
    rw [hwrite]
    exact ⟨by simp [htakes], nofun⟩
  . rw [if_neg htakes] at hwrite
    rw [hwrite]
    refine ⟨by simp [htakes], ?_⟩
    intro error heq
    cases heq
    exact ⟨rfl, use_write_of_error hwrite⟩

end Represents

/-! ### What was taken -/

theorem tookSince_append {uses : List StoreUse} {asked : StoreUse} :
    store.TookSince (uses ++ [asked]) key
      ↔ (∃ item, asked = .write key item ∧ ∃ next, (store.used uses).write key item = .ok next)
        ∨ (asked ≠ .clear ∧ store.TookSince uses key) := by
  constructor
  . rintro ⟨before, item, later, huses, hlater, hwrite⟩
    rcases later.eq_nil_or_concat' with rfl | ⟨later, last, rfl⟩
    . left
      obtain ⟨rfl, hasked⟩ := List.append_inj' huses rfl
      exact ⟨item, List.singleton_inj.mp hasked, hwrite⟩
    . right
      rw [← List.cons_append, ← List.append_assoc] at huses
      obtain ⟨rfl, hasked⟩ := List.append_inj' huses rfl
      rw [List.singleton_inj.mp hasked]
      rw [List.mem_append, List.mem_singleton, not_or] at hlater
      exact ⟨Ne.symm hlater.2, before, item, later, rfl, hlater.1, hwrite⟩
  . rintro (⟨item, rfl, hwrite⟩ | ⟨hasked, before, item, later, rfl, hlater, hwrite⟩)
    . exact ⟨uses, item, [], rfl, List.not_mem_nil, hwrite⟩
    . refine ⟨before, item, later ++ [asked], by simp, ?_, hwrite⟩
      rw [List.mem_append, List.mem_singleton, not_or]
      exact ⟨hlater, Ne.symm hasked⟩

theorem mem_used_iff (maxItems maxLength : Nat) (uses : List StoreUse) (key : Nat) :
    key ∈ ItemMap.used maxItems maxLength ∅ uses
      ↔ (Store.empty maxItems maxLength).TookSince uses key := by
  -- From the end, because the last use decides.
  induction uses using List.reverseRecOn with
  | nil => simp [ItemMap.used, TookSince, Finmap.notMem_empty]
  | append_singleton uses asked ih =>
    have h : ((Store.empty maxItems maxLength).used uses).Represents
        (ItemMap.used maxItems maxLength ∅ uses) := (Represents.empty maxItems maxLength).used uses
    have htakes (item : Bytes) :
        (∃ next, ((Store.empty maxItems maxLength).used uses).write key item = .ok next)
          ↔ (ItemMap.used maxItems maxLength ∅ uses).Takes maxItems maxLength key item := by
      rw [h.exists_write_iff, (limits_used _ uses).1, (limits_used _ uses).2]
      rfl
    rw [tookSince_append, ← ih]
    simp only [htakes]
    rw [← ItemMap.mem_use_iff]
    simp [ItemMap.used]

/--
However a store is used, it is the map that the same uses make of an empty map. It holds no more
items than it has room for, and as many as there are keys under which an item was taken since it was
cleared. What it answers is in terms of the map, and a write that is refused leaves all as it was.
-/
theorem used_as_item_map (maxItems maxLength : Nat) (uses : List StoreUse) :
    let store := (Store.empty maxItems maxLength).used uses
    let map := ItemMap.used maxItems maxLength ∅ uses
    store.size = map.keys.card ∧ map.keys.card ≤ maxItems
      ∧ (∀ key, key ∈ map ↔ (Store.empty maxItems maxLength).TookSince uses key)
      ∧ ∀ key,
        (store.contains key = true ↔ key ∈ map)
          ∧ (∀ room, (store.read key room = .error .notFound ↔ key ∉ map)
            ∧ (store.read key room = .error .sizeMismatch
              ↔ ∃ item, map.lookup key = some item ∧ room < item.length)
            ∧ ∀ item, store.read key room = .ok item
              ↔ map.lookup key = some item ∧ item.length ≤ room)
          ∧ ∀ item, (store.write key item = .error .full
              ↔ maxLength < item.length ∨ (key ∉ map ∧ map.keys.card = maxItems))
            ∧ (∀ error, store.write key item = .error error →
              error = .full ∧ store.use (.write key item) = store)
            ∧ ∀ next, store.write key item = .ok next →
              store.use (.write key item) = next ∧ next.get? key = some item
                ∧ ∀ other, other ≠ key → next.get? other = store.get? other := by
  intro store map
  have hlimits : store.maxItems = maxItems ∧ store.maxLength = maxLength := limits_used _ uses
  have h : store.Represents map := (Represents.empty maxItems maxLength).used uses
  refine ⟨h.size_eq, ?_, mem_used_iff maxItems maxLength uses, fun key =>
    ⟨h.contains_iff key, ?_, ?_⟩⟩
  . rw [← h.size_eq, ← hlimits.1]
    exact h.few
  . exact fun room => h.read_answers key room
  . intro item
    obtain ⟨hfull, hrefused⟩ := h.write_answers key item
    rw [hlimits.1, hlimits.2] at hfull
    refine ⟨hfull, hrefused, ?_⟩
    intro next hwrite
    refine ⟨use_write_of_ok hwrite, ?_, ?_⟩
    . rw [get?_write hwrite, if_pos rfl]
    . intro other hne
      rw [get?_write hwrite, if_neg hne]

theorem used_as_item_map_when_full :
    let uses := [.write 1 [1], .write 3 [3, 3], .clear, .write 1 [4], .write 2 [2, 2, 2, 2, 2],
      .write 2 [2], .contains 3, .write 3 [3]]
    let store := (Store.empty 2 4).used uses
    store.size = 2
      ∧ store.write 3 [3] = .error .full ∧ store.use (.write 3 [3]) = store
      ∧ store.read 3 4 = .error .notFound
      ∧ ∃ next, store.write 2 [5, 6] = .ok next
        ∧ next.get? 2 = some [5, 6] ∧ next.get? 1 = store.get? 1 := by
  intro uses store
  obtain ⟨hsize, _, _, hkeys⟩ := used_as_item_map 2 4 uses
  obtain ⟨_, hread, hwrite⟩ := hkeys 3
  obtain ⟨hfull, hrefused, _⟩ := hwrite [3]
  have hnew : store.write 3 [3] = .error .full := hfull.mpr (.inr (by decide +kernel))
  obtain ⟨_, _, hreplace⟩ := hkeys 2
  obtain ⟨_, _, hreplaced⟩ := hreplace [5, 6]
  have hok : store.write 2 [5, 6] = .ok ⟨2, 4, [(1, [4]), (2, [5, 6])]⟩ := by decide +kernel
  obtain ⟨_, hget, hothers⟩ := hreplaced _ hok
  refine ⟨hsize.trans (by decide +kernel), hnew, (hrefused _ hnew).2, ?_, _, hok, hget, ?_⟩
  . exact (hread 4).1.mpr (by decide +kernel)
  . exact hothers 1 (by decide)

end Store

end WallSwitch
