import StateBridge.Proofs.Table.Slots

set_option autoImplicit false

namespace StateBridge

namespace HandleTable

variable {α : Type} {table after : HandleTable α} {handle : Handle} {kind : HandleKind}
  {value : α} {value? : Option α}

structure Sound (table : HandleTable α) : Prop where
  free_nodup : table.free.Nodup
  mem_free : ∀ position, position ∈ table.free.map UInt32.toNat ↔
    ∃ slot, table.slots[position]? = some slot ∧ slot.value? = none
  live_eq : table.live = table.slots.countP fun slot => slot.value?.isSome
  issued : ∀ slot ∈ table.slots, slot.kind ≠ .int ∧ slot.generation ≠ 0

theorem empty_sound : (empty : HandleTable α).Sound where
  free_nodup := List.nodup_nil
  mem_free := by simp [empty]
  live_eq := rfl
  issued := by simp [empty]

theorem Sound.free_slot (sound : table.Sound) {index : UInt32} (free : index ∈ table.free) :
    ∃ slot, table.slots[index.toNat]? = some slot ∧ slot.value? = none :=
  (sound.mem_free _).1 (List.mem_map_of_mem free)

theorem Holds.unique {first second : TableKey} {held other : α} (one : table.Holds first held)
    (two : table.Holds second other) (same : first.index = second.index) :
    first = second ∧ held = other := by
  rw [Holds, same, two] at one
  cases first
  cases second
  simp_all

theorem Holds.live_pos (sound : table.Sound) {key : TableKey} (holds : table.Holds key value) :
    0 < table.live := by
  rw [sound.live_eq, Array.countP_pos_iff]
  exact ⟨_, Array.mem_of_getElem? holds, rfl⟩

theorem Sound.free_inside (sound : table.Sound) {index : UInt32} (free : index ∈ table.free) :
    index.toNat < table.slots.size := by
  obtain ⟨slot, found, -⟩ := sound.free_slot free
  exact (Array.getElem?_eq_some_iff.1 found).1

theorem Sound.slots_size (sound : table.Sound) (full : table.free = []) :
    table.slots.size = table.live := by
  -- Without free slots every slot is occupied, so there are as many as live values.
  rw [sound.live_eq, eq_comm, Array.countP_eq_size]
  intro slot member
  obtain ⟨position, inside, found⟩ := Array.mem_iff_getElem.1 member
  have occupied := mt (sound.mem_free position).2 (by simp [full])
  by_contra empty
  apply occupied
  exact ⟨slot, by rw [Array.getElem?_eq_getElem inside, found], by simpa using empty⟩

theorem Sound.insert_ok (sound : table.Sound) (value : α) (tabled : kind ≠ .int) :
    ∃ handle after, table.insert kind value = .ok (handle, after) := by
  have inside := @Sound.free_inside _ _ sound
  obtain ⟨slots, free, live⟩ := table
  cases free with
  | nil => simp [insert, tabled, TableKey.encode_eq]
  | cons index free => simp [insert, tabled, TableKey.encode_eq, inside List.mem_cons_self]

structure Fills (table after : HandleTable α) (key : TableKey) (value : α) : Prop where
  vacant : ∀ slot, table.slots[key.index.toNat]? = some slot → slot.value? = none
  slots : ∀ position, after.slots[position]? =
    if position = key.index.toNat then some ⟨some value, key.kind, key.generation⟩
    else table.slots[position]?

def capacity : Nat := 2 ^ 32

theorem toNat_toUInt32 {position : Nat} (inside : position < capacity) :
    position.toUInt32.toNat = position :=
  UInt32.toNat_ofNat_of_lt' inside

def HasRoom (table : HandleTable α) : Prop := table.free ≠ [] ∨ table.size < capacity

theorem Sound.insert_fills (sound : table.Sound) (room : table.HasRoom)
    (stored : table.insert kind value = .ok (handle, after)) :
    ∃ key : TableKey, handle = key.handle ∧ key.kind = kind ∧ key.generation ≠ 0 ∧
      table.Fills after key value := by
  obtain ⟨-, key, rfl, rfl, ⟨free, slot, inside, top, found, next, rfl⟩ | ⟨full, new, first, rfl⟩⟩ :=
    insert_cases stored
  next =>
    refine ⟨key, rfl, rfl, next ▸ nextGeneration_ne_zero _, ?_, ?_⟩
    next =>
      intro other here
      obtain ⟨empty, there, vacant⟩ := sound.free_slot (top ▸ List.mem_cons_self)
      rw [there] at here
      cases here
      exact vacant
    next =>
      intro position
      simp only [Array.getElem?_set]
      grind
  next =>
    have size := sound.slots_size full
    have within : table.live < capacity := room.resolve_left (not_not_intro full)
    have index : key.index.toNat = table.slots.size := by
      rw [new, toNat_toUInt32 (size ▸ within)]
    refine ⟨key, rfl, rfl, by simp [first], ?_, ?_⟩
    next => simp [index]
    next =>
      intro position
      rw [Array.getElem?_push, index]

theorem Fills.holds_iff {key other : TableKey} {held : α} (fills : table.Fills after key value) :
    after.Holds other held ↔ (other = key ∧ held = value) ∨ table.Holds other held := by
  simp only [Holds, fills.slots]
  by_cases here : other.index.toNat = key.index.toNat
  next =>
    have same := UInt32.toNat_inj.1 here
    have vacant := fills.vacant
    constructor
    next =>
      intro found
      cases key
      cases other
      simp_all
    next =>
      rintro (⟨rfl, rfl⟩ | found)
      next => simp
      next => cases vacant _ (here ▸ found)
  next =>
    have differ : other ≠ key := fun same => here (congrArg (·.index.toNat) same)
    simp [here, differ]

theorem Fills.get?_before {key : TableKey} (fills : table.Fills after key value)
    (tabled : key.kind ≠ .int) (issued : key.generation ≠ 0) : table.get? key.handle = none := by
  rw [Option.eq_none_iff_forall_ne_some]
  intro held found
  rw [get?_handle tabled issued] at found
  cases fills.vacant _ found

theorem Fills.get? {key : TableKey} (fills : table.Fills after key value)
    (tabled : key.kind ≠ .int) (issued : key.generation ≠ 0) (other : Handle) :
    after.get? other = if other = key.handle then some value else table.get? other := by
  split
  next same =>
    rw [same, get?_handle tabled issued, fills.holds_iff]
    exact .inl ⟨rfl, rfl⟩
  next differ =>
    ext held
    simp only [get?_eq_some_iff, fills.holds_iff]
    constructor
    next =>
      rintro ⟨found, decoded, ⟨rfl, -⟩ | holds⟩
      next => exact absurd (TableKey.handle_of_decode? decoded).1.symm differ
      next => exact ⟨found, decoded, holds⟩
    next =>
      rintro ⟨found, decoded, holds⟩
      exact ⟨found, decoded, .inr holds⟩

theorem Sound.insert_live (stored : table.insert kind value = .ok (handle, after)) :
    after.live = table.live + 1 := by
  obtain ⟨-, key, -, -, ⟨free, slot, inside, -, -, -, rfl⟩ | ⟨-, -, -, rfl⟩⟩ := insert_cases stored <;>
    rfl

theorem Sound.insert (sound : table.Sound)
    (stored : table.insert kind value = .ok (handle, after)) : after.Sound := by
  obtain ⟨tabled, key, rfl, rfl, ⟨free, slot, inside, top, found, next, rfl⟩ |
    ⟨full, new, first, rfl⟩⟩ := insert_cases stored
  next =>
    have distinct := List.nodup_cons.1 (top ▸ sound.free_nodup)
    obtain ⟨empty, there, vacant⟩ := sound.free_slot (top ▸ List.mem_cons_self)
    constructor
    next => exact distinct.2
    next =>
      intro position
      have listed := sound.mem_free position
      rw [top, List.map_cons, List.mem_cons] at listed
      by_cases same : key.index.toNat = position
      next =>
        subst same
        simp [distinct.1, inside, UInt32.toNat_inj]
      next => simpa [Ne.symm same, Array.getElem?_set_ne inside same] using listed
    next =>
      rw [Array.getElem?_eq_getElem inside] at there
      cases there
      rw [Array.countP_set inside, sound.live_eq]
      simp [vacant]
    next =>
      intro other member
      change other ∈ table.slots.set key.index.toNat _ inside at member
      rcases Array.mem_or_eq_of_mem_set member with old | rfl
      next => exact sound.issued other old
      next => exact ⟨tabled, next ▸ nextGeneration_ne_zero _⟩
  next =>
    constructor
    next => exact List.nodup_nil
    next =>
      intro position
      have listed := sound.mem_free position
      rw [full] at listed
      simp only [List.map_nil, List.not_mem_nil, false_iff, Array.getElem?_push] at listed ⊢
      split
      next => simp
      next => exact listed
    next =>
      rw [Array.countP_push, sound.live_eq]
      rfl
    next =>
      intro other member
      rcases Array.mem_push.1 member with old | rfl
      next => exact sound.issued other old
      next => exact ⟨tabled, by simp [first]⟩

theorem Sound.insert_keeps (sound : table.Sound)
    (stored : table.insert kind value = .ok (handle, after)) {other : Handle} {held : α}
    (found : table.get? other = some held) : after.get? other = some held := by
  obtain ⟨key, decoded, holds⟩ := get?_eq_some_iff.1 found
  refine get?_eq_some_iff.2 ⟨key, decoded, ?_⟩
  have inside := (Array.getElem?_eq_some_iff.1 holds).1
  obtain ⟨-, new, rfl, rfl, ⟨free, slot, within, top, here, next, rfl⟩ | ⟨full, index, first, rfl⟩⟩ :=
    insert_cases stored
  next =>
    obtain ⟨empty, there, vacant⟩ := sound.free_slot (top ▸ List.mem_cons_self)
    have apart : new.index.toNat ≠ key.index.toNat := by
      intro same
      rw [same, holds] at there
      cases there
      cases vacant
    exact (Array.getElem?_set_ne within apart).trans holds
  next =>
    rw [Holds, Array.getElem?_push, if_neg inside.ne]
    exact holds

theorem insert_slots (stored : table.insert kind value = .ok (handle, after)) (slot : Slot α)
    (member : slot ∈ after.slots) :
    slot ∈ table.slots ∨ (slot.value? = some value ∧ slot.kind = kind) := by
  obtain ⟨-, new, -, rfl, ⟨free, old, within, -, -, -, rfl⟩ | ⟨-, -, -, rfl⟩⟩ := insert_cases stored
  next =>
    change slot ∈ table.slots.set new.index.toNat _ within at member
    rcases Array.mem_or_eq_of_mem_set member with before | rfl
    next => exact .inl before
    next => exact .inr ⟨rfl, rfl⟩
  next =>
    rcases Array.mem_push.1 member with before | rfl
    next => exact .inl before
    next => exact .inr ⟨rfl, rfl⟩

structure Inserted (table after : HandleTable α) (kind : HandleKind) (value : α) (handle : Handle) :
    Prop where
  sound : after.Sound
  ofKind : handle.kind? = some kind
  size : after.size = table.size + 1
  keeps : ∀ other held, table.get? other = some held → after.get? other = some held
  slots : ∀ slot ∈ after.slots, slot ∈ table.slots ∨ (slot.value? = some value ∧ slot.kind = kind)
  unused : table.size < capacity → table.get? handle = none
  get? : table.size < capacity →
    ∀ other, after.get? other = if other = handle then some value else table.get? other

theorem Sound.inserted (sound : table.Sound) (value : α) (tabled : kind ≠ .int) :
    ∃ handle after, table.insert kind value = .ok (handle, after) ∧
      table.Inserted after kind value handle := by
  obtain ⟨handle, after, stored⟩ := sound.insert_ok value tabled
  refine ⟨handle, after, stored, sound.insert stored, ?_, Sound.insert_live stored,
    fun other held => sound.insert_keeps stored, insert_slots stored, ?_, ?_⟩
  next =>
    obtain ⟨-, key, rfl, rfl, -⟩ := insert_cases stored
    exact key.kind?_handle
  next =>
    intro room
    obtain ⟨key, rfl, rfl, issued, fills⟩ := sound.insert_fills (.inr room) stored
    exact fills.get?_before tabled issued
  next =>
    intro room
    obtain ⟨key, rfl, rfl, issued, fills⟩ := sound.insert_fills (.inr room) stored
    exact fills.get? tabled issued

theorem modify_eq_set (slots : Array (Slot α)) {position : Nat} (inside : position < slots.size)
    (change : Slot α → Slot α) :
    slots.modify position change = slots.set position (change slots[position]) := by
  apply Array.ext_getElem?
  intro other
  rw [Array.getElem?_modify, Array.getElem?_set inside]
  split
  next same => subst same; simp [inside]
  next => rfl

theorem Sound.vacate (sound : table.Sound) {key : TableKey} (holds : table.Holds key value) :
    (table.vacate key).Sound := by
  obtain ⟨inside, found⟩ := Array.getElem?_eq_some_iff.1 holds
  have taken : key.index ∉ table.free := by
    intro free
    obtain ⟨slot, here, empty⟩ := sound.free_slot free
    rw [holds] at here
    cases here
    cases empty
  constructor
  next => exact List.nodup_cons.2 ⟨taken, sound.free_nodup⟩
  next =>
    intro position
    have listed := sound.mem_free position
    simp only [HandleTable.vacate, List.map_cons, List.mem_cons, Array.getElem?_modify]
    by_cases same : key.index.toNat = position
    next =>
      subst same
      simp [inside]
    next => simpa [Ne.symm same, same] using listed
  next =>
    simp only [HandleTable.vacate, modify_eq_set _ inside, Array.countP_set inside, found,
      sound.live_eq]
    simp
  next =>
    intro slot member
    simp only [HandleTable.vacate, modify_eq_set _ inside, found] at member
    rcases Array.mem_or_eq_of_mem_set member with old | rfl
    next => exact sound.issued slot old
    next => exact ⟨(sound.issued _ (Array.mem_of_getElem? holds)).1, nextGeneration_ne_zero _⟩

theorem vacate_holds_iff {key other : TableKey} {held : α} (holds : table.Holds key value) :
    (table.vacate key).Holds other held ↔ other ≠ key ∧ table.Holds other held := by
  by_cases same : key.index = other.index
  next =>
    constructor
    next =>
      intro found
      rw [Holds, vacate, Array.getElem?_modify, if_pos (congrArg _ same), ← same, holds] at found
      cases found
    next =>
      rintro ⟨differ, found⟩
      exact absurd (found.unique holds same.symm).1 differ
  next =>
    have differ : other ≠ key := fun equal => same (congrArg (·.index) equal.symm)
    rw [Holds, vacate, Array.getElem?_modify, if_neg (mt UInt32.toNat_inj.1 same), Holds]
    simp [differ]

theorem get?_vacate {key : TableKey} (decoded : TableKey.decode? handle = some key)
    (holds : table.Holds key value) (other : Handle) :
    (table.vacate key).get? other = if other = handle then none else table.get? other := by
  ext held
  simp only [get?_eq_some_iff, vacate_holds_iff holds]
  obtain ⟨rfl, tabled, issued⟩ := TableKey.handle_of_decode? decoded
  split
  next same =>
    subst same
    simp [decoded]
  next differ =>
    rw [get?_eq_some_iff]
    constructor
    next =>
      rintro ⟨found, read, -, holds⟩
      exact ⟨found, read, holds⟩
    next =>
      rintro ⟨found, read, holds⟩
      refine ⟨found, read, ?_, holds⟩
      rintro rfl
      exact differ (TableKey.handle_of_decode? read).1.symm

theorem Sound.remove (sound : table.Sound) (handle : Handle) :
    ∃ after, table.remove handle = .ok (table.get? handle, after) ∧ after.Sound ∧
      (∀ other, after.get? other = if other = handle then none else table.get? other) ∧
      table.live = after.live + if (table.get? handle).isSome then 1 else 0 := by
  cases found : table.get? handle with
  | none =>
    refine ⟨table, remove_of_get?_none found, sound, ?_, rfl⟩
    intro other
    split
    next same => rw [same, found]
    next => rfl
  | some value =>
    obtain ⟨key, decoded, holds⟩ := get?_eq_some_iff.1 found
    have positive := holds.live_pos sound
    refine ⟨table.vacate key, ?_, sound.vacate holds, get?_vacate decoded holds, ?_⟩
    next => rw [remove_of_holds decoded holds, if_neg (by omega)]
    next =>
      simp only [HandleTable.vacate, Option.isSome_some, if_true]
      omega

theorem remove_slots (removed : table.remove handle = .ok (value?, after)) (slot : Slot α)
    (member : slot ∈ after.slots) : slot ∈ table.slots ∨ slot.value? = none := by
  obtain ⟨-, -, rfl⟩ | ⟨key, value, -, holds, -, rfl⟩ := remove_cases removed
  next => exact .inl member
  next =>
    have inside := (Array.getElem?_eq_some_iff.1 holds).1
    simp only [HandleTable.vacate, modify_eq_set _ inside] at member
    rcases Array.mem_or_eq_of_mem_set member with before | rfl
    next => exact .inl before
    next => exact .inr rfl

theorem set_slots (slot : Slot α) (member : slot ∈ (table.set handle value).slots) :
    slot ∈ table.slots ∨ (slot.value? = some value ∧ handle.kind? = some slot.kind) := by
  cases found : table.get? handle with
  | none =>
    rw [set_of_get?_none found] at member
    exact .inl member
  | some held =>
    obtain ⟨key, decoded, holds⟩ := get?_eq_some_iff.1 found
    obtain ⟨inside, stored⟩ := Array.getElem?_eq_some_iff.1 holds
    obtain ⟨rfl, -, -⟩ := TableKey.handle_of_decode? decoded
    rw [set_of_holds decoded holds] at member
    simp only [modify_eq_set _ inside, stored] at member
    rcases Array.mem_or_eq_of_mem_set member with before | rfl
    next => exact .inl before
    next => exact .inr ⟨rfl, key.kind?_handle⟩

theorem Sound.set (sound : table.Sound) (handle : Handle) (value : α) :
    (table.set handle value).Sound := by
  cases found : table.get? handle with
  | none => rwa [set_of_get?_none found]
  | some held =>
    obtain ⟨key, decoded, holds⟩ := get?_eq_some_iff.1 found
    obtain ⟨inside, stored⟩ := Array.getElem?_eq_some_iff.1 holds
    rw [set_of_holds decoded holds]
    constructor
    next => exact sound.free_nodup
    next =>
      intro position
      rw [sound.mem_free position]
      simp only [Array.getElem?_modify]
      split
      next same => simp [← same, stored, Array.getElem?_eq_getElem inside]
      next => rfl
    next =>
      simp only [modify_eq_set _ inside, Array.countP_set inside, stored, sound.live_eq]
      have positive := holds.live_pos sound
      rw [sound.live_eq] at positive
      simp only [Option.isSome_some, if_true]
      omega
    next =>
      intro slot member
      simp only [modify_eq_set _ inside, stored] at member
      rcases Array.mem_or_eq_of_mem_set member with old | rfl
      next => exact sound.issued slot old
      next => exact (sound.issued _ (Array.mem_of_getElem? holds) :)

theorem live_set (handle : Handle) (value : α) : (table.set handle value).live = table.live := by
  unfold HandleTable.set
  split <;> rfl

theorem set_holds_iff {key named : TableKey} {held other : α}
    (decoded : TableKey.decode? handle = some key) (holds : table.Holds key held) :
    (table.set handle value).Holds named other ↔
      (named = key ∧ other = value) ∨ (named ≠ key ∧ table.Holds named other) := by
  rw [set_of_holds decoded holds, Holds, Array.getElem?_modify]
  by_cases same : key.index = named.index
  next =>
    rw [if_pos (congrArg _ same), ← same, holds]
    constructor
    next =>
      intro stored
      left
      cases key
      cases named
      simp_all
    next =>
      rintro (⟨rfl, rfl⟩ | ⟨differ, stored⟩)
      next => rfl
      next => exact absurd (stored.unique holds same.symm).1 differ
  next =>
    have differ : named ≠ key := fun equal => same (congrArg (·.index) equal.symm)
    rw [if_neg (mt UInt32.toNat_inj.1 same)]
    simp [differ, Holds]

theorem get?_set (handle other : Handle) (value : α) :
    (table.set handle value).get? other =
      if other = handle ∧ (table.get? handle).isSome then some value else table.get? other := by
  cases found : table.get? handle with
  | none => simp [set_of_get?_none found]
  | some held =>
    obtain ⟨key, decoded, holds⟩ := get?_eq_some_iff.1 found
    obtain ⟨rfl, -, -⟩ := TableKey.handle_of_decode? decoded
    ext stored
    simp only [get?_eq_some_iff, set_holds_iff decoded holds, Option.isSome_some, and_true]
    split
    next same => subst same; simp [decoded, eq_comm]
    next differ =>
      have apart : ∀ named, TableKey.decode? other = some named → named ≠ key := by
        rintro named read rfl
        exact differ (TableKey.handle_of_decode? read).1.symm
      rw [get?_eq_some_iff]
      constructor
      next =>
        rintro ⟨named, read, ⟨same, -⟩ | ⟨-, stored⟩⟩
        next => exact absurd same (apart named read)
        next => exact ⟨named, read, stored⟩
      next =>
        rintro ⟨named, read, stored⟩
        exact ⟨named, read, .inr ⟨apart named read, stored⟩⟩

end HandleTable

end StateBridge
