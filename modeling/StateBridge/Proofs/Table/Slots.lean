import Mathlib.Tactic
import StateBridge.Proofs.Handle.Layout

set_option autoImplicit false

namespace StateBridge

namespace HandleTable

variable {α : Type} {table after : HandleTable α} {handle : Handle} {kind : HandleKind}
  {value : α} {value? : Option α}

def Holds (table : HandleTable α) (key : TableKey) (value : α) : Prop :=
  table.slots[key.index.toNat]? = some ⟨some value, key.kind, key.generation⟩

theorem slotIndex?_eq_some_iff {index : Nat} :
    table.slotIndex? handle = some index ↔
      ∃ key value, TableKey.decode? handle = some key ∧ key.index.toNat = index ∧
        table.Holds key value := by
  simp only [slotIndex?, Option.bind_eq_bind, Option.bind_eq_some_iff, Holds]
  constructor
  next =>
    rintro ⟨key, decoded, slot, stored, matched⟩
    split at matched
    next fits =>
      obtain ⟨sameGeneration, sameKind, occupied⟩ := fits
      obtain ⟨value, filled⟩ := Option.isSome_iff_exists.1 occupied
      cases slot
      cases matched
      subst sameGeneration sameKind filled
      exact ⟨key, value, decoded, rfl, stored⟩
    next => cases matched
  next =>
    rintro ⟨key, value, decoded, rfl, stored⟩
    exact ⟨key, decoded, _, stored, by simp⟩

theorem get?_eq_some_iff :
    table.get? handle = some value ↔
      ∃ key, TableKey.decode? handle = some key ∧ table.Holds key value := by
  simp only [get?, Option.bind_eq_bind, Option.bind_eq_some_iff, slotIndex?_eq_some_iff]
  constructor
  next =>
    rintro ⟨index, ⟨key, held, decoded, rfl, holds⟩, slot, stored, filled⟩
    rw [Holds] at holds
    rw [holds] at stored
    cases stored
    cases filled
    exact ⟨key, decoded, holds⟩
  next =>
    rintro ⟨key, decoded, holds⟩
    exact ⟨_, ⟨key, value, decoded, rfl, holds⟩, _, holds, rfl⟩

@[simp] theorem get?_empty (handle : Handle) : (empty : HandleTable α).get? handle = none := by
  rw [Option.eq_none_iff_forall_ne_some]
  intro value found
  obtain ⟨key, -, holds⟩ := get?_eq_some_iff.1 found
  simp [Holds, empty] at holds

theorem slotIndex?_eq_none_iff : table.slotIndex? handle = none ↔ table.get? handle = none := by
  simp only [Option.eq_none_iff_forall_ne_some, ne_eq, slotIndex?_eq_some_iff, get?_eq_some_iff]
  constructor
  next =>
    rintro missing value ⟨key, decoded, holds⟩
    exact missing _ ⟨key, value, decoded, rfl, holds⟩
  next =>
    rintro missing index ⟨key, value, decoded, -, holds⟩
    exact missing value ⟨key, decoded, holds⟩

theorem contains_eq : table.contains handle = (table.get? handle).isSome := by
  rw [Bool.eq_iff_iff, contains, ← Option.ne_none_iff_isSome, ← Option.ne_none_iff_isSome,
    ne_eq, ne_eq, slotIndex?_eq_none_iff]

theorem get?_handle {key : TableKey} (tabled : key.kind ≠ .int) (issued : key.generation ≠ 0) :
    table.get? key.handle = some value ↔ table.Holds key value := by
  rw [get?_eq_some_iff, TableKey.decode?_handle tabled issued]
  simp

theorem insert_cases (stored : table.insert kind value = .ok (handle, after)) :
    kind ≠ .int ∧ ∃ key : TableKey, handle = key.handle ∧ key.kind = kind ∧
      ((∃ free slot, ∃ inside : key.index.toNat < table.slots.size,
          table.free = key.index :: free ∧ table.slots[key.index.toNat] = slot ∧
          key.generation = nextGeneration slot.generation ∧
          after = ⟨table.slots.set key.index.toNat ⟨some value, kind, key.generation⟩, free,
            table.live + 1⟩) ∨
        (table.free = [] ∧ key.index = table.slots.size.toUInt32 ∧ key.generation = 1 ∧
          after = ⟨table.slots.push ⟨some value, kind, key.generation⟩, [], table.live + 1⟩)) := by
  obtain ⟨slots, free, live⟩ := table
  unfold insert at stored
  split at stored
  next => cases stored
  next tabled =>
  refine ⟨tabled, ?_⟩
  cases free with
  | nil =>
    simp only [TableKey.encode_eq] at stored
    cases stored
    exact ⟨⟨kind, slots.size.toUInt32, 1⟩, rfl, rfl, .inr ⟨rfl, rfl, rfl, rfl⟩⟩
  | cons index free =>
    simp only at stored
    split at stored
    next inside =>
      simp only [TableKey.encode_eq] at stored
      cases stored
      exact ⟨⟨kind, index, nextGeneration slots[index.toNat].generation⟩, rfl, rfl,
        .inl ⟨free, slots[index.toNat], inside, rfl, rfl, rfl, rfl⟩⟩
    next => cases stored

def vacate (table : HandleTable α) (key : TableKey) : HandleTable α :=
  ⟨table.slots.modify key.index.toNat fun slot =>
      { slot with value? := none, generation := nextGeneration slot.generation },
    key.index :: table.free, table.live - 1⟩

theorem remove_of_get?_none (missing : table.get? handle = none) :
    table.remove handle = .ok (none, table) := by
  simp [remove, slotIndex?_eq_none_iff.2 missing]

theorem remove_of_holds {key : TableKey} (decoded : TableKey.decode? handle = some key)
    (holds : table.Holds key value) :
    table.remove handle =
      if table.live = 0 then .error .liveCountUnderflow else .ok (some value, table.vacate key) := by
  have found : table.slotIndex? handle = some key.index.toNat :=
    slotIndex?_eq_some_iff.2 ⟨key, value, decoded, rfl, holds⟩
  rw [Holds] at holds
  obtain ⟨slots, free, live⟩ := table
  simp only [remove, found, holds, vacate]
  simp

theorem remove_cases (removed : table.remove handle = .ok (value?, after)) :
    (table.get? handle = none ∧ value? = none ∧ after = table) ∨
      ∃ key value, TableKey.decode? handle = some key ∧ table.Holds key value ∧
        value? = some value ∧ after = table.vacate key := by
  cases found : table.get? handle with
  | none =>
    rw [remove_of_get?_none found] at removed
    cases removed
    exact .inl ⟨rfl, rfl, rfl⟩
  | some value =>
    obtain ⟨key, decoded, holds⟩ := get?_eq_some_iff.1 found
    rw [remove_of_holds decoded holds] at removed
    split at removed
    next => cases removed
    next =>
      cases removed
      exact .inr ⟨key, value, decoded, holds, rfl, rfl⟩

theorem set_of_get?_none (missing : table.get? handle = none) : table.set handle value = table := by
  simp [set, slotIndex?_eq_none_iff.2 missing]

theorem set_of_holds {key : TableKey} {held : α} (decoded : TableKey.decode? handle = some key)
    (holds : table.Holds key held) :
    table.set handle value =
      { table with slots :=
          table.slots.modify key.index.toNat fun slot => { slot with value? := some value } } := by
  simp [set, slotIndex?_eq_some_iff.2 ⟨key, held, decoded, rfl, holds⟩]

end HandleTable

end StateBridge
