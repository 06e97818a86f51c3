import StateBridge.Proofs.Table.Refinement

set_option autoImplicit false

namespace StateBridge

namespace HandleTable

variable {α : Type} {table after : HandleTable α} {handle : Handle} {value : α}
  {contents others rest : List (Handle × α)}

-- The order does not matter, so an operation is described by what it does to the front of the list.
def Lists (table : HandleTable α) (contents : List (Handle × α)) : Prop :=
  ∃ map, table.Represents map ∧ map.entries.Perm contents

theorem empty_lists : (empty : HandleTable α).Lists [] := ⟨.empty, empty_represents, .refl _⟩

theorem Lists.perm (lists : table.Lists contents) (perm : contents.Perm others) :
    table.Lists others := by
  obtain ⟨map, represents, entries⟩ := lists
  exact ⟨map, represents, entries.trans perm⟩

theorem Lists.sound (lists : table.Lists contents) : table.Sound := by
  obtain ⟨map, represents, -⟩ := lists
  exact represents.sound

theorem Lists.get?_iff (lists : table.Lists contents) :
    table.get? handle = some value ↔ (handle, value) ∈ contents := by
  obtain ⟨map, represents, entries⟩ := lists
  rw [represents.get?, ← FiniteMap.mem_entries_iff, entries.mem_iff]

theorem Lists.size_eq (lists : table.Lists contents) : table.size = contents.length := by
  obtain ⟨map, represents, entries⟩ := lists
  rw [represents.size, ← entries.length_eq]
  rfl

theorem Lists.distinct (lists : table.Lists contents) : (contents.map Prod.fst).Nodup := by
  obtain ⟨map, -, entries⟩ := lists
  exact (entries.map Prod.fst).nodup_iff.1 map.distinct

theorem Lists.insert (lists : table.Lists contents) {kind : HandleKind}
    (inserted : table.Inserted after kind value handle) (room : table.size < capacity) :
    handle ∉ contents.map Prod.fst ∧ after.Lists ((handle, value) :: contents) := by
  obtain ⟨map, represents, entries⟩ := lists
  obtain ⟨unused, represents⟩ := represents.insert inserted room
  constructor
  next =>
    rw [← (entries.map Prod.fst).mem_iff]
    exact FiniteMap.find?_eq_none_iff.1 unused
  next =>
    refine ⟨_, represents, ?_⟩
    rw [FiniteMap.entries_insert_of_find?_none unused]
    exact entries.cons _

theorem Lists.find?_head {map : FiniteMap Handle α}
    (entries : map.entries.Perm ((handle, value) :: rest)) :
    map.find? handle = some value ∧ (map.erase handle).entries.Perm rest := by
  have present : map.find? handle = some value :=
    FiniteMap.mem_entries_iff.1 (entries.mem_iff.2 List.mem_cons_self)
  exact ⟨present, ((FiniteMap.entries_perm_of_find?_some present).symm.trans entries).cons_inv⟩

theorem Lists.remove (lists : table.Lists ((handle, value) :: rest)) :
    ∃ after, table.remove handle = .ok (some value, after) ∧ after.Lists rest := by
  obtain ⟨map, represents, entries⟩ := lists
  obtain ⟨present, erased⟩ := find?_head entries
  obtain ⟨after, removed, represents⟩ := represents.remove handle
  rw [present] at removed
  exact ⟨after, removed, _, represents, erased⟩

theorem Lists.set (lists : table.Lists ((handle, value) :: rest)) (written : α) :
    (table.set handle written).Lists ((handle, written) :: rest) := by
  obtain ⟨map, represents, entries⟩ := lists
  obtain ⟨present, erased⟩ := find?_head entries
  exact ⟨_, represents.set present written, erased.cons _⟩

end HandleTable

end StateBridge
