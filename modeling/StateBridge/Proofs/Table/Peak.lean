import StateBridge.Proofs.Table.Issues
import StateBridge.Proofs.Table.Refinement

set_option autoImplicit false

namespace StateBridge

namespace HandleTable

variable {α : Type} {table after : HandleTable α} {handle : Handle} {kind : HandleKind} {value : α}

def sizes : HandleTable α → List (Call α) → List Nat
  | table, [] => [table.size]
  | table, call :: rest => table.size :: sizes (table.step call).2 rest

theorem staysWithin_iff {limit : Nat} {calls : List (Call α)} :
    table.StaysWithin limit calls ↔ ∀ size ∈ table.sizes calls, size ≤ limit := by
  induction calls generalizing table with
  | nil => simp [StaysWithin, sizes]
  | cons call rest ih => simp [StaysWithin, sizes, ih]

theorem Sound.free_eq_nil_iff (sound : table.Sound) :
    table.free = [] ↔ ∀ slot ∈ table.slots, slot.value?.isSome := by
  constructor
  next =>
    intro full slot member
    have occupied := (Array.countP_eq_size.1 (sound.live_eq.symm.trans (sound.slots_size full).symm))
    exact occupied slot member
  next =>
    intro occupied
    rw [List.eq_nil_iff_forall_not_mem]
    intro index free
    obtain ⟨slot, here, empty⟩ := sound.free_slot free
    have filled := occupied slot (Array.mem_of_getElem? here)
    rw [empty] at filled
    cases filled

theorem Sound.live_lt_size (sound : table.Sound) (free : table.free ≠ []) :
    table.live < table.slots.size := by
  refine lt_of_le_of_ne sound.live_le_size fun same => free ?_
  rw [sound.free_eq_nil_iff]
  exact Array.countP_eq_size.1 (sound.live_eq.symm.trans same)

theorem insert_slots_size (stored : table.insert kind value = .ok (handle, after)) :
    after.slots.size = table.slots.size + if table.free = [] then 1 else 0 := by
  obtain ⟨-, key, -, -, ⟨free, slot, inside, top, -, -, rfl⟩ | ⟨full, -, -, rfl⟩⟩ := insert_cases stored
  next => simp [top]
  next => simp [full]

theorem set_slots_size (handle : Handle) (value : α) :
    (table.set handle value).slots.size = table.slots.size := by
  unfold HandleTable.set
  split <;> simp

theorem remove_slots_size {value? : Option α} (removed : table.remove handle = .ok (value?, after)) :
    after.slots.size = table.slots.size := by
  obtain ⟨-, -, rfl⟩ | ⟨key, value, -, -, -, rfl⟩ := remove_cases removed
  next => rfl
  next => simp [vacate]

theorem Sound.slots_size_step (sound : table.Sound) (call : Call α) :
    (table.step call).2.slots.size = max table.slots.size (table.step call).2.size := by
  have unchanged (kept : (table.step call).2.slots.size = table.slots.size) :
      (table.step call).2.slots.size = max table.slots.size (table.step call).2.size := by
    have below := (sound.step call).live_le_size
    rw [kept] at below ⊢
    exact (max_eq_left below).symm
  cases call with
  | insert kind value =>
    cases stored : table.insert kind value with
    | error fault => exact unchanged (by simp [HandleTable.step, stored])
    | ok result =>
      simp only [HandleTable.step, stored, HandleTable.size]
      rw [insert_slots_size stored, Sound.insert_live stored]
      split
      next full =>
        have size := sound.slots_size full
        omega
      next free =>
        have room := sound.live_lt_size free
        omega
  | access handle written? =>
    cases written? with
    | none => exact unchanged rfl
    | some written => exact unchanged (set_slots_size handle written)
  | remove handle =>
    obtain ⟨after, removed, -⟩ := sound.remove handle
    exact unchanged (by simpa [HandleTable.step, removed] using remove_slots_size removed)
  | get | contains | size | isEmpty => exact unchanged rfl

theorem Sound.slots_size_run (sound : table.Sound) (calls : List (Call α)) :
    (table.run calls).2.slots.size = (table.sizes calls).foldl max table.slots.size := by
  have first : max table.slots.size table.size = table.slots.size := max_eq_left sound.live_le_size
  induction calls generalizing table with
  | nil => exact first.symm
  | cons call rest ih =>
    have next := sound.step call
    calc ((table.step call).2.run rest).2.slots.size
        = ((table.step call).2.sizes rest).foldl max (table.step call).2.slots.size :=
          ih next (max_eq_left next.live_le_size)
      _ = ((table.step call).2.sizes rest).foldl max table.slots.size := by
          cases rest <;> simp [sizes, sound.slots_size_step call]
      _ = (table.sizes (call :: rest)).foldl max table.slots.size := by
          rw [sizes, List.foldl_cons, first]

theorem max?_sizes (calls : List (Call α)) :
    ((empty : HandleTable α).sizes calls).max? = some (empty.run calls).2.slots.size := by
  rw [empty_sound.slots_size_run]
  cases calls <;> rfl

theorem foldl_max_eq_iff {limit : Nat} {sizes : List Nat} :
    sizes.foldl max limit = limit ↔ ∀ size ∈ sizes, size ≤ limit := by
  rw [List.foldl_max, max_eq_left_iff]
  cases greatest : sizes.max? with
  | none => simp [List.max?_eq_none_iff.1 greatest]
  | some size => exact List.max?_le_iff greatest

theorem Sound.slots_size_eq_iff (sound : table.Sound) (calls : List (Call α)) :
    (table.run calls).2.slots.size = table.slots.size ↔ table.StaysWithin table.slots.size calls := by
  rw [sound.slots_size_run, staysWithin_iff, foldl_max_eq_iff]

-- A new slot is made only when there are more values than at the fullest moment so far.
theorem slots_number_the_peak (calls : List (Call α)) :
    let table := (empty.run calls).2
    table.Sound ∧ (empty.sizes calls).max? = some table.slots.size ∧
      (∀ kind value, kind ≠ .int → ∃ handle after, table.insert kind value = .ok (handle, after) ∧
        after.slots.size =
          table.slots.size + if ∀ slot ∈ table.slots, slot.value?.isSome then 1 else 0) ∧
      ∀ more, (table.run more).2.slots.size = table.slots.size ↔
        table.StaysWithin table.slots.size more := by
  intro table
  have sound : table.Sound := empty_sound.run calls
  refine ⟨sound, max?_sizes calls, ?_, sound.slots_size_eq_iff⟩
  intro kind value tabled
  obtain ⟨handle, after, stored⟩ := sound.insert_ok value tabled
  refine ⟨handle, after, stored, ?_⟩
  rw [insert_slots_size stored]
  simp only [sound.free_eq_nil_iff]

-- Two values at most were live at once, and a null handle and a stale one were removed in between.
theorem slots_number_the_peak_churned :
    let first : Handle := TableKey.handle ⟨.object, 0, 1⟩
    let second : Handle := TableKey.handle ⟨.module, 1, 1⟩
    let calls : List (Call Nat) := [.insert .object 1, .insert .module 2, .remove first, .remove .null,
      .remove first, .insert .dict 3, .remove second]
    let table := (empty.run calls).2
    let more : List (Call Nat) := [.insert .object 4, .remove first, .isEmpty]
    HandleKind.object ≠ .int ∧ table.slots.size = 2 ∧ table.size = 1 ∧
      (∃ handle after, table.insert .object 4 = .ok (handle, after) ∧ after.slots.size = 2) ∧
      table.StaysWithin table.slots.size more ∧ (table.run more).2.slots.size = 2 := by
  intro first second calls table more
  obtain ⟨-, -, inserts, churns⟩ := slots_number_the_peak calls
  have slots : table.slots.size = 2 := by decide
  have within : table.StaysWithin table.slots.size more := by decide
  obtain ⟨handle, after, stored, size⟩ := inserts .object 4 (by decide)
  have vacant : ¬ ∀ slot ∈ table.slots, slot.value?.isSome := by decide
  rw [if_neg vacant, Nat.add_zero] at size
  exact ⟨by decide, slots, by decide, ⟨handle, after, stored, size.trans slots⟩, within,
    ((churns more).2 within).trans slots⟩

end HandleTable

end StateBridge
