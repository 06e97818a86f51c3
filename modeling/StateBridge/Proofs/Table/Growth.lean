import StateBridge.Proofs.Table.Run

set_option autoImplicit false

namespace StateBridge

namespace HandleTable

variable {α : Type} {table after : HandleTable α} {handle : Handle} {kind : HandleKind} {value : α}

-- A slot is appended all the same, under a number cut to 32 bits, and no key names it.
theorem Sound.insert_past_room (sound : table.Sound) (full : ¬ table.HasRoom)
    (stored : table.insert kind value = .ok (handle, after)) :
    handle = TableKey.handle ⟨kind, table.size.toUInt32, 1⟩ ∧
      ∀ other, after.get? other = table.get? other := by
  obtain ⟨-, key, rfl, rfl, ⟨free, -, -, top, -, -, -⟩ | ⟨none, new, first, rfl⟩⟩ :=
    insert_cases stored
  next => exact absurd (.inl (by simp [top])) full
  next =>
    have size : table.slots.size = table.size := sound.slots_size none
    constructor
    next =>
      rw [size] at new
      cases key
      subst new first
      rfl
    next =>
      intro other
      ext held
      have reach : ∀ named : TableKey, named.index.toNat ≠ table.slots.size := by
        intro named same
        have narrow := named.index.toNat_lt
        exact full (.inr (by rw [← size, ← same]; exact narrow))
      simp only [get?_eq_some_iff, Holds, Array.getElem?_push, reach, if_false]

-- Past the last index, the new handle repeats the bits of a slot's first issue.
theorem inserted_value_is_found_iff (calls : List (Call α)) (value : α) (tabled : kind ≠ .int) :
    let table := (empty.run calls).2
    ∃ handle after, table.insert kind value = .ok (handle, after) ∧
      ((table.get? handle = none ∧ after.get? handle = some value) ↔ table.HasRoom) ∧
      (table.HasRoom → ∀ other, after.get? other =
        if other = handle then some value else table.get? other) ∧
      (¬ table.HasRoom → handle = TableKey.handle ⟨kind, table.size.toUInt32, 1⟩ ∧
        ∀ other, after.get? other = table.get? other) := by
  intro table
  have sound : table.Sound := empty_sound.run calls
  obtain ⟨handle, after, stored⟩ := sound.insert_ok value tabled
  by_cases room : table.HasRoom
  next =>
    obtain ⟨key, rfl, rfl, issued, fills⟩ := sound.insert_fills room stored
    have found := fills.get? tabled issued
    have fresh : table.get? key.handle = none ∧ after.get? key.handle = some value :=
      ⟨fills.get?_before tabled issued, by rw [found, if_pos rfl]⟩
    exact ⟨_, after, stored, iff_of_true fresh room, fun _ => found, absurd room⟩
  next =>
    have past := sound.insert_past_room room stored
    refine ⟨handle, after, stored, iff_of_false ?_ room, fun has => absurd has room, fun _ => past⟩
    rintro ⟨missing, found⟩
    rw [past.2, missing] at found
    cases found

-- A slot that another kind has left is taken before the table grows.
theorem inserted_value_is_found_iff_freed_slot :
    let left : Handle := ⟨0x0300010000000000⟩
    let kept : Handle := ⟨0x0500010000000001⟩
    let new : Handle := ⟨0x0500030000000000⟩
    let calls : List (Call Nat) := [.insert .dict 5, .insert .object 6, .remove left]
    let table := (empty.run calls).2
    HandleKind.object ≠ .int ∧ table.free = [0] ∧ ∃ after, table.insert .object 7 = .ok (new, after) ∧
      table.get? new = none ∧ after.get? new = some 7 ∧ after.get? kept = some 6 ∧
      after.get? left = none := by
  intro left kept new calls table
  have freed : table.free = [0] := by decide +kernel
  have room : table.HasRoom := .inl (by rw [freed]; decide)
  obtain ⟨handle, after, stored, fresh, others, -⟩ :=
    @inserted_value_is_found_iff Nat .object calls 7 (by decide)
  have computed : (table.insert .object 7).map Prod.fst = .ok new := by decide +kernel
  rw [stored] at computed
  obtain rfl : handle = new := Except.ok.inj computed
  obtain ⟨missing, found⟩ := fresh.2 room
  refine ⟨by decide, freed, after, stored, missing, found, ?_, ?_⟩
  next => rw [others room, if_neg (by decide)]; decide +kernel
  next => rw [others room, if_neg (by decide)]; decide +kernel

def crowd (kind : HandleKind) (value : α) (count : Nat) : HandleTable α :=
  ⟨Array.replicate count ⟨some value, kind, 1⟩, [], count⟩

theorem insert_crowd (tabled : kind ≠ .int) (value new : α) (count : Nat) :
    (crowd kind value count).insert kind new =
      .ok (TableKey.handle ⟨kind, count.toUInt32, 1⟩,
        ⟨(crowd kind value count).slots.push ⟨some new, kind, 1⟩, [], count + 1⟩) := by
  simp [insert, crowd, tabled, TableKey.encode_eq]

theorem run_crowd (tabled : kind ≠ .int) (value : α) (count more : Nat) :
    ((crowd kind value count).run (List.replicate more (.insert kind value))).2 =
      crowd kind value (count + more) := by
  induction more generalizing count with
  | zero => rfl
  | succ more ih =>
    have next : (crowd kind value count).insert kind value =
        .ok (TableKey.handle ⟨kind, count.toUInt32, 1⟩, crowd kind value (count + 1)) := by
      rw [insert_crowd tabled, crowd, crowd, Array.replicate_succ]
    rw [List.replicate_succ, run, step, next]
    simp only
    rw [ih, Nat.add_right_comm, Nat.add_assoc]

theorem get?_crowd (tabled : kind ≠ .int) (value : α) {count : Nat} (filled : 0 < count) :
    (crowd kind value count).get? (TableKey.handle ⟨kind, 0, 1⟩) = some value := by
  have issued : (1 : UInt16) ≠ 0 := by decide
  rw [get?_handle tabled issued, Holds, crowd]
  simp [filled]

-- With every index taken, the next value shares the handle of the first, which finds the first.
theorem inserted_value_shares_handle :
    let crowded : HandleTable Nat := (empty.run (List.replicate capacity (.insert .object 0))).2
    let handle : Handle := TableKey.handle ⟨.object, 0, 1⟩
    ∃ after, crowded.insert .object 1 = .ok (handle, after) ∧
      crowded.get? handle = some 0 ∧ after.get? handle = some 0 := by
  intro crowded handle
  have tabled : HandleKind.object ≠ .int := by decide
  have start : (empty : HandleTable Nat) = crowd .object 0 0 := rfl
  have filled : crowded = crowd .object 0 capacity := by
    simp only [crowded]
    rw [start, run_crowd tabled, Nat.zero_add]
  have cut : capacity.toUInt32 = 0 := by decide
  have stored := insert_crowd tabled 0 1 capacity
  rw [← filled, cut] at stored
  have found : crowded.get? handle = some 0 := by
    rw [filled]
    exact get?_crowd tabled 0 (by decide)
  have full : ¬ crowded.HasRoom := by
    rw [filled]
    simp [HasRoom, crowd, size]
  have sound : crowded.Sound := empty_sound.run _
  refine ⟨_, stored, found, ?_⟩
  rw [(sound.insert_past_room full stored).2, found]

end HandleTable

end StateBridge
