import StateBridge.FiniteMap
import StateBridge.Proofs.Table.Run

set_option autoImplicit false

namespace StateBridge

namespace HandleTable

variable {α : Type} {table : HandleTable α} {map : FiniteMap Handle α}

def StaysWithin (limit : Nat) : HandleTable α → List (Call α) → Prop
  | table, [] => table.size ≤ limit
  | table, call :: rest => table.size ≤ limit ∧ StaysWithin limit (table.step call).2 rest

instance decidableStaysWithin (limit : Nat) :
    (table : HandleTable α) → (calls : List (Call α)) → Decidable (StaysWithin limit table calls)
  | table, [] => inferInstanceAs (Decidable (table.size ≤ limit))
  | table, call :: rest =>
    @instDecidableAnd _ _ (Nat.decLe _ _) (decidableStaysWithin limit (table.step call).2 rest)

theorem StaysWithin.size_le {limit : Nat} {calls : List (Call α)}
    (within : table.StaysWithin limit calls) : table.size ≤ limit := by
  cases calls with
  | nil => exact within
  | cons call rest => exact within.1

-- An insertion may choose its handle: not null, of the right kind, and unused.
inductive MapStep : FiniteMap Handle α → Call α → Answer α → FiniteMap Handle α → Prop
  | insert {map : FiniteMap Handle α} {kind : HandleKind} {handle : Handle} (value : α)
      (tabled : kind ≠ .int) (notNull : handle ≠ .null) (ofKind : handle.kind? = some kind)
      (unused : map.find? handle = none) :
      MapStep map (.insert kind value) (.issued handle) (map.insert handle value)
  | insertInt (map : FiniteMap Handle α) (value : α) :
      MapStep map (.insert .int value) (.fault .intNotTableBacked) map
  | get (map : FiniteMap Handle α) (handle : Handle) :
      MapStep map (.get handle) (.value (map.find? handle)) map
  | read (map : FiniteMap Handle α) (handle : Handle) :
      MapStep map (.access handle none) (.value (map.find? handle)) map
  | write {map : FiniteMap Handle α} {handle : Handle} {held : α} (written : α)
      (present : map.find? handle = some held) :
      MapStep map (.access handle (some written)) (.value (some held)) (map.insert handle written)
  | miss {map : FiniteMap Handle α} {handle : Handle} (written : α)
      (absent : map.find? handle = none) :
      MapStep map (.access handle (some written)) (.value none) map
  | contains (map : FiniteMap Handle α) (handle : Handle) :
      MapStep map (.contains handle) (.flag (map.contains handle)) map
  | remove (map : FiniteMap Handle α) (handle : Handle) :
      MapStep map (.remove handle) (.value (map.find? handle)) (map.erase handle)
  | size (map : FiniteMap Handle α) : MapStep map .size (.count map.size) map
  | isEmpty (map : FiniteMap Handle α) : MapStep map .isEmpty (.flag map.isEmpty) map

inductive MapRun : FiniteMap Handle α → List (Call α) → List (Answer α) → FiniteMap Handle α → Prop
  | done (map : FiniteMap Handle α) : MapRun map [] [] map
  | next {map middle last : FiniteMap Handle α} {call : Call α} {answer : Answer α}
      {calls : List (Call α)} {answers : List (Answer α)}
      (step : MapStep map call answer middle) (rest : MapRun middle calls answers last) :
      MapRun map (call :: calls) (answer :: answers) last

structure Represents (table : HandleTable α) (map : FiniteMap Handle α) : Prop where
  sound : table.Sound
  get? : ∀ handle, table.get? handle = map.find? handle
  size : table.size = map.size

theorem empty_represents : (empty : HandleTable α).Represents .empty :=
  ⟨empty_sound, get?_empty, rfl⟩

theorem Represents.insert (represents : table.Represents map) {kind : HandleKind} {value : α}
    {handle : Handle} {after : HandleTable α} (inserted : table.Inserted after kind value handle)
    (room : table.size < capacity) :
    map.find? handle = none ∧ after.Represents (map.insert handle value) := by
  have unused : map.find? handle = none :=
    (represents.get? _).symm.trans (inserted.unused room)
  refine ⟨unused, inserted.sound, ?_, ?_⟩
  next =>
    intro other
    rw [inserted.get? room, FiniteMap.find?_insert, represents.get?]
  next => rw [inserted.size, FiniteMap.size_insert_of_find?_none unused, represents.size]

theorem Represents.set (represents : table.Represents map) {handle : Handle} {held : α}
    (present : map.find? handle = some held) (written : α) :
    (table.set handle written).Represents (map.insert handle written) := by
  refine ⟨represents.sound.set handle written, ?_, ?_⟩
  next =>
    intro other
    rw [get?_set, represents.get?, represents.get?, present, FiniteMap.find?_insert]
    simp
  next =>
    have counted : table.live = map.size := represents.size
    rw [HandleTable.size, live_set, FiniteMap.size_insert_of_find?_some (by simp [present]), counted]

theorem Represents.remove (represents : table.Represents map) (handle : Handle) :
    ∃ after, table.remove handle = .ok (map.find? handle, after) ∧
      after.Represents (map.erase handle) := by
  obtain ⟨after, removed, sound, lookup, live⟩ := represents.sound.remove handle
  rw [represents.get?] at removed live
  refine ⟨after, removed, sound, ?_, ?_⟩
  next =>
    intro other
    rw [lookup, FiniteMap.find?_erase, represents.get?]
  next =>
    have counted : table.live = map.size := represents.size
    have erased := map.size_erase handle
    change after.live = (map.erase handle).size
    omega

theorem Represents.step (represents : table.Represents map) (call : Call α)
    (room : (table.step call).2.size ≤ capacity) :
    ∃ next, MapStep map call (table.step call).1 next ∧ (table.step call).2.Represents next := by
  -- The only call that faults is the insertion of an int, and every other one is answered.
  cases call with
  | insert kind value =>
    by_cases tabled : kind = .int
    next =>
      subst tabled
      exact ⟨map, .insertInt map value, represents⟩
    next =>
      obtain ⟨handle, after, stored, inserted⟩ := represents.sound.inserted value tabled
      simp only [HandleTable.step, stored] at room ⊢
      rw [inserted.size] at room
      obtain ⟨unused, represents⟩ := represents.insert inserted room
      exact ⟨_, .insert value tabled (Handle.ne_null_of_kind? inserted.ofKind) inserted.ofKind unused,
        represents⟩
  | get handle =>
    simp only [HandleTable.step, represents.get?]
    exact ⟨map, .get map handle, represents⟩
  | access handle written? =>
    cases written? with
    | none =>
      simp only [HandleTable.step, represents.get?]
      exact ⟨map, .read map handle, represents⟩
    | some written =>
      simp only [HandleTable.step, represents.get?]
      cases present : map.find? handle with
      | none =>
        rw [set_of_get?_none ((represents.get? handle).trans present)]
        exact ⟨map, .miss written present, represents⟩
      | some held => exact ⟨_, .write written present, represents.set present written⟩
  | contains handle =>
    simp only [HandleTable.step, contains_eq, represents.get?]
    exact ⟨map, .contains map handle, represents⟩
  | remove handle =>
    obtain ⟨after, removed, represents⟩ := represents.remove handle
    simp only [HandleTable.step, removed]
    exact ⟨_, .remove map handle, represents⟩
  | size =>
    simp only [HandleTable.step, represents.size]
    exact ⟨map, .size map, represents⟩
  | isEmpty =>
    have counted : table.isEmpty = map.isEmpty := by
      rw [map.isEmpty_eq, ← represents.size]
      rfl
    simp only [HandleTable.step, counted]
    exact ⟨map, .isEmpty map, represents⟩

theorem Represents.run (represents : table.Represents map) (calls : List (Call α))
    (within : table.StaysWithin capacity calls) :
    ∃ last, MapRun map calls (table.run calls).1 last ∧ (table.run calls).2.Represents last := by
  induction calls generalizing table map with
  | nil => exact ⟨map, .done map, represents⟩
  | cons call rest ih =>
    obtain ⟨middle, step, represents⟩ := represents.step call within.2.size_le
    obtain ⟨last, tail, represents⟩ := ih represents within.2
    exact ⟨last, .next step tail, represents⟩

theorem run_refines_finite_map (calls : List (Call α))
    (within : (empty : HandleTable α).StaysWithin capacity calls) :
    ∃ map, MapRun .empty calls (empty.run calls).1 map ∧
      (∀ handle, (empty.run calls).2.get? handle = map.find? handle) ∧
      (∀ handle, (empty.run calls).2.contains handle = map.contains handle) ∧
      (empty.run calls).2.size = map.size := by
  obtain ⟨map, answers, represents⟩ := empty_represents.run calls within
  refine ⟨map, answers, represents.get?, ?_, represents.size⟩
  intro handle
  rw [contains_eq, represents.get?, FiniteMap.contains]

-- A slot changes its kind, its old handle and one with stray index bits are tried.
theorem run_refines_finite_map_reused_slot :
    let calls : List (Call Nat) :=
      [.insert .dict 10, .insert .int 11, .remove ⟨0x0300010000000000⟩, .insert .module 12,
        .get ⟨0x0300010000000000⟩, .access ⟨0x0400030000000000⟩ (some 13),
        .remove ⟨0x0400030100000000⟩, .size]
    let answers : List (Answer Nat) :=
      [.issued ⟨0x0300010000000000⟩, .fault .intNotTableBacked, .value (some 10),
        .issued ⟨0x0400030000000000⟩, .value none, .value (some 12), .value none, .count 1]
    (empty : HandleTable Nat).StaysWithin capacity calls ∧ (empty.run calls).1 = answers ∧
      ∃ map, MapRun .empty calls answers map ∧ map.find? ⟨0x0300010000000000⟩ = none ∧
        map.find? ⟨0x0400030000000000⟩ = some 13 ∧ map.size = 1 := by
  intro calls answers
  have within : (empty : HandleTable Nat).StaysWithin capacity calls := by decide
  have told : (empty.run calls).1 = answers := by decide +kernel
  obtain ⟨map, run, finds, -, size⟩ := run_refines_finite_map calls within
  rw [told] at run
  refine ⟨within, told, map, run, ?_, ?_, ?_⟩
  next => rw [← finds]; decide +kernel
  next => rw [← finds]; decide +kernel
  next => rw [← size]; decide +kernel

end HandleTable

end StateBridge
