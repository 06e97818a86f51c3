import StateBridge.Proofs.Table.Run

set_option autoImplicit false

namespace StateBridge

-- The generations in use are all but zero, so a slot is back at one after this many steps.
def generationPeriod : Nat := 65535

theorem toNat_nextGeneration (generation : UInt16) :
    (nextGeneration generation).toNat = generation.toNat % generationPeriod + 1 := by
  have bound := generation.toNat_lt
  have sum : (generation + 1).toNat = (generation.toNat + 1) % 2 ^ 16 := UInt16.toNat_add _ _
  have zero : generation + 1 = 0 ↔ (generation + 1).toNat = 0 := UInt16.toNat_inj.symm
  unfold nextGeneration generationPeriod
  split
  next wraps =>
    rw [zero, sum] at wraps
    rw [show generation.toNat = 65535 by omega]
    rfl
  next stays =>
    rw [zero, sum] at stays
    rw [sum]
    omega

theorem toNat_iterate_nextGeneration {generation : UInt16} (issued : generation ≠ 0)
    (count : Nat) : (nextGeneration^[count] generation).toNat =
      (generation.toNat - 1 + count) % generationPeriod + 1 := by
  have positive : generation.toNat ≠ 0 := fun zero => issued (UInt16.toNat_inj.1 zero)
  have bound := generation.toNat_lt
  induction count with
  | zero =>
    simp only [Function.iterate_zero, id_eq, generationPeriod]
    omega
  | succ count ih =>
    rw [Function.iterate_succ_apply', toNat_nextGeneration, ih]
    simp only [generationPeriod]
    omega

theorem iterate_nextGeneration_eq_self_iff {generation : UInt16} (issued : generation ≠ 0)
    (count : Nat) : nextGeneration^[count] generation = generation ↔ generationPeriod ∣ count := by
  have positive : generation.toNat ≠ 0 := fun zero => issued (UInt16.toNat_inj.1 zero)
  have bound := generation.toNat_lt
  have value := toNat_iterate_nextGeneration issued count
  generalize nextGeneration^[count] generation = reached at value ⊢
  rw [Nat.dvd_iff_mod_eq_zero, ← UInt16.toNat_inj, value]
  unfold generationPeriod
  omega

-- A slot moves on twice for each issue, but twice is as good as once: the period is odd.
theorem period_dvd_two_mul_iff (count : Nat) :
    generationPeriod ∣ 2 * count ↔ generationPeriod ∣ count :=
  Nat.Coprime.dvd_mul_left (by decide)

namespace HandleTable

variable {α : Type} {table : HandleTable α}

def Reuses (table : HandleTable α) (index : UInt32) : Call α → Prop
  | .insert kind _ => kind ≠ .int ∧ table.free.head? = some index
  | _ => False

instance decidableReuses (table : HandleTable α) (index : UInt32) :
    (call : Call α) → Decidable (table.Reuses index call)
  | .insert _ _ => inferInstanceAs (Decidable (_ ∧ _))
  | .get _ | .access _ _ | .contains _ | .remove _ | .size | .isEmpty =>
    inferInstanceAs (Decidable False)

def reuses (index : UInt32) : HandleTable α → List (Call α) → Nat
  | _, [] => 0
  | table, call :: rest =>
    (if table.Reuses index call then 1 else 0) + reuses index (table.step call).2 rest

-- The generation has moved on twice for each reuse, and once more if the slot is free again.
structure AgedSlot (table : HandleTable α) (key : TableKey) (count : Nat) (slot : Slot α) : Prop where
  found : table.slots[key.index.toNat]? = some slot
  generation : slot.generation =
    nextGeneration^[2 * count + if slot.value?.isSome then 0 else 1] key.generation
  reused : slot.value?.isSome → 0 < count

def Aged (table : HandleTable α) (key : TableKey) (count : Nat) : Prop :=
  ∃ slot, table.AgedSlot key count slot

theorem Holds.aged_vacate {key : TableKey} {value : α} (holds : table.Holds key value) :
    (table.vacate key).Aged key 0 := by
  refine ⟨⟨none, key.kind, nextGeneration key.generation⟩, ?_, rfl, by simp⟩
  rw [Holds] at holds
  simp [vacate, Array.getElem?_modify, holds]

theorem Aged.of_slot_eq {after : HandleTable α} {key : TableKey} {count : Nat}
    (aged : table.Aged key count)
    (same : after.slots[key.index.toNat]? = table.slots[key.index.toNat]?) :
    after.Aged key count := by
  -- Another slot at the same index does not matter as long as it is this table's slot.
  obtain ⟨slot, found, generation, reused⟩ := aged
  exact ⟨slot, same.trans found, generation, reused⟩

theorem Aged.insert (sound : table.Sound) {key : TableKey} {count : Nat}
    (aged : table.Aged key count) {kind : HandleKind} {value : α} {handle : Handle}
    {after : HandleTable α} (stored : table.insert kind value = .ok (handle, after)) :
    after.Aged key (count + if table.free.head? = some key.index then 1 else 0) := by
  obtain ⟨-, new, rfl, rfl, ⟨free, slot, inside, top, here, next, rfl⟩ | ⟨full, -, -, rfl⟩⟩ :=
    insert_cases stored
  next =>
    simp only [top, List.head?_cons, Option.some.injEq]
    by_cases same : new.index = key.index
    next =>
      rw [if_pos same]
      obtain ⟨old, found, generation, -⟩ := aged
      obtain ⟨empty, there, vacant⟩ := sound.free_slot (top ▸ List.mem_cons_self)
      rw [same, found] at there
      cases there
      have old' : slot = old := by
        rw [← same, Array.getElem?_eq_getElem inside, here] at found
        exact Option.some.inj found
      refine ⟨⟨some value, new.kind, new.generation⟩, ?_, ?_, fun _ => Nat.succ_pos count⟩
      next => simp [same, same ▸ inside]
      next =>
        rw [vacant] at generation
        simp only [Option.isSome_none, Bool.false_eq_true, if_false] at generation
        rw [next, old', generation, ← Function.iterate_succ_apply' nextGeneration]
        rfl
    next =>
      rw [if_neg same]
      apply aged.of_slot_eq
      exact Array.getElem?_set_ne inside (mt UInt32.toNat_inj.1 same)
  next =>
    rw [full, List.head?_nil, if_neg (by simp)]
    apply aged.of_slot_eq
    obtain ⟨old, found, -⟩ := aged
    have inside := (Array.getElem?_eq_some_iff.1 found).1
    rw [Array.getElem?_push, if_neg inside.ne]

theorem Aged.vacate {key other : TableKey} {count : Nat} (aged : table.Aged key count) {value : α}
    (holds : table.Holds other value) : (table.vacate other).Aged key count := by
  by_cases same : other.index = key.index
  next =>
    obtain ⟨old, found, generation, -⟩ := aged
    rw [Holds, same, found] at holds
    cases holds
    refine ⟨⟨none, other.kind, nextGeneration other.generation⟩, ?_, ?_, by simp⟩
    next => simp [HandleTable.vacate, Array.getElem?_modify, same, found]
    next =>
      simp only [Option.isSome_some, if_true, Nat.add_zero] at generation
      rw [generation, ← Function.iterate_succ_apply' nextGeneration]
      rfl
  next =>
    apply aged.of_slot_eq
    simp [HandleTable.vacate, Array.getElem?_modify, mt UInt32.toNat_inj.1 same]

theorem Aged.set {key : TableKey} {count : Nat} (aged : table.Aged key count) (handle : Handle)
    (value : α) : (table.set handle value).Aged key count := by
  cases present : table.get? handle with
  | none => rwa [set_of_get?_none present]
  | some held =>
    obtain ⟨other, decoded, holds⟩ := get?_eq_some_iff.1 present
    rw [set_of_holds decoded holds]
    by_cases same : other.index = key.index
    next =>
      obtain ⟨old, found, generation, reused⟩ := aged
      rw [Holds, same, found] at holds
      cases holds
      refine ⟨⟨some value, other.kind, other.generation⟩, ?_, generation, reused⟩
      simp [Array.getElem?_modify, same, found]
    next =>
      apply aged.of_slot_eq
      simp [Array.getElem?_modify, mt UInt32.toNat_inj.1 same]

theorem Aged.step (sound : table.Sound) {key : TableKey} {count : Nat}
    (aged : table.Aged key count) (call : Call α) :
    (table.step call).2.Aged key (count + if table.Reuses key.index call then 1 else 0) := by
  cases call with
  | insert kind value =>
    by_cases tabled : kind = .int
    next => simpa [HandleTable.step, HandleTable.insert, Reuses, tabled] using aged
    next =>
      obtain ⟨handle, after, stored⟩ := sound.insert_ok value tabled
      simpa [HandleTable.step, stored, Reuses, tabled] using aged.insert sound stored
  | access handle written? =>
    cases written? with
    | none => exact aged
    | some written => exact aged.set handle written
  | remove handle =>
    obtain ⟨after, removed, -⟩ := sound.remove handle
    simp only [HandleTable.step, removed, Reuses]
    obtain ⟨-, -, rfl⟩ | ⟨other, value, -, holds, -, rfl⟩ := remove_cases removed
    next => exact aged
    next => exact aged.vacate holds
  | get | contains | size | isEmpty => exact aged

theorem Aged.run (sound : table.Sound) {key : TableKey} {count : Nat} (aged : table.Aged key count)
    (calls : List (Call α)) :
    (table.run calls).2.Aged key (count + table.reuses key.index calls) := by
  induction calls generalizing table count with
  | nil => exact aged
  | cons call rest ih =>
    have tail := ih (sound.step call) (aged.step sound call)
    rwa [Nat.add_assoc] at tail

def Revives (handle : Handle) : Call α → Answer α → Prop
  | .insert _ _, .issued issued => issued = handle
  | .get asked, .value value? => asked = handle ∧ value?.isSome
  | .access asked _, .value value? => asked = handle ∧ value?.isSome
  | .contains asked, .flag found => asked = handle ∧ found = true
  | .remove asked, .value value? => asked = handle ∧ value?.isSome
  | _, _ => False

def Revived (table : HandleTable α) (key : TableKey) (count : Nat) : Prop :=
  0 < count ∧ generationPeriod ∣ count ∧
    ∃ slot, table.slots[key.index.toNat]? = some slot ∧ slot.value?.isSome ∧ slot.kind = key.kind

-- The last generation of a period is about to be reused, or a position that the index is too narrow for.
def Reissues (table : HandleTable α) (key : TableKey) (count : Nat) : Prop :=
  (table.free.head? = some key.index ∧ generationPeriod ∣ count + 1) ∨
    (table.free = [] ∧ key.generation = 1 ∧ table.slots.size.toUInt32 = key.index)

def RevivedBy (table : HandleTable α) (key : TableKey) (count : Nat) : Call α → Prop
  | .insert kind _ => kind = key.kind ∧ table.Reissues key count
  | .get asked | .access asked _ | .contains asked | .remove asked =>
    asked = key.handle ∧ table.Revived key count
  | .size | .isEmpty => False

theorem Aged.get?_isSome_iff {key : TableKey} {count : Nat} (aged : table.Aged key count)
    (tabled : key.kind ≠ .int) (issued : key.generation ≠ 0) :
    (table.get? key.handle).isSome ↔ table.Revived key count := by
  obtain ⟨slot, found, generation, reused⟩ := aged
  simp only [Option.isSome_iff_exists, get?_handle tabled issued, Holds, Revived, found,
    Option.some.injEq, exists_eq_left']
  constructor
  next =>
    rintro ⟨value, rfl⟩
    refine ⟨reused rfl, ?_, ⟨value, rfl⟩, rfl⟩
    rw [← period_dvd_two_mul_iff, ← iterate_nextGeneration_eq_self_iff issued]
    exact generation.symm
  next =>
    rintro ⟨-, wrapped, ⟨value, filled⟩, sameKind⟩
    refine ⟨value, ?_⟩
    rw [filled, Option.isSome_some, if_pos rfl, Nat.add_zero,
      (iterate_nextGeneration_eq_self_iff issued _).2 ((period_dvd_two_mul_iff _).2 wrapped)] at generation
    cases slot
    simp_all

theorem Aged.insert_eq_iff (sound : table.Sound) {key : TableKey} {count : Nat}
    (aged : table.Aged key count) (issued : key.generation ≠ 0) {kind : HandleKind} {value : α}
    {handle : Handle} {after : HandleTable α} (stored : table.insert kind value = .ok (handle, after)) :
    handle = key.handle ↔ kind = key.kind ∧ table.Reissues key count := by
  obtain ⟨-, new, rfl, rfl, ⟨free, slot, inside, top, here, next, -⟩ | ⟨full, index, first, -⟩⟩ :=
    insert_cases stored
  next =>
    have wraps : new.index = key.index →
        (new.generation = key.generation ↔ generationPeriod ∣ count + 1) := by
      intro same
      obtain ⟨old, found, generation, -⟩ := aged
      obtain ⟨empty, there, vacant⟩ := sound.free_slot (top ▸ List.mem_cons_self)
      rw [← same] at found
      rw [Array.getElem?_eq_getElem inside, here] at there found
      cases there
      cases found
      rw [vacant] at generation
      rw [next, generation, ← period_dvd_two_mul_iff, ← iterate_nextGeneration_eq_self_iff issued,
        ← Function.iterate_succ_apply' nextGeneration]
      rfl
    simp only [Reissues, top, List.head?_cons, Option.some.injEq, reduceCtorEq, false_and, or_false]
    constructor
    next =>
      intro same
      cases TableKey.handle_injective same
      exact ⟨rfl, rfl, (wraps rfl).1 rfl⟩
    next =>
      rintro ⟨sameKind, sameIndex, wrapped⟩
      have sameGeneration := (wraps sameIndex).2 wrapped
      cases new
      cases key
      simp_all
  next =>
    simp only [Reissues, full, List.head?_nil, reduceCtorEq, false_and, false_or, true_and]
    constructor
    next =>
      intro same
      cases TableKey.handle_injective same
      exact ⟨rfl, first, index.symm⟩
    next =>
      rintro ⟨sameKind, sameGeneration, sameIndex⟩
      cases new
      cases key
      simp_all

theorem Aged.revives_iff (sound : table.Sound) {key : TableKey} {count : Nat}
    (aged : table.Aged key count) (tabled : key.kind ≠ .int) (issued : key.generation ≠ 0)
    (call : Call α) :
    Revives key.handle call (table.step call).1 ↔ table.RevivedBy key count call := by
  have asks (asked : Handle) : (asked = key.handle ∧ (table.get? asked).isSome) ↔
      asked = key.handle ∧ table.Revived key count := by
    rw [and_congr_right_iff]
    rintro rfl
    exact aged.get?_isSome_iff tabled issued
  cases call with
  | insert kind value =>
    by_cases int : kind = .int
    next =>
      subst int
      simp [HandleTable.step, HandleTable.insert, Revives, RevivedBy, tabled.symm]
    next =>
      obtain ⟨handle, after, stored⟩ := sound.insert_ok value int
      simp only [HandleTable.step, stored, Revives, RevivedBy]
      exact aged.insert_eq_iff sound issued stored
  | get asked => exact asks asked
  | access asked written? => cases written? <;> exact asks asked
  | contains asked =>
    rw [HandleTable.step, contains_eq]
    exact asks asked
  | remove asked =>
    obtain ⟨after, removed, -⟩ := sound.remove asked
    rw [HandleTable.step, removed]
    exact asks asked
  | size | isEmpty => exact Iff.rfl

-- A removed handle is dead only as long as its slot has not been reused a whole number of periods.
theorem removed_handle_revives_iff (before later : List (Call α)) (handle : Handle) (value : α)
    (gone : HandleTable α) (removed : (empty.run before).2.remove handle = .ok (some value, gone)) :
    ∃ key, TableKey.decode? handle = some key ∧ ∀ call,
      Revives handle call ((gone.run later).2.step call).1 ↔
        (gone.run later).2.RevivedBy key (gone.reuses key.index later) call := by
  have sound := empty_sound.run before
  obtain ⟨-, missing, -⟩ | ⟨key, held, decoded, holds, -, rfl⟩ := remove_cases removed
  next => cases missing
  next =>
    obtain ⟨rfl, tabled, issued⟩ := TableKey.handle_of_decode? decoded
    refine ⟨key, decoded, ?_⟩
    intro call
    have aged := holds.aged_vacate.run (sound.vacate holds) later
    rw [Nat.zero_add] at aged
    exact aged.revives_iff ((sound.vacate holds).run later) tabled issued call

def idle (kind : HandleKind) (generation : UInt16) : HandleTable α :=
  ⟨#[⟨none, kind, generation⟩], [0], 0⟩

def busy (kind : HandleKind) (generation : UInt16) (value : α) : HandleTable α :=
  ⟨#[⟨some value, kind, generation⟩], [], 1⟩

theorem insert_idle {kind : HandleKind} (tabled : kind ≠ .int) (generation : UInt16) (value : α) :
    (idle kind generation).insert kind value =
      .ok (TableKey.handle ⟨kind, 0, nextGeneration generation⟩,
        busy kind (nextGeneration generation) value) := by
  simp [insert, idle, busy, tabled, TableKey.encode_eq]

theorem get?_busy {kind : HandleKind} (tabled : kind ≠ .int) {generation : UInt16}
    (issued : generation ≠ 0) (value : α) :
    (busy kind generation value).get? (TableKey.handle ⟨kind, 0, generation⟩) = some value :=
  (get?_handle tabled issued).2 rfl

theorem remove_busy {kind : HandleKind} (tabled : kind ≠ .int) {generation : UInt16}
    (issued : generation ≠ 0) (value : α) :
    (busy kind generation value).remove (TableKey.handle ⟨kind, 0, generation⟩) =
      .ok (some value, idle kind (nextGeneration generation)) := by
  have holds : (busy kind generation value).Holds ⟨kind, 0, generation⟩ value := rfl
  rw [remove_of_holds (TableKey.decode?_handle tabled issued) holds, if_neg (by simp [busy])]
  simp [vacate, idle, busy]

theorem removed_handle_revives_iff_once :
    let handle : Handle := TableKey.handle ⟨.object, 0, 1⟩
    let gone : HandleTable Nat := idle .object 2
    let later : List (Call Nat) := [.insert .object 2]
    (empty.run [.insert .object 1]).2.remove handle = .ok (some 1, gone) ∧ gone.reuses 0 later = 1 ∧
      ∀ call, ¬ Revives handle call ((gone.run later).2.step call).1 := by
  intro handle gone later
  have removed : (empty.run [.insert .object 1]).2.remove handle = .ok (some 1, gone) :=
    remove_busy (by decide) (by decide) 1
  have once : gone.reuses 0 later = 1 := by decide +kernel
  obtain ⟨key, decoded, revives⟩ := removed_handle_revives_iff _ later handle 1 gone removed
  obtain rfl : key = ⟨.object, 0, 1⟩ := Option.some.inj (decoded.symm.trans (by decide +kernel))
  refine ⟨removed, once, ?_⟩
  intro call revived
  have short : ¬ generationPeriod ∣ 1 ∧ ¬ generationPeriod ∣ 1 + 1 := by decide
  have again := (revives call).1 revived
  rw [once] at again
  cases call with
  | insert kind value =>
    rcases again.2 with ⟨-, wraps⟩ | ⟨-, -, position⟩
    next => exact short.2 wraps
    next => revert position; decide +kernel
  | get | access | contains | remove => exact short.1 again.2.2.1
  | size | isEmpty => exact again

def churn (kind : HandleKind) (value : α) : Nat → UInt16 → List (Call α)
  | 0, _ => []
  | count + 1, generation =>
    .insert kind value :: .remove (TableKey.handle ⟨kind, 0, nextGeneration generation⟩) ::
      churn kind value count (nextGeneration (nextGeneration generation))

theorem run_insert_remove {middle after : HandleTable α} {kind : HandleKind} {value : α}
    {value? : Option α} {handle : Handle} (stored : table.insert kind value = .ok (handle, middle))
    (removed : middle.remove handle = .ok (value?, after)) (rest : List (Call α)) :
    (table.run (.insert kind value :: .remove handle :: rest)).2 = (after.run rest).2 := by
  simp [run, step, stored, removed]

theorem run_churn {kind : HandleKind} (tabled : kind ≠ .int) (value : α) (count : Nat)
    (generation : UInt16) : ((idle kind generation).run (churn kind value count generation)).2 =
      idle kind (nextGeneration^[2 * count] generation) := by
  induction count generalizing generation with
  | zero => rfl
  | succ count ih =>
    have emptied := remove_busy tabled (nextGeneration_ne_zero generation) value
    rw [churn, run_insert_remove (insert_idle tabled generation value) emptied, ih, Nat.mul_succ,
      Function.iterate_succ_apply, Function.iterate_succ_apply]

theorem get?_after_churn {kind : HandleKind} (tabled : kind ≠ .int) {generation : UInt16}
    (issued : generation ≠ 0) {count : Nat} (wraps : generationPeriod ∣ count + 1) (old new : α) :
    ((idle kind (nextGeneration generation)).run
      (churn kind old count (nextGeneration generation) ++ [.insert kind new])).2.get?
        (TableKey.handle ⟨kind, 0, generation⟩) = some new := by
  have back : nextGeneration (nextGeneration^[2 * count] (nextGeneration generation)) = generation := by
    rw [← Function.iterate_succ_apply nextGeneration,
      ← Function.iterate_succ_apply' nextGeneration, iterate_nextGeneration_eq_self_iff issued]
    exact (period_dvd_two_mul_iff (count + 1)).2 wraps
  simp only [run_append, run_churn tabled, run, step, insert_idle tabled, back]
  exact get?_busy tabled issued new

-- A stale handle reads a stranger's value once its slot was filled 65535 times more.
theorem removed_handle_finds_later_value :
    let handle : Handle := TableKey.handle ⟨.object, 0, 1⟩
    let later : List (Call Nat) := churn .object 2 65534 2 ++ [.insert .object 3]
    ∃ gone, (empty.run [.insert .object 1]).2.remove handle = .ok (some 1, gone) ∧
      (gone.run later).2.get? handle = some 3 := by
  have found := @get?_after_churn Nat .object (by decide) 1 (by decide) 65534 ⟨1, rfl⟩ 2 3
  rw [show nextGeneration 1 = 2 by decide] at found
  exact ⟨idle .object 2, remove_busy (by decide) (by decide) 1, found⟩

end HandleTable

end StateBridge
