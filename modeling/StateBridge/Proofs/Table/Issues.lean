import StateBridge.Proofs.Table.Staleness

set_option autoImplicit false

namespace StateBridge

-- Between two issues a slot moves on twice: once when it is emptied, once when it is filled again.
def issueGeneration (position : Nat) : UInt16 := nextGeneration^[2 * position] 1

theorem toNat_issueGeneration (position : Nat) :
    (issueGeneration position).toNat = 2 * position % generationPeriod + 1 := by
  have issued : (1 : UInt16) ≠ 0 := by decide
  rw [issueGeneration, toNat_iterate_nextGeneration issued,
    show (1 : UInt16).toNat - 1 = 0 from rfl, Nat.zero_add]

theorem issueGeneration_succ (position : Nat) :
    issueGeneration (position + 1) = nextGeneration (nextGeneration (issueGeneration position)) := by
  simp only [issueGeneration, Nat.mul_succ, Function.iterate_succ_apply']

theorem issueGeneration_eq_iff {first second : Nat} (order : first ≤ second) :
    issueGeneration first = issueGeneration second ↔ generationPeriod ∣ second - first := by
  have doubled : 2 * first ≤ 2 * second := Nat.mul_le_mul_left 2 order
  rw [← period_dvd_two_mul_iff, Nat.mul_sub, ← Nat.modEq_iff_dvd' doubled, ← UInt16.toNat_inj,
    toNat_issueGeneration, toNat_issueGeneration, Nat.add_right_cancel_iff]
  rfl

namespace HandleTable

variable {α : Type} {table : HandleTable α} {index : UInt32}

def issueOf? (index : UInt32) : Answer α → Option TableKey
  | .issued handle => (TableKey.decode? handle).filter fun key => key.index = index
  | _ => none

def issuesAmong (index : UInt32) (answers : List (Answer α)) : List TableKey :=
  answers.filterMap (issueOf? index)

def issues (index : UInt32) (calls : List (Call α)) : List TableKey :=
  issuesAmong index (empty.run calls).1

@[simp] theorem issuesAmong_nil : issuesAmong index ([] : List (Answer α)) = [] := rfl

@[simp] theorem issuesAmong_cons (answer : Answer α) (rest : List (Answer α)) :
    issuesAmong index (answer :: rest) =
      (issueOf? index answer).toList ++ issuesAmong index rest := by
  cases found : issueOf? index answer <;> simp [issuesAmong, found]

theorem run_append_answers (table : HandleTable α) (first second : List (Call α)) :
    (table.run (first ++ second)).1 = (table.run first).1 ++ ((table.run first).2.run second).1 := by
  induction first generalizing table with
  | nil => rfl
  | cons call rest ih => exact congrArg _ (ih _)

theorem mem_issuesAmong {answers : List (Answer α)} {key : TableKey}
    (member : key ∈ issuesAmong index answers) :
    key.index = index ∧ key.kind ≠ .int ∧ key.generation ≠ 0 := by
  obtain ⟨answer, -, found⟩ := List.mem_filterMap.1 member
  cases answer with
  | issued handle =>
    obtain ⟨decoded, here⟩ := Option.filter_eq_some_iff.1 found
    obtain ⟨-, tabled, issued⟩ := TableKey.handle_of_decode? decoded
    exact ⟨by simpa using here, tabled, issued⟩
  | value | flag | count | fault => cases found

theorem issueOf?_handle {key : TableKey} (tabled : key.kind ≠ .int) (issued : key.generation ≠ 0) :
    issueOf? index (.issued key.handle : Answer α) = if key.index = index then some key else none := by
  simp [issueOf?, TableKey.decode?_handle tabled issued, Option.filter_some]

inductive SlotChange : Option (Slot α) → Option TableKey → Option (Slot α) → Prop
  | keeps (slot? : Option (Slot α)) : SlotChange slot? none slot?
  | opens {key : TableKey} (value : α) (first : key.generation = 1) :
    SlotChange none (some key) (some ⟨some value, key.kind, key.generation⟩)
  | refills {key : TableKey} (value : α) (kind : HandleKind) {generation : UInt16}
    (next : key.generation = nextGeneration generation) :
    SlotChange (some ⟨none, kind, generation⟩) (some key) (some ⟨some value, key.kind, key.generation⟩)
  | empties (value : α) (kind : HandleKind) (generation : UInt16) :
    SlotChange (some ⟨some value, kind, generation⟩) none
      (some ⟨none, kind, nextGeneration generation⟩)
  | rewrites (value written : α) (kind : HandleKind) (generation : UInt16) :
    SlotChange (some ⟨some value, kind, generation⟩) none (some ⟨some written, kind, generation⟩)

theorem Sound.slotChange_insert (sound : table.Sound) {kind : HandleKind} {value : α}
    {handle : Handle} {after : HandleTable α} (stored : table.insert kind value = .ok (handle, after))
    (fits : after.slots.size ≤ capacity) (index : UInt32) :
    SlotChange table.slots[index.toNat]? (issueOf? index (.issued handle : Answer α))
      after.slots[index.toNat]? := by
  obtain ⟨tabled, key, rfl, rfl, ⟨free, slot, inside, top, here, next, rfl⟩ |
    ⟨full, last, first, rfl⟩⟩ := insert_cases stored
  next =>
    rw [issueOf?_handle tabled (next ▸ nextGeneration_ne_zero _)]
    obtain ⟨empty, there, vacant⟩ := sound.free_slot (top ▸ List.mem_cons_self)
    split
    next same =>
      subst same
      rw [there, Array.getElem?_set_self inside]
      rw [Array.getElem?_eq_getElem inside, here, Option.some.injEq] at there
      subst there
      cases slot
      cases vacant
      exact .refills value _ next
    next differ =>
      rw [Array.getElem?_set_ne inside (mt UInt32.toNat_inj.1 differ)]
      exact .keeps _
  next =>
    rw [issueOf?_handle tabled (by simp [first])]
    rw [Array.size_push] at fits
    -- With room left the index is the position of the new slot, and not one cut to its width.
    have place : key.index.toNat = table.slots.size := by rw [last, toNat_toUInt32 fits]
    split
    next same =>
      subst same
      rw [place, Array.getElem?_push_size, Array.getElem?_eq_none le_rfl]
      exact .opens value first
    next differ =>
      rw [Array.getElem?_push, if_neg (place ▸ mt UInt32.toNat_inj.1 (Ne.symm differ))]
      exact .keeps _

theorem Holds.slotChange_vacate {key : TableKey} {value : α} (holds : table.Holds key value)
    (index : UInt32) :
    SlotChange table.slots[index.toNat]? none (table.vacate key).slots[index.toNat]? := by
  simp only [HandleTable.vacate, Array.getElem?_modify]
  split
  next same =>
    rw [Holds, same] at holds
    rw [holds]
    exact .empties value key.kind key.generation
  next => exact .keeps _

theorem slotChange_set (handle : Handle) (written : α) (index : UInt32) :
    SlotChange table.slots[index.toNat]? none (table.set handle written).slots[index.toNat]? := by
  cases found : table.get? handle with
  | none =>
    rw [set_of_get?_none found]
    exact .keeps _
  | some value =>
    obtain ⟨key, decoded, holds⟩ := get?_eq_some_iff.1 found
    rw [set_of_holds decoded holds, Array.getElem?_modify]
    split
    next same =>
      rw [Holds, same] at holds
      rw [holds]
      exact .rewrites value written key.kind key.generation
    next => exact .keeps _

theorem Sound.slotChange_step (sound : table.Sound) (call : Call α)
    (fits : (table.step call).2.slots.size ≤ capacity) (index : UInt32) :
    SlotChange table.slots[index.toNat]? (issueOf? index (table.step call).1)
      (table.step call).2.slots[index.toNat]? := by
  cases call with
  | insert kind value =>
    cases stored : table.insert kind value with
    | error fault =>
      simp only [HandleTable.step, stored]
      exact .keeps _
    | ok result =>
      simp only [HandleTable.step, stored] at fits ⊢
      exact sound.slotChange_insert stored fits index
  | access handle written? =>
    cases written? with
    | none => exact .keeps _
    | some written => exact slotChange_set handle written index
  | remove handle =>
    obtain ⟨after, removed, -⟩ := sound.remove handle
    simp only [HandleTable.step, removed]
    obtain ⟨-, -, rfl⟩ | ⟨key, value, -, holds, -, rfl⟩ := remove_cases removed
    next => exact .keeps _
    next => exact holds.slotChange_vacate index
  | get | contains | size | isEmpty => exact .keeps _

theorem size_le_step (table : HandleTable α) (call : Call α) :
    table.slots.size ≤ (table.step call).2.slots.size := by
  cases call with
  | insert kind value =>
    cases stored : table.insert kind value with
    | error fault => simp [step, stored]
    | ok result =>
      obtain ⟨handle, after⟩ := result
      simp only [step, stored]
      obtain ⟨-, key, -, -, ⟨free, slot, inside, -, -, -, rfl⟩ | ⟨-, -, -, rfl⟩⟩ := insert_cases stored
      next => simp
      next => simp
  | access handle written? =>
    cases written? with
    | none => exact le_rfl
    | some written =>
      simp only [step, set]
      split <;> simp
  | remove handle =>
    cases removed : table.remove handle with
    | error fault => simp [step, removed]
    | ok result =>
      obtain ⟨value?, after⟩ := result
      simp only [step, removed]
      obtain ⟨-, -, rfl⟩ | ⟨key, value, -, -, -, rfl⟩ := remove_cases removed
      next => exact le_rfl
      next => simp [vacate]
  | get | contains | size | isEmpty => exact le_rfl

theorem size_le_run (table : HandleTable α) (calls : List (Call α)) :
    table.slots.size ≤ (table.run calls).2.slots.size := by
  induction calls generalizing table with
  | nil => exact le_rfl
  | cons call rest ih => exact (table.size_le_step call).trans (ih _)

theorem Sound.along_run {relates : Option (Slot α) → List TableKey → Prop}
    (kept : ∀ {slot? issue? after? issues}, SlotChange slot? issue? after? → relates slot? issues →
      relates after? (issues ++ issue?.toList))
    (sound : table.Sound) {issues : List TableKey} (start : relates table.slots[index.toNat]? issues)
    (calls : List (Call α)) (fits : (table.run calls).2.slots.size ≤ capacity) :
    relates (table.run calls).2.slots[index.toNat]?
      (issues ++ issuesAmong index (table.run calls).1) := by
  induction calls generalizing table issues with
  | nil => simpa [HandleTable.run] using start
  | cons call rest ih =>
    have change := sound.slotChange_step call ((size_le_run _ rest).trans fits) index
    have tail := ih (sound.step call) (kept change start) fits
    rw [List.append_assoc] at tail
    simpa [HandleTable.run] using tail

-- The slot is the last issue's, or has moved on from it when it is empty.
structure Recounts (slot? : Option (Slot α)) (issues : List TableKey) : Prop where
  generations : issues.map (·.generation) = (List.range issues.length).map issueGeneration
  unopened : slot? = none → issues = []
  last : ∀ slot, slot? = some slot → ∃ earlier key, issues = earlier ++ [key] ∧
    (slot.value?.isSome → slot.kind = key.kind) ∧
    slot.generation = if slot.value?.isSome then key.generation else nextGeneration key.generation

theorem Recounts.generation {slot? : Option (Slot α)} {issues : List TableKey}
    (recounts : Recounts slot? issues) {position : Nat} {key : TableKey}
    (listed : issues[position]? = some key) : key.generation = issueGeneration position := by
  obtain ⟨inside, rfl⟩ := List.getElem?_eq_some_iff.1 listed
  have same := congrArg (·[position]?) recounts.generations
  simpa [inside] using same

theorem Recounts.add {slot? : Option (Slot α)} {issues : List TableKey}
    (recounts : Recounts slot? issues) {key : TableKey}
    (next : key.generation = issueGeneration issues.length) (value : α) :
    Recounts (some ⟨some value, key.kind, key.generation⟩) (issues ++ [key]) := by
  constructor
  next => simp [recounts.generations, List.range_succ, next]
  next => nofun
  next =>
    rintro slot ⟨⟩
    exact ⟨issues, key, rfl, fun _ => rfl, rfl⟩

theorem Recounts.change {slot? after? : Option (Slot α)} {issue? : Option TableKey}
    {issues : List TableKey} (change : SlotChange slot? issue? after?)
    (recounts : Recounts slot? issues) : Recounts after? (issues ++ issue?.toList) := by
  cases change with
  | keeps => simpa using recounts
  | opens value first =>
    obtain rfl := recounts.unopened rfl
    exact recounts.add first value
  | refills value kind next =>
    obtain ⟨earlier, key, rfl, -, generation⟩ := recounts.last _ rfl
    have latest : key.generation = issueGeneration earlier.length :=
      recounts.generation List.getElem?_concat_length
    apply recounts.add
    rw [next, List.length_append, List.length_singleton, issueGeneration_succ, ← latest]
    exact congrArg nextGeneration generation
  | empties value kind generation =>
    obtain ⟨earlier, key, listed, -, same⟩ := recounts.last _ rfl
    rw [Option.toList_none, List.append_nil]
    refine ⟨recounts.generations, nofun, ?_⟩
    rintro slot ⟨⟩
    exact ⟨earlier, key, listed, nofun, congrArg nextGeneration same⟩
  | rewrites value written kind generation =>
    rw [Option.toList_none, List.append_nil]
    refine ⟨recounts.generations, nofun, ?_⟩
    rintro slot ⟨⟩
    exact recounts.last ⟨some value, kind, generation⟩ rfl

theorem recounts_issues (calls : List (Call α)) (fits : (empty.run calls).2.slots.size ≤ capacity)
    (index : UInt32) : Recounts (empty.run calls).2.slots[index.toNat]? (issues index calls) := by
  have unused : Recounts (empty : HandleTable α).slots[index.toNat]? [] := ⟨rfl, fun _ => rfl, nofun⟩
  have recounts := empty_sound.along_run Recounts.change unused calls fits
  rwa [List.nil_append] at recounts

def Passed (position : Nat) (slot? : Option (Slot α)) (issues : List TableKey) : Prop :=
  position < issues.length ∧
    ∀ slot, slot? = some slot → slot.value?.isSome → position + 1 < issues.length

theorem Passed.change {position : Nat} {slot? after? : Option (Slot α)} {issue? : Option TableKey}
    {issues : List TableKey} (change : SlotChange slot? issue? after?)
    (passed : Passed position slot? issues) : Passed position after? (issues ++ issue?.toList) := by
  obtain ⟨listed, filled⟩ := passed
  cases change with
  | keeps => simpa using ⟨listed, filled⟩
  | opens value first =>
    simp [Passed]
    omega
  | refills value kind next =>
    simp [Passed]
    omega
  | empties value kind generation => simpa [Passed] using listed
  | rewrites value written kind generation =>
    have later := filled _ rfl rfl
    simpa [Passed] using ⟨listed, later⟩

def RemovedIn (calls : List (Call α)) (index : UInt32) (position : Nat) (key : TableKey) : Prop :=
  ∃ earlier later value, calls = earlier ++ .remove key.handle :: later ∧
    (issues index earlier)[position]? = some key ∧
    ((empty.run earlier).2.step (.remove key.handle)).1 = .value (some value)

def OccupiedBy (calls : List (Call α)) (index : UInt32) (position : Nat) (key : TableKey) : Prop :=
  (issues index calls)[position]? = some key ∧ position + 1 = (issues index calls).length ∧
    ∃ slot, (empty.run calls).2.slots[index.toNat]? = some slot ∧ slot.value?.isSome

theorem issues_append (index : UInt32) (earlier later : List (Call α)) :
    issues index (earlier ++ later) =
      issues index earlier ++ issuesAmong index ((empty.run earlier).2.run later).1 := by
  rw [issues, run_append_answers, issuesAmong, List.filterMap_append]
  rfl

theorem Sound.removed (sound : table.Sound) {handle : Handle} {key : TableKey} {value : α}
    (decoded : TableKey.decode? handle = some key)
    (answered : (table.step (.remove handle)).1 = .value (some value)) :
    table.Holds key value ∧ table.step (.remove handle) = (.value (some value), table.vacate key) := by
  obtain ⟨after, taken, -⟩ := sound.remove handle
  simp only [HandleTable.step, taken, Answer.value.injEq] at answered ⊢
  rw [answered] at taken ⊢
  obtain ⟨-, missing, -⟩ | ⟨other, held, found, holds, same, rfl⟩ := remove_cases taken
  next => cases missing
  next =>
    rw [decoded] at found
    cases found
    cases same
    exact ⟨holds, rfl⟩

theorem RemovedIn.passed {calls : List (Call α)} {position : Nat} {key : TableKey}
    (removed : RemovedIn calls index position key)
    (fits : (empty.run calls).2.slots.size ≤ capacity) :
    Passed position (empty.run calls).2.slots[index.toNat]? (issues index calls) := by
  obtain ⟨earlier, later, value, rfl, listed, answered⟩ := removed
  obtain ⟨rfl, tabled, issued⟩ := mem_issuesAmong (List.mem_of_getElem? listed)
  have sound := empty_sound.run earlier
  obtain ⟨holds, taken⟩ := sound.removed (TableKey.decode?_handle tabled issued) answered
  have emptied : Passed position ((empty.run earlier).2.vacate key).slots[key.index.toNat]?
      (issues key.index earlier) := by
    refine ⟨(List.getElem?_eq_some_iff.1 listed).1, ?_⟩
    rw [Holds] at holds
    simp [vacate, Array.getElem?_modify, holds]
  rw [run_append, run, taken] at fits ⊢
  rw [issues_append, run, taken, issuesAmong_cons]
  exact (sound.vacate holds).along_run Passed.change emptied later fits

theorem RemovedIn.not_occupied {calls : List (Call α)} {position : Nat} {key other : TableKey}
    (removed : RemovedIn calls index position key)
    (fits : (empty.run calls).2.slots.size ≤ capacity) : ¬ OccupiedBy calls index position other := by
  rintro ⟨-, latest, slot, found, filled⟩
  have passed := (removed.passed fits).2 slot found filled
  omega

theorem OccupiedBy.slot {calls : List (Call α)} {position : Nat} {key : TableKey}
    (occupied : OccupiedBy calls index position key)
    (fits : (empty.run calls).2.slots.size ≤ capacity) :
    ∃ value, (empty.run calls).2.slots[index.toNat]? =
      some ⟨some value, key.kind, key.generation⟩ := by
  obtain ⟨listed, latest, slot, found, filled⟩ := occupied
  obtain ⟨earlier, last, all, sameKind, sameGeneration⟩ :=
    (recounts_issues calls fits index).last slot found
  rw [all, List.length_append, List.length_singleton, Nat.add_right_cancel_iff] at latest
  rw [all, latest, List.getElem?_concat_length, Option.some.injEq] at listed
  subst listed
  obtain ⟨value, stored⟩ := Option.isSome_iff_exists.1 filled
  refine ⟨value, found.trans ?_⟩
  cases slot
  simp_all

theorem occupiedBy_of_slot {calls : List (Call α)}
    (fits : (empty.run calls).2.slots.size ≤ capacity) {slot : Slot α}
    (found : (empty.run calls).2.slots[index.toNat]? = some slot) (filled : slot.value?.isSome) :
    ∃ position key, OccupiedBy calls index position key ∧ slot.kind = key.kind ∧
      slot.generation = key.generation := by
  obtain ⟨earlier, key, all, sameKind, sameGeneration⟩ :=
    (recounts_issues calls fits index).last slot found
  rw [if_pos filled] at sameGeneration
  refine ⟨earlier.length, key, ⟨?_, ?_, slot, found, filled⟩, sameKind filled, sameGeneration⟩
  next =>
    rw [all]
    exact List.getElem?_concat_length
  next => simp [all]

theorem get?_issue_iff {calls : List (Call α)} {position : Nat} {key : TableKey}
    (fits : (empty.run calls).2.slots.size ≤ capacity)
    (listed : (issues index calls)[position]? = some key) :
    ((empty.run calls).2.get? key.handle).isSome ↔
      ∃ later latest, position ≤ later ∧ generationPeriod ∣ later - position ∧
        OccupiedBy calls index later latest ∧ latest.kind = key.kind := by
  have recounts := recounts_issues calls fits index
  obtain ⟨rfl, tabled, issued⟩ := mem_issuesAmong (List.mem_of_getElem? listed)
  have inside := (List.getElem?_eq_some_iff.1 listed).1
  have wraps {later : Nat} {latest : TableKey} (order : position ≤ later)
      (occupied : OccupiedBy calls key.index later latest) :
      generationPeriod ∣ later - position ↔ key.generation = latest.generation := by
    rw [← issueGeneration_eq_iff order, recounts.generation listed, recounts.generation occupied.1]
  simp only [Option.isSome_iff_exists, get?_handle tabled issued, Holds]
  constructor
  next =>
    rintro ⟨value, found⟩
    obtain ⟨later, latest, occupied, sameKind, sameGeneration⟩ := occupiedBy_of_slot fits found rfl
    have order : position ≤ later := by
      have last := occupied.2.1
      omega
    exact ⟨later, latest, order, (wraps order occupied).2 sameGeneration, occupied, sameKind.symm⟩
  next =>
    rintro ⟨later, latest, order, period, occupied, sameKind⟩
    obtain ⟨value, found⟩ := occupied.slot fits
    rw [sameKind, ← (wraps order occupied).1 period] at found
    exact ⟨value, found⟩

theorem Sound.live_le_size (sound : table.Sound) : table.live ≤ table.slots.size :=
  sound.live_eq.trans_le Array.countP_le_size

theorem insertion_occupies {earlier : List (Call α)} {kind : HandleKind} (tabled : kind ≠ .int)
    (value : α) (fits : (empty.run (earlier ++ [.insert kind value])).2.slots.size ≤ capacity) :
    ∃ key : TableKey, key.kind = kind ∧
      ((empty.run earlier).2.step (.insert kind value)).1 = .issued key.handle ∧
      OccupiedBy (earlier ++ [.insert kind value]) key.index (issues key.index earlier).length key := by
  have sound := empty_sound.run earlier
  obtain ⟨handle, after, stored⟩ := sound.insert_ok value tabled
  have taken : (empty.run earlier).2.step (.insert kind value) = (.issued handle, after) := by
    simp only [step, stored]
  have full : (empty.run (earlier ++ [.insert kind value])).2 = after := by
    rw [run_append, run, taken]
    rfl
  have room : (empty.run earlier).2.live < capacity := by
    have below := (sound.insert stored).live_le_size
    have counted := Sound.insert_live stored
    rw [full] at fits
    omega
  obtain ⟨key, rfl, rfl, issued, fills⟩ := sound.insert_fills (.inr room) stored
  have listed : issues key.index (earlier ++ [.insert key.kind value]) =
      issues key.index earlier ++ [key] := by
    rw [issues_append, run, taken, issuesAmong_cons, issueOf?_handle tabled issued, if_pos rfl]
    rfl
  refine ⟨key, rfl, by rw [taken], ?_, ?_, ?_⟩
  next =>
    rw [listed]
    exact List.getElem?_concat_length
  next => simp [listed]
  next =>
    rw [full, fills.slots, if_pos rfl]
    exact ⟨_, rfl, rfl⟩

theorem RemovedIn.get?_iff {calls : List (Call α)} {position : Nat} {key : TableKey}
    (removed : RemovedIn calls index position key)
    (fits : (empty.run calls).2.slots.size ≤ capacity)
    (listed : (issues index calls)[position]? = some key) :
    ((empty.run calls).2.get? key.handle).isSome ↔
      ∃ later latest, position < later ∧ generationPeriod ∣ later - position ∧
        OccupiedBy calls index later latest ∧ latest.kind = key.kind := by
  rw [get?_issue_iff fits listed]
  constructor
  next =>
    rintro ⟨later, latest, order, period, occupied, sameKind⟩
    have apart : position ≠ later := by
      rintro rfl
      exact removed.not_occupied fits occupied
    exact ⟨later, latest, lt_of_le_of_ne order apart, period, occupied, sameKind⟩
  next =>
    rintro ⟨later, latest, order, rest⟩
    exact ⟨later, latest, order.le, rest⟩

theorem RemovedIn.get?_eq_none {calls : List (Call α)} {position : Nat} {key : TableKey}
    (removed : RemovedIn calls index position key)
    (fits : (empty.run calls).2.slots.size ≤ capacity)
    (listed : (issues index calls)[position]? = some key)
    (few : (issues index calls).length ≤ position + 1 + 65534) :
    (empty.run calls).2.get? key.handle = none := by
  rw [← Option.not_isSome_iff_eq_none, removed.get?_iff fits listed]
  rintro ⟨later, latest, order, period, occupied, -⟩
  have last := occupied.2.1
  have whole := Nat.le_of_dvd (by omega) period
  unfold generationPeriod at whole
  omega

-- An issue that was removed stays dead through 65534 more issues of its slot.
theorem stale_issue_resolves_iff (calls : List (Call α))
    (fits : (empty.run calls).2.slots.size ≤ capacity) :
    (∀ earlier kind value later, calls = earlier ++ .insert kind value :: later → kind ≠ .int →
      ∃ key : TableKey, key.kind = kind ∧
        ((empty.run earlier).2.step (.insert kind value)).1 = .issued key.handle ∧
        OccupiedBy (earlier ++ [.insert kind value]) key.index
          (issues key.index earlier).length key) ∧
    ∀ index position key, (issues index calls)[position]? = some key →
      key.generation.toNat = 2 * position % generationPeriod + 1 ∧ key.generation ≠ 0 ∧
      (RemovedIn calls index position key →
        (((empty.run calls).2.get? key.handle).isSome ↔
          ∃ later latest, position < later ∧ generationPeriod ∣ later - position ∧
            OccupiedBy calls index later latest ∧ latest.kind = key.kind) ∧
        ((issues index calls).length ≤ position + 1 + 65534 →
          (empty.run calls).2.get? key.handle = none ∧
            (empty.run calls).2.contains key.handle = false ∧
            (empty.run calls).2.remove key.handle = .ok (none, (empty.run calls).2))) := by
  constructor
  next =>
    rintro earlier kind value later rfl tabled
    apply insertion_occupies tabled
    rw [List.append_cons, run_append] at fits
    exact (size_le_run _ later).trans fits
  next =>
    intro index position key listed
    obtain ⟨-, -, issued⟩ := mem_issuesAmong (List.mem_of_getElem? listed)
    refine ⟨?_, issued, ?_⟩
    next => rw [(recounts_issues calls fits index).generation listed, toNat_issueGeneration]
    next =>
      intro removed
      refine ⟨removed.get?_iff fits listed, ?_⟩
      intro few
      have missing := removed.get?_eq_none fits listed few
      exact ⟨missing, by rw [contains_eq, missing]; rfl, remove_of_get?_none missing⟩

-- The slot of a removed object was reused by a module, and then by an object.
theorem stale_issue_resolves_iff_twice :
    let key : TableKey := ⟨.object, 0, 1⟩
    let calls : List (Call Nat) := [.insert .object 1, .remove key.handle, .insert .module 2,
      .remove (TableKey.handle ⟨.module, 0, 3⟩), .insert .object 3]
    (empty.run calls).2.slots.size ≤ capacity ∧ (issues 0 calls)[0]? = some key ∧
      RemovedIn calls 0 0 key ∧ (issues 0 calls).length = 3 ∧
      (empty.run calls).2.get? key.handle = none := by
  intro key calls
  have fits : (empty.run calls).2.slots.size ≤ capacity := by decide
  have listed : (issues 0 calls)[0]? = some key := by decide
  have removed : RemovedIn calls 0 0 key := by
    refine ⟨[.insert .object 1], _, 1, rfl, by decide, ?_⟩
    rw [step, show (empty.run [.insert .object 1]).2 = busy .object 1 1 from rfl,
      remove_busy (by decide) (by decide)]
  have length : (issues 0 calls).length = 3 := by decide
  have stale := (stale_issue_resolves_iff calls fits).2 0 0 key listed
  exact ⟨fits, listed, removed, length, ((stale.2.2 removed).2 (by omega)).1⟩

end HandleTable

end StateBridge
