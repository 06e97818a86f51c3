import StateBridge.Handle.Typed
import StateBridge.Proofs.Handle.Inline
import StateBridge.Proofs.Table.Slots

set_option autoImplicit false

namespace StateBridge

namespace Handle

variable {handle : Handle} {value : Int}

theorem kind?_eq_some_iff {kind : HandleKind} : handle.kind? = some kind ↔ handle.tag = kind.tag :=
  ⟨tag_of_kind?, kind?_of_tag⟩

theorem toInt?_of_kind? (ofKind : handle.kind? = some .int) :
    handle.toInt? =
      let payload : Int := handle.payload.toNat
      some (if payload < 2 ^ 55 then payload else payload - 2 ^ 56) := by
  have bound := handle.payload_lt
  rw [toInt?, if_pos (isKind_iff.2 ofKind), Int.bmod_def, toNat_payloadCount, Option.some.injEq]
  split <;> split <;> omega

theorem toInt?_eq_none_iff : handle.toInt? = none ↔ handle.kind? ≠ some .int := by
  rw [toInt?, ne_eq, ← isKind_iff]
  split
  next ofKind => simp [ofKind]
  next other => simp [other]

theorem kind?_of_toInt? (read : handle.toInt? = some value) : handle.kind? = some .int := by
  by_contra other
  rw [toInt?_eq_none_iff.2 other] at read
  cases read

theorem isSome_toInt?_iff : handle.toInt?.isSome ↔ handle.tag = 1 := by
  rw [← Option.ne_none_iff_isSome, ne_eq, toInt?_eq_none_iff, not_not, kind?_eq_some_iff]
  rfl

theorem toInt?_bounds (read : handle.toInt? = some value) : intMin ≤ value ∧ value ≤ intMax := by
  have bound := handle.payload_lt
  rw [toInt?_of_kind? (kind?_of_toInt? read), Option.some.injEq] at read
  unfold intMin intMax
  split at read <;> omega

theorem toInt?_emod (read : handle.toInt? = some value) :
    value % payloadCount.toNat = handle.payload.toNat := by
  have bound := handle.payload_lt
  rw [toInt?_of_kind? (kind?_of_toInt? read), Option.some.injEq] at read
  rw [toNat_payloadCount]
  split at read <;> omega

theorem eq_of_toInt? {other : Handle} (one : handle.toInt? = some value)
    (two : other.toInt? = some value) : handle = other := by
  apply eq_of_parts
  next => rw [tag_of_kind? (kind?_of_toInt? one), tag_of_kind? (kind?_of_toInt? two)]
  next =>
    apply UInt64.toNat_inj.1
    exact Int.ofNat_inj.1 ((toInt?_emod one).symm.trans (toInt?_emod two))

theorem ofInt_of_bounds (lower : intMin ≤ value) (upper : value ≤ intMax) :
    ∃ handle, ofInt value = .ok handle ∧ handle.toInt? = some value := by
  obtain ⟨handle, made, -, read⟩ := ofInt_eq_ok lower upper
  exact ⟨handle, made, read⟩

theorem ofInt_of_not_bounds (outside : value < intMin ∨ intMax < value) :
    ofInt value = .error .intOutOfRange :=
  if_neg (by omega)

theorem ofInt_eq_ok_iff : ofInt value = .ok handle ↔ handle.toInt? = some value := by
  constructor
  next =>
    intro made
    have inside : intMin ≤ value ∧ value ≤ intMax := by
      by_contra outside
      rw [ofInt, if_neg outside] at made
      cases made
    obtain ⟨built, same, read⟩ := ofInt_of_bounds inside.1 inside.2
    rw [made] at same
    cases same
    exact read
  next =>
    intro read
    obtain ⟨lower, upper⟩ := toInt?_bounds read
    obtain ⟨built, made, again⟩ := ofInt_of_bounds lower upper
    rw [eq_of_toInt? read again, made]

structure Unmanaged (handle : Handle) : Prop where
  noThreadState : ThreadStateHandle.ofHandle? handle = none
  noDict : DictHandle.ofHandle? handle = none
  noModule : ModuleHandle.ofHandle? handle = none
  get? : ∀ {α : Type} (table : HandleTable α), table.get? handle = none
  contains : ∀ {α : Type} (table : HandleTable α), table.contains handle = false
  remove : ∀ {α : Type} (table : HandleTable α), table.remove handle = .ok (none, table)
  set : ∀ {α : Type} (table : HandleTable α) (value : α), table.set handle value = table

theorem decode?_of_kind? (ofKind : handle.kind? = some .int) : TableKey.decode? handle = none := by
  rw [TableKey.decode?, ofKind]
  rfl

theorem unmanaged_of_kind? (ofKind : handle.kind? = some .int) : handle.Unmanaged := by
  have missing : ∀ {α : Type} (table : HandleTable α), table.get? handle = none := by
    intro α table
    rw [Option.eq_none_iff_forall_ne_some]
    intro held found
    obtain ⟨key, decoded, -⟩ := HandleTable.get?_eq_some_iff.1 found
    rw [decode?_of_kind? ofKind] at decoded
    cases decoded
  constructor
  case noThreadState => simp [TypedHandle.ofHandle?, ofKind]
  case noDict => simp [TypedHandle.ofHandle?, ofKind]
  case noModule => simp [TypedHandle.ofHandle?, ofKind]
  case get? => exact missing
  case contains =>
    intro α table
    rw [HandleTable.contains_eq, missing table]
    rfl
  case remove => exact fun table => HandleTable.remove_of_get?_none (missing table)
  case set => exact fun table _ => HandleTable.set_of_get?_none (missing table)

-- The integers of 56 bits are the handles of the tag for integers.
theorem inline_integers_biject :
    (∀ value, intMin ≤ value → value ≤ intMax →
      ∃ handle, ofInt value = .ok handle ∧ handle ≠ null ∧ handle.kind? = some .int ∧
        handle.Unmanaged ∧ handle.toInt? = some value) ∧
    (∀ value, value < intMin ∨ intMax < value → ofInt value = .error .intOutOfRange) ∧
    ∀ handle : Handle, (handle.toInt?.isSome ↔ handle.tag = 1) ∧
      ∀ value, handle.toInt? = some value →
        intMin ≤ value ∧ value ≤ intMax ∧ ofInt value = .ok handle := by
  refine ⟨?_, fun value => ofInt_of_not_bounds, fun handle => ⟨isSome_toInt?_iff, ?_⟩⟩
  next =>
    intro value lower upper
    obtain ⟨handle, made, ofKind, read⟩ := ofInt_eq_ok lower upper
    exact ⟨handle, made, ne_null_of_kind? ofKind, ofKind, unmanaged_of_kind? ofKind, read⟩
  next =>
    intro value read
    obtain ⟨lower, upper⟩ := toInt?_bounds read
    exact ⟨lower, upper, ofInt_eq_ok_iff.2 read⟩

theorem inline_integers_biject_least :
    let least : Handle := ⟨0x0180000000000000⟩
    least.tag = 1 ∧ least.toInt? = some intMin ∧ ofInt intMin = .ok least ∧ least.Unmanaged ∧
      ofInt (intMin - 1) = .error .intOutOfRange := by
  intro least
  obtain ⟨carried, refused, back⟩ := inline_integers_biject
  obtain ⟨handle, made, -, -, apart, -⟩ := carried intMin (by decide) (by decide)
  have read : least.toInt? = some intMin := by decide +kernel
  obtain ⟨-, -, again⟩ := (back least).2 intMin read
  rw [again] at made
  cases made
  exact ⟨by decide +kernel, read, again, apart, refused (intMin - 1) (by decide)⟩

end Handle

end StateBridge
