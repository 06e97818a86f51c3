import Mathlib.Tactic
import StateBridge.Proofs.Handle.Layout

set_option autoImplicit false

namespace StateBridge

namespace Handle

variable {handle : Handle}

inductive Untabled (handle : Handle) : Prop where
  | null (same : handle = .null)
  | unknownTag (unknown : ∀ kind : HandleKind, handle.tag ≠ kind.tag)
  | int (tagged : handle.tag = HandleKind.int.tag)
  | neverIssued (generation : handle.payload.toNat / 2 ^ 40 = 0)
  | wideIndex (position : Nat) (above : 32 ≤ position) (below : position < 40)
    (isSet : handle.payload.toNat.testBit position = true)

theorem kind?_eq_none_iff : handle.kind? = none ↔ ∀ kind : HandleKind, handle.tag ≠ kind.tag := by
  constructor
  next =>
    intro missing kind tagged
    rw [kind?_of_tag tagged] at missing
    cases missing
  next =>
    intro unknown
    rw [Option.eq_none_iff_forall_ne_some]
    exact fun kind found => unknown kind (tag_of_kind? found)

end Handle

namespace TableKey

variable {handle : Handle}

theorem generation_eq_zero_iff :
    (handle.payload / indexCount).toUInt16 = 0 ↔ handle.payload.toNat / 2 ^ 40 = 0 := by
  have bound := handle.payload_lt
  have width : indexCount.toNat = 2 ^ 40 := rfl
  rw [← UInt16.toNat_inj, UInt64.toNat_toUInt16, UInt64.toNat_div, width, UInt16.toNat_zero]
  omega

theorem wideIndex_iff : handle.payload % indexCount > 0xFFFFFFFF ↔
    ∃ position, 32 ≤ position ∧ position < 40 ∧ handle.payload.toNat.testBit position = true := by
  have width : indexCount.toNat = 2 ^ 40 := rfl
  have limit : (0xFFFFFFFF : UInt64).toNat = 2 ^ 32 - 1 := rfl
  rw [gt_iff_lt, UInt64.lt_iff_toNat_lt, UInt64.toNat_mod, width, limit]
  constructor
  next =>
    intro wide
    have upper : handle.payload.toNat % 2 ^ 40 / 2 ^ 32 ≠ 0 := by omega
    obtain ⟨offset, isSet⟩ := Nat.exists_testBit_of_ne_zero upper
    rw [Nat.testBit_div_two_pow, Nat.testBit_mod_two_pow, Bool.and_eq_true, decide_eq_true_eq] at isSet
    exact ⟨offset + 32, by omega, isSet⟩
  next =>
    rintro ⟨position, above, below, isSet⟩
    by_contra narrow
    have within : handle.payload.toNat % 2 ^ 40 < 2 ^ position :=
      (by omega : _ < 2 ^ 32).trans_le (Nat.pow_le_pow_right (by decide) above)
    have clear := Nat.testBit_lt_two_pow within
    rw [Nat.testBit_mod_two_pow, decide_eq_true below, isSet] at clear
    cases clear

theorem decode?_eq_none_of_kind? {kind : HandleKind} (found : handle.kind? = some kind)
    (tabled : kind ≠ .int) : decode? handle = none ↔
      handle.payload.toNat / 2 ^ 40 = 0 ∨
        ∃ position, 32 ≤ position ∧ position < 40 ∧ handle.payload.toNat.testBit position = true := by
  rw [← generation_eq_zero_iff, ← wideIndex_iff]
  simp only [decode?, found, Option.bind_eq_bind, Option.bind_some, tabled, if_false, ite_eq_left_iff,
    reduceCtorEq, imp_false, not_not]

theorem decode?_eq_none_iff : decode? handle = none ↔ handle.Untabled := by
  cases found : handle.kind? with
  | none =>
    have refused : decode? handle = none := by simp [decode?, found]
    exact iff_of_true refused (.unknownTag (Handle.kind?_eq_none_iff.1 found))
  | some kind =>
    by_cases tabled : kind = .int
    next =>
      subst tabled
      have refused : decode? handle = none := by simp [decode?, found]
      exact iff_of_true refused (.int (Handle.tag_of_kind? found))
    next =>
      rw [decode?_eq_none_of_kind? found tabled]
      constructor
      next =>
        rintro (generation | ⟨position, above, below, isSet⟩)
        next => exact .neverIssued generation
        next => exact .wideIndex position above below isSet
      next =>
        intro untabled
        cases untabled with
        | null same => exact absurd same (Handle.ne_null_of_kind? found)
        | unknownTag unknown => exact absurd (Handle.tag_of_kind? found) (unknown kind)
        | int tagged =>
          rw [Handle.kind?_of_tag tagged] at found
          exact absurd (Option.some.inj found).symm tabled
        | neverIssued generation => exact .inl generation
        | wideIndex position above below isSet => exact .inr ⟨position, above, below, isSet⟩

-- Encoding and decoding undo each other. Every other handle is refused, for one of five reasons.
theorem encode_and_decode_are_inverse :
    (∀ key : TableKey, key.kind ≠ .int → key.generation ≠ 0 →
      ∃ handle, key.encode = .ok handle ∧ handle ≠ .null ∧ decode? handle = some key) ∧
    (∀ handle key, decode? handle = some key → key.encode = .ok handle) ∧
    ∀ handle, decode? handle = none ↔ handle.Untabled := by
  refine ⟨?_, ?_, fun handle => decode?_eq_none_iff⟩
  next =>
    intro key tabled issued
    exact ⟨key.handle, key.encode_eq, Handle.ne_null_of_kind? key.kind?_handle,
      decode?_handle tabled issued⟩
  next =>
    intro handle key found
    rw [encode_eq, (handle_of_decode? found).1]

theorem encode_and_decode_are_inverse_largest :
    let key : TableKey := ⟨.object, 0xFFFFFFFF, 0xFFFF⟩
    let largest : Handle := ⟨0x05FFFF00FFFFFFFF⟩
    let beyond : Handle := ⟨0x05FFFF0100000000⟩
    key.kind ≠ .int ∧ key.generation ≠ 0 ∧ key.encode = .ok largest ∧ largest ≠ .null ∧
      decode? largest = some key ∧ beyond.Untabled ∧ decode? beyond = none := by
  intro key largest beyond
  obtain ⟨encodes, back, refuses⟩ := encode_and_decode_are_inverse
  obtain ⟨handle, encoded, present, decoded⟩ := encodes key (by decide) (by decide)
  have found : decode? largest = some key := by decide +kernel
  have same := back largest key found
  rw [same] at encoded
  cases encoded
  have untabled : beyond.Untabled := .wideIndex 32 (by decide) (by decide) (by decide +kernel)
  exact ⟨by decide, by decide, same, present, decoded, untabled, (refuses beyond).2 untabled⟩

end TableKey

end StateBridge
