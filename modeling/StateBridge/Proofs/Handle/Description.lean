import Mathlib
import StateBridge.Log
import StateBridge.Proofs.Handle.Integers

set_option autoImplicit false

namespace StateBridge

section

variable {character separator : Char} {first second rest more : List Char}

theorem notMem_toString (integer : Int) (minus : character ≠ '-') (apart : ¬ character.isDigit) :
    character ∉ (toString integer).toList := by
  rw [Int.toString_eq_repr, Int.repr_eq_if]
  have digits (magnitude : Nat) : character ∉ Nat.toDigits 10 magnitude :=
    fun member => apart (Nat.isDigit_of_mem_toDigits (by decide) (by decide) member)
  split <;> simp [digits, minus]

theorem append_separator_inj (outside : separator ∉ first) (apart : separator ∉ second) :
    first ++ separator :: rest = second ++ separator :: more ↔ first = second ∧ rest = more := by
  induction first generalizing second with
  | nil =>
    cases second with
    | nil => simp
    | cons character second =>
      have other : separator ≠ character := fun same => apart (same ▸ List.mem_cons_self)
      simp [other]
  | cons character first ih =>
    cases second with
    | nil =>
      have other : character ≠ separator := fun same => outside (same ▸ List.mem_cons_self)
      simp [other]
    | cons character second =>
      have tails := ih (fun member => outside (List.mem_cons_of_mem _ member))
        fun member => apart (List.mem_cons_of_mem _ member)
      simp [tails, and_assoc]

end

namespace HandleKind

theorem name_inj {kind other : HandleKind} : kind.name.toList = other.name.toList ↔ kind = other := by
  cases kind <;> cases other <;> decide

theorem space_notMem_name (kind : HandleKind) : ' ' ∉ kind.name.toList := by
  cases kind <;> decide

theorem close_notMem_name (kind : HandleKind) : ')' ∉ kind.name.toList := by
  cases kind <;> decide

end HandleKind

namespace UpcallOp

theorem name_inj {op other : UpcallOp} : op.name.toList = other.name.toList ↔ op = other := by
  cases op <;> cases other <;> decide

theorem space_notMem_name (op : UpcallOp) : ' ' ∉ op.name.toList := by
  cases op <;> decide

theorem colon_notMem_name (op : UpcallOp) : ':' ∉ op.name.toList := by
  cases op <;> decide

end UpcallOp

namespace Handle

variable {handle first second : Handle} {kind : HandleKind} {rest more : List Char}

def figure (handle : Handle) : HandleKind → List Char
  | .int => (toString (handle.toInt?.getD 0)).toList
  | _ => (hexText handle.payload.toNat).toList

def inner (handle : Handle) : List Char :=
  match handle.kind? with
  | some kind => kind.name.toList ++ ' ' :: handle.figure kind
  | none => if handle.isNull then "NULL".toList else '?' :: (hexText handle.bits.toNat).toList

theorem toList_describe (handle : Handle) :
    handle.describe.toList = "Handle(".toList ++ (handle.inner ++ [')']) := by
  unfold describe inner
  cases handle.kind? with
  | none => cases handle.isNull <;> simp
  | some kind => cases kind <;> simp [figure, HandleKind.name]

theorem inner_of_kind? (found : handle.kind? = some kind) :
    handle.inner = kind.name.toList ++ ' ' :: handle.figure kind := by
  rw [inner, found]

theorem space_notMem_inner (unknown : handle.kind? = none) : ' ' ∉ handle.inner := by
  rw [inner, unknown]
  dsimp only
  split
  next => decide
  next =>
    rw [List.mem_cons, not_or]
    exact ⟨by decide, notMem_hexText (by decide) (by decide)⟩

theorem close_notMem_figure (handle : Handle) (kind : HandleKind) : ')' ∉ handle.figure kind := by
  cases kind with
  | int => exact notMem_toString _ (by decide) (by decide)
  | _ => exact notMem_hexText (by decide) (by decide)

theorem close_notMem_inner (handle : Handle) : ')' ∉ handle.inner := by
  unfold inner
  split
  next kind found =>
    rw [List.mem_append, List.mem_cons, not_or, not_or]
    exact ⟨kind.close_notMem_name, by decide, handle.close_notMem_figure kind⟩
  next unknown =>
    split
    next => decide
    next =>
      rw [List.mem_cons, not_or]
      exact ⟨by decide, notMem_hexText (by decide) (by decide)⟩

theorem figure_injective (found : first.kind? = some kind) (alike : second.kind? = some kind)
    (same : first.figure kind = second.figure kind) : first = second := by
  have tags : first.tag = second.tag := (tag_of_kind? found).trans (tag_of_kind? alike).symm
  cases kind with
  | int =>
    obtain ⟨value, read⟩ := Option.isSome_iff_exists.1
      (isSome_toInt?_iff.2 (tag_of_kind? found))
    obtain ⟨other, reread⟩ := Option.isSome_iff_exists.1
      (isSome_toInt?_iff.2 (tag_of_kind? alike))
    simp only [figure, read, reread, Option.getD_some, String.toList_inj, Int.toString_eq_repr,
      Int.repr_inj] at same
    subst same
    exact eq_of_toInt? read reread
  | _ => exact eq_of_parts tags (UInt64.toNat_inj.1 (hexText_inj.1 same))

theorem inner_injective_of_unknown (unknown : first.kind? = none) (alike : second.kind? = none)
    (same : first.inner = second.inner) : first = second := by
  simp only [inner, unknown, alike] at same
  split at same <;> split at same
  next none absent => rw [isNull_iff.1 none, isNull_iff.1 absent]
  next => cases same
  next => cases same
  next =>
    have bits := hexText_inj.1 (List.cons.inj same).2
    cases first
    cases second
    exact congrArg Handle.mk (UInt64.toNat_inj.1 bits)

theorem inner_injective (same : first.inner = second.inner) : first = second := by
  cases found : first.kind? with
  | none =>
    cases other : second.kind? with
    | none => exact inner_injective_of_unknown found other same
    | some kind =>
      have spaceless := space_notMem_inner found
      rw [same, inner_of_kind? other] at spaceless
      simp at spaceless
  | some kind =>
    cases other : second.kind? with
    | none =>
      have spaceless := space_notMem_inner other
      rw [← same, inner_of_kind? found] at spaceless
      simp at spaceless
    | some wanted =>
      rw [inner_of_kind? found, inner_of_kind? other,
        append_separator_inj kind.space_notMem_name wanted.space_notMem_name] at same
      obtain ⟨names, figures⟩ := same
      obtain rfl := HandleKind.name_inj.1 names
      exact figure_injective found other figures

-- A handle's text says itself where it ends, so that it can be read off the front of a longer one.
theorem describe_append_inj :
    first.describe.toList ++ rest = second.describe.toList ++ more ↔
      first = second ∧ rest = more := by
  rw [toList_describe, toList_describe]
  simp only [List.append_assoc, List.append_cancel_left_eq, List.singleton_append]
  rw [append_separator_inj first.close_notMem_inner second.close_notMem_inner]
  exact and_congr_left fun _ => ⟨inner_injective, fun same => same ▸ rfl⟩

theorem describe_inj : first.describe = second.describe ↔ first = second := by
  rw [← String.toList_inj, ← List.append_cancel_right_eq _ [], describe_append_inj, and_iff_left rfl]

def others : List Handle → List Char
  | [] => [']']
  | handle :: handles => ", ".toList ++ (handle.describe.toList ++ others handles)

theorem intercalate_describe (handle : Handle) (handles : List Handle) :
    ", ".toList.intercalate ((handle :: handles).map fun handle => handle.describe.toList) ++ [']'] =
      handle.describe.toList ++ others handles := by
  induction handles generalizing handle with
  | nil => simp [others]
  | cons next handles ih =>
    have tail := ih next
    simp only [List.map_cons, List.intercalate_cons_cons, List.append_assoc] at tail ⊢
    rw [tail, others]

theorem toList_describeAll (handles : List Handle) :
    (describeAll handles).toList =
      '[' :: ", ".toList.intercalate (handles.map fun handle => handle.describe.toList) ++ [']'] := by
  simp [describeAll, Function.comp_def]

theorem others_inj {handles listed : List Handle} :
    others handles = others listed ↔ handles = listed := by
  induction handles generalizing listed with
  | nil => cases listed <;> simp [others]
  | cons handle handles ih =>
    cases listed with
    | nil => simp [others]
    | cons other listed =>
      simp only [others, List.append_cancel_left_eq, describe_append_inj, ih, List.cons.injEq]

theorem describeAll_ne_nil (handle : Handle) (handles : List Handle) :
    describeAll (handle :: handles) ≠ describeAll [] := by
  intro same
  have letters := String.toList_inj.2 same
  rw [toList_describeAll, List.cons_append, intercalate_describe, toList_describe] at letters
  simp [describeAll] at letters

theorem describeAll_inj {handles listed : List Handle} :
    describeAll handles = describeAll listed ↔ handles = listed := by
  cases handles with
  | nil =>
    cases listed with
    | nil => simp
    | cons other listed => simp [(describeAll_ne_nil other listed).symm]
  | cons handle handles =>
    cases listed with
    | nil => simp [describeAll_ne_nil handle handles]
    | cons other listed =>
      rw [← String.toList_inj, toList_describeAll, toList_describeAll, List.cons_append,
        List.cons_append, intercalate_describe, intercalate_describe, List.cons_inj_right,
        describe_append_inj, others_inj, List.cons.injEq]

end Handle

section

variable {op other : UpcallOp} {expected wanted : HandleKind} {first second : Handle}

theorem UpcallError.message_unexpectedHandle_inj :
    (UpcallError.unexpectedHandle op expected first.describe).message =
        (UpcallError.unexpectedHandle other wanted second.describe).message ↔
      op = other ∧ expected = wanted ∧ first = second := by
  have shape (op : UpcallOp) (expected : HandleKind) (found : String) :
      (UpcallError.unexpectedHandle op expected found).message.toList =
        op.name.toList ++ ':' :: (" expected a ".toList ++
          (expected.name.toList ++ ' ' :: ("handle, got ".toList ++ found.toList))) := by
    simp [UpcallError.message]
  rw [← String.toList_inj, shape, shape,
    append_separator_inj op.colon_notMem_name other.colon_notMem_name, UpcallOp.name_inj,
    List.append_cancel_left_eq,
    append_separator_inj expected.space_notMem_name wanted.space_notMem_name, HandleKind.name_inj,
    List.append_cancel_left_eq, String.toList_inj, Handle.describe_inj]

theorem expectKind_inj :
    expectKind op first expected = expectKind op second expected ↔ first = second := by
  refine ⟨fun same => ?_, fun same => same ▸ rfl⟩
  unfold expectKind at same
  split at same <;> split at same
  next => exact Except.ok.inj same
  next => cases same
  next => cases same
  next => exact Handle.describe_inj.1 (UpcallError.unexpectedHandle.inj (Except.error.inj same)).2.2

theorem map_some_inj {α β : Type} {result other : Except α β} :
    result.map some = other.map some ↔ result = other := by
  cases result <;> cases other <;> simp [Except.map]

theorem expectOptionalKind_inj :
    expectOptionalKind op first expected = expectOptionalKind op second expected ↔
      first = second := by
  refine ⟨fun same => ?_, fun same => same ▸ rfl⟩
  have present (handle : Handle) : (expectKind op handle expected).map some ≠ .ok none := by
    cases expectKind op handle expected <;> simp [Except.map]
  unfold expectOptionalKind at same
  split at same <;> split at same
  next absent missing => rw [Handle.isNull_iff.1 absent, Handle.isNull_iff.1 missing]
  next => exact absurd same.symm (present second)
  next => exact absurd same (present first)
  next => exact expectKind_inj.1 (map_some_inj.1 same)

namespace LogMessage

variable {bridge elsewhere : BridgeId} {args given : List Handle}

theorem text_upcallIssued (bridge : BridgeId) (op : UpcallOp) (args : List Handle) :
    (upcallIssued bridge op args).text.toList =
      "upcall ".toList ++ (op.name.toList ++ ' ' :: (Handle.describeAll args).toList) := by
  change ("upcall " ++ op.name ++ " " ++ Handle.describeAll args).toList = _
  simp

theorem text_upcallAnswered (bridge : BridgeId) (op : UpcallOp) (handle : Handle) :
    (upcallAnswered bridge op handle).text.toList =
      "upcall ".toList ++ (op.name.toList ++ ' ' :: ("-> ".toList ++ handle.describe.toList)) := by
  change ("upcall " ++ op.name ++ " -> " ++ handle.describe).toList = _
  simp

theorem text_upcallIssued_inj :
    (upcallIssued bridge op args).text = (upcallIssued elsewhere other given).text ↔
      op = other ∧ args = given := by
  rw [← String.toList_inj, text_upcallIssued, text_upcallIssued, List.append_cancel_left_eq,
    append_separator_inj op.space_notMem_name other.space_notMem_name, UpcallOp.name_inj,
    String.toList_inj, Handle.describeAll_inj]

theorem text_upcallAnswered_inj :
    (upcallAnswered bridge op first).text = (upcallAnswered elsewhere other second).text ↔
      op = other ∧ first = second := by
  rw [← String.toList_inj, text_upcallAnswered, text_upcallAnswered, List.append_cancel_left_eq,
    append_separator_inj op.space_notMem_name other.space_notMem_name, UpcallOp.name_inj,
    List.append_cancel_left_eq, String.toList_inj, Handle.describe_inj]

theorem text_upcallIssued_ne_upcallAnswered :
    (upcallIssued bridge op args).text ≠ (upcallAnswered elsewhere other second).text := by
  intro same
  rw [← String.toList_inj, text_upcallIssued, text_upcallAnswered, List.append_cancel_left_eq,
    append_separator_inj op.space_notMem_name other.space_notMem_name,
    Handle.toList_describeAll] at same
  simp at same

end LogMessage

end

-- Also as a part of refusals, their messages and the log lines of upcalls.
theorem text_identifies_handle :
    (∀ first second : Handle, first.describe = second.describe ↔ first = second) ∧
    (∀ (op : UpcallOp) (expected : HandleKind) (first second : Handle),
      (expectKind op first expected = expectKind op second expected ↔ first = second) ∧
      (expectOptionalKind op first expected = expectOptionalKind op second expected ↔
        first = second)) ∧
    (∀ (op other : UpcallOp) (expected wanted : HandleKind) (first second : Handle),
      (UpcallError.unexpectedHandle op expected first.describe).message =
          (UpcallError.unexpectedHandle other wanted second.describe).message ↔
        op = other ∧ expected = wanted ∧ first = second) ∧
    ∀ (bridge elsewhere : BridgeId) (op other : UpcallOp) (args given : List Handle)
      (first second : Handle),
      ((LogMessage.upcallIssued bridge op args).text =
          (LogMessage.upcallIssued elsewhere other given).text ↔ op = other ∧ args = given) ∧
      ((LogMessage.upcallAnswered bridge op first).text =
          (LogMessage.upcallAnswered elsewhere other second).text ↔ op = other ∧ first = second) ∧
      (LogMessage.upcallIssued bridge op args).text ≠
        (LogMessage.upcallAnswered elsewhere other second).text := by
  refine ⟨fun first second => Handle.describe_inj, ?_, ?_, ?_⟩
  next => exact fun op expected first second => ⟨expectKind_inj, expectOptionalKind_inj⟩
  next => exact fun op other expected wanted first second => UpcallError.message_unexpectedHandle_inj
  next =>
    intro bridge elsewhere op other args given first second
    exact ⟨LogMessage.text_upcallIssued_inj, LogMessage.text_upcallAnswered_inj,
      LogMessage.text_upcallIssued_ne_upcallAnswered⟩

example : [0x01FFFFFFFFFFFFFF, 0x03FFFFFFFFFFFFFF, 0xFFFFFFFFFFFFFFFF, 0].map
    (fun bits => (Handle.mk bits).describe) =
    ["Handle(int -1)", "Handle(dict 0xffffffffffffff)", "Handle(?0xffffffffffffffff)",
      "Handle(NULL)"] := by decide +kernel

end StateBridge
