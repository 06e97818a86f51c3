import StateBridge.Handle.Basic

set_option autoImplicit false

namespace StateBridge

def hexText (number : Nat) : String :=
  "0x" ++ String.ofList (Nat.toDigits 16 number)

section

variable {number : Nat} {digit character : Char}

def digitValue (digit : Char) : Nat :=
  ((List.range 16).find? fun value => value.digitChar = digit).getD 0

def hexValue (digits : List Char) : Nat :=
  digits.foldl (fun value digit => 16 * value + digitValue digit) 0

theorem digitValue_digitChar : ∀ value < 16, digitValue value.digitChar = value := by decide

theorem hexValue_toDigits (number : Nat) : hexValue (Nat.toDigits 16 number) = number := by
  induction number using Nat.strongRecOn with
  | ind number ih =>
    rw [Nat.toDigits_eq_if (by decide)]
    split
    next narrow => simp [hexValue, digitValue_digitChar number narrow]
    next wide =>
      have upper := ih (number / 16) (by omega)
      have lower := digitValue_digitChar (number % 16) (Nat.mod_lt _ (by decide))
      rw [hexValue] at upper ⊢
      rw [List.foldl_append, upper, List.foldl_cons, List.foldl_nil, lower]
      omega

theorem toList_hexText (number : Nat) :
    (hexText number).toList = "0x".toList ++ Nat.toDigits 16 number := by
  simp [hexText]

theorem hexText_inj {number other : Nat} :
    (hexText number).toList = (hexText other).toList ↔ number = other := by
  rw [toList_hexText, toList_hexText, List.append_cancel_left_eq]
  refine ⟨fun digits => ?_, fun same => same ▸ rfl⟩
  rw [← hexValue_toDigits number, digits, hexValue_toDigits]

theorem mem_toDigits (member : digit ∈ Nat.toDigits 16 number) :
    ∃ value < 16, value.digitChar = digit := by
  induction number using Nat.strongRecOn with
  | ind number ih =>
    rw [Nat.toDigits_eq_if (by decide)] at member
    split at member
    next narrow => exact ⟨number, narrow, (List.mem_singleton.1 member).symm⟩
    next wide =>
      rcases List.mem_append.1 member with upper | lower
      next => exact ih (number / 16) (by omega) upper
      next => exact ⟨number % 16, Nat.mod_lt _ (by decide), (List.mem_singleton.1 lower).symm⟩

theorem notMem_hexText (marker : character ∉ "0x".toList)
    (apart : ∀ value < 16, value.digitChar ≠ character) : character ∉ (hexText number).toList := by
  rw [toList_hexText, List.mem_append]
  rintro (lead | digit)
  next => exact marker lead
  next =>
    obtain ⟨value, small, same⟩ := mem_toDigits digit
    exact apart value small same

end

def Handle.describe (handle : Handle) : String :=
  match handle.kind? with
  | none =>
    if handle.isNull then "Handle(NULL)" else "Handle(?" ++ hexText handle.bits.toNat ++ ")"
  | some .int => "Handle(int " ++ toString (handle.toInt?.getD 0) ++ ")"
  | some kind => "Handle(" ++ kind.name ++ " " ++ hexText handle.payload.toNat ++ ")"

def Handle.describeAll (handles : List Handle) : String :=
  "[" ++ String.intercalate ", " (handles.map Handle.describe) ++ "]"

end StateBridge
