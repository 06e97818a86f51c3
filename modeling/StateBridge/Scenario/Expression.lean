import StateBridge.FiniteMap
import StateBridge.Handle.Typed
import StateBridge.Module.Index

set_option autoImplicit false

/-!
Scenarios are scripts of named steps over the parts of the library: a handle that one step answers can
be saved under a name and passed to later steps, as it is or with some of its bits changed.
-/

namespace StateBridge.Scenario

inductive Refusal where
  | wrongKind
  | zeroIndex
  | unknownOp
  | unknownName (name : String)
  | insideUpcall
  deriving DecidableEq, Repr

def digit? (char : Char) : Option UInt64 :=
  if '0' ≤ char ∧ char ≤ '9' then some (char.toNat - '0'.toNat).toUInt64
  else if 'a' ≤ char ∧ char ≤ 'f' then some (char.toNat - 'a'.toNat + 10).toUInt64
  else none

def bitsOfDigits? (text : String) : Option UInt64 :=
  if text.length = 16 then
    text.toList.foldlM (fun bits char => do return bits * 16 + (← digit? char)) 0
  else
    none

def digitsOfBits (bits : UInt64) : String :=
  let digits := Nat.toDigits 16 bits.toNat
  String.ofList (List.replicate (16 - digits.length) '0' ++ digits)

abbrev SavedHandles := FiniteMap String Handle

inductive HandleExpr where
  | literal (handle : Handle)
  | saved (name : String)
  | xor (inner : HandleExpr) (mask : UInt64)
  deriving Repr

namespace HandleExpr

def eval (saved : SavedHandles) : HandleExpr → Except Refusal Handle
  | .literal handle => .ok handle
  | .saved name =>
    match saved.find? name with
    | some handle => .ok handle
    | none => .error (.unknownName name)
  | .xor inner mask => do
    return ⟨(← inner.eval saved).bits ^^^ mask⟩

end HandleExpr

def Refusal.unless {α : Type} (refusal : Refusal) : Option α → Except Refusal α
  | some value => .ok value
  | none => .error refusal

def threadStateOf (handle : Handle) : Except Refusal ThreadStateHandle :=
  Refusal.wrongKind.unless (ThreadStateHandle.ofHandle? handle)

def dictOf (handle : Handle) : Except Refusal DictHandle :=
  Refusal.wrongKind.unless (DictHandle.ofHandle? handle)

def moduleOf (handle : Handle) : Except Refusal ModuleHandle :=
  Refusal.wrongKind.unless (ModuleHandle.ofHandle? handle)

def indexOf (value : Nat) : Except Refusal ModuleIndex :=
  Refusal.zeroIndex.unless (ModuleIndex.ofNat? value)

def saveAs (saved : SavedHandles) (name? : Option String) (handle? : Option Handle) : SavedHandles :=
  match name?, handle? with
  | some name, some handle => saved.insert name handle
  | _, _ => saved

end StateBridge.Scenario
