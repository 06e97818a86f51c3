import StateBridge.ApiError
import StateBridge.Fatal
import StateBridge.Module.Definition

set_option autoImplicit false

namespace StateBridge

structure DefinitionId where
  number : Nat
  deriving DecidableEq, Repr, Inhabited

inductive RegistryNote where
  | added (module : Handle) (index : ModuleIndex)
  | replaced (module previous : Handle) (index : ModuleIndex)
  | removed (module : Handle) (index : ModuleIndex)
  | absent (index : ModuleIndex)
  deriving DecidableEq, Repr

/-- What a bridge does for one call, without the bridge and the runtime that carry it out. -/
inductive Dialogue (α : Type) where
  | done (result : α)
  | abort (error : FatalError)
  | fault (fault : Fault)
  | note (line : RegistryNote) (next : Dialogue α)
  | look (definition : DefinitionId) (next : ModuleDefinition → Dialogue α)
  | claim (definition : DefinitionId) (index : ModuleIndex) (next : ModuleIndex → Dialogue α)
  | ask (op : UpcallOp) (args : List Handle) (next : Except UpcallError Handle → Dialogue α)

namespace Dialogue

variable {α β γ : Type}

def bind : Dialogue α → (α → Dialogue β) → Dialogue β
  | .done result, after => after result
  | .abort error, _ => .abort error
  | .fault broken, _ => .fault broken
  | .note line next, after => .note line (next.bind after)
  | .look definition next, after => .look definition fun found => (next found).bind after
  | .claim definition index next, after => .claim definition index fun won => (next won).bind after
  | .ask op args next, after => .ask op args fun answer => (next answer).bind after

instance : Monad Dialogue where
  pure := .done
  bind := bind

@[simp] theorem pure_eq (result : α) : (pure result : Dialogue α) = .done result := rfl

@[simp] theorem bind_eq (dialogue : Dialogue α) (after : α → Dialogue β) :
    dialogue >>= after = dialogue.bind after := rfl

@[simp] theorem bind_done (dialogue : Dialogue α) : dialogue.bind .done = dialogue := by
  induction dialogue with
  | done | abort | fault => rfl
  | note line next ih => simp only [bind, ih]
  | look definition next ih => simp only [bind, ih]
  | claim definition index next ih => simp only [bind, ih]
  | ask op args next ih => simp only [bind, ih]

theorem bind_assoc (dialogue : Dialogue α) (first : α → Dialogue β) (second : β → Dialogue γ) :
    (dialogue.bind first).bind second = dialogue.bind fun result => (first result).bind second := by
  induction dialogue with
  | done | abort | fault => rfl
  | note line next ih => simp only [bind, ih]
  | look definition next ih => simp only [bind, ih]
  | claim definition index next ih => simp only [bind, ih]
  | ask op args next ih => simp only [bind, ih]

instance : LawfulMonad Dialogue :=
  LawfulMonad.mk' Dialogue bind_done (fun _ _ => rfl) bind_assoc

def ofChecked : Except Fault α → Dialogue α
  | .ok result => .done result
  | .error broken => .fault broken

end Dialogue

abbrev BridgeCall (ε α : Type) := ExceptT ε Dialogue α

namespace BridgeCall

variable {ε α : Type}

def look (definition : DefinitionId) : BridgeCall ε ModuleDefinition :=
  ExceptT.lift (.look definition .done)

def claim (definition : DefinitionId) (index : ModuleIndex) : BridgeCall ε ModuleIndex :=
  ExceptT.lift (.claim definition index .done)

def note (line : RegistryNote) : BridgeCall ε Unit :=
  ExceptT.lift (.note line (.done ()))

def abort (function : String) (invariant : FatalInvariant) : BridgeCall ε α :=
  ExceptT.lift (.abort ⟨function, invariant⟩)

def checked (step : Except Fault α) : BridgeCall ε α :=
  ExceptT.lift (Dialogue.ofChecked step)

def ask (op : UpcallOp) (args : List Handle) : BridgeCall UpcallError Handle :=
  ExceptT.mk (.ask op args .done)

def asApi (call : BridgeCall UpcallError α) : BridgeCall ApiError α :=
  ExceptT.adapt ApiError.upcall call

end BridgeCall

end StateBridge
