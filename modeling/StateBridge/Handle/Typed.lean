import StateBridge.Handle.Basic

set_option autoImplicit false

namespace StateBridge

structure TypedHandle (kind : HandleKind) where
  handle : Handle
  isKind : handle.kind? = some kind
  deriving DecidableEq

abbrev ThreadStateHandle := TypedHandle .threadState

abbrev DictHandle := TypedHandle .dict

abbrev ModuleHandle := TypedHandle .module

namespace TypedHandle

variable {kind : HandleKind}

instance : LawfulBEq (TypedHandle kind) := inferInstance

def ofHandle? (kind : HandleKind) (handle : Handle) : Option (TypedHandle kind) :=
  if isKind : handle.kind? = some kind then some ⟨handle, isKind⟩ else none

theorem handle_injective {first second : TypedHandle kind} (same : first.handle = second.handle) :
    first = second := by
  cases first
  cases second
  cases same
  rfl

@[simp] theorem ofHandle?_handle (typed : TypedHandle kind) :
    ofHandle? kind typed.handle = some typed := by
  simp [ofHandle?, typed.isKind]

theorem ofHandle?_eq_some_iff {handle : Handle} {typed : TypedHandle kind} :
    ofHandle? kind handle = some typed ↔ handle = typed.handle := by
  constructor
  next =>
    intro found
    simp only [ofHandle?] at found
    split at found
    next => cases found; rfl
    next => cases found
  next =>
    intro same
    subst same
    exact ofHandle?_handle typed

theorem kind?_of_ofHandle? {handle : Handle} {typed : TypedHandle kind}
    (wrapped : ofHandle? kind handle = some typed) : handle.kind? = some kind :=
  ofHandle?_eq_some_iff.1 wrapped ▸ typed.isKind

end TypedHandle

abbrev ThreadStateHandle.ofHandle? (handle : Handle) : Option ThreadStateHandle :=
  TypedHandle.ofHandle? .threadState handle

abbrev DictHandle.ofHandle? (handle : Handle) : Option DictHandle :=
  TypedHandle.ofHandle? .dict handle

abbrev ModuleHandle.ofHandle? (handle : Handle) : Option ModuleHandle :=
  TypedHandle.ofHandle? .module handle

end StateBridge
