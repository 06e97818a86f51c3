import StateBridge.Handle.Basic

set_option autoImplicit false

namespace StateBridge

/-- Zero is no index: it marks a definition that was never given one. -/
structure ModuleIndex where
  value : Nat
  positive : 0 < value
  deriving DecidableEq, Repr

namespace ModuleIndex

def ofNat? (value : Nat) : Option ModuleIndex :=
  if positive : 0 < value then some ⟨value, positive⟩ else none

def text (index : ModuleIndex) : String := toString index.value

instance : Ord ModuleIndex := ⟨fun first second => compare first.value second.value⟩

def Fits (index : ModuleIndex) : Prop := index.value ≤ Handle.intMax.toNat

instance (index : ModuleIndex) : Decidable index.Fits := Nat.decLe _ _

def toHandle? (index : ModuleIndex) : Option (Except Fault Handle) :=
  if index.Fits then some (Handle.ofInt index.value) else none

def ofHandle? (handle : Handle) : Option ModuleIndex :=
  handle.toInt?.bind fun value => ofNat? value.toNat

@[simp] theorem ofNat?_zero : ofNat? 0 = none := rfl

@[simp] theorem ofNat?_value (index : ModuleIndex) : ofNat? index.value = some index := by
  simp [ofNat?, index.positive]

theorem ofNat?_eq_some_iff {value : Nat} {index : ModuleIndex} :
    ofNat? value = some index ↔ value = index.value := by
  constructor
  next =>
    intro found
    simp only [ofNat?] at found
    split at found
    next => cases found; rfl
    next => cases found
  next =>
    intro same
    subst same
    exact ofNat?_value index

end ModuleIndex

end StateBridge
