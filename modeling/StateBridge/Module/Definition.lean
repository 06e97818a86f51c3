import StateBridge.Module.Index

set_option autoImplicit false

namespace StateBridge

/-- A definition with slots is initialised in several phases and never has a place in the registry. -/
structure ModuleDefinition where
  rawIndex : Nat
  hasSlots : Bool
  deriving DecidableEq, Repr

namespace ModuleDefinition

def fresh : ModuleDefinition := ⟨0, false⟩

def withSlots : ModuleDefinition := ⟨0, true⟩

instance : Inhabited ModuleDefinition := ⟨fresh⟩

def index? (definition : ModuleDefinition) : Option ModuleIndex :=
  ModuleIndex.ofNat? definition.rawIndex

def claim (definition : ModuleDefinition) (index : ModuleIndex) : ModuleIndex × ModuleDefinition :=
  match definition.index? with
  | some current => (current, definition)
  | none => (index, { definition with rawIndex := index.value })

theorem index?_eq_none_iff {definition : ModuleDefinition} :
    definition.index? = none ↔ definition.rawIndex = 0 := by
  simp [index?, ModuleIndex.ofNat?]

theorem index?_eq_some_iff {definition : ModuleDefinition} {index : ModuleIndex} :
    definition.index? = some index ↔ definition.rawIndex = index.value :=
  ModuleIndex.ofNat?_eq_some_iff

@[simp] theorem index?_claim (definition : ModuleDefinition) (index : ModuleIndex) :
    (definition.claim index).2.index? = some (definition.claim index).1 := by
  cases present : definition.index? with
  | none => simp [claim, present]; simp [index?]
  | some current => simp [claim, present]

theorem claim_of_index? {definition : ModuleDefinition} {current : ModuleIndex}
    (present : definition.index? = some current) (index : ModuleIndex) :
    definition.claim index = (current, definition) := by
  simp [claim, present]

theorem claim_fst (definition : ModuleDefinition) (index : ModuleIndex) :
    (definition.claim index).1 = definition.index?.getD index := by
  cases present : definition.index? <;> simp [claim, present]

@[simp] theorem hasSlots_claim (definition : ModuleDefinition) (index : ModuleIndex) :
    (definition.claim index).2.hasSlots = definition.hasSlots := by
  cases present : definition.index? <;> simp [claim, present]

end ModuleDefinition

end StateBridge
