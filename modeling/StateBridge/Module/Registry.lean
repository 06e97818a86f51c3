import StateBridge.FiniteMap
import StateBridge.Handle.Typed
import StateBridge.Module.Index

set_option autoImplicit false

namespace StateBridge

structure ModuleRegistry where
  byIndex : FiniteMap ModuleIndex ModuleHandle

namespace ModuleRegistry

def empty : ModuleRegistry := ⟨.empty⟩

instance : Inhabited ModuleRegistry := ⟨empty⟩

def find? (registry : ModuleRegistry) (index : ModuleIndex) : Option ModuleHandle :=
  registry.byIndex.find? index

def contains (registry : ModuleRegistry) (index : ModuleIndex) : Bool :=
  registry.byIndex.contains index

def size (registry : ModuleRegistry) : Nat := registry.byIndex.size

def isEmpty (registry : ModuleRegistry) : Bool := registry.byIndex.isEmpty

def insert (registry : ModuleRegistry) (index : ModuleIndex) (module : ModuleHandle) :
    Option ModuleHandle × ModuleRegistry :=
  (registry.find? index, ⟨registry.byIndex.insert index module⟩)

def remove (registry : ModuleRegistry) (index : ModuleIndex) :
    Option ModuleHandle × ModuleRegistry :=
  (registry.find? index, ⟨registry.byIndex.erase index⟩)

def toSortedList (registry : ModuleRegistry) : List (ModuleIndex × ModuleHandle) :=
  registry.byIndex.entries.mergeSort fun first second => first.1.value ≤ second.1.value

@[simp] theorem find?_empty (index : ModuleIndex) : empty.find? index = none := rfl

theorem find?_insert (registry : ModuleRegistry) (index other : ModuleIndex)
    (module : ModuleHandle) :
    (registry.insert index module).2.find? other =
      if other = index then some module else registry.find? other := by
  simp [find?, insert, FiniteMap.find?_insert]

theorem find?_remove (registry : ModuleRegistry) (index other : ModuleIndex) :
    (registry.remove index).2.find? other =
      if other = index then none else registry.find? other := by
  simp [find?, remove, FiniteMap.find?_erase]

end ModuleRegistry

end StateBridge
