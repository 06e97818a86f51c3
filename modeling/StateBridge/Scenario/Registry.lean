import StateBridge.Module.Registry
import StateBridge.Scenario.Expression

set_option autoImplicit false

namespace StateBridge.Scenario

inductive RegistryStep where
  | insert (index : Nat) (module : HandleExpr)
  | get (index : Nat)
  | remove (index : Nat)
  | contains (index : Nat)
  | list

inductive RegistryAnswer where
  | module (module? : Option ModuleHandle)
  | flag (value : Bool)
  | entries (entries : List (ModuleIndex × ModuleHandle))
  | refused (refusal : Refusal)

def playRegistry (registry : ModuleRegistry) :
    RegistryStep → Except Refusal (RegistryAnswer × ModuleRegistry)
  | .insert index module => do
    let handle ← module.eval .empty
    let index ← indexOf index
    let (replaced?, registry) := registry.insert index (← moduleOf handle)
    return (.module replaced?, registry)
  | .get index => do
    return (.module (registry.find? (← indexOf index)), registry)
  | .remove index => do
    let (removed?, registry) := registry.remove (← indexOf index)
    return (.module removed?, registry)
  | .contains index => do
    return (.flag (registry.contains (← indexOf index)), registry)
  | .list => return (.entries registry.toSortedList, registry)

def runRegistryFrom : ModuleRegistry → List RegistryStep → List (RegistryAnswer × Nat × Bool)
  | _, [] => []
  | registry, step :: rest =>
    let (answer, registry) :=
      match playRegistry registry step with
      | .ok played => played
      | .error refusal => (.refused refusal, registry)
    (answer, registry.size, registry.isEmpty) :: runRegistryFrom registry rest

def runRegistry (steps : List RegistryStep) : List (RegistryAnswer × Nat × Bool) :=
  runRegistryFrom .empty steps

end StateBridge.Scenario
