import StateBridge.Bridge.Basic
import StateBridge.Bridge.Dialogue
import StateBridge.FiniteMap
import StateBridge.Log

set_option autoImplicit false

namespace StateBridge

structure Process (World : Type) where
  world : World
  definitions : FiniteMap DefinitionId ModuleDefinition
  bridges : FiniteMap BridgeId Bridge
  stats : FiniteMap BridgeId UpcallStats
  installed? : Option BridgeId
  indicators : FiniteMap ThreadId PendingError
  log : List LogRecord

inductive Halt where
  | fatal (error : FatalError)
  | fault (fault : Fault)
  deriving DecidableEq, Repr

/-- A step of a process. One that halts still shows the process as it was at that moment. -/
abbrev Run (World : Type) := EStateM Halt (Process World)

/-- The whole process is at hand, so that a runtime can call back into native code before it answers. -/
abbrev Gate (World : Type) :=
  RuntimeId → ThreadId → UpcallOp → List Handle → Run World (Except UpcallError Handle)

def Run.ofChecked {World α : Type} : Except Fault α → Run World α
  | .ok result => return result
  | .error broken => throw (.fault broken)

namespace Process

variable {World : Type}

def start (world : World) : Process World := ⟨world, .empty, .empty, .empty, none, .empty, []⟩

def definition (process : Process World) (id : DefinitionId) : ModuleDefinition :=
  (process.definitions.find? id).getD .fresh

def bridge (process : Process World) (id : BridgeId) : Bridge :=
  (process.bridges.find? id).getD default

def bridgeStats (process : Process World) (id : BridgeId) : UpcallStats :=
  (process.stats.find? id).getD .zero

def storeDefinition (process : Process World) (id : DefinitionId)
    (definition : ModuleDefinition) : Process World :=
  { process with definitions := process.definitions.insert id definition }

def countUpcall (process : Process World) (id : BridgeId) (op : UpcallOp) (succeeded : Bool) :
    Process World :=
  { process with stats := process.stats.insert id ((process.bridgeStats id).hit op succeeded) }

def addDefinition (process : Process World) (definition : ModuleDefinition) :
    DefinitionId × Process World :=
  let id : DefinitionId := ⟨process.definitions.size⟩
  (id, process.storeDefinition id definition)

def addBridge (process : Process World) (bridge : Bridge) : BridgeId × Process World :=
  let id : BridgeId := ⟨process.bridges.size⟩
  (id, { process with bridges := process.bridges.insert id bridge })

def install (process : Process World) (id : BridgeId) : Option BridgeId × Process World :=
  (process.installed?, { process with installed? := some id })

def uninstall (process : Process World) : Option BridgeId × Process World :=
  (process.installed?, { process with installed? := none })

def indicator? (process : Process World) (thread : ThreadId) : Option PendingError :=
  process.indicators.find? thread

def setIndicator (process : Process World) (thread : ThreadId) (pending : PendingError) :
    Process World :=
  { process with indicators := process.indicators.insert thread pending }

def clearIndicator (process : Process World) (thread : ThreadId) : Process World :=
  { process with indicators := process.indicators.erase thread }

@[simp] theorem definition_storeDefinition_self (process : Process World) (id : DefinitionId)
    (definition : ModuleDefinition) :
    (process.storeDefinition id definition).definition id = definition := by
  simp [Process.definition, storeDefinition]

theorem definition_storeDefinition_of_ne (process : Process World) {id other : DefinitionId}
    (definition : ModuleDefinition) (differ : other ≠ id) :
    (process.storeDefinition id definition).definition other = process.definition other := by
  simp [Process.definition, storeDefinition, FiniteMap.find?_insert_of_ne _ _ differ]

@[simp] theorem bridgeStats_countUpcall_self (process : Process World) (id : BridgeId)
    (op : UpcallOp) (succeeded : Bool) :
    (process.countUpcall id op succeeded).bridgeStats id =
      (process.bridgeStats id).hit op succeeded := by
  simp [bridgeStats, countUpcall]

theorem bridgeStats_countUpcall_of_ne (process : Process World) {id other : BridgeId}
    (op : UpcallOp) (succeeded : Bool) (differ : other ≠ id) :
    (process.countUpcall id op succeeded).bridgeStats other = process.bridgeStats other := by
  simp [bridgeStats, countUpcall, FiniteMap.find?_insert_of_ne _ _ differ]

@[simp] theorem indicator?_setIndicator_self (process : Process World) (thread : ThreadId)
    (pending : PendingError) :
    (process.setIndicator thread pending).indicator? thread = some pending := by
  simp [indicator?, setIndicator]

@[simp] theorem indicator?_clearIndicator_self (process : Process World) (thread : ThreadId) :
    (process.clearIndicator thread).indicator? thread = none := by
  simp [indicator?, clearIndicator]

end Process

end StateBridge
