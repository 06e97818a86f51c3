import StateBridge.Host.Fleet
import StateBridge.Process.Basic
import StateBridge.Scenario.Step

set_option autoImplicit false

namespace StateBridge.Scenario

inductive Answer where
  | ok
  | handle (handle? : Option Handle)
  | flag (value : Bool)
  | number (value : Int)
  | size (size? : Option Nat)
  | text (text? : Option String)
  | index (index : ModuleIndex)
  | definition (definition : ModuleDefinition)
  | config (config : BridgeConfig)
  | stats (stats : UpcallStats)
  | pending (pending? : Option PendingError)
  | upcallError (error : UpcallError)
  | apiError (error : ApiError)
  | refused (refusal : Refusal)

namespace Answer

def ofModule (module? : Option ModuleHandle) : Answer := .handle (module?.map TypedHandle.handle)

def ofBits (bits : UInt64) : Answer := .handle (some ⟨bits⟩)

def ofUpcall {α : Type} (present : α → Answer) : Except UpcallError α → Answer
  | .ok value => present value
  | .error error => .upcallError error

def ofApi {α : Type} (present : α → Answer) : Except ApiError α → Answer
  | .ok value => present value
  | .error error => .apiError error

def handle? : Answer → Option Handle
  | .handle handle? => handle?
  | .text text? => (text?.bind bitsOfDigits?).map Handle.mk
  | _ => none

end Answer

inductive Event where
  | called (op : UpcallOp) (args : List Handle)
  | nested (answer : Answer)

-- Answers from queues, and else passes the upcall on to a host.
structure Script where
  queues : FiniteMap UpcallOp (List ScriptedAnswer)
  fallback? : Option RuntimeId

namespace Script

def ofQueues (queues : List Queue) (fallback? : Option RuntimeId) : Script :=
  ⟨queues.foldl (fun filled (.of op answers) => filled.insert op answers) .empty, fallback?⟩

def takeNext (script : Script) (op : UpcallOp) : Option ScriptedAnswer × Script :=
  match script.queues.find? op with
  | some (answer :: rest) => (some answer, { script with queues := script.queues.insert op rest })
  | _ => (none, script)

end Script

structure Stage where
  fleet : Fleet
  scripts : FiniteMap RuntimeId Script
  runtimeCount : Nat
  threadCount : Nat
  config : BridgeConfig
  runtimeNames : FiniteMap String RuntimeId
  bridgeNames : FiniteMap String BridgeId
  definitionNames : FiniteMap String DefinitionId
  threadNames : FiniteMap String ThreadId
  saved : SavedHandles
  events : List Event

namespace Stage

def empty (config : BridgeConfig) : Stage :=
  ⟨.empty, .empty, 0, 0, config, .empty, .empty, .empty, .empty, .empty, []⟩

def nameOfBridge? (stage : Stage) (bridge : BridgeId) : Option String :=
  (stage.bridgeNames.entries.find? fun entry => entry.2 = bridge).map Prod.fst

def addEvent (stage : Stage) (event : Event) : Stage :=
  { stage with events := stage.events ++ [event] }

def hostSizes (stage : Stage) : List (String × Nat × Nat) :=
  stage.runtimeNames.entries.filterMap fun (name, runtime) =>
    (stage.fleet.host? runtime).map fun host =>
      (name, host.liveObjects, host.registeredModuleCount)

end Stage

def reachable (process : Process Stage) (runtime : RuntimeId) : Bool :=
  process.world.runtimeNames.entries.any (fun entry => entry.2 = runtime) ||
    process.world.scripts.entries.any (fun entry => entry.2.fallback? = some runtime) ||
    process.bridges.entries.any (fun entry => entry.2.runtime = runtime)

def discardUnreachable (process : Process Stage) (runtime? : Option RuntimeId) : Process Stage :=
  match runtime? with
  | some runtime =>
    if reachable process runtime then process
    else
      { process with world :=
          { process.world with fleet := process.world.fleet.discard runtime } }
  | none => process

end StateBridge.Scenario
