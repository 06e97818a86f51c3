import Mathlib.Control.Monad.Basic
import StateBridge.Host.Call
import StateBridge.Proofs.Process.Evaluation

set_option autoImplicit false

namespace StateBridge

deriving instance DecidableEq for HostAnswer

def Host.runtime : Runtime Host := fun thread op args host => host.invoke thread op args

inductive ModuleRequest where
  | find (definition : DefinitionId)
  | findByIndex (index : ModuleIndex)
  | init (definition : DefinitionId)
  | add (module : ModuleHandle) (definition : DefinitionId)
  | remove (definition : DefinitionId)

inductive ModuleReply where
  | found (result : Except UpcallError (Option ModuleHandle))
  | index (result : Except UpcallError ModuleIndex)
  | status (result : Except ApiError Unit)
  deriving DecidableEq

inductive ThreadRequest where
  | current
  | currentDict
  | dictOf (state : ThreadStateHandle)

inductive Event where
  | modules (bridge : BridgeId) (thread : ThreadId) (request : ModuleRequest)
  | threads (bridge : BridgeId) (thread : ThreadId) (request : ThreadRequest)
  | direct (thread : ThreadId) (call : HostCall)
  | exit (thread : ThreadId)

inductive EventAnswer where
  | module (reply : ModuleReply)
  | state (result : Except UpcallError ThreadStateHandle)
  | dict (result : Except UpcallError DictHandle)
  | host (answer : HostAnswer)
  | exited (had : Bool)
  deriving DecidableEq

section

variable {World : Type} (gate : Gate World) (bridge : BridgeId) (thread : ThreadId)

def ModuleRequest.play : ModuleRequest → Run World ModuleReply
  | .find definition => .found <$> Process.call gate bridge thread (.findModule definition)
  | .findByIndex index => .found <$> Process.call gate bridge thread (.findModuleByIndex index)
  | .init definition => .index <$> Process.call gate bridge thread (.initModuleDefinition definition)
  | .add module definition =>
    .status <$> Process.call gate bridge thread (.addModule module (some definition))
  | .remove definition => .status <$> Process.call gate bridge thread (.removeModule definition)

def ThreadRequest.play : ThreadRequest → Run World EventAnswer
  | .current => .state <$> Process.call gate bridge thread .currentThreadState
  | .currentDict => .dict <$> Process.call gate bridge thread .threadStateDict
  | .dictOf state => .dict <$> Process.call gate bridge thread (.dictOf state)

end

def onHost {α : Type} (step : Host → Except Fault (α × Host)) : Run Host α := do
  let process ← get
  let (result, world) ← Run.ofChecked (step process.world)
  set { process with world }
  return result

namespace Event

def play : Event → Run Host EventAnswer
  | .modules bridge thread request => .module <$> request.play Host.runtime.gate bridge thread
  | .threads bridge thread request => request.play Host.runtime.gate bridge thread
  | .direct thread call => .host <$> onHost fun host => host.call thread call
  | .exit thread => .exited <$> onHost fun host => host.dropThreadState thread

end Event

def playAll : List Event → Run Host (List EventAnswer)
  | [] => return []
  | event :: rest => do
    let answer ← event.play
    return answer :: (← playAll rest)

namespace Process

variable {World α β : Type} {runtime : Runtime World} {thread : ThreadId} {process : Process World}

theorem outcome_eq_ok {ran : EStateM.Result Halt (Process World) α} {result : α}
    {shared : Shared World} (same : outcome ran = .ok (result, shared)) :
    ∃ after, ran = .ok result after ∧ after.shared = shared := by
  cases ran with
  | ok found after =>
    cases same
    exact ⟨after, rfl, rfl⟩
  | error halt after => cases same

theorem call_of_eval {ε : Type} {call : BridgeCall ε α} {result : Except ε α} {shared : Shared World}
    (evaluated : call.eval runtime thread process.shared = .ok (result, shared)) (id : BridgeId) :
    ∃ after, Process.call runtime.gate id thread call process = .ok result after ∧
      after.shared = shared :=
  outcome_eq_ok ((outcome_perform id (process.bridge id) call.run process).trans evaluated)

theorem map_of_ok {step : Run World α} {result : α} {after : Process World}
    (ran : step process = .ok result after) (present : α → β) :
    (present <$> step) process = .ok (present result) after := by
  change EStateM.map present step process = _
  rw [EStateM.map, ran]

end Process

end StateBridge
