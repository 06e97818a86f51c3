import StateBridge.Process.Basic

set_option autoImplicit false

namespace StateBridge

namespace RegistryNote

def message : RegistryNote → LogMessage
  | .added module index => .moduleAdded module index
  | .replaced module previous index => .moduleReplaced module previous index
  | .removed module index => .moduleRemoved module index
  | .absent index => .moduleAbsent index

-- A replaced module is always worth a warning; the other notes are traced on request.
def level (config : BridgeConfig) : RegistryNote → LogLevel
  | .replaced _ _ _ => .warn
  | _ => if config.traceModules then .info else .debug

end RegistryNote

namespace Process

variable {World α : Type}

def record (level : LogLevel) (message : LogMessage) : Run World Unit :=
  modify fun process => { process with log := process.log ++ [⟨level, message⟩] }

def upcall (gate : Gate World) (id : BridgeId) (bridge : Bridge) (thread : ThreadId)
    (op : UpcallOp) (args : List Handle) : Run World (Except UpcallError Handle) := do
  record (if bridge.config.traceUpcalls then .info else .trace) (.upcallIssued id op args)
  -- The runtime may call back into native code here; those calls are logged and counted first.
  let answer ← gate bridge.runtime thread op args
  if bridge.config.profile then
    modify fun process => process.countUpcall id op answer.isOk
  match answer with
  | .ok handle => record .trace (.upcallAnswered id op handle)
  | .error error => record .debug (.upcallFailed id op error)
  return answer

def perform (gate : Gate World) (id : BridgeId) (bridge : Bridge) (thread : ThreadId) :
    Dialogue α → Run World α
  | .done result => return result
  | .abort error => do
    record .error (.fatal error)
    throw (.fatal error)
  | .fault broken => throw (.fault broken)
  | .note line next => do
    record (line.level bridge.config) line.message
    perform gate id bridge thread next
  | .look definition next => do
    perform gate id bridge thread (next ((← get).definition definition))
  | .claim definition index next => do
    let (won, claimed) := ((← get).definition definition).claim index
    modify fun process => process.storeDefinition definition claimed
    perform gate id bridge thread (next won)
  | .ask op args next => do
    perform gate id bridge thread (next (← upcall gate id bridge thread op args))

def call {ε : Type} (gate : Gate World) (id : BridgeId) (thread : ThreadId)
    (call : BridgeCall ε α) : Run World (Except ε α) := do
  perform gate id ((← get).bridge id) thread call.run

end Process

end StateBridge
