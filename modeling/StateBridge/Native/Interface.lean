import StateBridge.Bridge.Operations
import StateBridge.Lock
import StateBridge.Process.Perform

set_option autoImplicit false

/-!
The entry points for extension code. Handles cross as raw bits. A result of 0, or -1 where a status is
returned, means that the calling thread's error indicator is set, or that there was nothing to find.
-/

namespace StateBridge.Native

variable {World α : Type}

open StateBridge.Process

def setError (thread : ThreadId) (error : ApiError) : Run World Unit := do
  record .debug (.indicatorSet error)
  modify fun process => process.setIndicator thread error.pending

/-- Carries out a call on the bridge that is installed now, whatever is installed meanwhile. -/
def onInstalled (gate : Gate World) (thread : ThreadId) (call : BridgeCall ApiError α) :
    Run World (Except ApiError α) := do
  match (← get).installed? with
  | none => return .error (.upcall .notAttached)
  | some bridge => Process.call gate bridge thread call

def reported (thread : ThreadId) : Except ApiError α → Run World (Option α)
  | .ok value => return some value
  | .error error => do
    setError thread error
    return none

def abort (function : String) (invariant : FatalInvariant) : Run World α := do
  let error : FatalError := ⟨function, invariant⟩
  record .error (.fatal error)
  throw (.fatal error)

def threadStateGet (gate : Gate World) (thread : ThreadId) : Run World UInt64 := do
  let result ← onInstalled gate thread (.asApi .currentThreadState)
  return match ← reported thread result with
    | some state => state.handle.bits
    | none => 0

def threadStateGetDict (gate : Gate World) (thread : ThreadId) : Run World UInt64 := do
  let result ← onInstalled gate thread (.asApi .threadStateDict)
  return match ← reported thread result with
    | some dict => dict.handle.bits
    | none => 0

def findModule (gate : Gate World) (thread : ThreadId) (definition? : Option DefinitionId) :
    Run World UInt64 := do
  match definition? with
  | none => return 0
  | some definition =>
    let result ← onInstalled gate thread (.asApi (.findModule definition))
    return match ← reported thread result with
      | some (some module) => module.handle.bits
      | _ => 0

def status : Option Unit → Int32
  | some () => 0
  | none => -1

def addModule (gate : Gate World) (thread : ThreadId) (bits : UInt64)
    (definition? : Option DefinitionId) : Run World Int32 := do
  match definition? with
  | none => abort addModuleFunction .nullModuleDefinition
  | some definition =>
    match ModuleHandle.ofHandle? ⟨bits⟩ with
    | none =>
      setError thread (.upcall (.invalidArgument .addModuleByIndex .notModuleHandle))
      return status none
    | some module =>
      let result ← onInstalled gate thread (.addModule module (some definition))
      return status (← reported thread result)

def removeModule (gate : Gate World) (thread : ThreadId) (definition? : Option DefinitionId) :
    Run World Int32 := do
  match definition? with
  | none => abort removeModuleFunction .nullModuleDefinition
  | some definition =>
    let result ← onInstalled gate thread (.removeModule definition)
    return status (← reported thread result)

def lockEnsure : Int32 := LockState.ensure.raw

-- Takes back a lock state. A value that was never handed out is tolerated.
def lockRelease (raw : Int32) : Unit :=
  match LockState.ofRaw? raw with
  | some state => state.release
  | none => ()

def errorOccurred (thread : ThreadId) : Run World Bool := do
  return ((← get).indicator? thread).isSome

def errorFetch (thread : ThreadId) : Run World (Option PendingError) := do
  let pending? := (← get).indicator? thread
  modify fun process => process.clearIndicator thread
  return pending?

def errorClear (thread : ThreadId) : Run World Unit :=
  modify fun process => process.clearIndicator thread

end StateBridge.Native
