import StateBridge.ApiError
import StateBridge.Fatal

set_option autoImplicit false

namespace StateBridge

inductive LogLevel where
  | error
  | warn
  | info
  | debug
  | trace
  deriving DecidableEq, Repr

def LogLevel.name : LogLevel → String
  | .error => "ERROR"
  | .warn => "WARN"
  | .info => "INFO"
  | .debug => "DEBUG"
  | .trace => "TRACE"

structure BridgeId where
  number : Nat
  deriving DecidableEq, Repr, Inhabited

inductive LogMessage where
  | upcallIssued (bridge : BridgeId) (op : UpcallOp) (args : List Handle)
  | upcallAnswered (bridge : BridgeId) (op : UpcallOp) (handle : Handle)
  | upcallFailed (bridge : BridgeId) (op : UpcallOp) (error : UpcallError)
  | moduleAdded (module : Handle) (index : ModuleIndex)
  | moduleReplaced (module previous : Handle) (index : ModuleIndex)
  | moduleRemoved (module : Handle) (index : ModuleIndex)
  | moduleAbsent (index : ModuleIndex)
  | indicatorSet (error : ApiError)
  | fatal (error : FatalError)
  deriving DecidableEq, Repr

def LogMessage.text : LogMessage → String
  | .upcallIssued _ op args => "upcall " ++ op.name ++ " " ++ Handle.describeAll args
  | .upcallAnswered _ op handle => "upcall " ++ op.name ++ " -> " ++ handle.describe
  | .upcallFailed _ op error => "upcall " ++ op.name ++ " failed: " ++ error.message
  | .moduleAdded module index =>
    addModuleFunction ++ ": module " ++ module.describe ++ " added at index " ++ index.text
  | .moduleReplaced module previous index =>
    addModuleFunction ++ ": module " ++ module.describe ++ " replaced " ++ previous.describe ++
      " at index " ++ index.text
  | .moduleRemoved module index =>
    removeModuleFunction ++ ": module " ++ module.describe ++ " removed from index " ++ index.text
  | .moduleAbsent index => removeModuleFunction ++ ": index " ++ index.text ++ " had no module"
  | .indicatorSet error =>
    "error indicator set: " ++ error.exceptionClass.name ++ ": " ++ error.message
  | .fatal error => error.message

structure LogRecord where
  level : LogLevel
  message : LogMessage
  deriving DecidableEq, Repr

end StateBridge
