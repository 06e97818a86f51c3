import StateBridge.Handle.Text
import StateBridge.Module.Index
import StateBridge.Upcall.Operation

set_option autoImplicit false

namespace StateBridge

inductive ArgumentProblem where
  | wrongCount (expected given : Nat)
  | indexNotPositive
  | indexTooLarge (index : ModuleIndex)
  | notLiveModule
  | notLiveThreadState
  | notModuleHandle
  | worded (text : String)
  deriving DecidableEq, Repr

def ArgumentProblem.text : ArgumentProblem → String
  | .wrongCount expected given => s!"expected {expected} argument(s), got {given}"
  | .indexNotPositive => "module index must be a positive int"
  | .indexTooLarge index => s!"module index {index.text} does not fit a handle"
  | .notLiveModule => "not a live module"
  | .notLiveThreadState => "not a live thread state"
  | .notModuleHandle => "expected a " ++ HandleKind.module.name ++ " handle"
  | .worded text => text

inductive UpcallError where
  | notAttached
  | noThreadState
  | invalidArgument (op : UpcallOp) (problem : ArgumentProblem)
  | unexpectedHandle (op : UpcallOp) (expected : HandleKind) (found : String)
  | managed (text : String)
  deriving DecidableEq, Repr

namespace UpcallError

def message : UpcallError → String
  | .notAttached => "no managed runtime is attached to the bridge"
  | .noThreadState => "no current thread state"
  | .invalidArgument op problem => op.name ++ ": invalid argument: " ++ problem.text
  | .unexpectedHandle op expected found =>
    op.name ++ ": expected a " ++ expected.name ++ " handle, got " ++ found
  | .managed text => text

def indexSpaceExhausted : UpcallError :=
  .managed (UpcallOp.assignModuleIndex.name ++ ": module index space exhausted")

def unsupported (op : UpcallOp) : UpcallError := .managed (op.name ++ " unsupported")

end UpcallError

def expectKind (op : UpcallOp) (handle : Handle) (expected : HandleKind) :
    Except UpcallError Handle :=
  if handle.isKind expected then .ok handle
  else .error (.unexpectedHandle op expected handle.describe)

def expectOptionalKind (op : UpcallOp) (handle : Handle) (expected : HandleKind) :
    Except UpcallError (Option Handle) :=
  if handle.isNull then .ok none
  else (expectKind op handle expected).map some

end StateBridge
