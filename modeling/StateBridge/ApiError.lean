import StateBridge.Upcall.Error

set_option autoImplicit false

namespace StateBridge

inductive ExceptionClass where
  | systemError
  | typeError
  | runtimeError
  deriving DecidableEq, Repr

def ExceptionClass.name : ExceptionClass → String
  | .systemError => "SystemError"
  | .typeError => "TypeError"
  | .runtimeError => "RuntimeError"

def addModuleFunction : String := "PyState_AddModule"
def removeModuleFunction : String := "PyState_RemoveModule"

inductive ApiError where
  | moduleHasSlots (function : String)
  | moduleAlreadyAdded (index : ModuleIndex)
  | upcall (error : UpcallError)
  deriving DecidableEq, Repr

namespace ApiError

def message : ApiError → String
  | .moduleHasSlots function => function ++ " called on module with slots"
  | .moduleAlreadyAdded index => "module already added at index " ++ index.text
  | .upcall error => error.message

def exceptionClass : ApiError → ExceptionClass
  | .moduleHasSlots _ => .systemError
  | .moduleAlreadyAdded _ => .systemError
  | .upcall (.invalidArgument _ _) => .typeError
  | .upcall _ => .runtimeError

end ApiError

structure PendingError where
  exceptionClass : ExceptionClass
  message : String
  deriving DecidableEq, Repr

def ApiError.pending (error : ApiError) : PendingError := ⟨error.exceptionClass, error.message⟩

end StateBridge
