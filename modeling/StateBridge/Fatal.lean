set_option autoImplicit false

namespace StateBridge

inductive FatalInvariant where
  | nullModuleDefinition
  | zeroModuleIndex
  deriving DecidableEq, Repr

def FatalInvariant.text : FatalInvariant → String
  | .nullModuleDefinition => "Module Definition is NULL"
  | .zeroModuleIndex => "Module index invalid."

structure FatalError where
  function : String
  invariant : FatalInvariant
  deriving DecidableEq, Repr

namespace FatalError

def message (error : FatalError) : String := error.function ++ ": " ++ error.invariant.text

def report (error : FatalError) : String := "Fatal Python error: " ++ error.message

end FatalError

end StateBridge
