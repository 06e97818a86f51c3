import StateBridge.Bridge.Dialogue
import StateBridge.Handle.Typed

set_option autoImplicit false

namespace StateBridge

namespace BridgeCall

def currentThreadState : BridgeCall UpcallError ThreadStateHandle := do
  -- Asked for each time: the managed side may switch threads between two calls.
  let op := UpcallOp.resolveCurrentThreadState
  let handle ← expectKind op (← ask op []) .threadState
  match ThreadStateHandle.ofHandle? handle with
  | some state => return state
  | none => throw .noThreadState

def dictOf (state : ThreadStateHandle) : BridgeCall UpcallError DictHandle := do
  let op := UpcallOp.threadStateDict
  let handle ← expectKind op (← ask op [state.handle]) .dict
  match DictHandle.ofHandle? handle with
  | some dict => return dict
  | none => throw (.unexpectedHandle op .dict handle.describe)

def threadStateDict : BridgeCall UpcallError DictHandle := do
  dictOf (← currentThreadState)

def indexArgument (op : UpcallOp) (index : ModuleIndex) : BridgeCall UpcallError Handle :=
  match index.toHandle? with
  | some handle => checked handle
  | none => throw (.invalidArgument op (.indexTooLarge index))

def optionalModule (op : UpcallOp) (handle : Handle) : Except UpcallError (Option ModuleHandle) :=
  (expectOptionalKind op handle .module).map fun handle? => handle?.bind ModuleHandle.ofHandle?

def findModuleByIndex (index : ModuleIndex) : BridgeCall UpcallError (Option ModuleHandle) :=
  match index.toHandle? with
  -- No handle can carry the index, so nothing was ever registered under it.
  | none => return none
  | some handle => do
    let op := UpcallOp.findModuleByIndex
    optionalModule op (← ask op [← checked handle])

def findModule (definition : DefinitionId) : BridgeCall UpcallError (Option ModuleHandle) := do
  let found ← look definition
  -- With slots, or without an index, a definition is never in the registry.
  if found.hasSlots then return none
  match found.index? with
  | some index => findModuleByIndex index
  | none => return none

def initModuleDefinition (definition : DefinitionId) : BridgeCall UpcallError ModuleIndex := do
  match (← look definition).index? with
  | some index => return index
  | none =>
    let op := UpcallOp.assignModuleIndex
    let handle ← expectKind op (← ask op []) .int
    match ModuleIndex.ofHandle? handle with
    -- Another caller can have been first meanwhile, and then its index counts.
    | some index => claim definition index
    | none => throw (.unexpectedHandle op .int handle.describe)

-- Adding the module that is already there is an error, adding another one replaces it.
def addModule (module : ModuleHandle) (definition? : Option DefinitionId) :
    BridgeCall ApiError Unit := do
  let some definition := definition?
    | abort addModuleFunction .nullModuleDefinition
  if (← look definition).hasSlots then throw (.moduleHasSlots addModuleFunction)
  let index ← asApi (initModuleDefinition definition)
  let op := UpcallOp.addModuleByIndex
  let argument ← asApi (indexArgument op index)
  let answer ← asApi (ask op [module.handle, argument])
  match ← asApi (optionalModule op answer) with
  -- The runtime has stored the module by now; storing it over itself changed nothing.
  | some previous =>
    if previous = module then throw (.moduleAlreadyAdded index)
    else note (.replaced module.handle previous.handle index)
  | none => note (.added module.handle index)

def removeModule (definition : DefinitionId) : BridgeCall ApiError Unit := do
  let found ← look definition
  if found.hasSlots then throw (.moduleHasSlots removeModuleFunction)
  let some index := found.index?
    | abort removeModuleFunction .zeroModuleIndex
  let op := UpcallOp.removeModuleByIndex
  let argument ← asApi (indexArgument op index)
  let answer ← asApi (ask op [argument])
  match ← asApi (optionalModule op answer) with
  | some removed => note (.removed removed.handle index)
  | none => note (.absent index)

end BridgeCall

end StateBridge
