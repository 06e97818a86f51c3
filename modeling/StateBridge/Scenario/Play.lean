import StateBridge.Native.Interface
import StateBridge.Scenario.Stage

set_option autoImplicit false

namespace StateBridge.Scenario

abbrev StageRun := Run Stage

abbrev Play := ExceptT Refusal StageRun

def stage : StageRun Stage := return (← get).world

def modifyStage (change : Stage → Stage) : StageRun Unit :=
  modify fun process => { process with world := change process.world }

def addEvent (event : Event) : StageRun Unit := modifyStage fun stage => stage.addEvent event

def named {α : Type} (names : Stage → FiniteMap String α) (name : String) : Play α := do
  (Refusal.unknownName name).unless ((names (← stage)).find? name)

def definitionNamed? : Option String → Play (Option DefinitionId)
  | none => return none
  | some name => return some (← named Stage.definitionNames name)

def evaluate (expr : HandleExpr) : Play Handle := do
  expr.eval (← stage).saved

def threadNamed (name : String) : StageRun ThreadId := do
  let current ← stage
  match current.threadNames.find? name with
  | some thread => return thread
  | none =>
    let thread : ThreadId := ⟨current.threadCount⟩
    modifyStage fun stage =>
      { stage with
        threadCount := stage.threadCount + 1
        threadNames := stage.threadNames.insert name thread }
    return thread

def exitThread (name : String) : StageRun Answer := do
  let current ← stage
  match current.threadNames.find? name with
  | none => return .flag false
  | some thread =>
    let fleet ← Run.ofChecked (current.fleet.exit thread)
    modifyStage fun stage =>
      { stage with fleet, threadNames := stage.threadNames.erase name }
    modify fun process => process.clearIndicator thread
    return .flag true

def callHost (runtime : RuntimeId) (thread : ThreadId) (request : HostCall) :
    StageRun (Option HostAnswer) := do
  let (answer?, fleet) ← Run.ofChecked ((← stage).fleet.call runtime thread request)
  modifyStage fun stage => { stage with fleet }
  return answer?

def upcallHost : Gate Stage := fun runtime thread op args => do
  match ← callHost runtime thread (.invoke op args) with
  | some (.upcall answer) => return answer
  | _ => return .error .notAttached

def newRuntime (name : String) (place : RuntimeId → Stage → Stage) : StageRun Unit := do
  let current ← stage
  let runtime : RuntimeId := ⟨current.runtimeCount⟩
  modifyStage fun stage =>
    place runtime
      { stage with
        runtimeCount := stage.runtimeCount + 1
        runtimeNames := stage.runtimeNames.insert name runtime }
  modify fun process => discardUnreachable process (current.runtimeNames.find? name)

def newHost (name : String) (explicitAttach : Bool) : StageRun Answer := do
  newRuntime name fun runtime stage =>
    { stage with fleet := stage.fleet.start runtime (.new explicitAttach) }
  return .ok

def newScript (name : String) (queues : List Queue) (fallback? : Option String) : Play Answer := do
  let fallback? ← match fallback? with
    | none => pure none
    | some name => some <$> named Stage.runtimeNames name
  newRuntime name fun runtime stage =>
    { stage with scripts := stage.scripts.insert runtime (.ofQueues queues fallback?) }
  return .ok

def newBridge (name runtimeName : String) (config? : Option BridgeConfig) : Play BridgeId := do
  let runtime ← named Stage.runtimeNames runtimeName
  let config := config?.getD (← stage).config
  let (bridge, process) := (← get).addBridge ⟨runtime, config⟩
  set process
  modifyStage fun stage => { stage with bridgeNames := stage.bridgeNames.insert name bridge }
  return bridge

def bridgeName (stage : Stage) (bridge? : Option BridgeId) : Option String :=
  bridge?.map fun bridge => (stage.nameOfBridge? bridge).getD "?"

def dropName (name : String) : StageRun Answer := do
  let current ← stage
  modifyStage fun stage =>
    { stage with
      runtimeNames := stage.runtimeNames.erase name
      bridgeNames := stage.bridgeNames.erase name }
  modify fun process => discardUnreachable process (current.runtimeNames.find? name)
  return .flag (current.runtimeNames.contains name || current.bridgeNames.contains name)

def hostCall (action : HostAction) : Play HostCall :=
  match action with
  | .attach => return .attach
  | .switch => return .switch
  | .detach => return .detach
  | .newModule name => return .newModule name
  | .moduleName module => return .moduleName (← moduleOf (← evaluate module))
  | .dictSet dict key value => do
    let dict ← dictOf (← evaluate dict)
    return .dictSet dict key (← evaluate value)
  | .dictGet dict key => return .dictGet (← dictOf (← evaluate dict)) key
  | .dictSize dict => return .dictSize (← dictOf (← evaluate dict))
  | .registeredModule index => return .registeredModule (← indexOf index)
  | .invoke op args => do
    let args ← args.mapM evaluate
    let op ← Refusal.unknownOp.unless (UpcallOp.ofName? op)
    return .invoke op args

def Answer.ofHost : HostAnswer → Answer
  | .threadState state => .handle (some state.handle)
  | .flag value => .flag value
  | .module module => .handle (some module.handle)
  | .name name? => .text name?
  | .entry value? => .handle value?
  | .size size? => .size size?
  | .registered module? => .ofModule module?
  | .upcall answer => .ofUpcall (fun handle => .handle (some handle)) answer

def playBridge (gate : Gate Stage) (thread : ThreadId) (bridge : BridgeId)
    (action : BridgeAction) : Play Answer :=
  let call {ε α : Type} (request : BridgeCall ε α) : Play (Except ε α) :=
    ExceptT.lift (Process.call gate bridge thread request)
  match action with
  | .currentThreadState =>
    return .ofUpcall (fun state => .handle (some state.handle)) (← call .currentThreadState)
  | .threadStateDict =>
    return .ofUpcall (fun dict => .handle (some dict.handle)) (← call .threadStateDict)
  | .dictOf state => do
    let state ← threadStateOf (← evaluate state)
    return .ofUpcall (fun dict => .handle (some dict.handle)) (← call (.dictOf state))
  | .findModule definition => do
    let definition ← named Stage.definitionNames definition
    return .ofUpcall .ofModule (← call (.findModule definition))
  | .findModuleByIndex index => do
    let index ← indexOf index
    return .ofUpcall .ofModule (← call (.findModuleByIndex index))
  | .initModuleDefinition definition => do
    let definition ← named Stage.definitionNames definition
    return .ofUpcall .index (← call (.initModuleDefinition definition))
  | .addModule module definition? => do
    let module ← moduleOf (← evaluate module)
    let definition? ← definitionNamed? definition?
    return .ofApi (fun () => .ok) (← call (.addModule module definition?))
  | .removeModule definition => do
    let definition ← named Stage.definitionNames definition
    return .ofApi (fun () => .ok) (← call (.removeModule definition))
  | .stats => return .stats ((← get).bridgeStats bridge)
  | .config => return .config ((← get).bridge bridge).config
  | .describe => do
    let process ← get
    return .text (some ((process.bridge bridge).describe (process.bridgeStats bridge)))

def playNative (gate : Gate Stage) (thread : ThreadId) (action : NativeAction) : Play Answer :=
  match action with
  | .threadStateGet => return .ofBits (← Native.threadStateGet gate thread)
  | .threadStateGetDict => return .ofBits (← Native.threadStateGetDict gate thread)
  | .findModule definition? => do
    let definition? ← definitionNamed? definition?
    return .ofBits (← Native.findModule gate thread definition?)
  | .addModule module definition? => do
    let module ← evaluate module
    let definition? ← definitionNamed? definition?
    return .number (← Native.addModule gate thread module.bits definition?).toInt
  | .removeModule definition? => do
    let definition? ← definitionNamed? definition?
    return .number (← Native.removeModule gate thread definition?).toInt
  | .lockEnsure => return .number Native.lockEnsure.toInt
  | .lockRelease raw => do
    let () := Native.lockRelease raw
    return .ok
  | .errorOccurred => do
    let occurred ← (Native.errorOccurred thread : StageRun Bool)
    return .number (if occurred then 1 else 0)
  | .errorClear => do
    (Native.errorClear thread : StageRun Unit)
    return .ok

def playAction (gate : Gate Stage) (thread : ThreadId) (action : Action) : Play Answer :=
  match action with
  | .newHost name explicitAttach => newHost name explicitAttach
  | .newBridge name runtime config? => do
    let _ ← newBridge name runtime config?
    return .ok
  | .newDefinition name definition => do
    let (id, process) := (← get).addDefinition definition
    set process
    modifyStage fun stage =>
      { stage with definitionNames := stage.definitionNames.insert name id }
    return .ok
  | .getDefinition name => do
    return .definition ((← get).definition (← named Stage.definitionNames name))
  | .drop name => dropName name
  | .install name runtime config? => do
    let before ← stage
    let bridge ← newBridge name runtime config?
    let (replaced?, process) := (← get).install bridge
    set process
    return .text (bridgeName before replaced?)
  | .uninstall => do
    let (removed?, process) := (← get).uninstall
    set process
    return .text (bridgeName (← stage) removed?)
  | .installed => return .text (bridgeName (← stage) (← get).installed?)
  | .withBridge => do
    match (← get).installed? with
    | none => return .upcallError .notAttached
    | some bridge => return .size (some ((← get).bridgeStats bridge).total.toNat)
  | .bridge name action => do playBridge gate thread (← named Stage.bridgeNames name) action
  | .host name action => do
    let runtime ← named Stage.runtimeNames name
    let request ← hostCall action
    match ← callHost runtime thread request with
    | some answer => return .ofHost answer
    | none => throw (.unknownName name)
  | .native action => playNative gate thread action
  | .errorOccurred => return .flag (← (Native.errorOccurred thread : StageRun Bool))
  | .errorFetch => return .pending (← (Native.errorFetch thread : StageRun (Option PendingError)))
  | .errorClear => do
    (Native.errorClear thread : StageRun Unit)
    return .ok

def answered (play : Play Answer) : StageRun Answer := do
  match ← play.run with
  | .ok answer => return answer
  | .error refusal => return .refused refusal

def playStep (gate : Gate Stage) (thread : ThreadId) : Step → StageRun Answer
  | .act _ action saveAs? => do
    let answer ← answered (playAction gate thread action)
    modifyStage fun stage =>
      { stage with saved := saveAs stage.saved saveAs? answer.handle? }
    return answer
  | .newScript _ name script fallback? => answered (newScript name script fallback?)
  | .exitThread _ => return .refused .insideUpcall

def playNested (gate : Gate Stage) (thread : ThreadId) : List Step → StageRun Unit
  | [] => return ()
  | step :: rest => do
    addEvent (.nested (← playStep gate thread step))
    playNested gate thread rest

def upcallScript (nested : ThreadId → List Step → StageRun Unit) (script : Script) : Gate Stage :=
  fun runtime thread op args => do
    let forward : StageRun (Except UpcallError Handle) :=
      match script.fallback? with
      | some host => upcallHost host thread op args
      | none => return .error (.unsupported op)
    addEvent (.called op args)
    let (next?, rest) := script.takeNext op
    modifyStage fun stage => { stage with scripts := stage.scripts.insert runtime rest }
    match next? with
    | none => forward
    | some (.after during outcome?) =>
      nested thread during
      match outcome? with
      | none => forward
      | some (.error error) => return .error error
      | some (.ok expr) =>
        match expr.eval (← stage).saved with
        | .ok handle => return .ok handle
        | .error _ => forward

-- Steps taken during an upcall make upcalls of their own, to one level less each time.
def gate : Nat → Gate Stage
  | 0 => answerFrom fun _ _ => return ()
  | depth + 1 => answerFrom (playNested (gate depth))
where
  answerFrom (nested : ThreadId → List Step → StageRun Unit) : Gate Stage :=
    fun runtime thread op args => do
      match (← stage).scripts.find? runtime with
      | some script => upcallScript nested script runtime thread op args
      | none => upcallHost runtime thread op args

end StateBridge.Scenario
