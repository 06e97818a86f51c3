import StateBridge.Proofs.Bridge.Answers
import StateBridge.Proofs.Native.Requests
import StateBridge.Proofs.Process.Exchanges

set_option autoImplicit false

namespace StateBridge

inductive BridgeRequest where
  | threads (request : ThreadRequest)
  | modules (request : ModuleRequest)
  | addUndefined (module : ModuleHandle)

def ThreadRequest.dialogue : ThreadRequest → Dialogue EventAnswer
  | .current => .state <$> BridgeCall.currentThreadState.run
  | .currentDict => .dict <$> BridgeCall.threadStateDict.run
  | .dictOf state => .dict <$> (BridgeCall.dictOf state).run

def ModuleRequest.dialogue : ModuleRequest → Dialogue ModuleReply
  | .find definition => .found <$> (BridgeCall.findModule definition).run
  | .findByIndex index => .found <$> (BridgeCall.findModuleByIndex index).run
  | .init definition => .index <$> (BridgeCall.initModuleDefinition definition).run
  | .add module definition => .status <$> (BridgeCall.addModule module (some definition)).run
  | .remove definition => .status <$> (BridgeCall.removeModule definition).run

namespace BridgeRequest

def dialogue : BridgeRequest → Dialogue EventAnswer
  | .threads request => request.dialogue
  | .modules request => .module <$> request.dialogue
  | .addUndefined module =>
    (fun result => .module (.status result)) <$> (BridgeCall.addModule module none).run

def failed : BridgeRequest → UpcallError → EventAnswer
  | .threads .current, error => .state (.error error)
  | .threads .currentDict, error | .threads (.dictOf _), error => .dict (.error error)
  | .modules (.find _), error | .modules (.findByIndex _), error => .module (.found (.error error))
  | .modules (.init _), error => .module (.index (.error error))
  | .modules (.add _ _), error | .modules (.remove _), error | .addUndefined _, error =>
    .module (.status (.error (.upcall error)))

variable {World : Type} (gate : Gate World) (bridge : BridgeId) (thread : ThreadId)

def play : BridgeRequest → Run World EventAnswer
  | .threads request => request.play gate bridge thread
  | .modules request => .module <$> request.play gate bridge thread
  | .addUndefined module =>
    (fun result => .module (.status result)) <$>
      Process.call gate bridge thread (.addModule module none)

def exchanges (request : BridgeRequest) (process : Process World) : List (Exchange World) :=
  Process.exchanges gate bridge (process.bridge bridge) thread request.dialogue process

variable {gate bridge thread}

theorem map_call {ε α β : Type} (present : Except ε α → β) (call : BridgeCall ε α) :
    present <$> Process.call gate bridge thread call = (do
      Process.perform gate bridge ((← get).bridge bridge) thread (present <$> call.run)) := by
  simp only [Process.perform_map, Process.call, map_bind]

theorem threads_play_eq (request : ThreadRequest) : request.play gate bridge thread = (do
    Process.perform gate bridge ((← get).bridge bridge) thread request.dialogue) := by
  cases request <;> exact map_call _ _

theorem modules_play_eq (request : ModuleRequest) : request.play gate bridge thread = (do
    Process.perform gate bridge ((← get).bridge bridge) thread request.dialogue) := by
  cases request <;> exact map_call _ _

theorem play_eq (request : BridgeRequest) (process : Process World) :
    request.play gate bridge thread process =
      Process.perform gate bridge (process.bridge bridge) thread request.dialogue process := by
  cases request with
  | threads request =>
    rw [play, threads_play_eq]
    rfl
  | modules request =>
    rw [play, modules_play_eq, map_bind]
    simp only [dialogue, Process.perform_map]
    rfl
  | addUndefined module =>
    rw [play, map_call]
    rfl

end BridgeRequest

namespace Dialogue

def inquire {α β : Type} (failed : UpcallError → β) (op : UpcallOp) (args : List Handle)
    (judge : Handle → Except UpcallError α) (next : α → Dialogue β) : Dialogue β :=
  .ask op args fun answer =>
    match answer.bind judge with
    | .ok value => next value
    | .error error => .done (failed error)

variable {α β γ : Type} {op : UpcallOp} {args : List Handle} {judge : Handle → Except UpcallError α}

theorem map_inquire (present : β → γ) (failed : UpcallError → β) (next : α → Dialogue β) :
    present <$> inquire failed op args judge next =
      inquire (fun error => present (failed error)) op args judge fun value => present <$> next value := by
  refine congrArg (Dialogue.ask op args) (funext fun answer => ?_)
  beta_reduce
  cases answer.bind judge <;> rfl

end Dialogue

namespace BridgeCall

open Dialogue (inquire)

variable {α β : Type}

def asked (op : UpcallOp) (args : List Handle) (judge : Handle → Except UpcallError α) :
    BridgeCall UpcallError α := do
  let answer ← ask op args
  liftM (judge answer)

theorem run_asked_bind (op : UpcallOp) (args : List Handle) (judge : Handle → Except UpcallError α)
    (next : α → BridgeCall UpcallError β) :
    (asked op args judge >>= next).run = inquire .error op args judge fun value => (next value).run := by
  refine congrArg (Dialogue.ask op args) (funext fun answer => ?_)
  cases answer with
  | error error => rfl
  | ok handle =>
    change ExceptT.run (liftM (judge handle) >>= next) =
      match judge handle with | .ok value => _ | .error error => _
    cases judge handle <;> rfl

theorem run_asked (op : UpcallOp) (args : List Handle) (judge : Handle → Except UpcallError α) :
    (asked op args judge).run = inquire .error op args judge fun value => .done (.ok value) := by
  have same := run_asked_bind op args judge (pure : α → BridgeCall UpcallError α)
  rw [bind_pure] at same
  exact same

theorem run_asApi_asked_bind (op : UpcallOp) (args : List Handle)
    (judge : Handle → Except UpcallError α) (next : α → BridgeCall ApiError β) :
    (asApi (asked op args judge) >>= next).run =
      inquire (fun error => .error (.upcall error)) op args judge fun value => (next value).run := by
  refine congrArg (Dialogue.ask op args) (funext fun answer => ?_)
  cases answer with
  | error error => rfl
  | ok handle =>
    change ExceptT.run (asApi (liftM (judge handle)) >>= next) =
      match judge handle with | .ok value => _ | .error error => _
    cases judge handle <;> rfl

theorem asked_typed {op : UpcallOp} {args : List Handle} {wrap? : Handle → Option α}
    {unwrapped : Handle → UpcallError} {wrap : Handle → BridgeCall UpcallError α}
    (wraps : ∀ handle, wrap handle = match wrap? handle with
      | some value => pure value
      | none => throw (unwrapped handle)) : (do
        let handle ← expectKind op (← ask op args) op.expected
        wrap handle) = asked op args (typedAnswer op wrap? unwrapped) := by
  refine congrArg (ask op args >>= ·) (funext fun answer => ?_)
  unfold typedAnswer
  cases expectKind op answer op.expected with
  | error error => rfl
  | ok handle =>
    change wrap handle = liftM (match wrap? handle with
      | some value => pure value
      | none => throw (unwrapped handle) : Except UpcallError α)
    rw [wraps]
    cases wrap? handle <;> rfl

theorem currentThreadState_eq :
    currentThreadState = asked .resolveCurrentThreadState [] stateAnswer := by
  unfold currentThreadState
  exact asked_typed fun handle => by cases ThreadStateHandle.ofHandle? handle <;> rfl

theorem dictOf_eq (state : ThreadStateHandle) :
    dictOf state = asked .threadStateDict [state.handle] dictAnswer := by
  unfold dictOf
  exact asked_typed fun handle => by cases DictHandle.ofHandle? handle <;> rfl

theorem findModuleByIndex_of_fits {index : ModuleIndex} {handle : Handle}
    (carried : index.toHandle? = some (.ok handle)) :
    findModuleByIndex index =
      asked .findModuleByIndex [handle] (optionalModule .findModuleByIndex) := by
  unfold findModuleByIndex
  rw [carried]
  rfl

theorem findModuleByIndex_of_not_fits {index : ModuleIndex} (wide : ¬ index.Fits) :
    findModuleByIndex index = pure none := by
  unfold findModuleByIndex
  rw [ModuleIndex.toHandle?_of_not_fits wide]

theorem indexArgument_bind_of_fits (op : UpcallOp) {index : ModuleIndex} {handle : Handle}
    (carried : index.toHandle? = some (.ok handle)) (next : Handle → BridgeCall UpcallError β) :
    indexArgument op index >>= next = next handle := by
  unfold indexArgument
  rw [carried]
  rfl

theorem indexArgument_bind_of_not_fits (op : UpcallOp) {index : ModuleIndex} (wide : ¬ index.Fits)
    (next : Handle → BridgeCall UpcallError β) :
    indexArgument op index >>= next = throw (.invalidArgument op (.indexTooLarge index)) := by
  unfold indexArgument
  rw [ModuleIndex.toHandle?_of_not_fits wide]
  rfl

def withdrawModule (index : ModuleIndex) : BridgeCall UpcallError (Option ModuleHandle) := do
  let argument ← indexArgument .removeModuleByIndex index
  let answer ← ask .removeModuleByIndex [argument]
  optionalModule .removeModuleByIndex answer

def reportWithdrawn (index : ModuleIndex) : Option ModuleHandle → BridgeCall ApiError Unit
  | some removed => note (.removed removed.handle index)
  | none => note (.absent index)

theorem removeModule_eq (definition : DefinitionId) : removeModule definition = (do
    let found ← look definition
    if found.hasSlots then throw (.moduleHasSlots removeModuleFunction)
    else match found.index? with
      | some index => asApi (withdrawModule index) >>= reportWithdrawn index
      | none => abort removeModuleFunction .zeroModuleIndex) := by
  simp only [withdrawModule, asApi_bind, bind_assoc]
  unfold removeModule
  congr 1
  funext found
  cases found.index? <;> rfl

theorem assignedIndex_eq (answer : Except UpcallError Handle) :
    assignedIndex answer = answer.bind indexAnswer := by
  cases answer with
  | error error => rfl
  | ok handle =>
    unfold assignedIndex
    simp only [Except.bind, bind, indexAnswer, typedAnswer, UpcallOp.expected]
    cases expectKind .assignModuleIndex handle .int with
    | error error => rfl
    | ok handle =>
      dsimp only
      cases ModuleIndex.ofHandle? handle <;> rfl

theorem run_init_bind (definition : DefinitionId) (next : ModuleIndex → BridgeCall ApiError β) :
    (asApi (initModuleDefinition definition) >>= next).run = .look definition fun found =>
      match found.index? with
      | some index => (next index).run
      | none => inquire (fun error => .error (.upcall error)) .assignModuleIndex [] indexAnswer
          fun index => .claim definition index fun won => (next won).run := by
  change Dialogue.bind (Dialogue.bind (initModuleDefinition definition).run _) _ = _
  rw [run_initModuleDefinition]
  refine congrArg (Dialogue.look definition) (funext fun found => ?_)
  beta_reduce
  cases found.index? with
  | some index => rfl
  | none =>
    refine congrArg (Dialogue.ask UpcallOp.assignModuleIndex []) (funext fun answer => ?_)
    simp only [assignedIndex_eq]
    cases answer.bind indexAnswer <;> rfl

end BridgeCall

namespace BridgeRequest

open Dialogue (inquire map_inquire)
open BridgeCall

theorem dialogue_current : (threads .current).dialogue =
    inquire (threads .current).failed .resolveCurrentThreadState [] stateAnswer fun state =>
      .done (.state (.ok state)) := by
  rw [dialogue, ThreadRequest.dialogue, currentThreadState_eq, run_asked, map_inquire]
  rfl

theorem dialogue_dictOf (state : ThreadStateHandle) : (threads (.dictOf state)).dialogue =
    inquire (threads (.dictOf state)).failed .threadStateDict [state.handle] dictAnswer fun dict =>
      .done (.dict (.ok dict)) := by
  rw [dialogue, ThreadRequest.dialogue, dictOf_eq, run_asked, map_inquire]
  rfl

theorem dialogue_currentDict : (threads .currentDict).dialogue =
    inquire (threads .currentDict).failed .resolveCurrentThreadState [] stateAnswer fun state =>
      (threads (.dictOf state)).dialogue := by
  rw [dialogue, ThreadRequest.dialogue, threadStateDict, currentThreadState_eq, run_asked_bind,
    map_inquire]
  rfl

theorem dialogue_findByIndex_of_fits {index : ModuleIndex} {handle : Handle}
    (carried : index.toHandle? = some (.ok handle)) : (modules (.findByIndex index)).dialogue =
      inquire (modules (.findByIndex index)).failed .findModuleByIndex [handle]
        (optionalModule .findModuleByIndex) fun module? => .done (.module (.found (.ok module?))) := by
  rw [dialogue, ModuleRequest.dialogue, findModuleByIndex_of_fits carried, run_asked, map_inquire,
    map_inquire]
  rfl

theorem dialogue_findByIndex_of_not_fits {index : ModuleIndex} (wide : ¬ index.Fits) :
    (modules (.findByIndex index)).dialogue = .done (.module (.found (.ok none))) := by
  rw [dialogue, ModuleRequest.dialogue, findModuleByIndex_of_not_fits wide]
  rfl

theorem dialogue_find (definition : DefinitionId) : (modules (.find definition)).dialogue =
    .look definition fun found =>
      if found.hasSlots then .done (.module (.found (.ok none)))
      else match found.index? with
        | some index => (modules (.findByIndex index)).dialogue
        | none => .done (.module (.found (.ok none))) := by
  refine congrArg (Dialogue.look definition) (funext fun found => ?_)
  change EventAnswer.module <$> ModuleReply.found <$> ExceptT.run (if found.hasSlots then pure none
    else match found.index? with
      | some index => findModuleByIndex index
      | none => pure none) = _
  cases found.hasSlots with
  | true => rfl
  | false => cases found.index? <;> rfl

theorem dialogue_init (definition : DefinitionId) : (modules (.init definition)).dialogue =
    .look definition fun found =>
      match found.index? with
      | some index => .done (.module (.index (.ok index)))
      | none => inquire (modules (.init definition)).failed .assignModuleIndex [] indexAnswer fun index =>
          .claim definition index fun won => .done (.module (.index (.ok won))) := by
  rw [dialogue, ModuleRequest.dialogue, run_initModuleDefinition]
  refine congrArg (Dialogue.look definition) (funext fun found => ?_)
  beta_reduce
  cases found.index? with
  | some index => rfl
  | none =>
    refine congrArg (Dialogue.ask UpcallOp.assignModuleIndex []) (funext fun answer => ?_)
    simp only [assignedIndex_eq]
    cases answer.bind indexAnswer <;> rfl

def placing (module : ModuleHandle) (index : ModuleIndex) : Dialogue EventAnswer :=
  EventAnswer.module <$> ModuleReply.status <$>
    (asApi (placeModule module index) >>= reportPlaced module index).run

theorem placing_of_fits (module : ModuleHandle) (definition : DefinitionId) {index : ModuleIndex}
    {handle : Handle} (carried : index.toHandle? = some (.ok handle)) : placing module index =
      inquire (modules (.add module definition)).failed .addModuleByIndex [module.handle, handle]
        (optionalModule .addModuleByIndex) fun previous? =>
          EventAnswer.module <$> ModuleReply.status <$> (reportPlaced module index previous?).run := by
  have asks : placeModule module index = asked .addModuleByIndex [module.handle, handle]
      (optionalModule .addModuleByIndex) := indexArgument_bind_of_fits _ carried _
  rw [placing, asks, run_asApi_asked_bind, map_inquire, map_inquire]
  rfl

theorem placing_of_not_fits (module : ModuleHandle) {index : ModuleIndex} (wide : ¬ index.Fits) :
    placing module index = .done (.module (.status
      (.error (.upcall (.invalidArgument .addModuleByIndex (.indexTooLarge index)))))) := by
  rw [placing, placeModule, indexArgument_bind_of_not_fits _ wide]
  rfl

theorem dialogue_add (module : ModuleHandle) (definition : DefinitionId) :
    (modules (.add module definition)).dialogue = .look definition fun found =>
      if found.hasSlots then
        .done (.module (.status (.error (.moduleHasSlots addModuleFunction))))
      else .look definition fun found =>
        match found.index? with
        | some index => placing module index
        | none => inquire (modules (.add module definition)).failed .assignModuleIndex [] indexAnswer
            fun index => .claim definition index fun won => placing module won := by
  rw [dialogue, ModuleRequest.dialogue, addModule_eq]
  refine congrArg (Dialogue.look definition) (funext fun found => ?_)
  change EventAnswer.module <$> ModuleReply.status <$> ExceptT.run (
    if found.hasSlots then throw (.moduleHasSlots addModuleFunction)
    else asApi (initModuleDefinition definition) >>= fun index =>
      asApi (placeModule module index) >>= reportPlaced module index) = _
  cases found.hasSlots with
  | true => rfl
  | false =>
    simp only [Bool.false_eq_true, if_false, run_init_bind]
    refine congrArg (Dialogue.look definition) (funext fun found => ?_)
    change EventAnswer.module <$> ModuleReply.status <$> (match found.index? with
      | some index => _ | none => inquire _ _ _ _ fun index => .claim definition index _) = _
    cases found.index? with
    | some index => rfl
    | none =>
      simp only [map_inquire]
      rfl

def withdrawing (index : ModuleIndex) : Dialogue EventAnswer :=
  EventAnswer.module <$> ModuleReply.status <$>
    (asApi (withdrawModule index) >>= reportWithdrawn index).run

theorem withdrawing_of_fits (definition : DefinitionId) {index : ModuleIndex} {handle : Handle}
    (carried : index.toHandle? = some (.ok handle)) : withdrawing index =
      inquire (modules (.remove definition)).failed .removeModuleByIndex [handle]
        (optionalModule .removeModuleByIndex) fun removed? =>
          EventAnswer.module <$> ModuleReply.status <$> (reportWithdrawn index removed?).run := by
  have asks : withdrawModule index = asked .removeModuleByIndex [handle]
      (optionalModule .removeModuleByIndex) := indexArgument_bind_of_fits _ carried _
  rw [withdrawing, asks, run_asApi_asked_bind, map_inquire, map_inquire]
  rfl

theorem withdrawing_of_not_fits {index : ModuleIndex} (wide : ¬ index.Fits) :
    withdrawing index = .done (.module (.status
      (.error (.upcall (.invalidArgument .removeModuleByIndex (.indexTooLarge index)))))) := by
  rw [withdrawing, withdrawModule, indexArgument_bind_of_not_fits _ wide]
  rfl

theorem dialogue_remove (definition : DefinitionId) : (modules (.remove definition)).dialogue =
    .look definition fun found =>
      if found.hasSlots then
        .done (.module (.status (.error (.moduleHasSlots removeModuleFunction))))
      else match found.index? with
        | some index => withdrawing index
        | none => .abort ⟨removeModuleFunction, .zeroModuleIndex⟩ := by
  rw [dialogue, ModuleRequest.dialogue, removeModule_eq]
  refine congrArg (Dialogue.look definition) (funext fun found => ?_)
  change EventAnswer.module <$> ModuleReply.status <$> ExceptT.run (
    if found.hasSlots then throw (.moduleHasSlots removeModuleFunction)
    else match found.index? with
      | some index => asApi (withdrawModule index) >>= reportWithdrawn index
      | none => abort removeModuleFunction .zeroModuleIndex) = _
  cases found.hasSlots with
  | true => rfl
  | false => cases found.index? <;> rfl

end BridgeRequest

end StateBridge
