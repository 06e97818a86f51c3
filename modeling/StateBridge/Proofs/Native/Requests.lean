import StateBridge.Native.Interface
import StateBridge.Proofs.Process.Evaluation

set_option autoImplicit false

namespace StateBridge

inductive NativeRequest where
  | threadStateGet
  | threadStateGetDict
  | findModule (definition? : Option DefinitionId)
  | addModule (bits : UInt64) (definition? : Option DefinitionId)
  | removeModule (definition? : Option DefinitionId)

inductive NativeResult where
  | bits (bits : UInt64)
  | status (status : Int32)
  deriving DecidableEq

namespace NativeRequest

variable {World : Type} (gate : Gate World) (thread : ThreadId)

def play : NativeRequest → Run World NativeResult
  | .threadStateGet => .bits <$> Native.threadStateGet gate thread
  | .threadStateGetDict => .bits <$> Native.threadStateGetDict gate thread
  | .findModule definition? => .bits <$> Native.findModule gate thread definition?
  | .addModule bits definition? => .status <$> Native.addModule gate thread bits definition?
  | .removeModule definition? => .status <$> Native.removeModule gate thread definition?

def failure : NativeRequest → NativeResult
  | .threadStateGet | .threadStateGetDict | .findModule _ => .bits 0
  | .addModule _ _ | .removeModule _ => .status (-1)

def onBridge {ε α : Type} (call : BridgeCall ε α) (lift : ε → ApiError) (present : α → NativeResult) :
    Run World (Except ApiError NativeResult) := do
  match (← get).installed? with
  | none => return .error (.upcall .notAttached)
  | some bridge => return ((← Process.call gate bridge thread call).mapError lift).map present

def result : NativeRequest → Run World (Except ApiError NativeResult)
  | .threadStateGet =>
    onBridge gate thread .currentThreadState .upcall fun state => .bits state.handle.bits
  | .threadStateGetDict =>
    onBridge gate thread .threadStateDict .upcall fun dict => .bits dict.handle.bits
  | .findModule none => return .ok (.bits 0)
  | .findModule (some definition) =>
    onBridge gate thread (.findModule definition) .upcall fun
      | some module => .bits module.handle.bits
      | none => .bits 0
  | .addModule _ none => Native.abort addModuleFunction .nullModuleDefinition
  | .addModule bits (some definition) =>
    match ModuleHandle.ofHandle? ⟨bits⟩ with
    | none => return .error (.upcall (.invalidArgument .addModuleByIndex .notModuleHandle))
    | some module => onBridge gate thread (.addModule module (some definition)) id fun () => .status 0
  | .removeModule none => Native.abort removeModuleFunction .nullModuleDefinition
  | .removeModule (some definition) =>
    onBridge gate thread (.removeModule definition) id fun () => .status 0

end NativeRequest

namespace Process

variable {World : Type}

def raise (process : Process World) (thread : ThreadId) (error : ApiError) : Process World :=
  { process.setIndicator thread error.pending with
    log := process.log ++ [⟨.debug, .indicatorSet error⟩] }

theorem indicator?_raise (process : Process World) (thread other : ThreadId) (error : ApiError) :
    (process.raise thread error).indicator? other =
      if other = thread then some error.pending else process.indicator? other :=
  FiniteMap.find?_insert process.indicators thread other error.pending

theorem call_asApi {α : Type} (gate : Gate World) (id : BridgeId) (thread : ThreadId)
    (call : BridgeCall UpcallError α) :
    Process.call gate id thread (.asApi call) =
      Except.mapError ApiError.upcall <$> Process.call gate id thread call := by
  funext process
  change perform gate id (process.bridge id) thread (Except.mapError ApiError.upcall <$> call.run)
    process = _
  rw [perform_map]
  rfl

end Process

namespace NativeRequest

variable {World : Type} {gate : Gate World} {thread : ThreadId}

def report (thread : ThreadId) (request : NativeRequest) :
    Except ApiError NativeResult → Run World NativeResult
  | .ok value => return value
  | .error error => do
    modify fun process => process.raise thread error
    return request.failure

section

variable {ε α : Type} {call : BridgeCall ε α} {lift : ε → ApiError} {present : α → NativeResult}
  {process : Process World}

theorem onBridge_of_none (installed : process.installed? = none) :
    onBridge gate thread call lift present process = .ok (.error (.upcall .notAttached)) process := by
  change (match process.installed? with
    | none => _
    | some _ => _ : Run World (Except ApiError NativeResult)) process = _
  rw [installed]
  rfl

theorem onBridge_of_some {bridge : BridgeId} (installed : process.installed? = some bridge) :
    onBridge gate thread call lift present process =
      ((fun answer => (answer.mapError lift).map present) <$>
        Process.call gate bridge thread call) process := by
  change (match process.installed? with
    | none => _
    | some _ => _ : Run World (Except ApiError NativeResult)) process = _
  rw [installed]
  simp only [bind_pure_comp]

end

theorem onBridge_eq {ε α : Type} {call : BridgeCall ε α} {lift : ε → ApiError}
    {lifted : BridgeCall ApiError α} (same : ∀ bridge, Process.call gate bridge thread lifted =
      Except.mapError lift <$> Process.call gate bridge thread call) (present : α → NativeResult) :
    onBridge gate thread call lift present =
      Except.map present <$> Native.onInstalled gate thread lifted := by
  unfold onBridge Native.onInstalled
  rw [map_bind]
  congr 1
  funext process
  cases process.installed? with
  | none => rfl
  | some bridge => simp only [same, Functor.map_map, bind_pure_comp]

theorem reported_eq {α β : Type} (request : NativeRequest) (step : Run World (Except ApiError α))
    (wrap : β → NativeResult) (returned : Option α → β)
    (fails : wrap (returned none) = request.failure) :
    wrap <$> (do return returned (← Native.reported thread (← step))) =
      (Except.map (fun value => wrap (returned (some value))) <$> step) >>= report thread request := by
  simp only [map_bind, map_pure, bind_map_left]
  congr 1
  funext result
  cases result with
  | ok value => rfl
  | error error =>
    simp only [Except.map, report, ← fails]
    rfl

theorem call_same (gate : Gate World) (thread : ThreadId) {α : Type} (call : BridgeCall ApiError α)
    (bridge : BridgeId) : Process.call gate bridge thread call =
      Except.mapError id <$> Process.call gate bridge thread call := by
  have same : (Except.mapError id : Except ApiError α → Except ApiError α) = id := by
    funext result
    cases result <;> rfl
  rw [same, id_map]

theorem play_eq (request : NativeRequest) (gate : Gate World) (thread : ThreadId) :
    request.play gate thread = request.result gate thread >>= report thread request := by
  have asked {α : Type} (call : BridgeCall UpcallError α) (present : α → NativeResult) :=
    onBridge_eq (fun bridge => Process.call_asApi gate bridge thread call) present
  have told {α : Type} (call : BridgeCall ApiError α) (present : α → NativeResult) :=
    onBridge_eq (fun bridge => call_same gate thread call bridge) present
  cases request with
  | threadStateGet =>
    rw [result, asked]
    exact reported_eq _ _ _ _ rfl
  | threadStateGetDict =>
    rw [result, asked]
    exact reported_eq _ _ _ _ rfl
  | findModule definition? =>
    cases definition? with
    | none => rfl
    | some definition =>
      rw [result, asked]
      refine Eq.trans (reported_eq (.findModule (some definition)) _ .bits _ rfl) ?_
      congr 3
      funext module?
      cases module? <;> rfl
  | addModule bits definition? =>
    cases definition? with
    | none => rfl
    | some definition =>
      simp only [play, result, Native.addModule]
      cases ModuleHandle.ofHandle? ⟨bits⟩ with
      | none => rfl
      | some module =>
        simp only [told]
        exact reported_eq _ _ _ _ rfl
  | removeModule definition? =>
    cases definition? with
    | none => rfl
    | some definition =>
      rw [result, told]
      exact reported_eq _ _ _ _ rfl

end NativeRequest

end StateBridge
