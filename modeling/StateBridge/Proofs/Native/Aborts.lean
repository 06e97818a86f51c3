import StateBridge.Proofs.Host.Numbering
import StateBridge.Proofs.Native.Indicator

set_option autoImplicit false

namespace StateBridge

namespace Run

variable {World α β : Type}

def halt? (step : Run World α) (process : Process World) : Option (Halt × Process World) :=
  match step process with
  | .ok _ _ => none
  | .error halt last => some (halt, last)

theorem halt?_eq_none_iff {step : Run World α} {process : Process World} :
    step.halt? process = none ↔ ∃ result after, step process = .ok result after := by
  unfold halt?
  cases step process <;> simp

theorem halt?_eq_some_iff {step : Run World α} {process last : Process World} {halt : Halt} :
    step.halt? process = some (halt, last) ↔ step process = .error halt last := by
  unfold halt?
  cases step process <;> simp

theorem halt?_map (step : Run World α) (present : α → β) (process : Process World) :
    halt? (present <$> step) process = step.halt? process := by
  change (match EStateM.map present step process with | .ok _ _ => _ | .error _ _ => _) = _
  unfold EStateM.map halt?
  cases step process <;> rfl

theorem halt?_discard (step : Run World α) (process : Process World) :
    halt? (discard step) process = step.halt? process :=
  halt?_map step _ process

end Run

namespace BridgeRequest

variable {World : Type} {gate : Gate World} {id : BridgeId} {thread : ThreadId}
  {process : Process World} {request : BridgeRequest} {error : FatalError}

theorem fatal_not_due {definition : DefinitionId → ModuleDefinition}
    (fatal : request.fatal? definition = some error) {op : UpcallOp} {args : List Handle} :
    ¬ request.Due definition [] op args := by
  intro due
  cases due with
  | remove single assigned carried => simp [fatal?_of_index? assigned] at fatal
  | _ => cases fatal

theorem fatal_not_concluded {definition : DefinitionId → ModuleDefinition}
    (fatal : request.fatal? definition = some error) {reply : EventAnswer} :
    ¬ request.Concludes definition [] reply := by
  intro concludes
  cases concludes with
  | removeSlots slots => simp [fatal?, slots] at fatal
  | removeWide single assigned wide => simp [fatal?_of_index? assigned] at fatal
  | _ => cases fatal

theorem aborts_of_fatal (fatal : request.fatal? process.definition = some error) :
    request.exchanges gate id thread process = [] ∧
      (request.play gate id thread).halt? process = some (.fatal error, process.aborted error) := by
  have course := request.course gate id thread process
  rw [Run.halt?_eq_some_iff]
  generalize request.exchanges gate id thread process = asked at course
  generalize request.play gate id thread process = outcome at course
  cases course with
  | returns concludes silent => exact absurd concludes (fatal_not_concluded fatal)
  | aborts other =>
    rw [fatal] at other
    cases other
    exact ⟨rfl, rfl⟩
  | halts due halted => exact absurd due (fatal_not_due fatal)
  | refused due answered refused => exact absurd due (fatal_not_due fatal)
  | accepted due answered accepted rest => exact absurd due (fatal_not_due fatal)

theorem gate_of_halt (safe : request.fatal? process.definition = none) {halt : Halt}
    {last : Process World} (halted : (request.play gate id thread).halt? process = some (halt, last)) :
    ∃ runtime op args before, gate runtime thread op args before = .error halt last := by
  have course := request.course gate id thread process
  rw [Run.halt?_eq_some_iff.1 halted] at course
  rcases course.halted with ⟨error, -, -, fatal, -⟩ | ⟨op, args, -, gated⟩
  next => simp [safe] at fatal
  next => exact ⟨_, op, args, _, gated⟩

end BridgeRequest

namespace NativeRequest

variable {World : Type} {gate : Gate World} {thread : ThreadId} {process : Process World}

def request? : NativeRequest → Option BridgeRequest
  | .threadStateGet => some (.threads .current)
  | .threadStateGetDict => some (.threads .currentDict)
  | .findModule definition? => definition?.map fun definition => .modules (.find definition)
  | .addModule bits (some definition) =>
    (ModuleHandle.ofHandle? ⟨bits⟩).map fun module => .modules (.add module definition)
  | .removeModule (some definition) => some (.modules (.remove definition))
  | .addModule _ none | .removeModule none => none

def undefined? : NativeRequest → Option FatalError
  | .addModule _ none => some ⟨addModuleFunction, .nullModuleDefinition⟩
  | .removeModule none => some ⟨removeModuleFunction, .nullModuleDefinition⟩
  | _ => none

theorem halt?_result_eq_play (request : NativeRequest) :
    (request.play gate thread).halt? process = (request.result gate thread).halt? process := by
  cases answered : request.result gate thread process with
  | ok answer middle =>
    have quiet : (request.result gate thread).halt? process = none :=
      Run.halt?_eq_none_iff.2 ⟨answer, middle, answered⟩
    rw [quiet, Run.halt?_eq_none_iff]
    cases answer with
    | ok value => exact ⟨_, _, play_of_ok answered⟩
    | error error => exact ⟨_, _, play_of_error answered⟩
  | error halt last =>
    rw [Run.halt?_eq_some_iff.2 answered, Run.halt?_eq_some_iff]
    exact play_of_halt answered

theorem halt?_onBridge {ε α : Type} (call : BridgeCall ε α) (lift : ε → ApiError)
    (present : α → NativeResult) {asked : BridgeRequest}
    (same : ∀ bridge, (Process.call gate bridge thread call).halt? process =
      (asked.play gate bridge thread).halt? process) :
    (onBridge gate thread call lift present).halt? process =
      process.installed?.bind fun bridge => (asked.play gate bridge thread).halt? process := by
  cases installed : process.installed? with
  | none => exact Run.halt?_eq_none_iff.2 ⟨_, _, onBridge_of_none installed⟩
  | some bridge =>
    unfold Run.halt? at same ⊢
    rw [onBridge_of_some installed]
    exact (Run.halt?_map _ _ process).trans (same bridge)

theorem halt?_play (request : NativeRequest) : (request.play gate thread).halt? process =
    match request.undefined? with
    | some error => some (.fatal error, process.aborted error)
    | none => request.request?.bind fun asked => process.installed?.bind fun bridge =>
        (asked.play gate bridge thread).halt? process := by
  rw [halt?_result_eq_play]
  cases request with
  | threadStateGet => exact halt?_onBridge _ _ _ fun bridge => (Run.halt?_map _ _ process).symm
  | threadStateGetDict => exact halt?_onBridge _ _ _ fun bridge => (Run.halt?_map _ _ process).symm
  | findModule definition? =>
    cases definition? with
    | none => rfl
    | some definition =>
      refine halt?_onBridge _ _ _ fun bridge => ?_
      exact ((Run.halt?_map _ _ process).trans (Run.halt?_map _ _ process)).symm
  | addModule bits definition? =>
    cases definition? with
    | none => rfl
    | some definition =>
      simp only [result, undefined?, request?]
      cases ModuleHandle.ofHandle? ⟨bits⟩ with
      | none => rfl
      | some module =>
        refine halt?_onBridge _ _ _ fun bridge => ?_
        exact ((Run.halt?_map _ _ process).trans (Run.halt?_map _ _ process)).symm
  | removeModule definition? =>
    cases definition? with
    | none => rfl
    | some definition =>
      refine halt?_onBridge _ _ _ fun bridge => ?_
      exact ((Run.halt?_map _ _ process).trans (Run.halt?_map _ _ process)).symm

end NativeRequest

inductive ApiCall where
  | bridge (id : BridgeId) (request : BridgeRequest)
  | native (request : NativeRequest)
  | errorOccurred
  | errorFetch
  | errorClear
  | lockEnsure
  | lockRelease (raw : Int32)

namespace ApiCall

variable {World : Type} {gate : Gate World} {thread : ThreadId} {process : Process World}
  {call : ApiCall} {error : FatalError}

def play (gate : Gate World) (thread : ThreadId) : ApiCall → Run World Unit
  | .bridge id request => discard (request.play gate id thread)
  | .native request => discard (request.play gate thread)
  | .errorOccurred => discard (Native.errorOccurred thread)
  | .errorFetch => discard (Native.errorFetch thread)
  | .errorClear => Native.errorClear thread
  | .lockEnsure => discard (pure Native.lockEnsure)
  | .lockRelease raw => return Native.lockRelease raw

def fatal? (process : Process World) : ApiCall → Option FatalError
  | .bridge _ request => request.fatal? process.definition
  | .native (.addModule _ none) => some ⟨addModuleFunction, .nullModuleDefinition⟩
  | .native (.removeModule none) => some ⟨removeModuleFunction, .nullModuleDefinition⟩
  | .native (.removeModule (some definition)) =>
    if process.installed?.isSome then
      (BridgeRequest.modules (.remove definition)).fatal? process.definition
    else none
  | _ => none

theorem fatal?_native (request : NativeRequest) : (native request).fatal? process =
    match request.undefined? with
    | some error => some error
    | none => request.request?.bind fun asked => process.installed?.bind fun _ =>
        asked.fatal? process.definition := by
  cases request with
  | threadStateGet | threadStateGetDict => cases process.installed? <;> rfl
  | findModule definition? =>
    cases definition? with
    | none => rfl
    | some definition => cases process.installed? <;> rfl
  | addModule bits definition? =>
    cases definition? with
    | none => rfl
    | some definition =>
      simp only [NativeRequest.undefined?, NativeRequest.request?]
      cases ModuleHandle.ofHandle? ⟨bits⟩ with
      | none => rfl
      | some module => cases process.installed? <;> rfl
  | removeModule definition? =>
    cases definition? with
    | none => rfl
    | some definition =>
      simp only [fatal?, NativeRequest.undefined?, NativeRequest.request?]
      cases process.installed? <;> rfl

theorem aborts_of_fatal (fatal : call.fatal? process = some error) :
    (call.play gate thread).halt? process = some (.fatal error, process.aborted error) := by
  cases call with
  | bridge id request =>
    rw [play, Run.halt?_discard]
    exact (BridgeRequest.aborts_of_fatal fatal).2
  | native request =>
    rw [play, Run.halt?_discard, NativeRequest.halt?_play]
    rw [fatal?_native] at fatal
    cases undefined : request.undefined? with
    | some other =>
      rw [undefined] at fatal
      cases fatal
      rfl
    | none =>
      rw [undefined] at fatal
      simp only [Option.bind_eq_some_iff] at fatal
      obtain ⟨asked, asks, bridge, installed, fatal⟩ := fatal
      simp only [asks, installed, Option.bind_some]
      exact (BridgeRequest.aborts_of_fatal fatal).2
  | _ => cases fatal

theorem halt_of_safe (safe : call.fatal? process = none) {halt : Halt} {last : Process World}
    (halted : (call.play gate thread).halt? process = some (halt, last)) :
    ∃ id request, BridgeRequest.fatal? process.definition request = none ∧
      (request.play gate id thread).halt? process = some (halt, last) := by
  cases call with
  | bridge id request =>
    rw [play, Run.halt?_discard] at halted
    exact ⟨id, request, safe, halted⟩
  | native request =>
    rw [play, Run.halt?_discard, NativeRequest.halt?_play] at halted
    rw [fatal?_native] at safe
    cases undefined : request.undefined? with
    | some other =>
      rw [undefined] at safe
      cases safe
    | none =>
      rw [undefined] at halted safe
      simp only [Option.bind_eq_some_iff] at halted
      obtain ⟨asked, asks, bridge, installed, halted⟩ := halted
      simp only [asks, installed, Option.bind_some] at safe
      exact ⟨bridge, asked, safe, halted⟩
  | _ => cases halted

theorem returns_or_gate_halts (safe : call.fatal? process = none) :
    (∃ after, call.play gate thread process = .ok () after) ∨
      ∃ id op args before halt last, gate id thread op args before = .error halt last ∧
        call.play gate thread process = .error halt last := by
  cases halted : (call.play gate thread).halt? process with
  | none =>
    obtain ⟨_, after, played⟩ := Run.halt?_eq_none_iff.1 halted
    exact .inl ⟨after, played⟩
  | some outcome =>
    obtain ⟨id, request, spared, bridged⟩ := halt_of_safe safe halted
    obtain ⟨runtime, op, args, before, gated⟩ := BridgeRequest.gate_of_halt spared bridged
    exact .inr ⟨runtime, op, args, before, _, _, gated, Run.halt?_eq_some_iff.1 halted⟩

end ApiCall

theorem Runtime.gate_not_fatal {World : Type} {runtime : Runtime World} {id : RuntimeId}
    {thread : ThreadId} {op : UpcallOp} {args : List Handle} {process last : Process World}
    {error : FatalError} : runtime.gate id thread op args process ≠ .error (.fatal error) last := by
  intro halted
  cases answered : runtime thread op args process.world with
  | ok result =>
    rw [Runtime.gate_of_ok answered] at halted
    cases halted
  | error broken =>
    rw [Runtime.gate_of_error answered] at halted
    cases halted

namespace Host

inductive Reached : Host → Prop where
  | new (explicitAttach : Bool) : Reached (.new explicitAttach)
  | called {host after : Host} {thread : ThreadId} {call : HostCall} {answer : HostAnswer}
    (reached : Reached host) (ran : host.call thread call = .ok (answer, after)) : Reached after
  | exited {host after : Host} {thread : ThreadId} {had : Bool} (reached : Reached host)
    (dropped : host.dropThreadState thread = .ok (had, after)) : Reached after

theorem Reached.tagged {host : Host} (reached : host.Reached) : host.Tagged := by
  induction reached with
  | new explicitAttach => exact new_tagged explicitAttach
  | @called host after thread call answer reached ran ih =>
    obtain ⟨told, other, again, kept, -⟩ := ih.called thread call
    rw [ran] at again
    cases again
    exact kept
  | @exited host after thread had reached dropped ih =>
    obtain ⟨told, other, again, kept, -⟩ := ih.dropThreadState thread
    rw [dropped] at again
    cases again
    exact kept

theorem Tagged.returns {process : Process Host} (tagged : process.world.Tagged) {call : ApiCall}
    (safe : call.fatal? process = none) (thread : ThreadId) :
    ∃ after, call.play Host.runtime.gate thread process = .ok () after := by
  cases halted : (call.play Host.runtime.gate thread).halt? process with
  | none =>
    obtain ⟨_, after, played⟩ := Run.halt?_eq_none_iff.1 halted
    exact ⟨after, played⟩
  | some outcome =>
    obtain ⟨halt, broken⟩ := outcome
    obtain ⟨id, request, spared, bridged⟩ := ApiCall.halt_of_safe safe halted
    have played := Run.halt?_eq_some_iff.1 bridged
    obtain ⟨last, -, -, ends⟩ := (request.course Host.runtime.gate id thread process).serves tagged
    rw [played] at ends
    rcases ends with ⟨reply, returned⟩ | ⟨error, aborted⟩
    next => cases returned
    next =>
      cases aborted
      obtain ⟨runtime, op, args, before, gated⟩ := BridgeRequest.gate_of_halt spared bridged
      exact absurd gated Runtime.gate_not_fatal

end Host

-- Over a runtime in the process nothing is left that could halt a call that must not abort.
theorem aborts_exactly_when_it_must :
    (∀ (World : Type) (gate : Gate World) (thread : ThreadId) (process : Process World) (call : ApiCall),
      (∀ error, call.fatal? process = some error →
        call.play gate thread process = .error (.fatal error) (process.aborted error) ∧
        ∀ id request, call = .bridge id request → request.exchanges gate id thread process = []) ∧
      (call.fatal? process = none →
        (∃ after, call.play gate thread process = .ok () after) ∨
          ∃ id op args before halt last, gate id thread op args before = .error halt last ∧
            call.play gate thread process = .error halt last)) ∧
    ∀ host : Host, host.Reached →
      (∀ process : Process Host, process.world = host → ∀ (thread : ThreadId) (call : ApiCall),
        call.fatal? process = none →
          ∃ after, call.play Host.runtime.gate thread process = .ok () after) ∧
      (∀ thread call, ∃ answer after, host.call thread call = .ok (answer, after)) ∧
      ∀ thread, ∃ had after, host.dropThreadState thread = .ok (had, after) := by
  refine ⟨fun World gate thread process call => ⟨?_, ApiCall.returns_or_gate_halts⟩, ?_⟩
  next =>
    intro error fatal
    refine ⟨Run.halt?_eq_some_iff.1 (ApiCall.aborts_of_fatal fatal), ?_⟩
    rintro id request rfl
    exact (BridgeRequest.aborts_of_fatal fatal).1
  next =>
    intro host reached
    have tagged := reached.tagged
    refine ⟨?_, ?_, ?_⟩
    next =>
      rintro process rfl thread call safe
      exact tagged.returns safe thread
    next =>
      intro thread call
      obtain ⟨answer, after, ran, -⟩ := tagged.called thread call
      exact ⟨answer, after, ran⟩
    next =>
      intro thread
      obtain ⟨had, after, dropped, -⟩ := tagged.dropThreadState thread
      exact ⟨had, after, dropped⟩

end StateBridge
