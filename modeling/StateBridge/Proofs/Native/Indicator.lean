import StateBridge.Proofs.Handle.Layout
import StateBridge.Proofs.Native.Requests
import StateBridge.Proofs.Process.Events

set_option autoImplicit false

namespace StateBridge

def Run.Spares {World α : Type} (step : Run World α) (thread : ThreadId) : Prop :=
  ∀ process result after, step process = .ok result after →
    after.indicator? thread = process.indicator? thread

def Gate.Spares {World : Type} (gate : Gate World) (caller thread : ThreadId) : Prop :=
  ∀ id op args, (gate id caller op args).Spares thread

namespace Run

variable {World α β : Type} {thread : ThreadId}

theorem spares_pure (result : α) : (pure result : Run World α).Spares thread := by
  intro process found after ran
  cases ran
  rfl

theorem spares_modify {change : Process World → Process World}
    (kept : ∀ process, (change process).indicator? thread = process.indicator? thread) :
    (modify change : Run World Unit).Spares thread := by
  intro process found after ran
  cases ran
  exact kept process

theorem Spares.bind {first : Run World α} {next : α → Run World β} (spares : first.Spares thread)
    (rest : ∀ result, (next result).Spares thread) : (first >>= next).Spares thread := by
  intro process result after ran
  cases stepped : first process with
  | error halt last =>
    rw [bind_of_error stepped] at ran
    cases ran
  | ok found middle =>
    rw [bind_of_ok stepped] at ran
    exact (rest found middle result after ran).trans (spares process found middle stepped)

theorem map_ok {step : Run World α} {present : α → β} {result : β} {process after : Process World}
    (ran : (present <$> step) process = .ok result after) :
    ∃ found, step process = .ok found after ∧ present found = result := by
  change EStateM.map present step process = _ at ran
  unfold EStateM.map at ran
  cases stepped : step process with
  | ok found last =>
    rw [stepped] at ran
    cases ran
    exact ⟨found, rfl, rfl⟩
  | error halt last =>
    rw [stepped] at ran
    cases ran

theorem discard_ok {step : Run World α} {process after : Process World}
    (ran : discard step process = .ok () after) : ∃ result, step process = .ok result after := by
  obtain ⟨result, stepped, -⟩ := map_ok ran
  exact ⟨result, stepped⟩

theorem spares_get {next : Process World → Run World β}
    (rest : ∀ process, (next process).Spares thread) : (get >>= next).Spares thread :=
  fun process result after ran => rest process process result after ran

end Run

namespace Process

variable {World α : Type} {gate : Gate World} {caller thread : ThreadId}

theorem record_spares (level : LogLevel) (message : LogMessage) :
    (record level message : Run World Unit).Spares thread :=
  Run.spares_modify fun _ => rfl

theorem upcall_spares (spares : gate.Spares caller thread) (id : BridgeId) (bridge : Bridge)
    (op : UpcallOp) (args : List Handle) : (upcall gate id bridge caller op args).Spares thread := by
  refine (record_spares _ _).bind fun _ => (spares _ op args).bind fun answer => ?_
  have recorded (level : LogLevel) (message : LogMessage) : (do
      record level message
      return answer : Run World (Except UpcallError Handle)).Spares thread :=
    (record_spares level message).bind fun _ => Run.spares_pure answer
  cases answer <;> cases bridge.config.profile
  next => exact recorded _ _
  next => exact Run.Spares.bind (Run.spares_modify fun _ => by rfl) fun _ => recorded _ _
  next => exact recorded _ _
  next => exact Run.Spares.bind (Run.spares_modify fun _ => by rfl) fun _ => recorded _ _

theorem perform_spares (spares : gate.Spares caller thread) (id : BridgeId) (bridge : Bridge)
    (dialogue : Dialogue α) : (perform gate id bridge caller dialogue).Spares thread := by
  induction dialogue with
  | done result => exact Run.spares_pure result
  | abort error =>
    intro process result after ran
    cases ran
  | fault broken =>
    intro process result after ran
    cases ran
  | note line next ih => exact (record_spares _ _).bind fun _ => ih
  | look definition next ih => exact Run.spares_get fun process => ih _
  | claim definition index next ih =>
    exact Run.spares_get fun process => .bind (Run.spares_modify fun _ => by rfl) fun _ => ih _
  | ask op args next ih => exact (upcall_spares spares id bridge op args).bind fun answer => ih answer

theorem call_spares (spares : gate.Spares caller thread) {ε : Type} (id : BridgeId)
    (call : BridgeCall ε α) : (Process.call gate id caller call).Spares thread :=
  Run.spares_get fun process => perform_spares spares id (process.bridge id) call.run

end Process

namespace NativeRequest

variable {World : Type} {gate : Gate World} {caller thread : ThreadId} {process middle : Process World}
  {request : NativeRequest}

theorem abort_spares {α : Type} (function : String) (invariant : FatalInvariant) :
    (Native.abort function invariant : Run World α).Spares thread := by
  intro process result after ran
  cases ran

theorem onBridge_spares (spares : gate.Spares caller thread) {ε α : Type} (call : BridgeCall ε α)
    (lift : ε → ApiError) (present : α → NativeResult) :
    (onBridge gate caller call lift present).Spares thread := by
  refine Run.spares_get fun process => ?_
  cases process.installed? with
  | none => exact Run.spares_pure _
  | some bridge => exact (Process.call_spares spares bridge call).bind fun _ => Run.spares_pure _

theorem result_spares (spares : gate.Spares caller thread) (request : NativeRequest) :
    (request.result gate caller).Spares thread := by
  cases request with
  | threadStateGet => exact onBridge_spares spares _ _ _
  | threadStateGetDict => exact onBridge_spares spares _ _ _
  | findModule definition? =>
    cases definition? with
    | none => exact Run.spares_pure _
    | some definition => exact onBridge_spares spares _ _ _
  | addModule bits definition? =>
    cases definition? with
    | none => exact abort_spares _ _
    | some definition =>
      simp only [result]
      cases ModuleHandle.ofHandle? ⟨bits⟩ with
      | none => exact Run.spares_pure _
      | some module => exact onBridge_spares spares _ _ _
  | removeModule definition? =>
    cases definition? with
    | none => exact abort_spares _ _
    | some definition => exact onBridge_spares spares _ _ _

theorem play_of_ok {value : NativeResult}
    (answered : request.result gate caller process = .ok (.ok value) middle) :
    request.play gate caller process = .ok value middle := by
  rw [play_eq, Run.bind_of_ok answered]
  rfl

theorem play_of_error {error : ApiError}
    (answered : request.result gate caller process = .ok (.error error) middle) :
    request.play gate caller process = .ok request.failure (middle.raise caller error) := by
  rw [play_eq, Run.bind_of_ok answered]
  rfl

theorem play_of_halt {halt : Halt} (halted : request.result gate caller process = .error halt middle) :
    request.play gate caller process = .error halt middle := by
  rw [play_eq, Run.bind_of_error halted]

theorem result_of_play {result : NativeResult} {after : Process World}
    (played : request.play gate caller process = .ok result after) :
    ∃ answer middle, request.result gate caller process = .ok answer middle := by
  cases answered : request.result gate caller process with
  | ok answer middle => exact ⟨answer, middle, rfl⟩
  | error halt last =>
    rw [play_of_halt answered] at played
    cases played

end NativeRequest

inductive NativeEvent (World : Type) where
  | call (caller : ThreadId) (request : NativeRequest)
  | fetch (caller : ThreadId)
  | clear (caller : ThreadId)
  | occurred (caller : ThreadId)
  | elsewhere (step : Run World Unit)

namespace NativeEvent

variable {World : Type} (gate : Gate World)

def play : NativeEvent World → Run World Unit
  | .call caller request => discard (request.play gate caller)
  | .fetch caller => discard (Native.errorFetch caller)
  | .clear caller => Native.errorClear caller
  | .occurred caller => discard (Native.errorOccurred caller)
  | .elsewhere step => step

def mark? (thread : ThreadId) (process : Process World) :
    NativeEvent World → Option (Option PendingError)
  | .call caller request =>
    match request.result gate caller process with
    | .ok (.error error) _ => if thread = caller then some (some error.pending) else none
    | _ => none
  | .fetch caller | .clear caller => if thread = caller then some none else none
  | .occurred _ | .elsewhere _ => none

end NativeEvent

section

variable {World : Type} (gate : Gate World)

def playNative : List (NativeEvent World) → Run World Unit
  | [] => return ()
  | event :: rest => do
    event.play gate
    playNative rest

def lastMark? (thread : ThreadId) :
    List (NativeEvent World) → Process World → Option (Option PendingError)
  | [], _ => none
  | event :: rest, process =>
    match event.play gate process with
    | .ok _ after => (lastMark? thread rest after).or (event.mark? gate thread process)
    | .error _ _ => none

end

section

variable {World : Type} {gate : Gate World} {thread : ThreadId}

theorem indicator?_clear (process : Process World) (caller thread : ThreadId) :
    (process.clearIndicator caller).indicator? thread =
      Option.getD (if thread = caller then some none else none) (process.indicator? thread) := by
  simp only [Process.indicator?, Process.clearIndicator, FiniteMap.find?_erase]
  split <;> rfl

theorem NativeEvent.play_indicator? (untouched : ∀ caller, gate.Spares caller thread)
    {event : NativeEvent World} (apart : ∀ step, event = .elsewhere step → step.Spares thread)
    {process after : Process World} (played : event.play gate process = .ok () after) :
    after.indicator? thread = (event.mark? gate thread process).getD (process.indicator? thread) := by
  cases event with
  | call caller request =>
    obtain ⟨result, played⟩ := Run.discard_ok played
    obtain ⟨answer, middle, answered⟩ := NativeRequest.result_of_play played
    have kept := NativeRequest.result_spares (untouched caller) request process answer middle answered
    cases answer with
    | ok value =>
      rw [NativeRequest.play_of_ok answered] at played
      cases played
      simpa only [mark?, answered, Option.getD_none] using kept
    | error error =>
      rw [NativeRequest.play_of_error answered] at played
      cases played
      rw [Process.indicator?_raise]
      simp only [mark?, answered]
      split
      next => rfl
      next => exact kept
  | fetch caller =>
    obtain ⟨pending, fetched⟩ := Run.discard_ok played
    cases fetched
    exact indicator?_clear process caller thread
  | clear caller =>
    cases played
    exact indicator?_clear process caller thread
  | occurred caller =>
    obtain ⟨has, looked⟩ := Run.discard_ok played
    cases looked
    rfl
  | elsewhere step => exact apart step rfl process () after played

theorem playNative_indicator? (untouched : ∀ caller, gate.Spares caller thread)
    {events : List (NativeEvent World)}
    (apart : ∀ step, .elsewhere step ∈ events → step.Spares thread)
    {process after : Process World} (played : playNative gate events process = .ok () after) :
    after.indicator? thread =
      (lastMark? gate thread events process).getD (process.indicator? thread) := by
  induction events generalizing process with
  | nil =>
    cases played
    rfl
  | cons event rest ih =>
    rw [playNative] at played
    cases stepped : event.play gate process with
    | error halt last =>
      rw [Run.bind_of_error stepped] at played
      cases played
    | ok _ middle =>
      rw [Run.bind_of_ok stepped] at played
      have first := event.play_indicator? untouched
        (fun step same => apart step (same ▸ List.mem_cons_self)) stepped
      have later := ih (fun step member => apart step (List.mem_cons_of_mem event member)) played
      rw [later, first]
      simp only [lastMark?, stepped]
      cases lastMark? gate thread rest middle <;> rfl

theorem NativeRequest.onBridge_ok {ε α : Type} {caller : ThreadId} {call : BridgeCall ε α}
    {lift : ε → ApiError} {present : α → NativeResult} {process middle : Process World}
    {value : NativeResult}
    (answered : onBridge gate caller call lift present process = .ok (.ok value) middle) :
    ∃ found, value = present found := by
  cases installed : process.installed? with
  | none =>
    rw [onBridge_of_none installed] at answered
    cases answered
  | some bridge =>
    rw [onBridge_of_some installed] at answered
    obtain ⟨found, -, same⟩ := Run.map_ok answered
    cases found with
    | error error => cases same
    | ok found =>
      cases same
      exact ⟨found, rfl⟩

-- No state and no dict has bits of 0, so this stands for a failure and nothing else.
theorem NativeRequest.failed_of_zero {caller : ThreadId} {request : NativeRequest}
    (asks : request = .threadStateGet ∨ request = .threadStateGetDict)
    {process after : Process World} (played : request.play gate caller process = .ok (.bits 0) after) :
    ∃ error middle, request.result gate caller process = .ok (.error error) middle := by
  obtain ⟨answer, middle, answered⟩ := result_of_play played
  cases answer with
  | error error => exact ⟨error, middle, answered⟩
  | ok value =>
    rw [play_of_ok answered] at played
    cases played
    have nonzero {handle : Handle} {kind : HandleKind} (ofKind : handle.kind? = some kind) :
        NativeResult.bits 0 ≠ .bits handle.bits := by
      intro same
      apply Handle.ne_null_of_kind? ofKind
      rw [← Handle.isNull_iff, Handle.isNull, ← NativeResult.bits.inj same]
      rfl
    obtain rfl | rfl := asks
    next =>
      obtain ⟨state, same⟩ := onBridge_ok answered
      exact absurd same (nonzero state.isKind)
    next =>
      obtain ⟨dict, same⟩ := onBridge_ok answered
      exact absurd same (nonzero dict.isKind)

end

-- A call that fails replaces what is pending, one that succeeds leaves it, and fetching takes it out.
theorem native_calls_report {World : Type} (gate : Gate World) (thread : ThreadId) :
    (gate.Spares thread thread → ∀ (request : NativeRequest) process result after,
      request.play gate thread process = .ok result after →
      ∃ answer middle, request.result gate thread process = .ok answer middle ∧
        match answer with
        | .ok value => result = value ∧ after = middle ∧
          after.indicator? thread = process.indicator? thread
        | .error error => result = request.failure ∧ after = middle.raise thread error ∧
          after.indicator? thread = some error.pending) ∧
    (∀ process, (NativeRequest.findModule none).play gate thread process = .ok (.bits 0) process) ∧
    (∀ request : NativeRequest, request = .threadStateGet ∨ request = .threadStateGetDict →
      ∀ process after, request.play gate thread process = .ok (.bits 0) after →
      ∃ error middle, request.result gate thread process = .ok (.error error) middle) ∧
    ((∀ caller, gate.Spares caller thread) → ∀ events process after,
      (∀ step, .elsewhere step ∈ events → step.Spares thread) →
      playNative gate events process = .ok () after →
      Native.errorFetch thread after =
        .ok ((lastMark? gate thread events process).getD (process.indicator? thread))
          (after.clearIndicator thread)) := by
  refine ⟨?_, fun _ => rfl, fun _ asks _ _ => NativeRequest.failed_of_zero asks, ?_⟩
  next =>
    intro spares request process result after played
    obtain ⟨answer, middle, answered⟩ := NativeRequest.result_of_play played
    refine ⟨answer, middle, answered, ?_⟩
    cases answer with
    | ok value =>
      rw [NativeRequest.play_of_ok answered] at played
      cases played
      exact ⟨rfl, rfl, NativeRequest.result_spares spares request process _ _ answered⟩
    | error error =>
      rw [NativeRequest.play_of_error answered] at played
      cases played
      exact ⟨rfl, rfl, by rw [Process.indicator?_raise, if_pos rfl]⟩
  next =>
    intro untouched events process after apart played
    rw [← playNative_indicator? untouched apart played]
    rfl

theorem Runtime.gate_spares {World : Type} (runtime : Runtime World) (caller thread : ThreadId) :
    runtime.gate.Spares caller thread := by
  intro id op args process result after ran
  cases asked : runtime caller op args process.world with
  | ok answered =>
    rw [Runtime.gate_of_ok asked] at ran
    cases ran
    rfl
  | error broken =>
    rw [Runtime.gate_of_error asked] at ran
    cases ran

-- A thread that never attached keeps its error through the calls of another thread.
theorem native_calls_report_unattached_thread :
    let gate := Host.runtime.gate
    let process : Process Host := { Process.start (.new true) with installed? := some ⟨0⟩ }
    let events : List (NativeEvent Host) :=
      [.call ⟨0⟩ .threadStateGet, .call ⟨1⟩ (.addModule 5 (some ⟨0⟩)), .call ⟨0⟩ (.findModule none),
        .elsewhere (modify fun process => process.uninstall.2), .call ⟨1⟩ .threadStateGetDict,
        .occurred ⟨0⟩, .clear ⟨1⟩]
    let pending : PendingError := ⟨.runtimeError, "no current thread state"⟩
    (∀ caller, gate.Spares caller ⟨0⟩) ∧
    (∃ error after, NativeRequest.threadStateGet.play gate ⟨0⟩ process = .ok (.bits 0) after ∧
      after.indicator? ⟨0⟩ = some (ApiError.pending error)) ∧
    ∃ after, playNative gate events process = .ok () after ∧
      Native.errorFetch ⟨0⟩ after = .ok (some pending) (after.clearIndicator ⟨0⟩) := by
  intro gate process events pending
  have untouched (caller : ThreadId) : gate.Spares caller ⟨0⟩ := Host.runtime.gate_spares caller ⟨0⟩
  obtain ⟨agrees, -, failed, fetched⟩ := native_calls_report gate ⟨0⟩
  have apart : ∀ step, .elsewhere step ∈ events → step.Spares ⟨0⟩ := by
    intro step member
    simp only [events, List.mem_cons, NativeEvent.elsewhere.injEq, List.not_mem_nil, reduceCtorEq,
      false_or, or_false] at member
    subst member
    exact Run.spares_modify fun _ => rfl
  refine ⟨untouched, ?_, _, rfl, ?_⟩
  next =>
    obtain ⟨error, middle, answered⟩ := failed .threadStateGet (.inl rfl) process _ rfl
    obtain ⟨answer, last, again, shown⟩ := agrees (untouched ⟨0⟩) .threadStateGet process _ _ rfl
    rw [answered] at again
    cases again
    exact ⟨error, _, rfl, shown.2.2⟩
  next =>
    have marked : lastMark? gate ⟨0⟩ events process = some (some pending) := rfl
    have report := fetched untouched events process _ apart rfl
    rw [marked] at report
    exact report

end StateBridge
