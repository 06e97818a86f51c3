import StateBridge.Proofs.Bridge.Order
import StateBridge.Proofs.Native.Aborts

set_option autoImplicit false

namespace StateBridge

def UpcallError.Unexpected (error : UpcallError) : Prop :=
  ∃ op expected found, error = .unexpectedHandle op expected found

def EventAnswer.upcallError? : EventAnswer → Option UpcallError
  | .state (.error error) | .dict (.error error) => some error
  | .module (.found (.error error)) | .module (.index (.error error)) => some error
  | .module (.status (.error (.upcall error))) => some error
  | _ => none

structure Question.Fitting (question : Question) : Prop where
  kind : ∀ handle, question.answer = .ok handle → question.op.Accepts handle
  index : question.op = .assignModuleIndex → ∀ handle, question.answer = .ok handle →
    ∃ value, handle.toInt? = some value ∧ 1 ≤ value ∧ value ≤ Handle.intMax
  error : ∀ error, question.answer = .error error → ¬ error.Unexpected

namespace ModuleIndex

theorem fits_iff_carried {index : ModuleIndex} :
    index.Fits ↔ ∃ handle, index.toHandle? = some (.ok handle) := by
  constructor
  next =>
    intro fits
    obtain ⟨handle, carried, -⟩ := fits.carried
    exact ⟨handle, carried⟩
  next =>
    rintro ⟨handle, carried⟩
    by_contra wide
    rw [toHandle?_of_not_fits wide] at carried
    cases carried

theorem read_of_carried {index : ModuleIndex} {handle : Handle}
    (carried : index.toHandle? = some (.ok handle)) : ofHandle? handle = some index := by
  obtain ⟨other, same, -, read⟩ := (fits_iff_carried.2 ⟨handle, carried⟩).carried
  rw [carried] at same
  cases same
  exact read

end ModuleIndex

namespace Host

variable {host after : Host} {thread : ThreadId}

theorem Tagged.accepts_resolve (tagged : host.Tagged) {handle : Handle}
    (answered : host.answer thread .resolve = .ok (.ok handle, after)) :
    handle.kind? = some .threadState := by
  simp only [Host.answer] at answered
  split at answered
  next state owned =>
    cases answered
    exact tagged.threads thread handle owned
  next =>
    split at answered
    next => cases answered
    next =>
      obtain ⟨state, middle, made, ofKind, -⟩ := tagged.newThreadState thread
      rw [made] at answered
      cases answered
      exact ofKind

theorem Tagged.accepts_dictOf (tagged : host.Tagged) {state handle : Handle}
    (answered : host.answer thread (.dictOf state) = .ok (.ok handle, after)) :
    handle.kind? = some .dict := by
  simp only [Host.answer] at answered
  split at answered
  next dict linked =>
    cases answered
    exact (tagged.objects.get? linked).2 handle rfl
  next unread =>
    let fresh : ManagedValue := .dict .empty
    obtain ⟨dict, objects, stored, inserted⟩ := tagged.objects.sound.inserted fresh fresh.kind_ne_int
    change host.objects.insert .dict (.dict .empty) = _ at stored
    rw [stored] at answered
    cases answered
    exact inserted.ofKind
  next => cases answered

theorem accepts_assign {handle : Handle}
    (answered : host.answer thread .assign = .ok (.ok handle, after)) :
    ∃ index, ModuleIndex.ofHandle? handle = some index := by
  by_cases fits : host.upperIndex.Fits
  next =>
    obtain ⟨given, -, read, assigned⟩ := runtime_assign fits thread
    rw [runtime, invoke_of_query (HostQuery.run_decode_assign []) host thread, answered] at assigned
    cases assigned
    exact ⟨_, read⟩
  next =>
    have exhausted := runtime_exhausted fits thread
    rw [runtime, invoke_of_query (HostQuery.run_decode_assign []) host thread, answered] at exhausted
    cases exhausted

theorem Tagged.accepts (tagged : host.Tagged) {query : HostQuery} {handle : Handle}
    (answered : host.answer thread query = .ok (.ok handle, after)) : query.op.Accepts handle := by
  cases query with
  | resolve => exact tagged.accepts_resolve answered
  | dictOf state => exact tagged.accepts_dictOf answered
  | find index =>
    cases answered
    exact BridgeCall.accepts_moduleAnswer.2 ⟨_, rfl⟩
  | add module index =>
    simp only [Host.answer] at answered
    split at answered
    next =>
      cases answered
      exact BridgeCall.accepts_moduleAnswer.2 ⟨_, rfl⟩
    next => cases answered
  | remove index =>
    cases answered
    exact BridgeCall.accepts_moduleAnswer.2 ⟨_, rfl⟩
  | assign => exact UpcallOp.accepts_assign_iff.2 (accepts_assign answered)

theorem not_unexpected_of_read {op : UpcallOp} {args : List Handle} {error : UpcallError}
    (refused : HostQuery.read op args = .error error) : ¬ error.Unexpected := by
  have ofIndex {op : UpcallOp} {handle : Handle} {wrap : ModuleIndex → HostQuery}
      (refused : HostQuery.ofIndex op handle wrap = .error error) : ¬ error.Unexpected := by
    unfold HostQuery.ofIndex at refused
    split at refused
    next => cases refused
    next =>
      cases refused
      rintro ⟨_, _, _, ⟨⟩⟩
  unfold HostQuery.read at refused
  split at refused
  next => cases refused
  next => cases refused
  next => exact ofIndex refused
  next => exact ofIndex refused
  next => exact ofIndex refused
  next => cases refused
  next =>
    cases refused
    rintro ⟨_, _, _, ⟨⟩⟩

theorem Tagged.not_unexpected (tagged : host.Tagged) {query : HostQuery} {error : UpcallError}
    (answered : host.answer thread query = .ok (.error error, after)) : ¬ error.Unexpected := by
  cases query with
  | resolve =>
    simp only [Host.answer] at answered
    split at answered
    next => cases answered
    next =>
      split at answered
      next =>
        cases answered
        rintro ⟨_, _, _, ⟨⟩⟩
      next =>
        obtain ⟨state, middle, made, -⟩ := tagged.newThreadState thread
        rw [made] at answered
        cases answered
  | dictOf state =>
    simp only [Host.answer] at answered
    split at answered
    next => cases answered
    next =>
      obtain ⟨made, -, rest⟩ := ok_of_bind answered
      cases rest
    next =>
      cases answered
      rintro ⟨_, _, _, ⟨⟩⟩
  | find index => cases answered
  | add module index =>
    simp only [Host.answer] at answered
    split at answered
    next => cases answered
    next =>
      cases answered
      rintro ⟨_, _, _, ⟨⟩⟩
  | remove index => cases answered
  | assign =>
    simp only [Host.answer] at answered
    split at answered
    next =>
      obtain ⟨made, -, rest⟩ := ok_of_bind answered
      cases rest
    next =>
      cases answered
      rintro ⟨_, _, _, ⟨⟩⟩

theorem Tagged.fitting (tagged : host.Tagged) {op : UpcallOp} {args : List Handle}
    {answer : Except UpcallError Handle} (invoked : host.invoke thread op args = .ok (answer, after)) :
    Question.Fitting ⟨op, args, answer⟩ := by
  rw [invoke_eq] at invoked
  cases read : HostQuery.read op args with
  | error error =>
    rw [read] at invoked
    cases invoked
    refine ⟨by simp, by simp, ?_⟩
    rintro _ ⟨⟩
    exact not_unexpected_of_read read
  | ok query =>
    rw [read] at invoked
    obtain rfl := HostQuery.op_of_read read
    refine ⟨?_, ?_, ?_⟩
    next =>
      rintro handle rfl
      exact tagged.accepts invoked
    next =>
      rintro assigns handle rfl
      obtain rfl := HostQuery.eq_assign_of_op assigns
      obtain ⟨index, carried⟩ := accepts_assign invoked
      have fits := ModuleIndex.fits_of_ofHandle? carried
      have positive := index.positive
      unfold ModuleIndex.Fits Handle.intMax at fits
      exact ⟨_, ModuleIndex.ofHandle?_eq_some_iff.1 carried, by omega, by unfold Handle.intMax; omega⟩
    next =>
      rintro error rfl
      exact tagged.not_unexpected invoked

end Host

namespace BridgeRequest

/-- What a call is to have done on the managed side, by the definitions as they are at that moment. -/
def Wants (definition : DefinitionId → ModuleDefinition) : BridgeRequest → HostQuery → Prop
  | .threads .current, .resolve | .threads .currentDict, .resolve => True
  | .threads .currentDict, .dictOf state => state.kind? = some .threadState
  | .threads (.dictOf state), .dictOf asked => asked = state.handle
  | .modules (.find id), .find index => (definition id).index? = some index
  | .modules (.findByIndex index), .find asked => asked = index
  | .modules (.init id), .assign | .modules (.add _ id), .assign => (definition id).index? = none
  | .modules (.add module id), .add asked index =>
    asked = module.handle ∧ (definition id).index? = some index
  | .modules (.remove id), .remove index => (definition id).index? = some index
  | _, _ => False

theorem Due.read {definition : DefinitionId → ModuleDefinition} {request : BridgeRequest}
    {questions : List Question} {op : UpcallOp} {args : List Handle}
    (due : request.Due definition questions op args) :
    ∃ query, HostQuery.read op args = .ok query ∧ request.Wants definition query := by
  have read {op : UpcallOp} {index : ModuleIndex} {handle : Handle} (wrap : ModuleIndex → HostQuery)
      (carried : Handle.ofInt index.value = .ok handle) :
      HostQuery.ofIndex op handle wrap = .ok (wrap index) := by
    obtain ⟨other, -, made, decoded⟩ := (ModuleIndex.fits_of_ofInt carried).carried
    rw [carried] at made
    cases made
    simp only [HostQuery.ofIndex, decoded]
  cases due with
  | current => exact ⟨.resolve, rfl, trivial⟩
  | dictOf state => exact ⟨.dictOf state.handle, rfl, rfl⟩
  | resolve => exact ⟨.resolve, rfl, trivial⟩
  | currentDict state => exact ⟨.dictOf state.handle, rfl, state.isKind⟩
  | findByIndex carried => exact ⟨_, read .find carried, rfl⟩
  | find single assigned carried => exact ⟨_, read .find carried, assigned⟩
  | init unassigned => exact ⟨.assign, rfl, unassigned⟩
  | assign single unassigned => exact ⟨.assign, rfl, unassigned⟩
  | @add module id index handle single assigned carried =>
    exact ⟨_, read (.add module.handle) carried, rfl, assigned⟩
  | @addAssigned module id index handle answer assigned carried =>
    exact ⟨_, read (.add module.handle) carried, rfl, assigned⟩
  | remove single assigned carried => exact ⟨_, read .remove carried, assigned⟩

end BridgeRequest

theorem Host.Reached.invoked {host after : Host} {thread : ThreadId} {op : UpcallOp}
    {args : List Handle} {answer : Except UpcallError Handle} (reached : host.Reached)
    (invoked : host.invoke thread op args = .ok (answer, after)) : after.Reached := by
  have called : host.call thread (.invoke op args) = .ok (.upcall answer, after) := by
    simp only [Host.call, invoked]
    rfl
  exact .called reached called

-- Others can use the host in the meantime, and native code can be called back.
def Gate.Consults (gate : Gate Host) : Prop :=
  ∀ id thread op args before answer after, before.world.Reached →
    gate id thread op args before = .ok answer after →
    after.world.Reached ∧
      ∃ host other : Host, host.Reached ∧ host.invoke thread op args = .ok (answer, other)

theorem Host.runtime_consults : Host.runtime.gate.Consults := by
  intro id thread op args before answer after reached answered
  cases invoked : Host.runtime thread op args before.world with
  | ok found =>
    rw [Runtime.gate_of_ok invoked] at answered
    cases answered
    exact ⟨reached.invoked invoked, before.world, found.2, reached, invoked⟩
  | error broken =>
    rw [Runtime.gate_of_error invoked] at answered
    cases answered

namespace BridgeRequest

variable {gate : Gate Host} {id : BridgeId} {bridge : Bridge} {thread : ThreadId}
  {request : BridgeRequest} {process : Process Host} {earlier : List Question}
  {asked : List (Exchange Host)} {result : EStateM.Result Halt (Process Host) EventAnswer}

theorem Course.consulted (consults : gate.Consults)
    (course : request.Course gate id bridge thread process earlier asked result)
    (reached : process.world.Reached) :
    (∀ exchange ∈ asked, exchange.Fitting) ∧
      ∀ reply after, result = .ok reply after → after.world.Reached := by
  have fitting {op : UpcallOp} {args : List Handle} {process after : Process Host}
      {answer : Except UpcallError Handle} (reached : process.world.Reached)
      (answered : gate bridge.runtime thread op args (process.announce id bridge op args) =
        .ok answer after) : after.world.Reached ∧ Question.Fitting ⟨op, args, answer⟩ := by
    obtain ⟨later, host, other, known, invoked⟩ :=
      consults bridge.runtime thread op args (process.announce id bridge op args) answer after reached
        answered
    exact ⟨later, known.tagged.fitting invoked⟩
  induction course with
  | returns concludes silent =>
    refine ⟨by simp, ?_⟩
    rintro reply after ⟨⟩
    exact reached
  | aborts fatal => exact ⟨by simp, by rintro reply after ⟨⟩⟩
  | halts due halted => exact ⟨by simp, by rintro reply after ⟨⟩⟩
  | refused due answered refused =>
    obtain ⟨later, fits⟩ := fitting reached answered
    refine ⟨by simpa using fits, ?_⟩
    rintro reply after ⟨⟩
    rw [Process.world_conclude]
    exact later
  | accepted due answered accepted rest ih =>
    obtain ⟨later, fits⟩ := fitting reached answered
    rw [world_settle, Process.world_conclude] at ih
    obtain ⟨others, ends⟩ := ih later
    exact ⟨List.forall_mem_cons.2 ⟨fits, others⟩, ends⟩

theorem upcallError?_failed (request : BridgeRequest) (error : UpcallError) :
    (request.failed error).upcallError? = some error := by
  cases request with
  | threads request => cases request <;> rfl
  | modules request => cases request <;> rfl
  | addUndefined module => rfl

theorem Concludes.expected {definition : DefinitionId → ModuleDefinition} {questions : List Question}
    {reply : EventAnswer} (concludes : request.Concludes definition questions reply)
    {error : UpcallError} (failed : reply.upcallError? = some error) : ¬ error.Unexpected := by
  cases concludes with
  | addWide | addAssignedWide | removeWide =>
    cases failed
    rintro ⟨_, _, _, ⟨⟩⟩
  | @added id module questions index handle previous? last carried =>
    split at failed <;> cases failed
  | _ => cases failed

theorem Course.expected {reply : EventAnswer} {after : Process Host}
    (course : request.Course gate id bridge thread process earlier asked (.ok reply after))
    (fitting : ∀ exchange ∈ asked, exchange.Fitting) {error : UpcallError}
    (failed : reply.upcallError? = some error) : ¬ error.Unexpected := by
  rcases course.returned.2 with ⟨-, concludes⟩ | ⟨first, last, other, split, refused, same⟩
  next => exact concludes.expected failed
  next =>
    have fits := fitting last (by simp [split])
    rw [same, upcallError?_failed] at failed
    cases failed
    rcases refused with answered | ⟨handle, answered, refuses, -⟩
    next => exact fits.error error answered
    next => exact absurd (fits.kind handle answered) refuses

end BridgeRequest

-- Handles cross the gate as they were meant, whatever goes on between the upcalls of a call.
theorem bridge_fits_host :
    (∀ host : Host, host.Reached → ∀ thread op args, ∃ answer after,
      host.invoke thread op args = .ok (answer, after) ∧ after.Reached ∧
        Question.Fitting ⟨op, args, answer⟩) ∧
    (∀ index : ModuleIndex, (index.Fits ↔ ∃ handle, index.toHandle? = some (.ok handle)) ∧
      ∀ handle, index.toHandle? = some (.ok handle) → ModuleIndex.ofHandle? handle = some index) ∧
    Host.runtime.gate.Consults ∧
    ∀ gate : Gate Host, gate.Consults → ∀ process : Process Host, process.world.Reached →
      ∀ (id : BridgeId) (thread : ThreadId) (request : BridgeRequest),
        (∀ exchange ∈ request.exchanges gate id thread process, exchange.Fitting ∧
          ∃ query, HostQuery.read exchange.op exchange.args = .ok query ∧
            request.Wants exchange.before.definition query) ∧
        (∀ reply after, request.play gate id thread process = .ok reply after →
          after.world.Reached ∧ ∀ error, reply.upcallError? = some error → ¬ error.Unexpected) ∧
        (gate = Host.runtime.gate → request.fatal? process.definition = none →
          ∃ reply after, request.play gate id thread process = .ok reply after) := by
  refine ⟨?_, fun index => ⟨index.fits_iff_carried, fun handle => index.read_of_carried⟩,
    Host.runtime_consults, ?_⟩
  next =>
    intro host reached thread op args
    obtain ⟨answer, after, invoked, -⟩ := reached.tagged.serves thread op args
    exact ⟨answer, after, invoked, reached.invoked invoked, reached.tagged.fitting invoked⟩
  next =>
    intro gate consults process reached id thread request
    have course := request.course gate id thread process
    obtain ⟨fitting, ends⟩ := course.consulted consults reached
    refine ⟨?_, ?_, ?_⟩
    next =>
      intro exchange member
      obtain ⟨first, later, split⟩ := List.append_of_mem member
      exact ⟨fitting exchange member, (BridgeRequest.due_of_split split).read⟩
    next =>
      intro reply after played
      refine ⟨ends reply after played, ?_⟩
      rw [played] at course
      exact fun error => course.expected fitting
    next =>
      rintro rfl safe
      have spared : (ApiCall.bridge id request).fatal? process = none := safe
      obtain ⟨after, played⟩ := reached.tagged.returns spared thread
      obtain ⟨reply, returned⟩ := Run.discard_ok played
      exact ⟨reply, after, returned⟩

theorem bridge_fits_host_detached_thread :
    let gate : Gate Host := fun id thread op args => do
      discard (onHost fun host => host.detach thread)
      Host.runtime.gate id thread op args
    let process : Process Host := .start (.new false)
    gate.Consults ∧ process.world.Reached ∧
      ∃ reply after, (BridgeRequest.threads .currentDict).play gate ⟨0⟩ ⟨0⟩ process = .ok reply after ∧
        reply.upcallError? = some (.invalidArgument .threadStateDict .notLiveThreadState) ∧
        after.world.Reached ∧ ∀ error, reply.upcallError? = some error → ¬ error.Unexpected := by
  intro gate process
  have consults : gate.Consults := by
    intro id thread op args before answer after reached answered
    obtain ⟨had, host, dropped, -⟩ := reached.tagged.dropThreadState thread
    have detached : (discard (onHost fun host => host.detach thread) : Run Host Unit) before =
        .ok () { before with world := host } :=
      Process.map_of_ok (Shared.onHost_of_ok (fun host => host.detach thread) dropped) _
    change EStateM.bind _ _ before = _ at answered
    rw [EStateM.bind, detached] at answered
    exact Host.runtime_consults _ _ _ _ _ _ _ (.exited reached dropped) answered
  have reached : process.world.Reached := .new false
  obtain ⟨reply, after, played, failed⟩ : ∃ reply after,
      (BridgeRequest.threads .currentDict).play gate ⟨0⟩ ⟨0⟩ process = .ok reply after ∧
        reply.upcallError? = some (.invalidArgument .threadStateDict .notLiveThreadState) :=
    ⟨_, _, rfl, rfl⟩
  have fits := bridge_fits_host.2.2.2 gate consults process reached ⟨0⟩ ⟨0⟩ (.threads .currentDict)
  obtain ⟨later, expected⟩ := fits.2.1 reply after played
  exact ⟨consults, reached, reply, after, played, failed, later, expected⟩

end StateBridge
