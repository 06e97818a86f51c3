import StateBridge.Proofs.Bridge.Requests

set_option autoImplicit false

namespace StateBridge

namespace ModuleIndex

theorem Fits.carried {index : ModuleIndex} (fits : index.Fits) : ∃ handle,
    index.toHandle? = some (.ok handle) ∧ Handle.ofInt index.value = .ok handle ∧
      ofHandle? handle = some index := by
  obtain ⟨handle, made, -, read⟩ := fits.ofInt
  exact ⟨handle, by rw [ModuleIndex.toHandle?, if_pos fits, made], made, read⟩

end ModuleIndex

def Question.assigned? (question : Question) : Option ModuleIndex :=
  match question.op, question.answer with
  | .assignModuleIndex, .ok handle => ModuleIndex.ofHandle? handle
  | _, _ => none

namespace BridgeRequest

/-- The upcall that is due after some questions, with the definitions as they are by now. -/
inductive Due (definition : DefinitionId → ModuleDefinition) :
    BridgeRequest → List Question → UpcallOp → List Handle → Prop where
  | current : Due definition (.threads .current) [] .resolveCurrentThreadState []
  | dictOf (state : ThreadStateHandle) :
    Due definition (.threads (.dictOf state)) [] .threadStateDict [state.handle]
  | resolve : Due definition (.threads .currentDict) [] .resolveCurrentThreadState []
  | currentDict (state : ThreadStateHandle) :
    Due definition (.threads .currentDict) [⟨.resolveCurrentThreadState, [], .ok state.handle⟩]
      .threadStateDict [state.handle]
  | findByIndex {index : ModuleIndex} {handle : Handle} (carried : Handle.ofInt index.value = .ok handle) :
    Due definition (.modules (.findByIndex index)) [] .findModuleByIndex [handle]
  | find {id : DefinitionId} {index : ModuleIndex} {handle : Handle}
    (single : (definition id).hasSlots = false) (assigned : (definition id).index? = some index)
    (carried : Handle.ofInt index.value = .ok handle) :
    Due definition (.modules (.find id)) [] .findModuleByIndex [handle]
  | init {id : DefinitionId} (unassigned : (definition id).index? = none) :
    Due definition (.modules (.init id)) [] .assignModuleIndex []
  | assign {module : ModuleHandle} {id : DefinitionId} (single : (definition id).hasSlots = false)
    (unassigned : (definition id).index? = none) :
    Due definition (.modules (.add module id)) [] .assignModuleIndex []
  | add {module : ModuleHandle} {id : DefinitionId} {index : ModuleIndex} {handle : Handle}
    (single : (definition id).hasSlots = false) (assigned : (definition id).index? = some index)
    (carried : Handle.ofInt index.value = .ok handle) :
    Due definition (.modules (.add module id)) [] .addModuleByIndex [module.handle, handle]
  | addAssigned {module : ModuleHandle} {id : DefinitionId} {index : ModuleIndex} {handle : Handle}
    {answer : Except UpcallError Handle} (assigned : (definition id).index? = some index)
    (carried : Handle.ofInt index.value = .ok handle) :
    Due definition (.modules (.add module id)) [⟨.assignModuleIndex, [], answer⟩] .addModuleByIndex
      [module.handle, handle]
  | remove {id : DefinitionId} {index : ModuleIndex} {handle : Handle}
    (single : (definition id).hasSlots = false) (assigned : (definition id).index? = some index)
    (carried : Handle.ofInt index.value = .ok handle) :
    Due definition (.modules (.remove id)) [] .removeModuleByIndex [handle]

/-- What a call returns after questions that were all answered well, if no other upcall is due. -/
inductive Concludes (definition : DefinitionId → ModuleDefinition) :
    BridgeRequest → List Question → EventAnswer → Prop where
  | current (state : ThreadStateHandle) : Concludes definition (.threads .current)
      [⟨.resolveCurrentThreadState, [], .ok state.handle⟩] (.state (.ok state))
  | dictOf (state : ThreadStateHandle) (dict : DictHandle) :
    Concludes definition (.threads (.dictOf state))
      [⟨.threadStateDict, [state.handle], .ok dict.handle⟩] (.dict (.ok dict))
  | currentDict (state : ThreadStateHandle) (dict : DictHandle) :
    Concludes definition (.threads .currentDict) [⟨.resolveCurrentThreadState, [], .ok state.handle⟩,
      ⟨.threadStateDict, [state.handle], .ok dict.handle⟩] (.dict (.ok dict))
  | wideIndex {index : ModuleIndex} (wide : ¬ index.Fits) :
    Concludes definition (.modules (.findByIndex index)) [] (.module (.found (.ok none)))
  | findByIndex (index : ModuleIndex) (handle : Handle) (module? : Option ModuleHandle) :
    Concludes definition (.modules (.findByIndex index))
      [⟨.findModuleByIndex, [handle], .ok (Host.moduleAnswer module?)⟩]
      (.module (.found (.ok module?)))
  | unregistered {id : DefinitionId} (never : (definition id).hasSlots = true ∨
      ∀ index, (definition id).index? = some index → ¬ index.Fits) :
    Concludes definition (.modules (.find id)) [] (.module (.found (.ok none)))
  | find (id : DefinitionId) (handle : Handle) (module? : Option ModuleHandle) :
    Concludes definition (.modules (.find id))
      [⟨.findModuleByIndex, [handle], .ok (Host.moduleAnswer module?)⟩]
      (.module (.found (.ok module?)))
  | initAssigned {id : DefinitionId} {index : ModuleIndex}
    (assigned : (definition id).index? = some index) :
    Concludes definition (.modules (.init id)) [] (.module (.index (.ok index)))
  | init {id : DefinitionId} {index : ModuleIndex} (handle : Handle)
    (assigned : (definition id).index? = some index) :
    Concludes definition (.modules (.init id)) [⟨.assignModuleIndex, [], .ok handle⟩]
      (.module (.index (.ok index)))
  | addSlots {id : DefinitionId} (module : ModuleHandle) (slots : (definition id).hasSlots = true) :
    Concludes definition (.modules (.add module id)) []
      (.module (.status (.error (.moduleHasSlots addModuleFunction))))
  | addWide {id : DefinitionId} {index : ModuleIndex} (module : ModuleHandle)
    (single : (definition id).hasSlots = false) (assigned : (definition id).index? = some index)
    (wide : ¬ index.Fits) :
    Concludes definition (.modules (.add module id)) [] (.module (.status
      (.error (.upcall (.invalidArgument .addModuleByIndex (.indexTooLarge index))))))
  | addAssignedWide {id : DefinitionId} {index : ModuleIndex} (module : ModuleHandle) (handle : Handle)
    (assigned : (definition id).index? = some index) (wide : ¬ index.Fits) :
    Concludes definition (.modules (.add module id)) [⟨.assignModuleIndex, [], .ok handle⟩]
      (.module (.status
        (.error (.upcall (.invalidArgument .addModuleByIndex (.indexTooLarge index))))))
  | added {id : DefinitionId} {module : ModuleHandle} {earlier : List Question} {index : ModuleIndex}
    {handle : Handle} {previous? : Option ModuleHandle}
    (last : earlier.getLast? =
      some ⟨.addModuleByIndex, [module.handle, handle], .ok (Host.moduleAnswer previous?)⟩)
    (carried : Handle.ofInt index.value = .ok handle) :
    Concludes definition (.modules (.add module id)) earlier (.module (.status
      (if previous? = some module then .error (.moduleAlreadyAdded index) else .ok ())))
  | removeSlots {id : DefinitionId} (slots : (definition id).hasSlots = true) :
    Concludes definition (.modules (.remove id)) []
      (.module (.status (.error (.moduleHasSlots removeModuleFunction))))
  | removeWide {id : DefinitionId} {index : ModuleIndex} (single : (definition id).hasSlots = false)
    (assigned : (definition id).index? = some index) (wide : ¬ index.Fits) :
    Concludes definition (.modules (.remove id)) [] (.module (.status
      (.error (.upcall (.invalidArgument .removeModuleByIndex (.indexTooLarge index))))))
  | removed (id : DefinitionId) (handle : Handle) (module? : Option ModuleHandle) :
    Concludes definition (.modules (.remove id))
      [⟨.removeModuleByIndex, [handle], .ok (Host.moduleAnswer module?)⟩]
      (.module (.status (.ok ())))

def order : BridgeRequest → List UpcallOp
  | .threads .current => [.resolveCurrentThreadState]
  | .threads .currentDict => [.resolveCurrentThreadState, .threadStateDict]
  | .threads (.dictOf _) => [.threadStateDict]
  | .modules (.find _) | .modules (.findByIndex _) => [.findModuleByIndex]
  | .modules (.init _) => [.assignModuleIndex]
  | .modules (.add _ _) => [.assignModuleIndex, .addModuleByIndex]
  | .modules (.remove _) => [.removeModuleByIndex]
  | .addUndefined _ => []

section

variable {definition : DefinitionId → ModuleDefinition} {request : BridgeRequest}
  {questions : List Question} {op : UpcallOp} {args : List Handle}

theorem order_nodup (request : BridgeRequest) : request.order.Nodup := by
  cases request with
  | threads request => cases request <;> simp [order]
  | modules request => cases request <;> simp [order]
  | addUndefined module => simp [order]

theorem Due.sublist (due : request.Due definition questions op args) :
    (questions.map Question.op ++ [op]).Sublist request.order := by
  cases due <;> simp [order]

theorem Due.unfinished (due : request.Due definition questions op args) {question : Question}
    (last : questions.getLast? = some question) : request.order.getLast? ≠ some question.op := by
  cases due <;> cases last <;> simp [order]

end

def fatal? (definition : DefinitionId → ModuleDefinition) : BridgeRequest → Option FatalError
  | .addUndefined _ => some ⟨addModuleFunction, .nullModuleDefinition⟩
  | .modules (.remove id) =>
    if (definition id).hasSlots = false ∧ (definition id).rawIndex = 0 then
      some ⟨removeModuleFunction, .zeroModuleIndex⟩
    else none
  | _ => none

theorem fatal?_of_index? {definition : DefinitionId → ModuleDefinition} {id : DefinitionId}
    {index : ModuleIndex} (assigned : (definition id).index? = some index) :
    (modules (.remove id)).fatal? definition = none := by
  have positive := index.positive
  have stored := ModuleDefinition.index?_eq_some_iff.1 assigned
  exact if_neg fun ⟨_, unassigned⟩ => by omega

def assigns? : BridgeRequest → Option DefinitionId
  | .modules (.init id) | .modules (.add _ id) => some id
  | _ => none

variable {World : Type}

def settle (request : BridgeRequest) (question : Question) (process : Process World) : Process World :=
  match request.assigns?, question.assigned? with
  | some id, some index => process.storeDefinition id ((process.definition id).claim index).2
  | _, _ => process

-- The gate can do to the process what it likes while it has an upcall.
inductive Course (gate : Gate World) (id : BridgeId) (bridge : Bridge) (thread : ThreadId)
    (request : BridgeRequest) : Process World → List Question → List (Exchange World) →
      EStateM.Result Halt (Process World) EventAnswer → Prop where
  | returns {process : Process World} {earlier : List Question} {reply : EventAnswer}
    {records : List LogRecord} (concludes : request.Concludes process.definition earlier reply)
    (silent : earlier = [] → records = []) :
    Course gate id bridge thread request process earlier []
      (.ok reply { process with log := process.log ++ records })
  | aborts {process : Process World} {error : FatalError}
    (fatal : request.fatal? process.definition = some error) :
    Course gate id bridge thread request process [] []
      (.error (.fatal error) (process.aborted error))
  | halts {process last : Process World} {earlier : List Question} {op : UpcallOp}
    {args : List Handle} {halt : Halt} (due : request.Due process.definition earlier op args)
    (halted : gate bridge.runtime thread op args (process.announce id bridge op args) =
      .error halt last) :
    Course gate id bridge thread request process earlier [] (.error halt last)
  | refused {process after : Process World} {earlier : List Question} {op : UpcallOp}
    {args : List Handle} {answer : Except UpcallError Handle} {error : UpcallError}
    (due : request.Due process.definition earlier op args)
    (answered : gate bridge.runtime thread op args (process.announce id bridge op args) =
      .ok answer after)
    (refused : Question.RefusedWith ⟨op, args, answer⟩ error) :
    Course gate id bridge thread request process earlier [⟨⟨op, args, answer⟩, process, after⟩]
      (.ok (request.failed error) (after.conclude id bridge op answer))
  | accepted {process after : Process World} {earlier : List Question} {op : UpcallOp}
    {args : List Handle} {answer : Except UpcallError Handle} {later : List (Exchange World)}
    {result : EStateM.Result Halt (Process World) EventAnswer}
    (due : request.Due process.definition earlier op args)
    (answered : gate bridge.runtime thread op args (process.announce id bridge op args) =
      .ok answer after)
    (accepted : Question.Accepted ⟨op, args, answer⟩)
    (rest : Course gate id bridge thread request
      (request.settle ⟨op, args, answer⟩ (after.conclude id bridge op answer))
      (earlier ++ [⟨op, args, answer⟩]) later result) :
    Course gate id bridge thread request process earlier
      (⟨⟨op, args, answer⟩, process, after⟩ :: later) result

variable {gate : Gate World} {id : BridgeId} {bridge : Bridge} {thread : ThreadId}
  {request : BridgeRequest} {process : Process World} {earlier : List Question}

def Takes (gate : Gate World) (id : BridgeId) (bridge : Bridge) (thread : ThreadId)
    (request : BridgeRequest) (process : Process World) (earlier : List Question)
    (dialogue : Dialogue EventAnswer) : Prop :=
  request.Course gate id bridge thread process earlier
    (Process.exchanges gate id bridge thread dialogue process)
    (Process.perform gate id bridge thread dialogue process)

theorem takes_done {reply : EventAnswer}
    (concludes : request.Concludes process.definition earlier reply) :
    request.Takes gate id bridge thread process earlier (.done reply) := by
  have course : request.Course gate id bridge thread process earlier []
      (.ok reply { process with log := process.log ++ [] }) := .returns concludes fun _ => rfl
  rw [List.append_nil] at course
  exact course

theorem takes_look {definition : DefinitionId} {next : ModuleDefinition → Dialogue EventAnswer}
    (takes : request.Takes gate id bridge thread process earlier
      (next (process.definition definition))) :
    request.Takes gate id bridge thread process earlier (.look definition next) :=
  takes

theorem takes_note {reply : EventAnswer} (line : RegistryNote)
    (concludes : request.Concludes process.definition earlier reply) (told : earlier ≠ []) :
    request.Takes gate id bridge thread process earlier (.note line (.done reply)) :=
  .returns concludes fun none => absurd none told

theorem takes_inquire {α : Type} {op : UpcallOp} {args : List Handle}
    {judge : Handle → Except UpcallError α} {next : α → Dialogue EventAnswer}
    (judges : BridgeCall.Judges op judge) (due : request.Due process.definition earlier op args)
    (rest : ∀ handle value (after : Process World), judge handle = .ok value →
      request.Course gate id bridge thread (request.settle ⟨op, args, .ok handle⟩ after)
        (earlier ++ [⟨op, args, .ok handle⟩])
        (Process.exchanges gate id bridge thread (next value) after)
        (Process.perform gate id bridge thread (next value) after)) :
    request.Takes gate id bridge thread process earlier
      (Dialogue.inquire request.failed op args judge next) := by
  unfold Takes Dialogue.inquire
  cases asked : gate bridge.runtime thread op args (process.announce id bridge op args) with
  | error halt last =>
    rw [Process.exchanges_ask_of_error asked, Process.perform_ask_of_error asked]
    exact .halts due asked
  | ok answer after =>
    rw [Process.exchanges_ask_of_ok asked, Process.perform_ask_of_ok asked]
    cases answer with
    | error error => exact .refused due asked (.inl rfl)
    | ok handle =>
      simp only [Except.bind]
      rcases judges handle with ⟨accepts, value, judged⟩ | ⟨refuses, judged⟩
      next =>
        rw [judged]
        exact .accepted due asked ⟨handle, rfl, accepts⟩ (rest handle value _ judged)
      next =>
        rw [judged]
        exact .refused due asked (.inr ⟨handle, rfl, refuses, rfl⟩)

theorem settle_of_assigned {question : Question} {definition : DefinitionId} {index : ModuleIndex}
    (assigns : request.assigns? = some definition) (assigned : question.assigned? = some index)
    (process : Process World) : request.settle question process =
      process.storeDefinition definition ((process.definition definition).claim index).2 := by
  simp only [settle, assigns, assigned]

theorem assigned?_of_read {handle : Handle} {index : ModuleIndex}
    (read : ModuleIndex.ofHandle? handle = some index) :
    Question.assigned? ⟨.assignModuleIndex, [], .ok handle⟩ = some index := read

theorem index?_stored (process : Process World) (definition : DefinitionId) (index : ModuleIndex) :
    ((process.storeDefinition definition
      ((process.definition definition).claim index).2).definition definition).index? =
      some ((process.definition definition).claim index).1 := by
  rw [Process.definition_storeDefinition_self, ModuleDefinition.index?_claim]

section

open BridgeCall

theorem takes_current :
    (threads .current).Takes gate id bridge thread process [] (threads .current).dialogue := by
  rw [dialogue_current]
  refine takes_inquire judges_stateAnswer .current fun handle state after judged => ?_
  obtain rfl := stateAnswer_eq_ok_iff.1 judged
  exact takes_done (.current state)

theorem takes_dictOf (state : ThreadStateHandle) : (threads (.dictOf state)).Takes gate id bridge thread
    process [] (threads (.dictOf state)).dialogue := by
  rw [dialogue_dictOf]
  refine takes_inquire judges_dictAnswer (.dictOf state) fun handle dict after judged => ?_
  obtain rfl := dictAnswer_eq_ok_iff.1 judged
  exact takes_done (.dictOf state dict)

theorem takes_currentDict : (threads .currentDict).Takes gate id bridge thread process []
    (threads .currentDict).dialogue := by
  rw [dialogue_currentDict]
  refine takes_inquire judges_stateAnswer .resolve fun handle state after judged => ?_
  obtain rfl := stateAnswer_eq_ok_iff.1 judged
  rw [dialogue_dictOf]
  refine takes_inquire judges_dictAnswer (.currentDict state) fun handle dict after judged => ?_
  obtain rfl := dictAnswer_eq_ok_iff.1 judged
  exact takes_done (.currentDict state dict)

theorem judges_find : Judges .findModuleByIndex (optionalModule .findModuleByIndex) :=
  judges_optionalModule (fun _ => Iff.rfl) rfl

theorem judges_add : Judges .addModuleByIndex (optionalModule .addModuleByIndex) :=
  judges_optionalModule (fun _ => Iff.rfl) rfl

theorem judges_remove : Judges .removeModuleByIndex (optionalModule .removeModuleByIndex) :=
  judges_optionalModule (fun _ => Iff.rfl) rfl

theorem takes_findByIndex (index : ModuleIndex) : (modules (.findByIndex index)).Takes gate id bridge
    thread process [] (modules (.findByIndex index)).dialogue := by
  by_cases fits : index.Fits
  next =>
    obtain ⟨handle, carries, carried, -⟩ := fits.carried
    rw [dialogue_findByIndex_of_fits carries]
    refine takes_inquire judges_find (.findByIndex carried) fun answer module? after judged => ?_
    obtain rfl := optionalModule_eq_ok_iff.1 judged
    exact takes_done (.findByIndex index handle module?)
  next =>
    rw [dialogue_findByIndex_of_not_fits fits]
    exact takes_done (.wideIndex fits)

theorem takes_find (definition : DefinitionId) : (modules (.find definition)).Takes gate id bridge
    thread process [] (modules (.find definition)).dialogue := by
  rw [dialogue_find]
  refine takes_look ?_
  cases slots : (process.definition definition).hasSlots with
  | true => exact takes_done (.unregistered (.inl slots))
  | false =>
    simp only [Bool.false_eq_true, if_false]
    cases assigned : (process.definition definition).index? with
    | none => exact takes_done (.unregistered (.inr (by simp [assigned])))
    | some index =>
      by_cases fits : index.Fits
      next =>
        obtain ⟨handle, carries, carried, -⟩ := fits.carried
        simp only [dialogue_findByIndex_of_fits carries]
        refine takes_inquire judges_find (.find slots assigned carried)
          fun answer module? after judged => ?_
        obtain rfl := optionalModule_eq_ok_iff.1 judged
        exact takes_done (.find definition handle module?)
      next =>
        simp only [dialogue_findByIndex_of_not_fits fits]
        refine takes_done (.unregistered (.inr fun other same => ?_))
        rw [assigned] at same
        cases same
        exact fits

theorem takes_init (definition : DefinitionId) : (modules (.init definition)).Takes gate id bridge
    thread process [] (modules (.init definition)).dialogue := by
  rw [dialogue_init]
  refine takes_look ?_
  cases assigned : (process.definition definition).index? with
  | some index => exact takes_done (.initAssigned assigned)
  | none =>
    refine takes_inquire judges_indexAnswer (.init assigned) fun handle index after judged => ?_
    have read := assigned?_of_read (indexAnswer_eq_ok_iff.1 judged)
    rw [settle_of_assigned rfl read]
    exact takes_done (.init handle (index?_stored after definition index))

theorem takes_reportPlaced {module : ModuleHandle} {definition : DefinitionId} {index : ModuleIndex}
    {previous? : Option ModuleHandle} (told : earlier ≠ [])
    (concludes : (modules (.add module definition)).Concludes process.definition earlier
      (.module (.status
        (if previous? = some module then .error (.moduleAlreadyAdded index) else .ok ())))) :
    (modules (.add module definition)).Takes gate id bridge thread process earlier
      (EventAnswer.module <$> ModuleReply.status <$> (reportPlaced module index previous?).run) := by
  cases previous? with
  | none => exact takes_note (.added module.handle index) concludes told
  | some previous =>
    by_cases same : previous = module
    next =>
      simp only [same, if_true] at concludes
      simp only [reportPlaced, same, if_true]
      exact takes_done concludes
    next =>
      simp only [Option.some.injEq, same, if_false] at concludes
      simp only [reportPlaced, same, if_false]
      exact takes_note (.replaced module.handle previous.handle index) concludes told

theorem takes_placing {module : ModuleHandle} {definition : DefinitionId} {index : ModuleIndex}
    (due : ∀ handle, Handle.ofInt index.value = .ok handle →
      (modules (.add module definition)).Due process.definition earlier .addModuleByIndex
        [module.handle, handle])
    (wide : ¬ index.Fits → (modules (.add module definition)).Concludes process.definition earlier
      (.module (.status
        (.error (.upcall (.invalidArgument .addModuleByIndex (.indexTooLarge index))))))) :
    (modules (.add module definition)).Takes gate id bridge thread process earlier
      (placing module index) := by
  by_cases fits : index.Fits
  next =>
    obtain ⟨handle, carries, carried, -⟩ := fits.carried
    rw [placing_of_fits module definition carries]
    refine takes_inquire judges_add (due handle carried) fun answer previous? after judged => ?_
    obtain rfl := optionalModule_eq_ok_iff.1 judged
    exact takes_reportPlaced (by simp) (.added (List.getLast?_concat ..) carried)
  next =>
    rw [placing_of_not_fits module fits]
    exact takes_done (wide fits)

theorem takes_add (module : ModuleHandle) (definition : DefinitionId) :
    (modules (.add module definition)).Takes gate id bridge thread process []
      (modules (.add module definition)).dialogue := by
  rw [dialogue_add]
  refine takes_look ?_
  cases slots : (process.definition definition).hasSlots with
  | true => exact takes_done (.addSlots module slots)
  | false =>
    rw [if_neg Bool.false_ne_true]
    refine takes_look ?_
    cases assigned : (process.definition definition).index? with
    | some index =>
      exact takes_placing (fun handle => .add slots assigned) (.addWide module slots assigned)
    | none =>
      refine takes_inquire judges_indexAnswer (.assign slots assigned)
        fun handle index after judged => ?_
      have read := assigned?_of_read (indexAnswer_eq_ok_iff.1 judged)
      rw [settle_of_assigned rfl read]
      have stored := index?_stored after definition index
      exact takes_placing (fun carrier => .addAssigned stored)
        (.addAssignedWide module handle stored)

theorem takes_withdrawing {definition : DefinitionId} {index : ModuleIndex}
    (single : (process.definition definition).hasSlots = false)
    (assigned : (process.definition definition).index? = some index) :
    (modules (.remove definition)).Takes gate id bridge thread process [] (withdrawing index) := by
  by_cases fits : index.Fits
  next =>
    obtain ⟨handle, carries, carried, -⟩ := fits.carried
    rw [withdrawing_of_fits definition carries]
    refine takes_inquire judges_remove (.remove single assigned carried)
      fun answer module? after judged => ?_
    obtain rfl := optionalModule_eq_ok_iff.1 judged
    cases module? with
    | none => exact takes_note (.absent index) (.removed definition handle none) (by simp)
    | some removed =>
      exact takes_note (.removed removed.handle index) (.removed definition handle (some removed))
        (by simp)
  next =>
    rw [withdrawing_of_not_fits fits]
    exact takes_done (.removeWide single assigned fits)

theorem takes_remove (definition : DefinitionId) : (modules (.remove definition)).Takes gate id bridge
    thread process [] (modules (.remove definition)).dialogue := by
  rw [dialogue_remove]
  refine takes_look ?_
  cases slots : (process.definition definition).hasSlots with
  | true => exact takes_done (.removeSlots slots)
  | false =>
    simp only [Bool.false_eq_true, if_false]
    cases assigned : (process.definition definition).index? with
    | some index => exact takes_withdrawing slots assigned
    | none =>
      have unassigned := ModuleDefinition.index?_eq_none_iff.1 assigned
      exact .aborts (by simp only [fatal?, slots, unassigned, and_self, if_true])

end

theorem course (gate : Gate World) (id : BridgeId) (thread : ThreadId) (request : BridgeRequest)
    (process : Process World) : request.Course gate id (process.bridge id) thread process []
      (request.exchanges gate id thread process) (request.play gate id thread process) := by
  rw [play_eq]
  cases request with
  | addUndefined module => exact .aborts rfl
  | threads request =>
    cases request with
    | current => exact takes_current
    | currentDict => exact takes_currentDict
    | dictOf state => exact takes_dictOf state
  | modules request =>
    cases request with
    | find definition => exact takes_find definition
    | findByIndex index => exact takes_findByIndex index
    | init definition => exact takes_init definition
    | add module definition => exact takes_add module definition
    | remove definition => exact takes_remove definition

def reached (request : BridgeRequest) (id : BridgeId) (bridge : Bridge) :
    Process World → List (Exchange World) → Process World
  | process, [] => process
  | _, exchange :: later => request.reached id bridge (request.settle exchange.toQuestion
      (exchange.after.conclude id bridge exchange.op exchange.answer)) later

theorem settle_of_not_assigned {question : Question} (unassigned : question.assigned? = none)
    (process : Process World) : request.settle question process = process := by
  unfold settle
  rw [unassigned]
  cases request.assigns? <;> rfl

theorem assigned?_of_refused {question : Question} {error : UpcallError}
    (refused : question.RefusedWith error) : question.assigned? = none := by
  obtain ⟨op, args, answer⟩ := question
  rcases refused with rfl | ⟨handle, rfl, refuses, -⟩
  next => cases op <;> rfl
  next =>
    cases op with
    | assignModuleIndex =>
      refine Option.eq_none_iff_forall_ne_some.2 fun index read => refuses ?_
      exact UpcallOp.accepts_assign_iff.2 ⟨index, read⟩
    | _ => rfl

namespace Course

variable {asked later before : List (Exchange World)} {exchange : Exchange World}
  {result : EStateM.Result Halt (Process World) EventAnswer}

theorem head (course : request.Course gate id bridge thread process earlier (exchange :: later) result) :
    exchange.before = process ∧
      request.Due process.definition earlier exchange.op exchange.args ∧
      gate bridge.runtime thread exchange.op exchange.args
        (process.announce id bridge exchange.op exchange.args) = .ok exchange.answer exchange.after := by
  cases course with
  | refused due answered refused => exact ⟨rfl, due, answered⟩
  | accepted due answered accepted rest => exact ⟨rfl, due, answered⟩

theorem refuse {error : UpcallError} (refused : exchange.RefusedWith error)
    (course : request.Course gate id bridge thread process earlier (exchange :: later) result) :
    later = [] ∧ result = .ok (request.failed error)
      (exchange.after.conclude id bridge exchange.op exchange.answer) := by
  cases course with
  | refused due answered other =>
    obtain rfl := other.unique refused
    exact ⟨rfl, rfl⟩
  | accepted due answered accepted rest => exact absurd refused accepted.not_refused

theorem tail (course : request.Course gate id bridge thread process earlier (exchange :: later) result)
    (accepted : exchange.Accepted) :
    request.Course gate id bridge thread (request.settle exchange.toQuestion
      (exchange.after.conclude id bridge exchange.op exchange.answer))
      (earlier ++ [exchange.toQuestion]) later result := by
  cases course with
  | refused due answered refused => exact absurd refused accepted.not_refused
  | accepted due answered accepted rest => exact rest

theorem judged (course : request.Course gate id bridge thread process earlier (exchange :: later) result) :
    exchange.Accepted ∨ ∃ error, exchange.RefusedWith error := by
  cases course with
  | refused due answered refused => exact .inr ⟨_, refused⟩
  | accepted due answered accepted rest => exact .inl accepted

theorem accepted_before (course : request.Course gate id bridge thread process earlier
    (before ++ [exchange]) result) : ∀ other ∈ before, other.Accepted := by
  induction before generalizing process earlier with
  | nil => simp
  | cons first rest ih =>
    rcases course.judged with accepted | ⟨error, refused⟩
    next => exact List.forall_mem_cons.2 ⟨accepted, ih (course.tail accepted)⟩
    next =>
      obtain ⟨none, -⟩ := course.refuse refused
      simp at none

theorem drop (course : request.Course gate id bridge thread process earlier
    (before ++ exchange :: later) result) :
    request.Course gate id bridge thread (request.reached id bridge process before)
      (earlier ++ before.map Exchange.toQuestion) (exchange :: later) result := by
  induction before generalizing process earlier with
  | nil =>
    rw [List.map_nil, List.append_nil]
    exact course
  | cons first rest ih =>
    rcases course.judged with accepted | ⟨error, refused⟩
    next =>
      have dropped := ih (course.tail accepted)
      rw [List.append_assoc] at dropped
      exact dropped
    next =>
      obtain ⟨none, -⟩ := course.refuse refused
      simp at none

-- A call that has returned either had only good answers, or has failed with the last one it got.
theorem returned {reply : EventAnswer} {after : Process World}
    (course : request.Course gate id bridge thread process earlier asked (.ok reply after)) :
    (∃ records, after = { request.reached id bridge process asked with
      log := (request.reached id bridge process asked).log ++ records } ∧
      (earlier ++ asked.map Exchange.toQuestion = [] → records = [])) ∧
    (((∀ exchange ∈ asked, exchange.Accepted) ∧
      request.Concludes (request.reached id bridge process asked).definition
        (earlier ++ asked.map Exchange.toQuestion) reply) ∨
      ∃ first last error, asked = first ++ [last] ∧ last.RefusedWith error ∧
        reply = request.failed error) := by
  induction asked generalizing process earlier with
  | nil =>
    cases course with
    | returns concludes silent =>
      simp only [List.map_nil, List.append_nil]
      exact ⟨⟨_, rfl, silent⟩, .inl ⟨by simp, concludes⟩⟩
  | cons exchange later ih =>
    rcases course.judged with accepted | ⟨error, refused⟩
    next =>
      obtain ⟨⟨records, same, silent⟩, ends⟩ := ih (course.tail accepted)
      simp only [List.append_assoc, List.singleton_append] at silent ends
      refine ⟨⟨records, same, silent⟩, ?_⟩
      rcases ends with ⟨all, concludes⟩ | ⟨first, last, error, rfl, refused, failed⟩
      next => exact .inl ⟨by simpa using ⟨accepted, all⟩, concludes⟩
      next => exact .inr ⟨exchange :: first, last, error, rfl, refused, failed⟩
    next =>
      obtain ⟨rfl, same⟩ := course.refuse refused
      cases same
      refine ⟨⟨[], ?_, fun _ => rfl⟩, .inr ⟨[], exchange, error, rfl, refused, rfl⟩⟩
      simp only [reached, settle_of_not_assigned (assigned?_of_refused refused), List.append_nil]

theorem halted {halt : Halt} {last : Process World}
    (course : request.Course gate id bridge thread process earlier asked (.error halt last)) :
    (∃ error, asked = [] ∧ earlier = [] ∧ request.fatal? process.definition = some error ∧
      halt = .fatal error ∧ last = process.aborted error) ∨
    ∃ op args, request.Due (request.reached id bridge process asked).definition
        (earlier ++ asked.map Exchange.toQuestion) op args ∧
      gate bridge.runtime thread op args
        ((request.reached id bridge process asked).announce id bridge op args) = .error halt last := by
  induction asked generalizing process earlier with
  | nil =>
    rw [List.map_nil, List.append_nil]
    cases course with
    | aborts fatal => exact .inl ⟨_, rfl, rfl, fatal, rfl, rfl⟩
    | halts due halted => exact .inr ⟨_, _, due, halted⟩
  | cons exchange later ih =>
    rcases course.judged with accepted | ⟨error, refused⟩
    next =>
      rcases ih (course.tail accepted) with ⟨error, -, started, -⟩ | gated
      next => simp at started
      next =>
        simp only [List.append_assoc, List.singleton_append] at gated
        exact .inr gated
    next =>
      obtain ⟨-, same⟩ := course.refuse refused
      cases same

end Course

end BridgeRequest

end StateBridge
