import StateBridge.Proofs.Bridge.Course
import StateBridge.Proofs.Handle.Integers

set_option autoImplicit false

namespace StateBridge

def ModuleRequest.Finds : ModuleRequest → Prop
  | .find _ | .findByIndex _ => True
  | _ => False

namespace BridgeRequest

variable {World : Type}

def Returns (request : BridgeRequest) (gate : Gate World) (id : BridgeId) (thread : ThreadId)
    (process : Process World) (reply : EventAnswer) : Prop :=
  ∃ after, request.play gate id thread process = .ok reply after

def AsksOnce (request : BridgeRequest) (gate : Gate World) (id : BridgeId) (thread : ThreadId)
    (process : Process World) (answer : Except UpcallError Handle) : Prop :=
  ∃ exchange, request.exchanges gate id thread process = [exchange] ∧ exchange.answer = answer

variable {gate : Gate World} {id : BridgeId} {thread : ThreadId} {process : Process World}
  {request : BridgeRequest} {first : List (Exchange World)} {last : Exchange World}

theorem returned {reply : EventAnswer} (returns : request.Returns gate id thread process reply)
    (good : ∀ error, reply ≠ request.failed error) :
    (∀ exchange ∈ request.exchanges gate id thread process, exchange.Accepted) ∧
      request.Concludes (request.reached id (process.bridge id) process
          (request.exchanges gate id thread process)).definition
        ((request.exchanges gate id thread process).map Exchange.toQuestion) reply := by
  obtain ⟨after, played⟩ := returns
  have course := course gate id thread request process
  rw [played] at course
  rcases course.returned.2 with concludes | ⟨first, last, error, -, -, failed⟩
  next => exact concludes
  next => exact absurd failed (good error)

theorem returns_of_last (same : request.exchanges gate id thread process = first ++ [last])
    (final : request.order.getLast? = some last.op) (accepted : last.Accepted) :
    ∃ definition reply, request.Returns gate id thread process reply ∧
      request.Concludes definition
        ((request.exchanges gate id thread process).map Exchange.toQuestion) reply := by
  have course := course gate id thread request process
  have ends : ((request.exchanges gate id thread process).map Exchange.toQuestion).getLast? =
      some last.toQuestion := by simp [same]
  cases played : request.play gate id thread process with
  | ok reply after =>
    rw [played] at course
    rcases course.returned.2 with ⟨-, concludes⟩ | ⟨others, other, error, split, refused, -⟩
    next => exact ⟨_, reply, ⟨after, played⟩, concludes⟩
    next =>
      obtain ⟨-, rfl⟩ := List.append_singleton_inj.1 (same.symm.trans split)
      exact absurd refused accepted.not_refused
  | error halt state =>
    rw [played] at course
    rcases course.halted with ⟨error, none, -⟩ | ⟨op, args, due, -⟩
    next => simp [same] at none
    next => exact absurd final (due.unfinished ends)

theorem refused_of_mem {exchange : Exchange World}
    (member : exchange ∈ request.exchanges gate id thread process) {error : UpcallError}
    (refused : exchange.RefusedWith error) : ∃ first,
      request.exchanges gate id thread process = first ++ [exchange] ∧
      request.play gate id thread process = .ok (request.failed error)
        (exchange.after.conclude id (process.bridge id) exchange.op exchange.answer) := by
  obtain ⟨first, later, split⟩ := List.append_of_mem member
  have course := course gate id thread request process
  rw [split] at course
  obtain ⟨rfl, ended⟩ := course.drop.refuse refused
  exact ⟨first, split, ended⟩

theorem due_of_split {later : List (Exchange World)}
    (split : request.exchanges gate id thread process = first ++ last :: later) :
    request.Due last.before.definition (first.map Exchange.toQuestion) last.op last.args := by
  have course := course gate id thread request process
  rw [split] at course
  obtain ⟨same, due, -⟩ := course.drop.head
  rw [same]
  exact due

theorem op_of_mem {exchange : Exchange World}
    (member : exchange ∈ request.exchanges gate id thread process) : exchange.op ∈ request.order := by
  obtain ⟨first, later, split⟩ := List.append_of_mem member
  apply (due_of_split split).sublist.subset
  simp

section

variable {op : UpcallOp} {answer : Except UpcallError Handle}

theorem asksOnce_of_questions {args : List Handle}
    (asked : (request.exchanges gate id thread process).map Exchange.toQuestion =
      [⟨op, args, answer⟩]) : request.AsksOnce gate id thread process answer := by
  obtain ⟨exchange, same, question⟩ := List.map_eq_singleton_iff.1 asked
  exact ⟨exchange, same, congrArg Question.answer question⟩

theorem returns_of_asksOnce {handle : Handle} (single : request.order = [op])
    (asked : request.AsksOnce gate id thread process (.ok handle)) (accepts : op.Accepts handle) :
    ∃ definition args reply, request.Returns gate id thread process reply ∧
      request.Concludes definition [⟨op, args, .ok handle⟩] reply := by
  obtain ⟨⟨⟨asks, args, answer⟩, before, after⟩, same, rfl⟩ := asked
  have here : asks ∈ request.order := op_of_mem (same ▸ List.mem_singleton_self _)
  rw [single, List.mem_singleton] at here
  subst here
  have split : request.exchanges gate id thread process =
    [] ++ [⟨⟨asks, args, .ok handle⟩, before, after⟩] := same
  obtain ⟨definition, reply, returns, concludes⟩ :=
    returns_of_last split (by rw [single]; rfl) ⟨handle, rfl, accepts⟩
  rw [same] at concludes
  exact ⟨definition, args, reply, returns, concludes⟩

end

theorem returns_state_iff {state : ThreadStateHandle} :
    (threads .current).Returns gate id thread process (.state (.ok state)) ↔
      (threads .current).AsksOnce gate id thread process (.ok state.handle) := by
  constructor
  next =>
    intro returns
    obtain ⟨-, concludes⟩ := returned returns (by simp [failed])
    generalize asked : List.map _ _ = questions at concludes
    cases concludes
    exact asksOnce_of_questions asked
  next =>
    intro asked
    have single : (threads .current).order = [.resolveCurrentThreadState] := rfl
    obtain ⟨definition, args, reply, returns, concludes⟩ :=
      returns_of_asksOnce single asked state.isKind
    generalize carried : state.handle = handle at concludes
    cases concludes with
    | current other =>
      obtain rfl := TypedHandle.handle_injective carried
      exact returns

theorem returns_dict_iff {state : ThreadStateHandle} {dict : DictHandle} :
    (threads (.dictOf state)).Returns gate id thread process (.dict (.ok dict)) ↔
      (threads (.dictOf state)).AsksOnce gate id thread process (.ok dict.handle) := by
  constructor
  next =>
    intro returns
    obtain ⟨-, concludes⟩ := returned returns (by simp [failed])
    generalize asked : List.map _ _ = questions at concludes
    cases concludes
    exact asksOnce_of_questions asked
  next =>
    intro asked
    have single : (threads (.dictOf state)).order = [.threadStateDict] := rfl
    obtain ⟨definition, args, reply, returns, concludes⟩ :=
      returns_of_asksOnce single asked dict.isKind
    generalize carried : dict.handle = handle at concludes
    cases concludes with
    | dictOf state other =>
      obtain rfl := TypedHandle.handle_injective carried
      exact returns

theorem index_of_init {definition : DefinitionId} {index : ModuleIndex}
    (unassigned : (process.definition definition).index? = none)
    (returns : (modules (.init definition)).Returns gate id thread process (.module (.index (.ok index)))) :
    ∃ exchange handle answered,
      (modules (.init definition)).exchanges gate id thread process = [exchange] ∧
        exchange.answer = .ok handle ∧ ModuleIndex.ofHandle? handle = some answered ∧
        index = (exchange.after.definition definition).index?.getD answered := by
  obtain ⟨accepted, concludes⟩ := returned returns (by simp [failed])
  generalize asked : List.map _ _ = questions at concludes
  cases concludes with
  | initAssigned assigned =>
    rw [List.map_eq_nil_iff.1 asked] at assigned
    exact absurd (unassigned.symm.trans assigned) (by simp)
  | init handle assigned =>
    obtain ⟨exchange, same, question⟩ := List.map_eq_singleton_iff.1 asked
    obtain ⟨other, answer, accepts⟩ := accepted exchange (same ▸ List.mem_singleton_self _)
    have op : exchange.op = .assignModuleIndex := congrArg Question.op question
    rw [op] at accepts
    obtain ⟨answered, read⟩ := UpcallOp.accepts_assign_iff.1 accepts
    have given : exchange.assigned? = some answered := by
      rw [Question.assigned?, op, answer]
      exact read
    rw [same, reached, reached, settle_of_assigned rfl given, index?_stored,
      ModuleDefinition.claim_fst, Process.definition_conclude] at assigned
    exact ⟨exchange, other, answered, same, answer, read, (Option.some.inj assigned).symm⟩

theorem returns_init_iff {definition : DefinitionId} {index : ModuleIndex}
    (unassigned : (process.definition definition).index? = none) :
    (modules (.init definition)).Returns gate id thread process (.module (.index (.ok index))) ↔
      ∃ exchange handle answered,
        (modules (.init definition)).exchanges gate id thread process = [exchange] ∧
          exchange.answer = .ok handle ∧ handle.toInt? = some (answered.value : Int) ∧
          index = (exchange.after.definition definition).index?.getD answered := by
  simp only [← ModuleIndex.ofHandle?_eq_some_iff]
  constructor
  next => exact index_of_init unassigned
  next =>
    rintro ⟨exchange, handle, answered, same, answer, read, rfl⟩
    have single : (modules (.init definition)).order = [.assignModuleIndex] := rfl
    have accepts := UpcallOp.accepts_assign_iff.2 ⟨answered, read⟩
    obtain ⟨definitions, args, reply, returns, concludes⟩ :=
      returns_of_asksOnce single ⟨exchange, same, answer⟩ accepts
    cases concludes with
    | init _ assigned =>
      obtain ⟨other, carrier, given, alike, again, reread, rfl⟩ := index_of_init unassigned returns
      rw [same] at alike
      cases alike
      rw [answer] at again
      cases again
      rw [read] at reread
      cases reread
      exact returns

theorem returns_currentDict_iff {dict : DictHandle} :
    (threads .currentDict).Returns gate id thread process (.dict (.ok dict)) ↔
      ∃ resolve exchange, (threads .currentDict).exchanges gate id thread process = [resolve, exchange] ∧
        (∃ state : ThreadStateHandle, resolve.answer = .ok state.handle) ∧
        exchange.answer = .ok dict.handle := by
  constructor
  next =>
    intro returns
    obtain ⟨-, concludes⟩ := returned returns (by simp [failed])
    generalize asked : List.map _ _ = questions at concludes
    cases concludes with
    | currentDict state =>
      obtain ⟨resolve, rest, same, first, tail⟩ := List.map_eq_cons_iff.1 asked
      obtain ⟨exchange, rfl, second⟩ := List.map_eq_singleton_iff.1 tail
      exact ⟨resolve, exchange, same, ⟨state, congrArg Question.answer first⟩,
        congrArg Question.answer second⟩
  next =>
    rintro ⟨resolve, ⟨⟨op, args, answer⟩, before, after⟩, same, -, rfl⟩
    have split : (threads .currentDict).exchanges gate id thread process =
      [resolve] ++ [⟨⟨op, args, .ok dict.handle⟩, before, after⟩] := same
    have second : op = .threadStateDict := by
      have whole := (due_of_split split).sublist.eq_of_length rfl
      simp only [order, List.map_cons, List.map_nil, List.singleton_append, List.cons.injEq] at whole
      exact whole.2.1
    subst second
    obtain ⟨definition, reply, returns, concludes⟩ :=
      returns_of_last split rfl ⟨dict.handle, rfl, dict.isKind⟩
    rw [same] at concludes
    generalize carried : dict.handle = handle at concludes
    generalize asked : List.map _ _ = questions at concludes
    cases concludes with
    | currentDict state other =>
      simp only [List.map_cons, List.cons.injEq, Question.mk.injEq, Except.ok.injEq] at asked
      obtain rfl := TypedHandle.handle_injective (carried.trans asked.2.1.2.2)
      exact returns

theorem returns_found {request : ModuleRequest} (finds : request.Finds) {module? : Option ModuleHandle}
    (asked : (modules request).AsksOnce gate id thread process (.ok (Host.moduleAnswer module?))) :
    (modules request).Returns gate id thread process (.module (.found (.ok module?))) := by
  have accepts : UpcallOp.findModuleByIndex.Accepts (Host.moduleAnswer module?) :=
    BridgeCall.accepts_moduleAnswer.2 ⟨module?, rfl⟩
  cases request with
  | find definition =>
    have single : (modules (.find definition)).order = [.findModuleByIndex] := rfl
    obtain ⟨definitions, args, reply, returns, concludes⟩ := returns_of_asksOnce single asked accepts
    generalize carried : Host.moduleAnswer module? = handle at concludes
    cases concludes with
    | find _ _ other =>
      obtain rfl := Host.moduleAnswer_injective carried
      exact returns
  | findByIndex index =>
    have single : (modules (.findByIndex index)).order = [.findModuleByIndex] := rfl
    obtain ⟨definitions, args, reply, returns, concludes⟩ := returns_of_asksOnce single asked accepts
    generalize carried : Host.moduleAnswer module? = handle at concludes
    cases concludes with
    | findByIndex _ _ other =>
      obtain rfl := Host.moduleAnswer_injective carried
      exact returns
  | init | add | remove => cases finds

theorem asked_of_found {request : ModuleRequest} (finds : request.Finds)
    {module? : Option ModuleHandle}
    (returns : (modules request).Returns gate id thread process (.module (.found (.ok module?)))) :
    (module? = none ∧ (modules request).exchanges gate id thread process = []) ∨
      (modules request).AsksOnce gate id thread process (.ok (Host.moduleAnswer module?)) := by
  cases request with
  | find definition =>
    obtain ⟨-, concludes⟩ := returned returns (by simp [failed])
    generalize asked : List.map _ _ = questions at concludes
    cases concludes with
    | unregistered never => exact .inl ⟨rfl, List.map_eq_nil_iff.1 asked⟩
    | find _ handle => exact .inr (asksOnce_of_questions asked)
  | findByIndex index =>
    obtain ⟨-, concludes⟩ := returned returns (by simp [failed])
    generalize asked : List.map _ _ = questions at concludes
    cases concludes with
    | wideIndex wide => exact .inl ⟨rfl, List.map_eq_nil_iff.1 asked⟩
    | findByIndex _ handle => exact .inr (asksOnce_of_questions asked)
  | init | add | remove => cases finds

theorem returns_module_iff {request : ModuleRequest} (finds : request.Finds) {module : ModuleHandle} :
    (modules request).Returns gate id thread process (.module (.found (.ok (some module)))) ↔
      (modules request).AsksOnce gate id thread process (.ok module.handle) := by
  constructor
  next =>
    intro returns
    rcases asked_of_found finds returns with ⟨none, -⟩ | asked
    next => cases none
    next => exact asked
  next =>
    intro asked
    have answered : (modules request).AsksOnce gate id thread process
      (.ok (Host.moduleAnswer (some module))) := asked
    exact returns_found finds answered

theorem returns_no_module_iff {request : ModuleRequest} (finds : request.Finds)
    (asks : (modules request).exchanges gate id thread process = [last]) :
    (modules request).Returns gate id thread process (.module (.found (.ok none))) ↔
      last.answer = .ok .null := by
  constructor
  next =>
    intro returns
    rcases asked_of_found finds returns with ⟨-, silent⟩ | ⟨exchange, same, answered⟩
    next => simp [asks] at silent
    next =>
      rw [asks] at same
      cases same
      exact answered
  next => exact fun answered => returns_found finds ⟨last, asks, answered⟩

theorem returns_removed_iff {definition : DefinitionId} :
    (modules (.remove definition)).Returns gate id thread process (.module (.status (.ok ()))) ↔
      ∃ handle, (modules (.remove definition)).AsksOnce gate id thread process (.ok handle) ∧
        (handle = .null ∨ handle.kind? = some .module) := by
  constructor
  next =>
    intro returns
    obtain ⟨-, concludes⟩ := returned returns (by simp [failed])
    generalize asked : List.map _ _ = questions at concludes
    cases concludes with
    | removed _ handle module? =>
      exact ⟨_, asksOnce_of_questions asked, BridgeCall.accepts_moduleAnswer.2 ⟨module?, rfl⟩⟩
  next =>
    rintro ⟨handle, asked, accepts⟩
    have single : (modules (.remove definition)).order = [.removeModuleByIndex] := rfl
    obtain ⟨definitions, args, reply, returns, concludes⟩ := returns_of_asksOnce single asked accepts
    cases concludes
    exact returns

theorem last_of_final {exchange : Exchange World}
    (member : exchange ∈ request.exchanges gate id thread process)
    (final : request.order.getLast? = some exchange.op) :
    ∃ first, request.exchanges gate id thread process = first ++ [exchange] := by
  obtain ⟨first, later, split⟩ := List.append_of_mem member
  cases later with
  | nil => exact ⟨first, split⟩
  | cons next rest =>
    have again : request.exchanges gate id thread process = (first ++ [exchange]) ++ next :: rest := by
      rw [split, List.append_assoc, List.singleton_append]
    have ends : ((first ++ [exchange]).map Exchange.toQuestion).getLast? =
      some exchange.toQuestion := by simp
    exact absurd final ((due_of_split again).unfinished ends)

section

variable {module : ModuleHandle} {definition : DefinitionId} {exchange : Exchange World}
  {previous? : Option ModuleHandle} {index : ModuleIndex}

theorem placing_of_mem
    (member : exchange ∈ (modules (.add module definition)).exchanges gate id thread process)
    (adds : exchange.op = .addModuleByIndex) :
    ∃ index handle, (exchange.before.definition definition).index? = some index ∧
      exchange.args = [module.handle, handle] ∧ Handle.ofInt index.value = .ok handle := by
  obtain ⟨first, later, split⟩ := List.append_of_mem member
  have due := due_of_split split
  rw [adds] at due
  generalize List.map _ _ = questions at due
  generalize asked : exchange.args = args at due
  cases due with
  | add single assigned carried | addAssigned assigned carried => exact ⟨_, _, assigned, rfl, carried⟩

theorem index_of_placing
    (member : exchange ∈ (modules (.add module definition)).exchanges gate id thread process)
    (adds : exchange.op = .addModuleByIndex) {handle : Handle}
    (args : exchange.args = [module.handle, handle]) (carried : Handle.ofInt index.value = .ok handle) :
    (exchange.before.definition definition).index? = some index := by
  obtain ⟨other, carrier, assigned, same, again⟩ := placing_of_mem member adds
  rw [args] at same
  cases same
  have read := ModuleIndex.ofHandle?_eq_some_iff.2 (Handle.ofInt_eq_ok_iff.1 carried)
  have reread := ModuleIndex.ofHandle?_eq_some_iff.2 (Handle.ofInt_eq_ok_iff.1 again)
  rw [assigned, ← read, reread]

theorem returns_placed
    (member : exchange ∈ (modules (.add module definition)).exchanges gate id thread process)
    (adds : exchange.op = .addModuleByIndex)
    (answered : exchange.answer = .ok (Host.moduleAnswer previous?)) :
    ∃ index, (exchange.before.definition definition).index? = some index ∧
      (modules (.add module definition)).Returns gate id thread process (.module (.status
        (if previous? = some module then .error (.moduleAlreadyAdded index) else .ok ()))) := by
  obtain ⟨first, same⟩ := last_of_final member (by rw [adds]; rfl)
  have accepted : exchange.Accepted := by
    refine ⟨_, answered, ?_⟩
    rw [adds]
    exact BridgeCall.accepts_moduleAnswer.2 ⟨previous?, rfl⟩
  obtain ⟨definitions, reply, returns, concludes⟩ :=
    returns_of_last same (by rw [adds]; rfl) accepted
  have ends : ((modules (.add module definition)).exchanges gate id thread process |>.map
    Exchange.toQuestion).getLast? = some exchange.toQuestion := by simp [same]
  generalize List.map _ _ = questions at concludes ends
  cases concludes with
  | addSlots | addWide => cases ends
  | addAssignedWide =>
    have assigns := congrArg Question.op (Option.some.inj ends)
    rw [adds] at assigns
    cases assigns
  | added last carried =>
    have question := Option.some.inj (ends.symm.trans last)
    have told := congrArg Question.answer question
    rw [answered] at told
    obtain rfl := Host.moduleAnswer_injective (Except.ok.inj told)
    exact ⟨_, index_of_placing member adds (congrArg Question.args question) carried, returns⟩

theorem placed_of_returns {result : Except ApiError Unit}
    (returns : (modules (.add module definition)).Returns gate id thread process
      (.module (.status result)))
    (good : result = .ok () ∨ ∃ index, result = .error (.moduleAlreadyAdded index)) :
    ∃ exchange ∈ (modules (.add module definition)).exchanges gate id thread process,
      exchange.op = .addModuleByIndex ∧ ∃ index previous?,
        (exchange.before.definition definition).index? = some index ∧
        exchange.answer = .ok (Host.moduleAnswer previous?) ∧
        result = if previous? = some module then .error (.moduleAlreadyAdded index) else .ok () := by
  have unfailed : ∀ error, EventAnswer.module (.status result) ≠
      (modules (.add module definition)).failed error := by
    rcases good with rfl | ⟨index, rfl⟩ <;> simp [failed]
  obtain ⟨-, concludes⟩ := returned returns unfailed
  generalize asked : List.map _ _ = questions at concludes
  generalize told : EventAnswer.module (.status result) = reply at concludes
  cases concludes with
  | addSlots | addWide | addAssignedWide =>
    cases told
    rcases good with good | ⟨index, good⟩ <;> cases good
  | added last carried =>
    cases told
    obtain ⟨exchange, member, question⟩ := List.mem_map.1 (asked ▸ List.mem_of_getLast? last)
    have adds : exchange.op = .addModuleByIndex := congrArg Question.op question
    exact ⟨exchange, member, adds, _, _,
      index_of_placing member adds (congrArg Question.args question) carried,
      congrArg Question.answer question, rfl⟩

end

theorem returns_added_iff {module : ModuleHandle} {definition : DefinitionId} :
    (modules (.add module definition)).Returns gate id thread process (.module (.status (.ok ()))) ↔
      ∃ exchange ∈ (modules (.add module definition)).exchanges gate id thread process,
        exchange.op = .addModuleByIndex ∧ ∃ handle, exchange.answer = .ok handle ∧
          (handle = .null ∨ handle.kind? = some .module) ∧ handle ≠ module.handle := by
  constructor
  next =>
    intro returns
    obtain ⟨exchange, member, adds, index, previous?, -, answered, told⟩ :=
      placed_of_returns returns (.inl rfl)
    refine ⟨exchange, member, adds, _, answered,
      BridgeCall.accepts_moduleAnswer.2 ⟨previous?, rfl⟩, ?_⟩
    intro same
    have itself : previous? = some module := Host.moduleAnswer_injective same
    rw [if_pos itself] at told
    cases told
  next =>
    rintro ⟨exchange, member, adds, handle, answered, accepts, other⟩
    obtain ⟨previous?, rfl⟩ := BridgeCall.accepts_moduleAnswer.1 accepts
    obtain ⟨index, -, returns⟩ := returns_placed member adds answered
    have another : previous? ≠ some module := by
      rintro rfl
      exact other rfl
    rw [if_neg another] at returns
    exact returns

theorem returns_alreadyAdded_iff {module : ModuleHandle} {definition : DefinitionId}
    {index : ModuleIndex} :
    (modules (.add module definition)).Returns gate id thread process
      (.module (.status (.error (.moduleAlreadyAdded index)))) ↔
      ∃ exchange ∈ (modules (.add module definition)).exchanges gate id thread process,
        exchange.op = .addModuleByIndex ∧ exchange.answer = .ok module.handle ∧
          (exchange.before.definition definition).index? = some index := by
  constructor
  next =>
    intro returns
    obtain ⟨exchange, member, adds, other, previous?, assigned, answered, told⟩ :=
      placed_of_returns returns (.inr ⟨index, rfl⟩)
    split at told
    next itself =>
      subst itself
      cases told
      exact ⟨exchange, member, adds, answered, assigned⟩
    next => cases told
  next =>
    rintro ⟨exchange, member, adds, answered, assigned⟩
    have previous : exchange.answer = .ok (Host.moduleAnswer (some module)) := answered
    obtain ⟨other, same, returns⟩ := returns_placed member adds previous
    rw [assigned] at same
    cases same
    rw [if_pos rfl] at returns
    exact returns

theorem no_thread_state_iff :
    (threads .current).Returns gate id thread process (.state (.error .noThreadState)) ↔
      (threads .current).AsksOnce gate id thread process (.error .noThreadState) := by
  constructor
  next =>
    rintro ⟨after, played⟩
    have course := course gate id thread (threads .current) process
    rw [played] at course
    rcases course.returned.2 with ⟨-, concludes⟩ | ⟨first, last, error, split, refused, failed⟩
    next =>
      generalize List.map _ _ = questions at concludes
      cases concludes
    next =>
      cases failed
      have alone := (due_of_split split).sublist.length_le
      obtain rfl : first = [] := by simpa [order] using alone
      rcases refused with answered | ⟨handle, -, -, mistyped⟩
      next => exact ⟨last, split, answered⟩
      next => cases mistyped
  next =>
    rintro ⟨exchange, same, answered⟩
    obtain ⟨first, -, played⟩ :=
      refused_of_mem (same ▸ List.mem_singleton_self exchange) (.inl answered)
    exact ⟨_, played⟩

theorem unexpected_of_mem {exchange : Exchange World} {handle : Handle}
    (member : exchange ∈ request.exchanges gate id thread process)
    (answered : exchange.answer = .ok handle) (refuses : ¬ exchange.op.Accepts handle) :
    ∃ after, request.play gate id thread process =
        .ok (request.failed (.unexpectedHandle exchange.op exchange.op.expected handle.describe)) after ∧
      after.definition = exchange.after.definition := by
  obtain ⟨first, -, played⟩ := refused_of_mem member (.inr ⟨handle, answered, refuses, rfl⟩)
  exact ⟨_, played, Process.definition_conclude ..⟩

theorem before_of_assign {exchange : Exchange World}
    (member : exchange ∈ request.exchanges gate id thread process)
    (assigns : exchange.op = .assignModuleIndex) : exchange.before = process := by
  obtain ⟨first, later, split⟩ := List.append_of_mem member
  have due := due_of_split split
  have course := course gate id thread request process
  rw [split] at course
  rw [assigns] at due
  generalize asked : first.map Exchange.toQuestion = questions at due
  generalize exchange.args = args at due
  cases due with
  | init | assign =>
    obtain rfl := List.map_eq_nil_iff.1 asked
    exact course.head.1

section

variable (gate id thread process)

structure ChecksAnswers : Prop where
  state : ∀ state : ThreadStateHandle,
    (threads .current).Returns gate id thread process (.state (.ok state)) ↔
      (threads .current).AsksOnce gate id thread process (.ok state.handle)
  noThreadState :
    (threads .current).Returns gate id thread process (.state (.error .noThreadState)) ↔
      (threads .current).AsksOnce gate id thread process (.error .noThreadState)
  dict : ∀ (state : ThreadStateHandle) (dict : DictHandle),
    (threads (.dictOf state)).Returns gate id thread process (.dict (.ok dict)) ↔
      (threads (.dictOf state)).AsksOnce gate id thread process (.ok dict.handle)
  currentDict : ∀ dict : DictHandle,
    (threads .currentDict).Returns gate id thread process (.dict (.ok dict)) ↔
      ∃ resolve exchange, (threads .currentDict).exchanges gate id thread process = [resolve, exchange] ∧
        (∃ state : ThreadStateHandle, resolve.answer = .ok state.handle) ∧
        exchange.answer = .ok dict.handle
  module : ∀ request : ModuleRequest, request.Finds → ∀ module : ModuleHandle,
    (modules request).Returns gate id thread process (.module (.found (.ok (some module)))) ↔
      (modules request).AsksOnce gate id thread process (.ok module.handle)
  noModule : ∀ request : ModuleRequest, request.Finds → ∀ exchange,
    (modules request).exchanges gate id thread process = [exchange] →
    ((modules request).Returns gate id thread process (.module (.found (.ok none))) ↔
      exchange.answer = .ok .null)
  index : ∀ definition, (process.definition definition).index? = none → ∀ index : ModuleIndex,
    ((modules (.init definition)).Returns gate id thread process (.module (.index (.ok index))) ↔
      ∃ exchange handle, ∃ answered : ModuleIndex,
        (modules (.init definition)).exchanges gate id thread process = [exchange] ∧
          exchange.answer = .ok handle ∧ handle.toInt? = some (answered.value : Int) ∧
          index = (exchange.after.definition definition).index?.getD answered)
  added : ∀ (module : ModuleHandle) definition,
    (modules (.add module definition)).Returns gate id thread process (.module (.status (.ok ()))) ↔
      ∃ exchange ∈ (modules (.add module definition)).exchanges gate id thread process,
        exchange.op = .addModuleByIndex ∧ ∃ handle, exchange.answer = .ok handle ∧
          (handle = .null ∨ handle.kind? = some .module) ∧ handle ≠ module.handle
  alreadyAdded : ∀ (module : ModuleHandle) definition index,
    (modules (.add module definition)).Returns gate id thread process
      (.module (.status (.error (.moduleAlreadyAdded index)))) ↔
      ∃ exchange ∈ (modules (.add module definition)).exchanges gate id thread process,
        exchange.op = .addModuleByIndex ∧ exchange.answer = .ok module.handle ∧
          (exchange.before.definition definition).index? = some index
  removed : ∀ definition,
    (modules (.remove definition)).Returns gate id thread process (.module (.status (.ok ()))) ↔
      ∃ handle, (modules (.remove definition)).AsksOnce gate id thread process (.ok handle) ∧
        (handle = .null ∨ handle.kind? = some .module)
  unexpected : ∀ request : BridgeRequest, ∀ exchange ∈ request.exchanges gate id thread process,
    ∀ handle, exchange.answer = .ok handle → ¬ exchange.op.Accepts handle →
      ∃ after, request.play gate id thread process =
          .ok (request.failed (.unexpectedHandle exchange.op exchange.op.expected handle.describe))
            after ∧
        after.definition = exchange.after.definition
  assigned : ∀ request : BridgeRequest, ∀ exchange ∈ request.exchanges gate id thread process,
    exchange.op = .assignModuleIndex → exchange.before = process

end

end BridgeRequest

theorem mistyped_answers_never_pass {World : Type} (gate : Gate World) (id : BridgeId)
    (thread : ThreadId) (process : Process World) :
    BridgeRequest.ChecksAnswers gate id thread process where
  state _ := BridgeRequest.returns_state_iff
  noThreadState := BridgeRequest.no_thread_state_iff
  dict _ _ := BridgeRequest.returns_dict_iff
  currentDict _ := BridgeRequest.returns_currentDict_iff
  module _ finds _ := BridgeRequest.returns_module_iff finds
  noModule _ finds _ := BridgeRequest.returns_no_module_iff finds
  index _ unassigned _ := BridgeRequest.returns_init_iff unassigned
  added _ _ := BridgeRequest.returns_added_iff
  alreadyAdded _ _ _ := BridgeRequest.returns_alreadyAdded_iff
  removed _ := BridgeRequest.returns_removed_iff
  unexpected _ _ member _ := BridgeRequest.unexpected_of_mem member
  assigned _ _ := BridgeRequest.before_of_assign

end StateBridge
