import StateBridge.Proofs.Bridge.Typing

set_option autoImplicit false

namespace StateBridge

namespace ModuleIndex

theorem fits_of_ofInt {index : ModuleIndex} {handle : Handle}
    (carried : Handle.ofInt index.value = .ok handle) : index.Fits := by
  unfold Handle.ofInt at carried
  split at carried
  next within =>
    unfold Fits Handle.intMax
    unfold Handle.intMax at within
    omega
  next => cases carried

end ModuleIndex

namespace BridgeRequest

variable {World : Type} {request : BridgeRequest}

def Decided (definition : DefinitionId → ModuleDefinition) : BridgeRequest → Prop
  | .modules (.find id) => (definition id).hasSlots = true ∨
    ∀ index, (definition id).index? = some index → ¬ index.Fits
  | .modules (.findByIndex index) => ¬ index.Fits
  | .modules (.init id) => (definition id).rawIndex ≠ 0
  | .modules (.add _ id) | .modules (.remove id) => (definition id).hasSlots = true ∨
    ∃ index, (definition id).index? = some index ∧ ¬ index.Fits
  | _ => False

theorem Decided.not_due {definition : DefinitionId → ModuleDefinition}
    (decided : request.Decided definition) {op : UpcallOp} {args : List Handle} :
    ¬ request.Due definition [] op args := by
  intro due
  cases due with
  | current | dictOf | resolve => exact decided
  | findByIndex carried => exact decided (ModuleIndex.fits_of_ofInt carried)
  | init unassigned => exact decided (ModuleDefinition.index?_eq_none_iff.1 unassigned)
  | find single assigned carried =>
    rcases decided with slots | wide
    next => simp [single] at slots
    next => exact wide _ assigned (ModuleIndex.fits_of_ofInt carried)
  | assign single unassigned =>
    rcases decided with slots | ⟨index, assigned, wide⟩
    next => simp [single] at slots
    next => simp [unassigned] at assigned
  | add single assigned carried | remove single assigned carried =>
    rcases decided with slots | ⟨index, same, wide⟩
    next => simp [single] at slots
    next =>
      rw [assigned] at same
      cases same
      exact wide (ModuleIndex.fits_of_ofInt carried)

theorem Decided.not_fatal {definition : DefinitionId → ModuleDefinition}
    (decided : request.Decided definition) : request.fatal? definition = none := by
  cases request with
  | threads => rfl
  | addUndefined => cases decided
  | modules request =>
    cases request with
    | remove id =>
      rcases decided with slots | ⟨index, assigned, -⟩
      next => simp [fatal?, slots]
      next => exact fatal?_of_index? assigned
    | _ => rfl

section

variable {definition : DefinitionId → ModuleDefinition} {questions : List Question} {op : UpcallOp}
  {args : List Handle} {reply : EventAnswer}

theorem Concludes.decided (concludes : request.Concludes definition [] reply) :
    request.Decided definition := by
  cases concludes with
  | wideIndex wide => exact wide
  | unregistered never => exact never
  | initAssigned assigned =>
    exact fun unassigned => by simp [ModuleDefinition.index?_eq_none_iff.2 unassigned] at assigned
  | addSlots module slots => exact .inl slots
  | addWide module single assigned wide => exact .inr ⟨_, assigned, wide⟩
  | added last => cases last
  | removeSlots slots => exact .inl slots
  | removeWide single assigned wide => exact .inr ⟨_, assigned, wide⟩

theorem Concludes.not_due (concludes : request.Concludes definition questions reply) :
    ¬ request.Due definition questions op args := by
  intro due
  cases asked : questions with
  | nil =>
    subst asked
    exact concludes.decided.not_due due
  | cons question rest =>
    cases due with
    | currentDict state =>
      generalize same : [Question.mk _ _ _] = earlier at concludes
      cases concludes
      simp at same
    | addAssigned assigned carried =>
      cases concludes with
      | addAssignedWide module handle same wide =>
        rw [assigned] at same
        cases same
        exact wide (ModuleIndex.fits_of_ofInt carried)
      | added last => cases last
    | _ => cases asked

end

theorem settle_definition {question : Question} {process : Process World} {id : DefinitionId}
    (changed : (request.settle question process).definition id ≠ process.definition id) :
    request.assigns? = some id ∧ (process.definition id).rawIndex = 0 ∧
      ∃ index, question.assigned? = some index ∧ (request.settle question process).definition id =
        { process.definition id with rawIndex := index.value } := by
  cases assigns : request.assigns? with
  | none => simp [settle, assigns] at changed
  | some definition =>
    cases assigned : question.assigned? with
    | none => simp [settle_of_not_assigned assigned] at changed
    | some index =>
      rw [settle_of_assigned assigns assigned] at changed ⊢
      by_cases same : id = definition
      next =>
        subst same
        rw [Process.definition_storeDefinition_self] at changed ⊢
        cases present : (process.definition id).index? with
        | some current => simp [ModuleDefinition.claim_of_index? present] at changed
        | none =>
          exact ⟨rfl, ModuleDefinition.index?_eq_none_iff.1 present, index, rfl,
            by simp [ModuleDefinition.claim, present]⟩
      next =>
        rw [Process.definition_storeDefinition_of_ne process _ same] at changed
        exact absurd rfl changed

inductive Ends (request : BridgeRequest) (definition : DefinitionId → ModuleDefinition) :
    List (Exchange World) → EventAnswer → Prop
  | concluded {exchanges : List (Exchange World)} {reply : EventAnswer}
    (accepted : ∀ exchange ∈ exchanges, exchange.Accepted)
    (concludes : request.Concludes definition (exchanges.map Exchange.toQuestion) reply)
    (finished : ∀ op args, ¬ request.Due definition (exchanges.map Exchange.toQuestion) op args) :
    request.Ends definition exchanges reply
  | refused {first : List (Exchange World)} {last : Exchange World} {error : UpcallError}
    (accepted : ∀ exchange ∈ first, exchange.Accepted) (refused : last.RefusedWith error) :
    request.Ends definition (first ++ [last]) (request.failed error)

def left (request : BridgeRequest) (gate : Gate World) (id : BridgeId) (thread : ThreadId)
    (process : Process World) : Process World :=
  request.reached id (process.bridge id) process (request.exchanges gate id thread process)

theorem reached_append (id : BridgeId) (bridge : Bridge) (process : Process World)
    (first later : List (Exchange World)) : request.reached id bridge process (first ++ later) =
      request.reached id bridge (request.reached id bridge process first) later := by
  induction first generalizing process with
  | nil => rfl
  | cons exchange rest ih => exact ih _

section

variable {gate : Gate World} {id : BridgeId} {thread : ThreadId} {process : Process World}
  {first later : List (Exchange World)} {exchange : Exchange World}

theorem before_eq_reached
    (split : request.exchanges gate id thread process = first ++ exchange :: later) :
    exchange.before = request.reached id (process.bridge id) process first := by
  have course := course gate id thread request process
  rw [split] at course
  exact course.drop.head.1

theorem gate_of_split
    (split : request.exchanges gate id thread process = first ++ exchange :: later) :
    gate (process.bridge id).runtime thread exchange.op exchange.args
        (exchange.before.announce id (process.bridge id) exchange.op exchange.args) =
      .ok exchange.answer exchange.after := by
  have course := course gate id thread request process
  rw [split] at course
  obtain ⟨same, -, answered⟩ := course.drop.head
  rw [same]
  exact answered

theorem ops_sublist : List.Sublist
    ((request.exchanges gate id thread process).map fun exchange => exchange.op) request.order := by
  rcases List.eq_nil_or_concat' (request.exchanges gate id thread process) with none | ⟨first, last, split⟩
  next => simp [none]
  next =>
    have due := (due_of_split split).sublist
    rw [List.map_map] at due
    rw [split, List.map_append]
    exact due

theorem after_of_returned {reply : EventAnswer} {after : Process World}
    (played : request.play gate id thread process = .ok reply after) :
    ∃ records, after = { request.left gate id thread process with
      log := (request.left gate id thread process).log ++ records } := by
  have course := course gate id thread request process
  rw [played] at course
  obtain ⟨⟨records, same, -⟩, -⟩ := course.returned
  exact ⟨records, same⟩

theorem ends_of_returned {reply : EventAnswer} {after : Process World}
    (played : request.play gate id thread process = .ok reply after) :
    request.Ends (request.left gate id thread process).definition
      (request.exchanges gate id thread process) reply := by
  have course := course gate id thread request process
  rw [played] at course
  rcases course.returned.2 with ⟨accepted, concludes⟩ | ⟨first, last, error, split, refused, rfl⟩
  next => exact .concluded accepted concludes fun op args => concludes.not_due
  next =>
    rw [split] at course ⊢
    exact .refused course.accepted_before refused

theorem decided_returns (decided : request.Decided process.definition) :
    request.exchanges gate id thread process = [] ∧
      ∃ reply, request.play gate id thread process = .ok reply process := by
  have course := course gate id thread request process
  have none : request.exchanges gate id thread process = [] := by
    cases asked : request.exchanges gate id thread process with
    | nil => rfl
    | cons exchange later =>
      rw [asked] at course
      exact absurd course.head.2.1 decided.not_due
  refine ⟨none, ?_⟩
  rw [none] at course
  cases played : request.play gate id thread process with
  | ok reply after =>
    rw [played] at course
    obtain ⟨⟨records, rfl, silent⟩, -⟩ := course.returned
    obtain rfl := silent rfl
    exact ⟨reply, by simp [reached]⟩
  | error halt last =>
    rw [played] at course
    rcases course.halted with ⟨error, -, -, fatal, -⟩ | ⟨op, args, due, -⟩
    next => simp [decided.not_fatal] at fatal
    next => exact absurd due decided.not_due

theorem definition_of_reached_append (definition : DefinitionId)
    (changed : (request.reached id (process.bridge id) process (first ++ [exchange])).definition
      definition ≠ exchange.after.definition definition) :
    request.assigns? = some definition ∧ (exchange.after.definition definition).rawIndex = 0 ∧
      ∃ index, exchange.assigned? = some index ∧
        (request.reached id (process.bridge id) process (first ++ [exchange])).definition definition =
          { exchange.after.definition definition with rawIndex := index.value } := by
  rw [reached_append] at changed ⊢
  have settled : (request.reached id (process.bridge id)
      (request.reached id (process.bridge id) process first) [exchange]) =
        request.settle exchange.toQuestion
          (exchange.after.conclude id (process.bridge id) exchange.op exchange.answer) := rfl
  rw [settled, ← Process.definition_conclude exchange.after id (process.bridge id) exchange.op
    exchange.answer] at changed
  rw [settled, ← Process.definition_conclude exchange.after id (process.bridge id) exchange.op
    exchange.answer]
  exact settle_definition changed

end

end BridgeRequest

def Gate.KeepsDefinitions {World : Type} (gate : Gate World) : Prop :=
  ∀ id thread op args before answer after, gate id thread op args before = .ok answer after →
    after.definition = before.definition

namespace BridgeRequest

section

variable {World : Type} {request : BridgeRequest} {gate : Gate World} {id : BridgeId}
  {thread : ThreadId} {process : Process World}

theorem reached_definition (keeps : gate.KeepsDefinitions) (definition : DefinitionId)
    {first later : List (Exchange World)}
    (split : request.exchanges gate id thread process = first ++ later) :
    (request.reached id (process.bridge id) process first).definition definition =
        process.definition definition ∨
      request.assigns? = some definition ∧ (process.definition definition).rawIndex = 0 ∧
        ∃ exchange ∈ first, ∃ index, exchange.assigned? = some index ∧
          (request.reached id (process.bridge id) process first).definition definition =
            { process.definition definition with rawIndex := index.value } := by
  induction first using List.reverseRecOn generalizing later with
  | nil => exact .inl rfl
  | append_singleton first exchange ih =>
    rw [List.append_assoc, List.singleton_append] at split
    have kept := keeps _ _ _ _ _ _ _ (gate_of_split split)
    rw [Process.definition_announce, before_eq_reached split] at kept
    by_cases changed : (request.reached id (process.bridge id) process
        (first ++ [exchange])).definition definition = exchange.after.definition definition
    next =>
      rw [changed, kept]
      rcases ih split with same | ⟨assigns, zero, other, member, given⟩
      next => exact .inl same
      next => exact .inr ⟨assigns, zero, other, List.mem_append_left _ member, given⟩
    next =>
      -- A second index would need a definition that has none, so the first one has changed nothing.
      obtain ⟨assigns, zero, index, assigned, written⟩ := definition_of_reached_append definition changed
      rw [kept] at zero written
      rcases ih split with same | ⟨-, -, other, -, given, -, stored⟩
      next =>
        rw [same] at zero written
        exact .inr ⟨assigns, zero, exchange, by simp, index, assigned, written⟩
      next =>
        have positive := given.positive
        rw [stored] at zero
        simp only at zero
        omega

theorem definition_of_returned (keeps : gate.KeepsDefinitions) {reply : EventAnswer}
    {after : Process World} (played : request.play gate id thread process = .ok reply after)
    {definition : DefinitionId}
    (changed : after.definition definition ≠ process.definition definition) :
    request.assigns? = some definition ∧ (process.definition definition).rawIndex = 0 ∧
      ∃ exchange ∈ request.exchanges gate id thread process, ∃ index,
        exchange.assigned? = some index ∧
          after.definition definition = { process.definition definition with rawIndex := index.value } := by
  obtain ⟨records, rfl⟩ := after_of_returned played
  have whole : request.exchanges gate id thread process =
    request.exchanges gate id thread process ++ [] := (List.append_nil _).symm
  exact (reached_definition keeps definition whole).resolve_left changed

theorem halt_of_play {halt : Halt} {last : Process World}
    (played : request.play gate id thread process = .error halt last) :
    request.fatal? process.definition ≠ none ∨ ∃ op args,
      request.Due (request.left gate id thread process).definition
        ((request.exchanges gate id thread process).map Exchange.toQuestion) op args ∧
      gate (process.bridge id).runtime thread op args ((request.left gate id thread process).announce
        id (process.bridge id) op args) = .error halt last := by
  have course := course gate id thread request process
  rw [played] at course
  rcases course.halted with ⟨error, -, -, fatal, -⟩ | gated
  next => exact .inl (by simp [fatal])
  next => exact .inr gated

end

variable {World : Type} (gate : Gate World) (id : BridgeId) (thread : ThreadId)
  (process : Process World) (request : BridgeRequest)

structure KeepsOrder : Prop where
  order : List.Sublist
    ((request.exchanges gate id thread process).map fun exchange => exchange.op) request.order
  once : ((request.exchanges gate id thread process).map fun exchange => exchange.op).Nodup
  due : ∀ first exchange later,
    request.exchanges gate id thread process = first ++ exchange :: later →
      request.Due exchange.before.definition (first.map Exchange.toQuestion) exchange.op exchange.args
  stops : ∀ first exchange later error,
    request.exchanges gate id thread process = first ++ exchange :: later →
      exchange.RefusedWith error → later = [] ∧
        ∃ after, request.play gate id thread process = .ok (request.failed error) after
  returns : ∀ reply after, request.play gate id thread process = .ok reply after →
    request.Ends (request.left gate id thread process).definition
      (request.exchanges gate id thread process) reply
  halts : ∀ halt last, request.play gate id thread process = .error halt last →
    request.fatal? process.definition ≠ none ∨ ∃ op args,
      request.Due (request.left gate id thread process).definition
        ((request.exchanges gate id thread process).map Exchange.toQuestion) op args ∧
      gate (process.bridge id).runtime thread op args ((request.left gate id thread process).announce
        id (process.bridge id) op args) = .error halt last
  decided : request.Decided process.definition → request.exchanges gate id thread process = [] ∧
    ∃ reply, request.play gate id thread process = .ok reply process
  before : ∀ first exchange later,
    request.exchanges gate id thread process = first ++ exchange :: later →
      exchange.before = request.reached id (process.bridge id) process first
  after : ∀ reply after, request.play gate id thread process = .ok reply after →
    after.definition = (request.left gate id thread process).definition
  settled : ∀ first exchange later,
    request.exchanges gate id thread process = first ++ exchange :: later → ∀ definition,
      (request.reached id (process.bridge id) process (first ++ [exchange])).definition definition ≠
        exchange.after.definition definition →
      request.assigns? = some definition ∧ (exchange.after.definition definition).rawIndex = 0 ∧
        ∃ index, exchange.assigned? = some index ∧
          (request.reached id (process.bridge id) process (first ++ [exchange])).definition definition =
            { exchange.after.definition definition with rawIndex := index.value }
  indexed : gate.KeepsDefinitions → ∀ reply after,
    request.play gate id thread process = .ok reply after → ∀ definition,
      after.definition definition ≠ process.definition definition →
      request.assigns? = some definition ∧ (process.definition definition).rawIndex = 0 ∧
        ∃ exchange ∈ request.exchanges gate id thread process, ∃ index,
          exchange.assigned? = some index ∧
            after.definition definition = { process.definition definition with rawIndex := index.value }

end BridgeRequest

-- A call makes its upcalls in one order and ends with the first answer that it cannot use.
theorem errors_end_the_call {World : Type} (gate : Gate World) (id : BridgeId) (thread : ThreadId)
    (process : Process World) (request : BridgeRequest) :
    request.KeepsOrder gate id thread process where
  order := BridgeRequest.ops_sublist
  once := BridgeRequest.ops_sublist.nodup request.order_nodup
  due _ _ _ := BridgeRequest.due_of_split
  stops := by
    intro first exchange later error split refused
    have course := request.course gate id thread process
    rw [split] at course
    obtain ⟨none, ended⟩ := course.drop.refuse refused
    exact ⟨none, _, ended⟩
  returns _ _ := BridgeRequest.ends_of_returned
  halts _ _ := BridgeRequest.halt_of_play
  decided := BridgeRequest.decided_returns
  before _ _ _ := BridgeRequest.before_eq_reached
  after := by
    intro reply after played
    obtain ⟨records, rfl⟩ := BridgeRequest.after_of_returned played
    rfl
  settled _ _ _ _ definition := BridgeRequest.definition_of_reached_append definition
  indexed keeps _ _ played _ := BridgeRequest.definition_of_returned keeps played

end StateBridge
