import StateBridge.Proofs.Module.Phases

set_option autoImplicit false

namespace StateBridge

namespace Host

theorem liveModule?_congr {before after : Host} (same : after.objects = before.objects)
    (handle : Handle) : after.liveModule? handle = before.liveModule? handle := by
  unfold liveModule?
  rw [same]

theorem runtime_assign_total (host : Host) (thread : ThreadId) :
    ∃ answer after, runtime thread .assignModuleIndex [] host = .ok (answer, after) ∧
      after.objects = host.objects ∧ after.modules = host.modules := by
  by_cases fits : host.upperIndex.Fits
  next =>
    obtain ⟨handle, _, _, answered⟩ := runtime_assign fits thread
    exact ⟨_, _, answered, rfl, rfl⟩
  next => exact ⟨_, _, runtime_exhausted fits thread, rfl, rfl⟩

theorem runtime_add_total (host : Host) (module : ModuleHandle) {handle : Handle} {index : ModuleIndex}
    (read : ModuleIndex.ofHandle? handle = some index) (thread : ThreadId) :
    ∃ answer after, runtime thread .addModuleByIndex [module.handle, handle] host = .ok (answer, after) ∧
      after.objects = host.objects ∧
      (∀ other, other ≠ index → after.modules.find? other = host.modules.find? other) ∧
      (host.liveModule? module.handle = some module →
        answer = .ok (moduleAnswer (host.modules.find? index)) ∧
        after.modules.find? index = some module) := by
  cases found : host.liveModule? module.handle with
  | none =>
    refine ⟨_, _, runtime_add_of_none found read thread, rfl, fun _ _ => rfl, ?_⟩
    intro live
    cases live
  | some live =>
    refine ⟨_, _, runtime_add found read thread, rfl, ?_, ?_⟩
    next =>
      intro other differ
      exact (ModuleRegistry.find?_insert _ index other live).trans (if_neg differ)
    next =>
      intro same
      cases same
      exact ⟨rfl, (ModuleRegistry.find?_insert _ index index module).trans (if_pos rfl)⟩

end Host

namespace Caller

def Reached (caller : Caller) : Prop := ∃ question ∈ caller.asked, question.op = .addModuleByIndex

def Obtains (caller : Caller) (index : ModuleIndex) : Prop :=
  (∃ reply, caller.dialogue.Answers reply ∧ reply.Mentions index) ∨
  ∃ question ∈ caller.asked, question.op = .addModuleByIndex ∧
    ∃ module handle, question.args = [module, handle] ∧ ModuleIndex.ofHandle? handle = some index

/-- What is left of a call goes with the index of its definition, if there is one yet. -/
inductive Knows (definition : DefinitionId) (index? : Option ModuleIndex) (caller : Caller) : Prop
  | unsettled (left : caller.dialogue.Unsettled definition caller.request) (yet : ¬ caller.Reached)
  | placing (index : ModuleIndex) (assigned : index? = some index)
      (left : caller.dialogue.Places caller.request index) (yet : ¬ caller.Reached)
  | concluded (index : ModuleIndex) (assigned : index? = some index)
      (left : caller.dialogue.Concludes index)
      (asked : ∀ question ∈ caller.asked, question.op = .addModuleByIndex →
        ∃ module handle, question.args = [module, handle] ∧ ModuleIndex.ofHandle? handle = some index)

structure Quiet (before after : Caller) (shared next : Shared Host) : Prop where
  request : after.request = before.request
  reached : after.Reached ↔ before.Reached
  answers : ∀ reply, before.dialogue.Answers reply → after.dialogue.Answers reply
  objects : next.world.objects = shared.world.objects
  modules : next.world.modules = shared.world.modules

structure Registers (index : ModuleIndex) (before after : Caller) (shared next : Shared Host) : Prop where
  request : after.request = before.request
  yet : ¬ before.Reached
  reached : after.Reached
  objects : next.world.objects = shared.world.objects
  others : ∀ other, other ≠ index → next.world.modules.find? other = shared.world.modules.find? other
  placed : ∃ module, before.request = .add module ∧
    (shared.world.liveModule? module.handle = some module →
      next.world.modules.find? index = some module ∧
      (shared.world.modules.find? index = none → after.dialogue.Answers (.status (.ok ()))) ∧
      (shared.world.modules.find? index = some module →
        after.dialogue.Answers (.status (.error (.moduleAlreadyAdded index)))))

variable {caller : Caller} {definition : DefinitionId} {index? : Option ModuleIndex}
  {index : ModuleIndex} {shared : Shared Host}

theorem reached_append (caller : Caller) (dialogue : Dialogue ModuleReply) (question : Question) :
    ({ caller with dialogue, asked := caller.asked ++ [question] } : Caller).Reached ↔
      caller.Reached ∨ question.op = .addModuleByIndex := by
  simp [Reached, or_and_right, exists_or]

namespace Knows

theorem of_settled (caller : Caller) {dialogue : Dialogue ModuleReply} (assigned : index? = some index)
    (left : dialogue.Settled caller.request index) (yet : ¬ caller.Reached) :
    ({ caller with dialogue } : Caller).Knows definition index? := by
  rcases left with places | concludes
  next => exact .placing index assigned places yet
  next =>
    refine .concluded index assigned concludes ?_
    intro question member added
    exact absurd ⟨question, member, added⟩ yet

theorem mono {further? : Option ModuleIndex} (knows : caller.Knows definition index?)
    (kept : ∀ index, index? = some index → further? = some index) :
    caller.Knows definition further? := by
  cases knows with
  | unsettled left yet => exact .unsettled left yet
  | placing index assigned left yet => exact .placing index (kept index assigned) left yet
  | concluded index assigned left asked => exact .concluded index (kept index assigned) left asked

theorem start (definition : DefinitionId) (index? : Option ModuleIndex) (thread : ThreadId)
    (request : IndexRequest) : (Caller.start definition thread request).Knows definition index? :=
  .unsettled (BridgeCall.unsettled_dialogue definition request) (by simp [Reached, Caller.start])

theorem obtains (knows : caller.Knows definition index?) {told : ModuleIndex}
    (obtains : caller.Obtains told) : index? = some told := by
  rcases caller with ⟨thread, request, dialogue, asked⟩
  rcases obtains with ⟨reply, answers, mentions⟩ | ⟨question, member, added, module, handle, args, read⟩
  next =>
    cases knows with
    | unsettled left yet =>
      cases dialogue with
      | done result =>
        cases answers
        exact absurd mentions (left told)
      | note line next => exact left.elim
      | abort | fault | look | claim | ask => exact answers.elim
    | placing index assigned left yet =>
      cases dialogue with
      | done | note => exact left.elim
      | abort | fault | look | claim | ask => exact answers.elim
    | concluded index assigned left asked =>
      obtain ⟨other, others, named⟩ := left
      rw [assigned, named told (answers.unique others ▸ mentions)]
  next =>
    cases knows with
    | unsettled left yet => exact absurd ⟨question, member, added⟩ yet
    | placing index assigned left yet => exact absurd ⟨question, member, added⟩ yet
    | concluded index assigned left asked =>
      obtain ⟨module, handle, same, carried⟩ := asked question member added
      rw [args] at same
      cases same
      rw [assigned, ← carried, read]

end Knows

theorem Quiet.refl (caller : Caller) (shared : Shared Host) : caller.Quiet caller shared shared :=
  ⟨rfl, .rfl, fun _ answers => answers, rfl, rfl⟩

structure Moved (definition : DefinitionId) (before after : Caller) (shared next : Shared Host) :
    Prop where
  knows : after.Knows definition (next.definition definition).index?
  kept : ∀ index, (shared.definition definition).index? = some index →
    next.definition definition = shared.definition definition
  did : before.Quiet after shared next ∨ ∃ index, (shared.definition definition).index? = some index ∧
    before.Registers index after shared next

theorem Knows.advance_unsettled {caller : Caller}
    (left : caller.dialogue.Unsettled definition caller.request) (yet : ¬ caller.Reached) :
    ∃ after next, caller.advance shared = .ok (after, next) ∧
      caller.Moved definition after shared next := by
  rcases caller with ⟨thread, request, dialogue, asked⟩
  cases dialogue with
  | abort | fault | note => exact left.elim
  | done result =>
    exact ⟨_, _, rfl, .unsettled left yet, fun _ _ => rfl, .inl (.refl _ shared)⟩
  | look looked next =>
    obtain ⟨same, found⟩ := left
    subst same
    have quiet : Quiet ⟨thread, request, .look looked next, asked⟩
        ⟨thread, request, next (shared.definition looked), asked⟩ shared shared :=
      ⟨rfl, .rfl, fun reply answers => answers.elim, rfl, rfl⟩
    refine ⟨_, _, rfl, ?_, fun _ _ => rfl, .inl quiet⟩
    rcases found (shared.definition looked) with unsettled | ⟨index, assigned, settled⟩
    next => exact .unsettled unsettled yet
    next =>
      exact .of_settled ⟨thread, request, .look looked next, asked⟩ assigned settled yet
  | claim claimed index next =>
    obtain ⟨same, settled⟩ := left
    subst same
    have stored : (shared.storeDefinition claimed ((shared.definition claimed).claim index).2).definition
        claimed = ((shared.definition claimed).claim index).2 := Function.update_self ..
    refine ⟨_, _, advance_claim rfl shared, ?_, ?_,
      .inl ⟨rfl, .rfl, fun reply answers => answers.elim, rfl, rfl⟩⟩
    next =>
      rw [stored]
      exact .of_settled ⟨thread, request, .claim claimed index next, asked⟩
        (ModuleDefinition.index?_claim _ index) (settled _) yet
    next =>
      intro current present
      rw [stored, ModuleDefinition.claim_of_index? present]
  | ask op args next =>
    obtain ⟨rfl, rfl, unsettled⟩ := left
    obtain ⟨answer, world, answered, objects, modules⟩ :=
      Host.runtime_assign_total shared.world thread
    have reached := reached_append ⟨thread, request, .ask .assignModuleIndex [] next, asked⟩
      (next answer) ⟨.assignModuleIndex, [], answer⟩
    simp only [reduceCtorEq, or_false] at reached
    refine ⟨_, _, advance_ask rfl answered, .unsettled (unsettled answer) ?_,
      fun _ _ => rfl, .inl ⟨rfl, reached, fun reply answers => answers.elim, objects, modules⟩⟩
    exact fun further => yet (reached.1 further)

theorem Knows.advance_placing {caller : Caller}
    (assigned : (shared.definition definition).index? = some index)
    (left : caller.dialogue.Places caller.request index) (yet : ¬ caller.Reached) :
    ∃ after next, caller.advance shared = .ok (after, next) ∧
      caller.Moved definition after shared next := by
  rcases caller with ⟨thread, request, dialogue, asked⟩
  cases dialogue with
  | done | abort | fault | note | look | claim => exact left.elim
  | ask op args next =>
    obtain ⟨module, handle, requested, rfl, rfl, read, first, second, concludes⟩ := left
    obtain ⟨answer, world, answered, objects, others, placed⟩ :=
      Host.runtime_add_total shared.world module read thread
    have reached := reached_append ⟨thread, request, .ask .addModuleByIndex [module.handle, handle] next,
      asked⟩ (next answer) ⟨.addModuleByIndex, [module.handle, handle], answer⟩
    refine ⟨_, _, advance_ask rfl answered, .concluded index assigned (concludes answer) ?_,
      fun _ _ => rfl, .inr ⟨index, assigned, rfl, yet, reached.2 (.inr rfl), objects, others, ?_⟩⟩
    next =>
      intro question member added
      rcases List.mem_append.1 member with before | last
      next => exact absurd ⟨question, before, added⟩ yet
      next =>
        cases List.mem_singleton.1 last
        exact ⟨module.handle, handle, rfl, read⟩
    next =>
      refine ⟨module, requested, ?_⟩
      intro live
      obtain ⟨same, stored⟩ := placed live
      refine ⟨stored, ?_, ?_⟩
      next =>
        intro absent
        rw [absent] at same
        exact same ▸ first
      next =>
        intro present
        rw [present] at same
        exact same ▸ second

theorem Knows.advance_concluded {caller : Caller}
    (assigned : (shared.definition definition).index? = some index)
    (left : caller.dialogue.Concludes index)
    (asked : ∀ question ∈ caller.asked, question.op = .addModuleByIndex →
      ∃ module handle, question.args = [module, handle] ∧ ModuleIndex.ofHandle? handle = some index) :
    ∃ after next, caller.advance shared = .ok (after, next) ∧
      caller.Moved definition after shared next := by
  rcases caller with ⟨thread, request, dialogue, made⟩
  obtain ⟨reply, answers, told⟩ := left
  cases dialogue with
  | abort | fault | look | claim | ask => exact answers.elim
  | done result =>
    exact ⟨_, _, rfl, .concluded index assigned ⟨reply, answers, told⟩ asked, fun _ _ => rfl,
      .inl (.refl _ shared)⟩
  | note line next =>
    exact ⟨_, _, rfl, .concluded index assigned ⟨reply, answers, told⟩ asked, fun _ _ => rfl,
      .inl ⟨rfl, .rfl, fun other answers => answers, rfl, rfl⟩⟩

theorem Knows.advance (knows : caller.Knows definition (shared.definition definition).index?) :
    ∃ after next, caller.advance shared = .ok (after, next) ∧
      caller.Moved definition after shared next := by
  -- A call that goes with its definition can always take its turn, and still does so afterwards.
  cases knows with
  | unsettled left yet => exact advance_unsettled left yet
  | placing index assigned left yet => exact advance_placing assigned left yet
  | concluded index assigned left asked => exact advance_concluded assigned left asked

end Caller

end StateBridge
