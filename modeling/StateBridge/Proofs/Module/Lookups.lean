import StateBridge.Proofs.Host.Noting
import StateBridge.Proofs.Module.Additions

set_option autoImplicit false

namespace StateBridge

namespace Process

variable {α β : Type} {process : Process Host}

theorem outcome_map (present : α → β) (step : Run Host α) :
    outcome ((present <$> step) process) =
      (outcome (step process)).map fun (result, shared) => (present result, shared) := by
  change outcome (EStateM.map present step process) = _
  rw [EStateM.map]
  cases step process <;> rfl

theorem outcome_onHost (step : Host → Except Fault (α × Host)) :
    outcome (onHost step process) =
      match step process.world with
      | .ok (result, world) => .ok (result, { process.shared with world })
      | .error broken => .error (.fault broken) := by
  change outcome (EStateM.bind (Run.ofChecked (step process.world)) _ process) = _
  cases step process.world <;> rfl

end Process

def Event.told (event : Event) (process : Process Host) : Except Halt EventAnswer :=
  (Process.outcome (event.play process)).map Prod.fst

def EventAnswer.error? : EventAnswer → Option ApiError
  | .module (.status (.error error)) => some error
  | .module (.found (.error error)) | .module (.index (.error error)) | .state (.error error)
  | .dict (.error error) | .host (.upcall (.error error)) => some (.upcall error)
  | _ => none

def Event.NeedsIndex (definition : DefinitionId → ModuleDefinition) : Event → Prop
  | .modules _ _ (.init id) => (definition id).index? = none
  | .modules _ _ (.add _ id) => (definition id).hasSlots = false ∧ (definition id).index? = none
  | .direct _ (.invoke op args) => op = .assignModuleIndex ∧ args = []
  | _ => False

instance (definition : DefinitionId → ModuleDefinition) :
    (event : Event) → Decidable (event.NeedsIndex definition)
  | .modules _ _ (.init _) => inferInstanceAs (Decidable (_ = _))
  | .modules _ _ (.add _ _) | .direct _ (.invoke _ _) => inferInstanceAs (Decidable (_ ∧ _))
  | .modules _ _ (.find _) | .modules _ _ (.findByIndex _) | .modules _ _ (.remove _)
  | .threads _ _ _ | .exit _ => inferInstanceAs (Decidable False)
  | .direct _ .attach | .direct _ .switch | .direct _ .detach | .direct _ (.newModule _)
  | .direct _ (.moduleName _) | .direct _ (.dictSet _ _ _) | .direct _ (.dictGet _ _)
  | .direct _ (.dictSize _) | .direct _ (.registeredModule _) => inferInstanceAs (Decidable False)

namespace Event

variable {process after : Process Host}

theorem told_onHost {α : Type} (present : α → EventAnswer) (step : Host → Except Fault (α × Host))
    (process : Process Host) :
    (Process.outcome ((present <$> onHost step) process)).map Prod.fst =
      match step process.world with
      | .ok (result, _) => .ok (present result)
      | .error broken => .error (.fault broken) := by
  rw [Process.outcome_map, Process.outcome_onHost]
  cases step process.world <;> rfl

theorem told_of_played {event : Event} {answer : EventAnswer}
    (played : event.play process = .ok answer after) : event.told process = .ok answer := by
  rw [told, played]
  rfl

theorem told_modules {map : ModuleMap} (represents : process.shared.Represents map)
    {bridge : BridgeId} {thread : ThreadId} {request : ModuleRequest}
    (allowed : (Event.modules bridge thread request).Allowed process) :
    (Event.modules bridge thread request).told process = .ok (.module (map.reply request).1) := by
  obtain ⟨next, played, -⟩ := represents.modules bridge thread allowed
  exact told_of_played played

end Event

namespace ModuleMap

variable {map : ModuleMap} {index : ModuleIndex}

@[simp] theorem noteIndex_entry (map : ModuleMap) (index : ModuleIndex) :
    (map.noteIndex index).entry = map.entry := rfl

@[simp] theorem noteIndex_definition (map : ModuleMap) (index : ModuleIndex) :
    (map.noteIndex index).definition = map.definition := rfl

theorem add_answer {given : ModuleMap} {definition : DefinitionId} {assigned : ModuleIndex}
    (initialised : map.init definition = (.ok assigned, given))
    (single : (map.definition definition).hasSlots = false) (module : ModuleHandle) :
    (map.add module definition).1 = match (given.place module assigned).1 with
      | .error error => .error (.upcall error)
      | .ok previous? =>
        if previous? = some module then .error (.moduleAlreadyAdded assigned) else .ok () := by
  simp only [add, single, initialised, Bool.false_eq_true, if_false]
  rcases given.place module assigned with ⟨error | previous?, last⟩
  next => rfl
  next =>
    simp only
    split <;> rfl

end ModuleMap

namespace Event

variable {process after : Process Host} {map : ModuleMap} {index : ModuleIndex}

def refused? (live : List ModuleHandle) : Event → Option ApiError
  | .modules _ _ (.add module _) =>
    if module ∈ live then none else some (.upcall (.invalidArgument .addModuleByIndex .notLiveModule))
  | _ => none

theorem NeedsIndex.told (represents : process.shared.Represents map)
    (unregistered : ∀ index, map.highest < index.value → map.entry index = none) {event : Event}
    (needs : event.NeedsIndex map.definition) :
    ∃ answer, event.told process = .ok answer ∧ answer.error? =
      if map.highest < Handle.intMax.toNat then event.refused? map.live
      else some (.upcall .indexSpaceExhausted) := by
  let upper : ModuleIndex := ⟨map.highest + 1, Nat.succ_pos _⟩
  have upper_value : upper.value = map.highest + 1 := rfl
  cases event with
  | modules bridge thread request =>
    cases request with
    | init definition =>
      refine ⟨_, told_modules represents trivial, ?_⟩
      by_cases room : map.highest < Handle.intMax.toNat
      next =>
        have given := ModuleMap.init_of_fits needs upper_value room
        simp only [ModuleMap.reply, given, if_pos room]
        rfl
      next =>
        have given := ModuleMap.init_of_not_fits needs room
        simp only [ModuleMap.reply, given, if_neg room]
        rfl
    | add module definition =>
      obtain ⟨single, unassigned⟩ := needs
      refine ⟨_, told_modules represents trivial, ?_⟩
      by_cases room : map.highest < Handle.intMax.toNat
      next =>
        have given := ModuleMap.init_of_fits unassigned upper_value room
        have vacant : map.entry upper = none := unregistered upper (Nat.lt_succ_self _)
        have fits : upper.Fits := room
        change EventAnswer.error? (.module (.status (map.add module definition).1)) = _
        rw [ModuleMap.add_answer given single, if_pos room]
        by_cases live : module ∈ map.live <;>
          simp [ModuleMap.place, fits, live, vacant, refused?, EventAnswer.error?]
      next =>
        have given := ModuleMap.init_of_not_fits unassigned room
        change EventAnswer.error? (.module (.status (map.add module definition).1)) = _
        rw [ModuleMap.add_of_error single given, if_neg room]
        rfl
    | find | findByIndex | remove => cases needs
  | direct thread call =>
    cases call with
    | invoke op args =>
      obtain ⟨rfl, rfl⟩ := needs
      have highest : process.world.highestIndex = map.highest := represents.highest
      have told := told_onHost EventAnswer.host
        (fun host => host.call thread (.invoke .assignModuleIndex [])) process
      by_cases room : map.highest < Handle.intMax.toNat
      next =>
        have fits : process.world.upperIndex.Fits := by rwa [← highest] at room
        obtain ⟨handle, -, -, answered⟩ := Host.runtime_assign fits thread
        change process.world.invoke thread _ _ = _ at answered
        refine ⟨.host (.upcall (.ok handle)), told.trans ?_, by rw [if_pos room]; rfl⟩
        simp only [Host.call, answered]
        rfl
      next =>
        have wide : ¬ process.world.upperIndex.Fits := by rwa [← highest] at room
        have answered := Host.runtime_exhausted wide thread
        change process.world.invoke thread _ _ = _ at answered
        refine ⟨.host (.upcall (.error .indexSpaceExhausted)), told.trans ?_, by rw [if_neg room]; rfl⟩
        simp only [Host.call, answered]
        rfl
    | _ => cases needs
  | threads | exit => cases needs

end Event

end StateBridge
