import Mathlib.Logic.Function.Basic
import StateBridge.Bridge.Operations
import StateBridge.Process.Perform

set_option autoImplicit false

namespace StateBridge

/-- A runtime that answers an upcall from its own state alone, without calling back into native code. -/
abbrev Runtime (World : Type) :=
  ThreadId → UpcallOp → List Handle → World → Except Fault (Except UpcallError Handle × World)

def Runtime.gate {World : Type} (runtime : Runtime World) : Gate World :=
  fun _ thread op args => do
    let process ← get
    let (answer, world) ← Run.ofChecked (runtime thread op args process.world)
    set { process with world }
    return answer

namespace Run

variable {World α β : Type} {step : Run World α} {process last : Process World}

theorem bind_of_ok {found : α} (ran : step process = .ok found last) (next : α → Run World β) :
    (step >>= next) process = next found last := by
  change EStateM.bind step next process = _
  rw [EStateM.bind, ran]

theorem bind_of_error {halt : Halt} (ran : step process = .error halt last) (next : α → Run World β) :
    (step >>= next) process = .error halt last := by
  change EStateM.bind step next process = _
  rw [EStateM.bind, ran]

end Run

namespace Runtime

variable {World : Type} {runtime : Runtime World} {thread : ThreadId} {op : UpcallOp}
  {args : List Handle} {process : Process World}

theorem gate_of_ok {answer : Except UpcallError Handle} {world : World}
    (answered : runtime thread op args process.world = .ok (answer, world)) (id : RuntimeId) :
    runtime.gate id thread op args process = .ok answer { process with world } := by
  change EStateM.bind (Run.ofChecked (runtime thread op args process.world)) _ process = _
  rw [answered]
  rfl

theorem gate_of_error {broken : Fault}
    (faulted : runtime thread op args process.world = .error broken) (id : RuntimeId) :
    runtime.gate id thread op args process = .error (.fault broken) process := by
  change EStateM.bind (Run.ofChecked (runtime thread op args process.world)) _ process = _
  rw [faulted]
  rfl

end Runtime

@[ext] structure Shared (World : Type) where
  world : World
  definition : DefinitionId → ModuleDefinition

namespace Shared

variable {World : Type}

def storeDefinition (shared : Shared World) (id : DefinitionId) (definition : ModuleDefinition) :
    Shared World :=
  { shared with definition := Function.update shared.definition id definition }

end Shared

namespace Dialogue

variable {World α β : Type} {runtime : Runtime World} {thread : ThreadId}

/-- The outcome of a dialogue. Of a process it depends on no more than what is shared. -/
def eval (runtime : Runtime World) (thread : ThreadId) :
    Dialogue α → Shared World → Except Halt (α × Shared World)
  | .done result, shared => .ok (result, shared)
  | .abort error, _ => .error (.fatal error)
  | .fault broken, _ => .error (.fault broken)
  | .note _ next, shared => next.eval runtime thread shared
  | .look definition next, shared => (next (shared.definition definition)).eval runtime thread shared
  | .claim definition index next, shared =>
    let (won, claimed) := (shared.definition definition).claim index
    (next won).eval runtime thread (shared.storeDefinition definition claimed)
  | .ask op args next, shared =>
    match runtime thread op args shared.world with
    | .ok (answer, world) => (next answer).eval runtime thread { shared with world }
    | .error broken => .error (.fault broken)

theorem eval_bind (dialogue : Dialogue α) (after : α → Dialogue β) (shared : Shared World) :
    (dialogue.bind after).eval runtime thread shared =
      (dialogue.eval runtime thread shared).bind fun (result, shared) =>
        (after result).eval runtime thread shared := by
  induction dialogue generalizing shared with
  | done | abort | fault => rfl
  | note line next ih => exact ih shared
  | look definition next ih => exact ih _ shared
  | claim definition index next ih => exact ih _ _
  | ask op args next ih =>
    simp only [bind, eval]
    cases runtime thread op args shared.world with
    | error broken => rfl
    | ok answered => exact ih _ _

end Dialogue

namespace BridgeCall

variable {ε α β World : Type} {runtime : Runtime World} {thread : ThreadId} {shared after : Shared World}

def eval (runtime : Runtime World) (thread : ThreadId) (call : BridgeCall ε α)
    (shared : Shared World) : Except Halt (Except ε α × Shared World) :=
  call.run.eval runtime thread shared

theorem eval_bind_of_ok {call : BridgeCall ε α} {result : α}
    (ran : call.eval runtime thread shared = .ok (.ok result, after)) (next : α → BridgeCall ε β) :
    (call >>= next).eval runtime thread shared = (next result).eval runtime thread after := by
  change Dialogue.eval runtime thread (Dialogue.bind call.run _) shared = _
  unfold eval at ran
  rw [Dialogue.eval_bind, ran]
  rfl

theorem eval_bind_of_error {call : BridgeCall ε α} {error : ε}
    (ran : call.eval runtime thread shared = .ok (.error error, after))
    (next : α → BridgeCall ε β) :
    (call >>= next).eval runtime thread shared = .ok (.error error, after) := by
  change Dialogue.eval runtime thread (Dialogue.bind call.run _) shared = _
  unfold eval at ran
  rw [Dialogue.eval_bind, ran]
  rfl

theorem asApi_bind (call : BridgeCall UpcallError α) (next : α → BridgeCall UpcallError β) :
    asApi (call >>= next) = asApi call >>= fun result => asApi (next result) := by
  change Dialogue.bind (Dialogue.bind call.run _) _ = Dialogue.bind (Dialogue.bind call.run _) _
  rw [Dialogue.bind_assoc, Dialogue.bind_assoc]
  congr 1
  funext result
  cases result <;> rfl

theorem eval_asApi_of_ok {call : BridgeCall UpcallError α} {result : α}
    (ran : call.eval runtime thread shared = .ok (.ok result, after)) :
    (asApi call).eval runtime thread shared = .ok (.ok result, after) := by
  change Dialogue.eval runtime thread (Dialogue.bind call.run _) shared = _
  unfold eval at ran
  rw [Dialogue.eval_bind, ran]
  rfl

theorem eval_asApi_of_error {call : BridgeCall UpcallError α} {error : UpcallError}
    (ran : call.eval runtime thread shared = .ok (.error error, after)) :
    (asApi call).eval runtime thread shared = .ok (.error (.upcall error), after) := by
  change Dialogue.eval runtime thread (Dialogue.bind call.run _) shared = _
  unfold eval at ran
  rw [Dialogue.eval_bind, ran]
  rfl

@[simp] theorem eval_look (definition : DefinitionId) :
    (look definition : BridgeCall ε ModuleDefinition).eval runtime thread shared =
      .ok (.ok (shared.definition definition), shared) := rfl

@[simp] theorem eval_claim (definition : DefinitionId) (index : ModuleIndex) :
    (claim definition index : BridgeCall ε ModuleIndex).eval runtime thread shared =
      .ok (.ok ((shared.definition definition).claim index).1,
        shared.storeDefinition definition ((shared.definition definition).claim index).2) := rfl

@[simp] theorem eval_note (line : RegistryNote) :
    (note line : BridgeCall ε Unit).eval runtime thread shared = .ok (.ok (), shared) := rfl

@[simp] theorem eval_throw (error : ε) :
    (throw error : BridgeCall ε α).eval runtime thread shared = .ok (.error error, shared) := rfl

theorem eval_ask {op : UpcallOp} {args : List Handle} {answer : Except UpcallError Handle}
    {world : World} (answered : runtime thread op args shared.world = .ok (answer, world)) :
    (ask op args).eval runtime thread shared = .ok (answer, { shared with world }) := by
  change Dialogue.eval _ _ (.ask op args .done) _ = _
  rw [Dialogue.eval, answered]
  rfl

end BridgeCall

namespace Process

theorem perform_map {World α β : Type} {gate : Gate World} {id : BridgeId} {bridge : Bridge}
    {thread : ThreadId} (present : α → β) (dialogue : Dialogue α) :
    perform gate id bridge thread (present <$> dialogue) =
      present <$> perform gate id bridge thread dialogue := by
  change perform gate id bridge thread (dialogue.bind fun result => .done (present result)) = _
  induction dialogue with
  | done | abort | fault => rfl
  | note line next ih => simp only [Dialogue.bind, perform, map_bind, ih]
  | look definition next ih => simp only [Dialogue.bind, perform, map_bind, ih]
  | claim definition index next ih => simp only [Dialogue.bind, perform, map_bind, ih]
  | ask op args next ih => simp only [Dialogue.bind, perform, map_bind, ih]

variable {World α : Type} {runtime : Runtime World} {thread : ThreadId}

def shared (process : Process World) : Shared World := ⟨process.world, process.definition⟩

theorem shared_storeDefinition (process : Process World) (id : DefinitionId)
    (definition : ModuleDefinition) :
    (process.storeDefinition id definition).shared = process.shared.storeDefinition id definition := by
  refine Shared.ext rfl (funext fun other => ?_)
  by_cases same : other = id
  next =>
    subst same
    simp [shared, Shared.storeDefinition]
  next =>
    simp [shared, Shared.storeDefinition, same,
      definition_storeDefinition_of_ne process definition same]

def outcome : EStateM.Result Halt (Process World) α → Except Halt (α × Shared World)
  | .ok result after => .ok (result, after.shared)
  | .error halt _ => .error halt

theorem outcome_bind {β : Type} (first : Run World α) (next : α → Run World β)
    (process : Process World) :
    outcome ((first >>= next) process) = match first process with
      | .ok result after => outcome (next result after)
      | .error halt _ => .error halt := by
  change outcome (EStateM.bind first next process) = _
  unfold EStateM.bind
  cases first process <;> rfl

theorem outcome_bind_of_ok {β : Type} {first : Run World α} {process : Process World} {result : α}
    {shared : Shared World} (ran : outcome (first process) = .ok (result, shared))
    (next : α → Run World β) : ∃ after : Process World, after.shared = shared ∧
      outcome ((first >>= next) process) = outcome (next result after) := by
  rw [outcome_bind]
  cases stepped : first process with
  | ok found after =>
    rw [stepped] at ran
    cases ran
    exact ⟨after, rfl, rfl⟩
  | error halt after =>
    rw [stepped] at ran
    cases ran

theorem outcome_bind_of_error {β : Type} {first : Run World α} {process : Process World}
    {halt : Halt} (ran : outcome (first process) = .error halt) (next : α → Run World β) :
    outcome ((first >>= next) process) = .error halt := by
  rw [outcome_bind]
  cases stepped : first process with
  | ok found after =>
    rw [stepped] at ran
    cases ran
  | error other after =>
    rw [stepped] at ran
    cases ran
    rfl

theorem outcome_upcall (gate : Gate World) (id : BridgeId) (bridge : Bridge) (op : UpcallOp)
    (args : List Handle) (process : Process World) :
    ∃ announced : Process World, announced.shared = process.shared ∧
      outcome (upcall gate id bridge thread op args process) =
        outcome (gate bridge.runtime thread op args announced) := by
  -- What surrounds the gate in an upcall is seen in the log and the counters only.
  let level := if bridge.config.traceUpcalls then LogLevel.info else LogLevel.trace
  let announced : Process World :=
    { process with log := process.log ++ [⟨level, .upcallIssued id op args⟩] }
  refine ⟨announced, rfl, ?_⟩
  change outcome ((gate bridge.runtime thread op args >>= fun answer => _) announced) = _
  rw [outcome_bind]
  cases gate bridge.runtime thread op args announced with
  | error halt after => rfl
  | ok answer after => cases profiled : bridge.config.profile <;> cases answer <;> rfl

theorem outcome_gate (id : RuntimeId) (op : UpcallOp) (args : List Handle) (process : Process World) :
    outcome (runtime.gate id thread op args process) =
      match runtime thread op args process.shared.world with
      | .ok (answer, world) => .ok (answer, { process.shared with world })
      | .error broken => .error (.fault broken) := by
  cases asked : runtime thread op args process.shared.world with
  | error broken => rw [Runtime.gate_of_error asked]; rfl
  | ok answered => rw [Runtime.gate_of_ok asked]; rfl

theorem outcome_perform (id : BridgeId) (bridge : Bridge) (dialogue : Dialogue α)
    (process : Process World) :
    outcome (perform runtime.gate id bridge thread dialogue process) =
      dialogue.eval runtime thread process.shared := by
  induction dialogue generalizing process with
  | done | abort | fault => rfl
  | note line next ih => exact ih _
  | look definition next ih => exact ih _ process
  | claim definition index next ih =>
    have rest := ih ((process.definition definition).claim index).1
      (process.storeDefinition definition ((process.definition definition).claim index).2)
    rw [shared_storeDefinition] at rest
    exact rest
  | ask op args next ih =>
    obtain ⟨announced, same, answered⟩ := outcome_upcall runtime.gate id bridge op args process
    rw [outcome_gate, same] at answered
    rw [perform]
    simp only [Dialogue.eval]
    cases asked : runtime thread op args process.shared.world with
    | error broken =>
      rw [asked] at answered
      exact outcome_bind_of_error answered _
    | ok result =>
      rw [asked] at answered
      obtain ⟨after, same, rest⟩ := outcome_bind_of_ok answered
        (fun answer => perform runtime.gate id bridge thread (next answer))
      rw [rest, ih, same]

end Process

end StateBridge
