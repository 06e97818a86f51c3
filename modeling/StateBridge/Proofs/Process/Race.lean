import StateBridge.Proofs.Process.Events

set_option autoImplicit false

namespace StateBridge

inductive IndexRequest where
  | init
  | add (module : ModuleHandle)
  deriving DecidableEq

namespace IndexRequest

def dialogue (definition : DefinitionId) : IndexRequest → Dialogue ModuleReply
  | .init => .index <$> (BridgeCall.initModuleDefinition definition).run
  | .add module => .status <$> (BridgeCall.addModule module (some definition)).run

end IndexRequest

structure Question where
  op : UpcallOp
  args : List Handle
  answer : Except UpcallError Handle

structure Caller where
  thread : ThreadId
  request : IndexRequest
  dialogue : Dialogue ModuleReply
  asked : List Question

namespace Caller

def start (definition : DefinitionId) (thread : ThreadId) (request : IndexRequest) : Caller :=
  ⟨thread, request, request.dialogue definition, []⟩

-- What a call does with an answer is a step of its own, so others may come before and after.
def advance (caller : Caller) (shared : Shared Host) : Except Halt (Caller × Shared Host) :=
  match caller.dialogue with
  | .done _ => .ok (caller, shared)
  | .abort error => .error (.fatal error)
  | .fault broken => .error (.fault broken)
  | .note _ next => .ok ({ caller with dialogue := next }, shared)
  | .look definition next =>
    .ok ({ caller with dialogue := next (shared.definition definition) }, shared)
  | .claim definition index next =>
    let (won, claimed) := (shared.definition definition).claim index
    .ok ({ caller with dialogue := next won }, shared.storeDefinition definition claimed)
  | .ask op args next =>
    match Host.runtime caller.thread op args shared.world with
    | .ok (answer, world) =>
      .ok ({ caller with dialogue := next answer, asked := caller.asked ++ [⟨op, args, answer⟩] },
        { shared with world })
    | .error broken => .error (.fault broken)

theorem advance_claim {caller : Caller} {definition : DefinitionId} {index : ModuleIndex}
    {next : ModuleIndex → Dialogue ModuleReply} (left : caller.dialogue = .claim definition index next)
    (shared : Shared Host) :
    caller.advance shared = .ok
      ({ caller with dialogue := next ((shared.definition definition).claim index).1 },
        shared.storeDefinition definition ((shared.definition definition).claim index).2) := by
  simp only [advance, left]

theorem advance_ask {caller : Caller} {shared : Shared Host} {op : UpcallOp} {args : List Handle}
    {next : Except UpcallError Handle → Dialogue ModuleReply} (left : caller.dialogue = .ask op args next)
    {answer : Except UpcallError Handle} {world : Host}
    (answered : Host.runtime caller.thread op args shared.world = .ok (answer, world)) :
    caller.advance shared = .ok
      ({ caller with dialogue := next answer, asked := caller.asked ++ [⟨op, args, answer⟩] },
        { shared with world }) := by
  simp only [advance, left, answered]

end Caller

inductive Turn where
  | enter (thread : ThreadId) (request : IndexRequest)
  | caller (position : Nat)
  | elsewhere (shared : Shared Host)

-- A call nested in the upcall of another takes all its turns between two turns of the other.
structure Race where
  definition : DefinitionId
  shared : Shared Host
  callers : List Caller

namespace Race

def start (definition : DefinitionId) (shared : Shared Host) : Race := ⟨definition, shared, []⟩

def contested (race : Race) : ModuleDefinition := race.shared.definition race.definition

def step (race : Race) : Turn → Except Halt Race
  | .enter thread request =>
    .ok { race with callers := race.callers ++ [.start race.definition thread request] }
  | .caller position =>
    match race.callers[position]? with
    | none => .ok race
    | some caller => do
      let (caller, shared) ← caller.advance race.shared
      return { race with shared, callers := race.callers.set position caller }
  | .elsewhere shared =>
    .ok { race with shared := shared.storeDefinition race.definition race.contested }

def run (race : Race) : List Turn → Except Halt Race
  | [] => .ok race
  | turn :: rest => do (← race.step turn).run rest

theorem run_append (race : Race) (first second : List Turn) :
    race.run (first ++ second) = (race.run first).bind fun middle => middle.run second := by
  induction first generalizing race with
  | nil => rfl
  | cons turn rest ih =>
    simp only [List.cons_append, run]
    cases race.step turn with
    | error halt => rfl
    | ok next => exact ih next

theorem run_take_succ {race middle : Race} {turns : List Turn} {turn : Turn} {count : Nat}
    (ran : race.run (turns.take count) = .ok middle) (there : turns[count]? = some turn) :
    race.run (turns.take (count + 1)) = middle.step turn := by
  rw [List.take_add_one, there, run_append, ran]
  change (middle.step turn >>= fun next => .ok next) = _
  exact bind_pure _

theorem step_of_advance {race : Race} {position : Nat} {caller after : Caller} {shared : Shared Host}
    (here : race.callers[position]? = some caller)
    (advanced : caller.advance race.shared = .ok (after, shared)) :
    race.step (.caller position) =
      .ok { race with shared, callers := race.callers.set position after } := by
  simp only [step, here, advanced]
  rfl

theorem getElem?_set_caller {callers : List Caller} {position : Nat} {caller : Caller}
    (here : callers[position]? = some caller) (after : Caller) :
    (callers.set position after)[position]? = some after :=
  List.getElem?_set_self (List.getElem?_eq_some_iff.1 here).1

theorem getElem?_set_cases {callers : List Caller} {position place : Nat} {after found : Caller}
    (there : (callers.set position after)[place]? = some found) :
    (place = position ∧ found = after) ∨ (place ≠ position ∧ callers[place]? = some found) := by
  by_cases same : place = position
  next =>
    subst same
    rw [List.getElem?_set_self'] at there
    cases present : callers[place]? with
    | none => simp [present] at there
    | some before =>
      rw [present] at there
      cases there
      exact .inl ⟨rfl, rfl⟩
  next =>
    rw [List.getElem?_set_ne (Ne.symm same)] at there
    exact .inr ⟨same, there⟩

theorem getElem?_append_cases {callers : List Caller} {place : Nat} {new found : Caller}
    (there : (callers ++ [new])[place]? = some found) : callers[place]? = some found ∨ found = new := by
  rw [List.getElem?_append] at there
  split at there
  next => exact .inl there
  next => exact .inr (List.mem_singleton.1 (List.mem_of_getElem? there))

end Race

end StateBridge
