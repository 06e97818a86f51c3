import StateBridge.Proofs.Bridge.Order
import StateBridge.Proofs.Native.Aborts

set_option autoImplicit false

namespace StateBridge

namespace Run

variable {World α β : Type} {step other : Run World α} {process : Process World}

theorem map_congr (same : step process = other process) (present : α → β) :
    (present <$> step) process = (present <$> other) process := by
  change EStateM.map present step process = EStateM.map present other process
  unfold EStateM.map
  rw [same]

theorem of_map_some (same : (some <$> step) process = (some <$> other) process) :
    step process = other process := by
  change EStateM.map some step process = EStateM.map some other process at same
  unfold EStateM.map at same
  cases ran : step process <;> cases again : other process <;> rw [ran, again] at same <;>
    cases same <;> rfl

end Run

def Gate.Alike {World : Type} (gate other : Gate World) (bridge : Bridge) (thread : ThreadId) : Prop :=
  ∀ op args before, other bridge.runtime thread op args before = gate bridge.runtime thread op args before

namespace Process

variable {World α : Type} {gate other : Gate World} {id : BridgeId} {bridge : Bridge}
  {thread : ThreadId}

theorem perform_of_alike (alike : gate.Alike other bridge thread) (dialogue : Dialogue α)
    (process : Process World) : perform other id bridge thread dialogue process =
      perform gate id bridge thread dialogue process := by
  induction dialogue generalizing process with
  | done | abort | fault => rfl
  | note line next ih => exact ih (process.noted bridge line)
  | look definition next ih => exact ih (process.definition definition) process
  | claim definition index next ih => exact ih _ _
  | ask op args next ih =>
    have same := alike op args (process.announce id bridge op args)
    cases answered : gate bridge.runtime thread op args (process.announce id bridge op args) with
    | ok answer after =>
      rw [perform_ask_of_ok answered, perform_ask_of_ok (same.trans answered)]
      exact ih answer _
    | error halt last => rw [perform_ask_of_error answered, perform_ask_of_error (same.trans answered)]

theorem bridgeStats_countUpcall (process : Process World) (id : BridgeId) (op : UpcallOp)
    (succeeded : Bool) : (process.countUpcall id op succeeded).bridgeStats =
      Function.update process.bridgeStats id ((process.bridgeStats id).hit op succeeded) := by
  funext other
  by_cases same : other = id
  next =>
    subst same
    rw [bridgeStats_countUpcall_self, Function.update_self]
  next => rw [bridgeStats_countUpcall_of_ne process op succeeded same, Function.update_of_ne same]

theorem bridgeStats_conclude (process : Process World) (id : BridgeId) (bridge : Bridge)
    (op : UpcallOp) (answer : Except UpcallError Handle) :
    (process.conclude id bridge op answer).bridgeStats =
      if bridge.config.profile then
        Function.update process.bridgeStats id ((process.bridgeStats id).hit op answer.isOk)
      else process.bridgeStats := by
  cases profiled : bridge.config.profile with
  | true =>
    rw [if_pos rfl, ← bridgeStats_countUpcall]
    simp only [conclude, profiled, if_true]
    rfl
  | false =>
    simp only [conclude, profiled, Bool.false_eq_true, if_false]
    rfl

def inWorld {Other : Type} (process : Process World) (world : Other) : Process Other :=
  ⟨world, process.definitions, process.bridges, process.stats, process.installed?, process.indicators,
    process.log⟩

end Process

structure Cue where
  answer : Except UpcallError Handle
  definitions : FiniteMap DefinitionId ModuleDefinition

def Exchange.cue {World : Type} (exchange : Exchange World) : Cue :=
  ⟨exchange.answer, exchange.after.definitions⟩

/-- A runtime that gives the answers it has been handed, one after another, and never calls back. -/
def prompted : Gate (List Cue) := fun _ _ _ _ => do
  match (← get).world with
  | [] => return .error (.managed "no answer left")
  | cue :: rest =>
    modify fun process => { process with world := rest, definitions := cue.definitions }
    return cue.answer

namespace Process

variable {World α : Type} {gate : Gate World} {id : BridgeId} {bridge : Bridge} {thread : ThreadId}

theorem prompted_of_cue {process : Process (List Cue)} {cue : Cue} {rest : List Cue}
    (here : process.world = cue :: rest) (thread : ThreadId) (runtime : RuntimeId) (op : UpcallOp)
    (args : List Handle) :
    prompted runtime thread op args process =
      .ok cue.answer { process with world := rest, definitions := cue.definitions } := by
  change (match process.world with | [] => _ | cue :: rest => _ : Run (List Cue) _) process = _
  rw [here]
  rfl

theorem perform_prompted {dialogue : Dialogue α} {process after : Process World} {result : α}
    (ran : perform gate id bridge thread dialogue process = .ok result after)
    {copy : Process (List Cue)} (definitions : copy.definitions = process.definitions)
    (cues : copy.world = (exchanges gate id bridge thread dialogue process).map Exchange.cue) :
    ∃ last, perform prompted id bridge thread dialogue copy = .ok result last ∧ last.world = [] ∧
      last.installed? = copy.installed? ∧ last.definitions = after.definitions := by
  induction dialogue generalizing process copy with
  | done result =>
    cases ran
    exact ⟨copy, rfl, cues, rfl, definitions⟩
  | abort error => cases ran
  | fault broken => cases ran
  | note line next ih =>
    let noted := copy.noted bridge line
    have same : noted.definitions = (process.noted bridge line).definitions := definitions
    exact ih ran same cues
  | look definition next ih =>
    have same : copy.definition definition = process.definition definition := by
      simp only [Process.definition, definitions]
    have rest := ih (process.definition definition) ran definitions cues
    rw [← same] at rest
    exact rest
  | claim definition index next ih =>
    have same : copy.definition definition = process.definition definition := by
      simp only [Process.definition, definitions]
    let claimed := ((process.definition definition).claim index).2
    have stored : (copy.storeDefinition definition claimed).definitions =
        (process.storeDefinition definition claimed).definitions := by
      simp only [storeDefinition, definitions]
    have rest := ih _ ran stored cues
    simp only [claimed, ← same] at rest
    exact rest
  | ask op args next ih =>
    cases answered : gate bridge.runtime thread op args (process.announce id bridge op args) with
    | error halt last =>
      rw [perform_ask_of_error answered] at ran
      cases ran
    | ok answer middle =>
      rw [perform_ask_of_ok answered] at ran
      rw [exchanges_ask_of_ok answered, List.map_cons] at cues
      have here : (copy.announce id bridge op args).world = _ := cues
      rw [perform_ask_of_ok (prompted_of_cue here thread bridge.runtime op args)]
      let handed : Process (List Cue) := { copy.announce id bridge op args with
        world := (exchanges gate id bridge thread (next answer)
          (middle.conclude id bridge op answer)).map Exchange.cue
        definitions := middle.definitions }
      have same : (handed.conclude id bridge op answer).definitions =
          (middle.conclude id bridge op answer).definitions := by simp only [definitions_conclude, handed]
      have rest := ih answer ran same (world_conclude handed id bridge op answer)
      rw [installed?_conclude] at rest
      exact rest

end Process

def EventAnswer.presented? : EventAnswer → Option (Except ApiError NativeResult)
  | .state result => some ((result.mapError .upcall).map fun state => .bits state.handle.bits)
  | .dict result => some ((result.mapError .upcall).map fun dict => .bits dict.handle.bits)
  | .module (.found result) => some ((result.mapError .upcall).map fun module? =>
    .bits (Host.moduleAnswer module?).bits)
  | .module (.status result) => some (result.map fun () => .status 0)
  | .module (.index _) | .host _ | .exited _ => none

namespace NativeRequest

section

variable {World : Type} {gate : Gate World} {thread : ThreadId} {process : Process World}
  {request : NativeRequest} {asked : BridgeRequest} {id : BridgeId}

theorem result_of_installed (gate : Gate World) (thread : ThreadId)
    (asks : request.request? = some asked) (installed : process.installed? = some id) :
    (some <$> request.result gate thread) process =
      (EventAnswer.presented? <$> asked.play gate id thread) process := by
  have bridged {ε α : Type} (call : BridgeCall ε α) (lift : ε → ApiError)
      (present : α → NativeResult) (answered : Except ε α → EventAnswer)
      (presents : ∀ answer, some ((answer.mapError lift).map present) = (answered answer).presented?) :
      (some <$> onBridge gate thread call lift present) process =
        (EventAnswer.presented? <$> answered <$> Process.call gate id thread call) process := by
    rw [Run.map_congr (onBridge_of_some installed), Functor.map_map, Functor.map_map]
    simp only [presents]
  cases request with
  | threadStateGet =>
    cases asks
    exact bridged _ _ _ .state fun answer => by cases answer <;> rfl
  | threadStateGetDict =>
    cases asks
    exact bridged _ _ _ .dict fun answer => by cases answer <;> rfl
  | findModule definition? =>
    obtain ⟨definition, rfl, rfl⟩ := Option.map_eq_some_iff.1 asks
    refine (bridged _ _ _ (fun answer => .module (.found answer)) fun answer => ?_).trans ?_
    next =>
      rcases answer with error | module?
      next => rfl
      next => cases module? <;> rfl
    next => simp only [BridgeRequest.play, ModuleRequest.play, Functor.map_map]
  | addModule bits definition? =>
    cases definition? with
    | none => cases asks
    | some definition =>
      obtain ⟨module, held, rfl⟩ := Option.map_eq_some_iff.1 asks
      simp only [result, held]
      refine (bridged _ _ _ (fun answer => .module (.status answer))
        fun answer => by cases answer <;> rfl).trans ?_
      simp only [BridgeRequest.play, ModuleRequest.play, Functor.map_map]
  | removeModule definition? =>
    cases definition? with
    | none => cases asks
    | some definition =>
      cases asks
      refine (bridged _ _ _ (fun answer => .module (.status answer))
        fun answer => by cases answer <;> rfl).trans ?_
      simp only [BridgeRequest.play, ModuleRequest.play, Functor.map_map]

theorem result_of_uninstalled (asks : request.request? = some asked)
    (uninstalled : process.installed? = none) :
    request.result gate thread process = .ok (.error (.upcall .notAttached)) process := by
  cases request with
  | threadStateGet | threadStateGetDict => exact onBridge_of_none uninstalled
  | findModule definition? =>
    obtain ⟨definition, rfl, -⟩ := Option.map_eq_some_iff.1 asks
    exact onBridge_of_none uninstalled
  | addModule bits definition? =>
    cases definition? with
    | none => cases asks
    | some definition =>
      obtain ⟨module, held, -⟩ := Option.map_eq_some_iff.1 asks
      simp only [result, held]
      exact onBridge_of_none uninstalled
  | removeModule definition? =>
    cases definition? with
    | none => cases asks
    | some definition => exact onBridge_of_none uninstalled

theorem result_of_unasking (gate : Gate World) (thread : ThreadId) (process : Process World)
    (unasking : request.request? = none) :
    (∃ answer, request.result gate thread process = .ok answer process) ∨
      ∃ error, request.result gate thread process = .error (.fatal error) (process.aborted error) := by
  cases request with
  | threadStateGet | threadStateGetDict => cases unasking
  | findModule definition? =>
    obtain rfl := Option.map_eq_none_iff.1 unasking
    exact .inl ⟨_, rfl⟩
  | addModule bits definition? =>
    cases definition? with
    | none => exact .inr ⟨_, rfl⟩
    | some definition =>
      have foreign := Option.map_eq_none_iff.1 unasking
      simp only [result, foreign]
      exact .inl ⟨_, rfl⟩
  | removeModule definition? =>
    cases definition? with
    | none => exact .inr ⟨_, rfl⟩
    | some definition => cases unasking

theorem play_of_result {answer : Except ApiError NativeResult} {after : Process World}
    (answered : request.result gate thread process = .ok answer after) :
    request.play gate thread process = report thread request answer after := by
  rw [play_eq, Run.bind_of_ok answered]

theorem answer_of_result (asks : request.request? = some asked)
    (installed : process.installed? = some id) {answer : Except ApiError NativeResult}
    {after : Process World} (answered : request.result gate thread process = .ok answer after) :
    ∃ reply, asked.play gate id thread process = .ok reply after ∧ reply.presented? = some answer := by
  have presents := result_of_installed gate thread asks installed
  rw [Process.map_of_ok answered] at presents
  exact Run.map_ok presents.symm

theorem result_of_answer (asks : request.request? = some asked)
    (installed : process.installed? = some id) {reply : EventAnswer} {after : Process World}
    (played : asked.play gate id thread process = .ok reply after)
    {answer : Except ApiError NativeResult} (presents : reply.presented? = some answer) :
    request.result gate thread process = .ok answer after := by
  have same := result_of_installed gate thread asks installed
  rw [Process.map_of_ok played] at same
  obtain ⟨other, answered, told⟩ := Run.map_ok same
  rw [presents] at told
  cases told
  exact answered

theorem play_of_alike (asks : request.request? = some asked)
    (installed : process.installed? = some id) {other : Gate World}
    (alike : gate.Alike other (process.bridge id) thread) :
    request.play other thread process = request.play gate thread process := by
  have same : asked.play other id thread process = asked.play gate id thread process := by
    rw [BridgeRequest.play_eq, BridgeRequest.play_eq]
    exact Process.perform_of_alike alike _ _
  have result : request.result other thread process = request.result gate thread process := by
    refine Run.of_map_some ?_
    rw [result_of_installed _ _ asks installed, result_of_installed _ _ asks installed,
      Run.map_congr same]
  rw [play_eq, play_eq]
  change EStateM.bind _ _ process = EStateM.bind _ _ process
  unfold EStateM.bind
  rw [result]

theorem result_prompted (asks : request.request? = some asked)
    (installed : process.installed? = some id) {answer : Except ApiError NativeResult}
    {after : Process World} (answered : request.result gate thread process = .ok answer after) :
    ∃ last, request.result prompted thread
        (process.inWorld ((asked.exchanges gate id thread process).map Exchange.cue)) = .ok answer last ∧
      last.world = [] ∧ last.installed? = some id := by
  obtain ⟨reply, played, presents⟩ := answer_of_result asks installed answered
  rw [BridgeRequest.play_eq] at played
  let copy := process.inWorld ((asked.exchanges gate id thread process).map Exchange.cue)
  have same : copy.definitions = process.definitions := rfl
  obtain ⟨last, replayed, spent, kept, -⟩ := Process.perform_prompted played same rfl
  have standing : copy.installed? = some id := installed
  have again : asked.play prompted id thread copy = .ok reply last := by
    rw [BridgeRequest.play_eq]
    exact replayed
  exact ⟨last, result_of_answer asks standing again presents, spent, kept.trans standing⟩

end

end NativeRequest

namespace BridgeRequest

variable {World : Type} {gate : Gate World} {id : BridgeId} {thread : ThreadId}
  {process : Process World} {request : BridgeRequest}

theorem Concludes.attached {definition : DefinitionId → ModuleDefinition} {earlier : List Question}
    {reply : EventAnswer} (concludes : request.Concludes definition earlier reply) :
    reply.presented? ≠ some (.error (.upcall .notAttached)) := by
  cases concludes with
  | @added definition module earlier index handle previous? last carried =>
    by_cases same : previous? = some module <;> simp [EventAnswer.presented?, same, Except.map]
  | _ => simp [EventAnswer.presented?, Except.map, Except.mapError]

theorem presented?_failed {error : UpcallError} {answer : Except ApiError NativeResult}
    (presents : (request.failed error).presented? = some answer) :
    answer = .error (.upcall error) := by
  cases request with
  | addUndefined => cases presents; rfl
  | threads request => cases request <;> cases presents <;> rfl
  | modules request => cases request <;> cases presents <;> rfl

theorem answered_of_notAttached {reply : EventAnswer} {after : Process World}
    (played : request.play gate id thread process = .ok reply after)
    (presents : reply.presented? = some (.error (.upcall .notAttached))) :
    ∃ exchange ∈ request.exchanges gate id thread process, exchange.answer = .error .notAttached := by
  have course := course gate id thread request process
  rw [played] at course
  rcases course.returned.2 with ⟨-, concludes⟩ | ⟨first, last, error, split, refused, rfl⟩
  next => exact absurd presents concludes.attached
  next =>
    have same := presented?_failed presents
    cases same
    refine ⟨last, by simp [split], ?_⟩
    rcases refused with answered | ⟨handle, -, -, unexpected⟩
    next => exact answered
    next => cases unexpected

@[simp] theorem installed?_settle (request : BridgeRequest) (question : Question)
    (process : Process World) : (request.settle question process).installed? = process.installed? := by
  unfold settle
  split <;> rfl

@[simp] theorem bridgeStats_settle (request : BridgeRequest) (question : Question)
    (process : Process World) : (request.settle question process).bridgeStats = process.bridgeStats := by
  unfold settle
  split <;> rfl

theorem reached_concat (id : BridgeId) (bridge : Bridge) (process : Process World)
    (first : List (Exchange World)) (exchange : Exchange World) :
    request.reached id bridge process (first ++ [exchange]) =
      request.settle exchange.toQuestion
        (exchange.after.conclude id bridge exchange.op exchange.answer) := by
  rw [reached_append]
  rfl

end BridgeRequest

structure NativeRequest.KeepsTo {World : Type} (request : NativeRequest) (id : BridgeId)
    (asked : BridgeRequest) (gate : Gate World) (thread : ThreadId) (process : Process World) :
    Prop where
  -- No other runtime has to do with the call.
  alike : ∀ other, gate.Alike other (process.bridge id) thread →
    request.play other thread process = request.play gate thread process
  asks : ∀ first exchange later,
    asked.exchanges gate id thread process = first ++ exchange :: later →
      exchange.before = asked.reached id (process.bridge id) process first ∧
      gate (process.bridge id).runtime thread exchange.op exchange.args
        (exchange.before.announce id (process.bridge id) exchange.op exchange.args) =
          .ok exchange.answer exchange.after
  counts : ∀ first exchange later,
    asked.exchanges gate id thread process = first ++ exchange :: later →
      let next := asked.reached id (process.bridge id) process (first ++ [exchange])
      next.installed? = exchange.after.installed? ∧
      next.bridgeStats =
        if (process.bridge id).config.profile then Function.update exchange.after.bridgeStats id
          ((exchange.after.bridgeStats id).hit exchange.op exchange.answer.isOk)
        else exchange.after.bridgeStats
  -- The outcome is what the bridge itself answers, and it comes of the runtime's answers alone.
  result : (some <$> request.result gate thread) process =
    (EventAnswer.presented? <$> asked.play gate id thread) process
  prompted : ∀ answer after, request.result gate thread process = .ok answer after →
    ∃ last, request.result prompted thread
        (process.inWorld ((asked.exchanges gate id thread process).map Exchange.cue)) = .ok answer last ∧
      last.world = [] ∧ last.installed? = some id
  attached : ∀ after, request.result gate thread process = .ok (.error (.upcall .notAttached)) after →
    ∃ exchange ∈ asked.exchanges gate id thread process, exchange.answer = .error .notAttached
  returns : ∀ answer after, request.result gate thread process = .ok answer after →
    request.play gate thread process = NativeRequest.report thread request answer after ∧
    after.installed? = (asked.left gate id thread process).installed? ∧
    after.bridgeStats = (asked.left gate id thread process).bridgeStats
  halts : ∀ halt last, request.play gate thread process = .error halt last →
    asked.fatal? process.definition ≠ none ∨ ∃ op args,
      gate (process.bridge id).runtime thread op args ((asked.left gate id thread process).announce id
        (process.bridge id) op args) = .error halt last

namespace NativeRequest

variable {World : Type} {gate : Gate World} {thread : ThreadId} {process : Process World}
  {request : NativeRequest} {asked : BridgeRequest} {id : BridgeId}

theorem left_of_result (asks : request.request? = some asked)
    (installed : process.installed? = some id) {answer : Except ApiError NativeResult}
    {after : Process World} (answered : request.result gate thread process = .ok answer after) :
    after.installed? = (asked.left gate id thread process).installed? ∧
      after.bridgeStats = (asked.left gate id thread process).bridgeStats := by
  obtain ⟨reply, played, -⟩ := answer_of_result asks installed answered
  obtain ⟨records, rfl⟩ := BridgeRequest.after_of_returned played
  exact ⟨rfl, rfl⟩

theorem gate_of_halt (asks : request.request? = some asked)
    (installed : process.installed? = some id) {halt : Halt} {last : Process World}
    (halted : request.play gate thread process = .error halt last) :
    asked.fatal? process.definition ≠ none ∨ ∃ op args,
      gate (process.bridge id).runtime thread op args ((asked.left gate id thread process).announce id
        (process.bridge id) op args) = .error halt last := by
  have asking : request.undefined? = none := by
    unfold request? at asks
    unfold undefined?
    split <;> simp_all
  have same := Run.halt?_eq_some_iff.2 halted
  rw [halt?_play, asking, asks, installed] at same
  have bridged := Run.halt?_eq_some_iff.1 same
  rcases BridgeRequest.halt_of_play bridged with fatal | ⟨op, args, -, gated⟩
  next => exact .inl fatal
  next => exact .inr ⟨op, args, gated⟩

theorem keepsTo (gate : Gate World) (thread : ThreadId) (asks : request.request? = some asked)
    (installed : process.installed? = some id) :
    request.KeepsTo id asked gate thread process where
  alike _ alike := play_of_alike asks installed alike
  asks _ _ _ split := ⟨BridgeRequest.before_eq_reached split, BridgeRequest.gate_of_split split⟩
  counts first exchange later split := by
    intro next
    simp only [next, BridgeRequest.reached_concat, BridgeRequest.installed?_settle,
      BridgeRequest.bridgeStats_settle, Process.installed?_conclude, Process.bridgeStats_conclude,
      and_self]
  result := result_of_installed gate thread asks installed
  prompted _ _ answered := result_prompted asks installed answered
  attached after answered := by
    obtain ⟨reply, played, presents⟩ := answer_of_result asks installed answered
    exact BridgeRequest.answered_of_notAttached played presents
  returns _ _ answered := ⟨play_of_result answered, left_of_result asks installed answered⟩
  halts _ _ halted := gate_of_halt asks installed halted

end NativeRequest

end StateBridge
