import StateBridge.Proofs.Bridge.Upholding
import StateBridge.Proofs.Host.Fleet
import StateBridge.Proofs.Native.Attachment

set_option autoImplicit false

namespace StateBridge

inductive Operation where
  | define (definition : ModuleDefinition)
  | create (bridge : Bridge)
  | install (id : BridgeId)
  | uninstall
  | bridge (thread : ThreadId) (id : BridgeId) (request : BridgeRequest)
  | native (thread : ThreadId) (request : NativeRequest)
  | errorOccurred (thread : ThreadId)
  | errorFetch (thread : ThreadId)
  | errorClear (thread : ThreadId)
  | lockEnsure
  | lockRelease (raw : Int32)
  | start (runtime : RuntimeId) (explicitAttach : Bool)
  | discard (runtime : RuntimeId)
  | host (runtime : RuntimeId) (thread : ThreadId) (call : HostCall)
  | exit (thread : ThreadId)

inductive OperationAnswer where
  | definition (id : DefinitionId)
  | created (id : BridgeId)
  | slot (previous? : Option BridgeId)
  | bridge (answer : EventAnswer)
  | native (result : NativeResult)
  | occurred (pending : Bool)
  | fetched (pending? : Option PendingError)
  | locked (raw : Int32)
  | host (answer? : Option HostAnswer)
  | done

-- A runtime or native code does as it likes on what it has seen, and says how upcalls are met meanwhile.
inductive Script where
  | answer (answer : Except UpcallError Handle)
  | act (operation : Operation)
    (meanwhile : RuntimeId → ThreadId → UpcallOp → List Handle → Process Fleet → Script)
    (next : OperationAnswer → Process Fleet → Script)

def Run.onWorld {World α : Type} (step : World → Except Fault (α × World)) : Run World α := do
  let process ← get
  let (result, world) ← Run.ofChecked (step process.world)
  set { process with world }
  return result

namespace Operation

def play (gate : Gate Fleet) : Operation → Run Fleet OperationAnswer
  | .define definition => do
    let (id, after) := (← get).addDefinition definition
    set after
    return .definition id
  | .create added => do
    let (id, after) := (← get).addBridge added
    set after
    return .created id
  | .install id => do
    let (previous?, after) := (← get).install id
    set after
    return .slot previous?
  | .uninstall => do
    let (previous?, after) := (← get).uninstall
    set after
    return .slot previous?
  | .bridge thread id request => .bridge <$> request.play gate id thread
  | .native thread request => .native <$> request.play gate thread
  | .errorOccurred thread => .occurred <$> Native.errorOccurred thread
  | .errorFetch thread => .fetched <$> Native.errorFetch thread
  | .errorClear thread => (fun () => .done) <$> Native.errorClear thread
  | .lockEnsure => return .locked Native.lockEnsure
  | .lockRelease raw => (fun () => .done) <$> pure (Native.lockRelease raw)
  | .start runtime explicitAttach =>
    (fun () => .done) <$> Run.onWorld fun fleet =>
      return ((), fleet.start runtime (.new explicitAttach))
  | .discard runtime =>
    (fun () => .done) <$> Run.onWorld fun fleet => return ((), fleet.discard runtime)
  | .host runtime thread call =>
    .host <$> Run.onWorld fun fleet => fleet.call runtime thread call
  | .exit thread => do
    Run.onWorld fun fleet => return ((), ← fleet.exit thread)
    -- What was pending for the thread goes with it.
    modify fun process => process.clearIndicator thread
    return .done

end Operation

def Script.play : Script → Run Fleet (Except UpcallError Handle)
  | .answer reply => return reply
  | .act operation meanwhile next => do
    let found ← operation.play fun runtime thread op args => do
      (meanwhile runtime thread op args (← get)).play
    (next found (← get)).play

namespace Fleet

variable {fleet : Fleet} {runtime : RuntimeId} {host : Host}

def Tagged (fleet : Fleet) : Prop :=
  ∀ runtime host, fleet.host? runtime = some host → host.Tagged

theorem empty_tagged : empty.Tagged := nofun

theorem Tagged.start (tagged : fleet.Tagged) (runtime : RuntimeId) (consistent : host.Tagged) :
    (fleet.start runtime host).Tagged := by
  intro other found live
  obtain ⟨-, rfl⟩ | live := live_start live
  next => exact consistent
  next => exact tagged other found live

theorem Tagged.discard (tagged : fleet.Tagged) (runtime : RuntimeId) :
    (fleet.discard runtime).Tagged := by
  intro other found live
  rw [host?_discard] at live
  split at live
  next => cases live
  next => exact tagged other found live

theorem Tagged.call (tagged : fleet.Tagged) (runtime : RuntimeId) (thread : ThreadId)
    (request : HostCall) :
    ∃ answer? after, fleet.call runtime thread request = .ok (answer?, after) ∧ after.Tagged := by
  unfold Fleet.call
  cases live : fleet.host? runtime with
  | none => exact ⟨none, fleet, rfl, tagged⟩
  | some host =>
    obtain ⟨answer, after, called, kept, -⟩ := (tagged runtime host live).called thread request
    simp only [called]
    have started := tagged.start runtime kept
    -- The guard of a thread is no concern of the hosts.
    refine ⟨some answer, _, rfl, ?_⟩
    split
    next => exact started
    next => exact started

theorem Tagged.dropIn (tagged : fleet.Tagged) (thread : ThreadId) (runtimes : List RuntimeId) :
    ∃ after, Fleet.dropIn thread runtimes fleet = .ok after ∧ after.Tagged := by
  induction runtimes generalizing fleet with
  | nil => exact ⟨fleet, rfl, tagged⟩
  | cons runtime rest ih =>
    unfold Fleet.dropIn
    cases live : fleet.host? runtime with
    | none => exact ih tagged
    | some host =>
      obtain ⟨had, after, dropped, kept, -⟩ := (tagged runtime host live).dropThreadState thread
      simp only [dropped]
      exact ih (tagged.start runtime kept)

theorem Tagged.exit (tagged : fleet.Tagged) (thread : ThreadId) :
    ∃ after, fleet.exit thread = .ok after ∧ after.Tagged := by
  obtain ⟨dropped, ran, kept⟩ := tagged.dropIn thread (fleet.guard thread)
  unfold Fleet.exit
  rw [ran]
  exact ⟨_, rfl, kept⟩

end Fleet

open Run

theorem NativeRequest.play_upholds {World : Type} {holds : World → Prop} {gate : Gate World}
    (trusted : gate.Upholds holds) (request : NativeRequest) (thread : ThreadId)
    {process : Process World} (start : holds process.world) :
    Upholds holds (request.play gate thread process) := by
  rw [play_eq]
  apply Upholds.bind
  next =>
    cases asks : request.request? with
    | none =>
      obtain ⟨answer, same⟩ | ⟨error, same⟩ := result_of_unasking gate thread process asks
      next =>
        rw [same]
        exact start
      next =>
        rw [same]
        exact ⟨⟨error, rfl⟩, start⟩
    | some asked =>
      cases installed : process.installed? with
      | none =>
        rw [result_of_uninstalled asks installed]
        exact start
      | some id =>
        have played := asked.play_upholds trusted id thread start
        rwa [← upholds_map EventAnswer.presented?, ← result_of_installed gate thread asks installed,
          upholds_map] at played
  next =>
    intro answer after kept
    cases answer with
    | ok value => exact kept
    | error error => exact kept

theorem Run.onWorld_upholds {World α : Type} {step : World → Except Fault (α × World)}
    {holds : World → Prop} {process : Process World}
    (steps : ∃ result after, step process.world = .ok (result, after) ∧ holds after) :
    Upholds holds (Run.onWorld step process) := by
  obtain ⟨result, after, ran, kept⟩ := steps
  have stepped : Run.onWorld step process = .ok result { process with world := after } := by
    change EStateM.bind (Run.ofChecked (step process.world)) _ process = _
    rw [ran]
    rfl
  rw [stepped]
  exact kept

theorem Operation.play_upholds {gate : Gate Fleet} (trusted : gate.Upholds Fleet.Tagged)
    (operation : Operation) {process : Process Fleet} (tagged : process.world.Tagged) :
    Upholds Fleet.Tagged (operation.play gate process) := by
  cases operation with
  | define | create | install | uninstall | errorClear | lockEnsure | lockRelease => exact tagged
  | bridge thread id request =>
    exact (upholds_map _).2 (request.play_upholds trusted id thread tagged)
  | native thread request =>
    exact (upholds_map _).2 (request.play_upholds trusted thread tagged)
  | errorOccurred thread => exact tagged
  | errorFetch thread => exact tagged
  | start runtime explicitAttach =>
    apply (upholds_map _).2
    apply onWorld_upholds
    exact ⟨(), _, rfl, tagged.start runtime (Host.new_tagged explicitAttach)⟩
  | discard runtime =>
    apply (upholds_map _).2
    apply onWorld_upholds
    exact ⟨(), _, rfl, tagged.discard runtime⟩
  | host runtime thread call =>
    apply (upholds_map _).2
    apply onWorld_upholds
    exact tagged.call runtime thread call
  | exit thread =>
    obtain ⟨after, ran, kept⟩ := tagged.exit thread
    apply Upholds.bind
    next =>
      apply onWorld_upholds
      exact ⟨(), after, by rw [ran]; rfl, kept⟩
    next => exact fun _ last kept => kept

theorem Script.play_upholds (script : Script) {process : Process Fleet}
    (tagged : process.world.Tagged) : Upholds Fleet.Tagged (script.play process) := by
  induction script generalizing process with
  | answer reply => exact tagged
  | act operation meanwhile next met rest =>
    -- What an upcall meets meanwhile is a part of the script, so calls can nest at any depth.
    have trusted : Gate.Upholds (fun runtime thread op args => do
        (meanwhile runtime thread op args (← get)).play) Fleet.Tagged := by
      intro runtime thread op args process kept
      exact met runtime thread op args process kept
    apply Upholds.bind
    next => exact operation.play_upholds trusted tagged
    next =>
      intro answer after kept
      exact rest answer after kept

-- Whatever callers and runtimes do, a run comes to its end, or the process is aborted on purpose.
theorem callers_cannot_cause_faults (script : Script) :
    (∃ answer last, script.play (.start .empty) = .ok answer last) ∨
      ∃ error last, script.play (.start .empty) = .error (.fatal error) last := by
  let start : Process Fleet := .start .empty
  have tagged : start.world.Tagged := Fleet.empty_tagged
  obtain ⟨answer, last, ran, -⟩ | ⟨error, last, ran, -⟩ := (script.play_upholds tagged).ends
  next => exact .inl ⟨answer, last, ran⟩
  next => exact .inr ⟨error, last, ran⟩

def Script.ofHost (runtime : RuntimeId) (thread : ThreadId) (op : UpcallOp) (args : List Handle) :
    Script :=
  .act (.host runtime thread (.invoke op args)) (fun _ _ _ _ _ => .answer (.ok .null)) fun
    | .host (some (.upcall reply)), _ => .answer reply
    | _, _ => .answer (.error .notAttached)

-- An entry point gets the handle of the state that the host behind the installed bridge has made.
example :
    let served := fun runtime thread op args (_ : Process Fleet) => Script.ofHost runtime thread op args
    let script : Script := .act (.start ⟨3⟩ false) served fun _ _ =>
      .act (.create ⟨⟨3⟩, {}⟩) served fun _ _ => .act (.install ⟨0⟩) served fun _ _ =>
      .act (.native ⟨0⟩ .threadStateGet) served fun
        | .native (.bits bits), _ => .answer (.ok ⟨bits⟩)
        | _, _ => .answer (.ok .null)
    (match script.play (.start .empty) with
      | .ok reply _ => some reply
      | .error _ _ => none) = some (.ok ⟨0x0200010000000000⟩) := by
  decide +kernel

end StateBridge
