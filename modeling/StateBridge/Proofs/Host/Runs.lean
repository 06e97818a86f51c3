import StateBridge.Proofs.Host.Answers
import StateBridge.Proofs.Module.Refinement

set_option autoImplicit false

namespace StateBridge

namespace BridgeCall

variable {World : Type} {runtime : Runtime World} {thread : ThreadId} {shared : Shared World}
  {world : World}

theorem eval_currentThreadState {answer : Except UpcallError ThreadStateHandle}
    (answered : runtime thread .resolveCurrentThreadState [] shared.world =
      .ok (answer.map TypedHandle.handle, world)) :
    currentThreadState.eval runtime thread shared = .ok (answer, { shared with world }) := by
  cases answer with
  | error error => exact eval_bind_of_error (eval_ask answered) _
  | ok state =>
    have checked : expectKind .resolveCurrentThreadState state.handle .threadState =
        .ok state.handle := by
      simp [expectKind, Handle.isKind_iff.2 state.isKind]
    unfold currentThreadState
    rw [eval_bind_of_ok (eval_ask answered), checked, eval_bind_of_ok rfl, ThreadStateHandle.ofHandle?,
      TypedHandle.ofHandle?_handle]
    rfl

theorem eval_dictOf {state : ThreadStateHandle} {answer : Except UpcallError DictHandle}
    (answered : runtime thread .threadStateDict [state.handle] shared.world =
      .ok (answer.map TypedHandle.handle, world)) :
    (dictOf state).eval runtime thread shared = .ok (answer, { shared with world }) := by
  cases answer with
  | error error => exact eval_bind_of_error (eval_ask answered) _
  | ok dict =>
    have checked : expectKind .threadStateDict dict.handle .dict = .ok dict.handle := by
      simp [expectKind, Handle.isKind_iff.2 dict.isKind]
    unfold dictOf
    rw [eval_bind_of_ok (eval_ask answered), checked, eval_bind_of_ok rfl, DictHandle.ofHandle?,
      TypedHandle.ofHandle?_handle]
    rfl

end BridgeCall

namespace Host

variable {storage : Storage} {thread : ThreadId} {shared : Shared Host}

def Answers {α : Type} (call : BridgeCall UpcallError α) (thread : ThreadId) (shared : Shared Host)
    (step : Except UpcallError α → Storage → Prop) : Prop :=
  ∃ answer world, call.eval Host.runtime thread shared = .ok (answer, { shared with world }) ∧
    (world.liveObjects ≤ HandleTable.capacity →
      ∃ next, step answer next ∧ world.Represents next)

theorem Represents.currentThreadState (represents : shared.world.Represents storage)
    (thread : ThreadId) :
    Answers .currentThreadState thread shared (ResolveStep storage thread) := by
  obtain ⟨answer, world, answered, kept⟩ := represents.resolve thread
  rw [← invoke_of_query (HostQuery.run_decode_resolve [])] at answered
  exact ⟨answer, world, BridgeCall.eval_currentThreadState answered, kept⟩

theorem Represents.dictOfState (represents : shared.world.Represents storage) (thread : ThreadId)
    (state : ThreadStateHandle) :
    Answers (.dictOf state) thread shared (DictStep storage state.handle) := by
  obtain ⟨answer, world, answered, kept⟩ := represents.dictOf thread state.handle
  rw [← invoke_of_query (HostQuery.run_decode_dictOf [state.handle])] at answered
  exact ⟨answer, world, BridgeCall.eval_dictOf answered, kept⟩

theorem Represents.threadStateDict (represents : shared.world.Represents storage)
    (bridge : BridgeId) (thread : ThreadId) :
    Answers .threadStateDict thread shared fun answer next =>
      StorageStep storage (.bridged bridge thread .currentDict) (.dict answer) next := by
  obtain ⟨answer, world, resolved, kept⟩ := represents.currentThreadState thread
  unfold Answers BridgeCall.threadStateDict
  cases answer with
  | error error =>
    rw [BridgeCall.eval_bind_of_error resolved]
    refine ⟨.error error, world, rfl, ?_⟩
    intro within
    obtain ⟨next, step, represents⟩ := kept within
    exact ⟨next, .unresolved bridge step, represents⟩
  | ok state =>
    rw [BridgeCall.eval_bind_of_ok resolved]
    by_cases room : world.liveObjects ≤ HandleTable.capacity
    next =>
      obtain ⟨middle, first, between⟩ := kept room
      have between : ({ shared with world } : Shared Host).world.Represents middle := between
      obtain ⟨answer, last, evaluated, kept⟩ := between.dictOfState thread state
      refine ⟨answer, last, evaluated, ?_⟩
      intro within
      obtain ⟨next, second, represents⟩ := kept within
      exact ⟨next, .currentDict bridge first second, represents⟩
    next =>
      -- There are too many objects already, and a second question leaves no fewer.
      obtain ⟨found, grown, again, tagged, -, -⟩ :=
        Dialogue.OnlyThreads.eval BridgeCall.onlyThreads_currentThreadState thread shared
          represents.hostTagged
      have same : world = grown := by
        have both := resolved.symm.trans again
        simp_all
      subst same
      obtain ⟨answer, last, evaluated, -, more, -⟩ :=
        Dialogue.OnlyThreads.eval (BridgeCall.onlyThreads_dictOf state) thread
          { shared with world } tagged
      exact ⟨answer, last, evaluated, fun within => absurd (more.trans within) room⟩

variable {process : Process Host} {event : HostEvent}

theorem Follows.play {α : Type} {step : Host → Except Fault (α × Host)} {present : α → EventAnswer}
    (follows : Follows (step process.world) fun result next =>
      StorageStep storage event (present result) next) :
    ∃ answer after, (present <$> onHost step) process = .ok answer after ∧
      (after.world.liveObjects ≤ HandleTable.capacity → ∃ next,
        StorageStep storage event answer next ∧ after.world.Represents next) := by
  obtain ⟨result, world, stepped, kept⟩ := follows
  exact ⟨_, _, Process.map_of_ok (Shared.onHost_of_ok step stepped) present, kept⟩

theorem Answers.play {α : Type} {call : BridgeCall UpcallError α}
    {present : Except UpcallError α → EventAnswer}
    (answers : Answers call thread process.shared fun answer next =>
      StorageStep storage event (present answer) next) (bridge : BridgeId) :
    ∃ answer after,
      (present <$> Process.call Host.runtime.gate bridge thread call) process = .ok answer after ∧
      (after.world.liveObjects ≤ HandleTable.capacity → ∃ next,
        StorageStep storage event answer next ∧ after.world.Represents next) := by
  obtain ⟨answer, world, evaluated, kept⟩ := answers
  obtain ⟨after, called, same⟩ := Process.call_of_eval evaluated bridge
  have here : after.world = world := congrArg Shared.world same
  refine ⟨present answer, after, Process.map_of_ok called present, ?_⟩
  rw [here]
  exact kept

theorem Represents.step (represents : process.world.Represents storage) (event : HostEvent) :
    ∃ answer after, event.play process = .ok answer after ∧
      (after.world.liveObjects ≤ HandleTable.capacity → ∃ next,
        StorageStep storage event answer next ∧ after.world.Represents next) := by
  cases event with
  | call thread request => exact (represents.call thread request).play
  | exit thread =>
    obtain ⟨after, dropped, released⟩ := represents.dropThreadState thread
    have follows : Follows (process.world.dropThreadState thread) fun had next =>
        StorageStep storage (.exit thread) (.exited had) next :=
      ⟨_, after, dropped, fun _ => ⟨_, .exit thread, released⟩⟩
    exact follows.play
  | bridged bridge thread request =>
    have represents : process.shared.world.Represents storage := represents
    cases request with
    | current =>
      obtain ⟨answer, world, evaluated, kept⟩ := represents.currentThreadState thread
      refine Answers.play ⟨answer, world, evaluated, ?_⟩ bridge
      intro within
      obtain ⟨next, step, represents⟩ := kept within
      exact ⟨next, .current bridge step, represents⟩
    | currentDict => exact (represents.threadStateDict bridge thread).play bridge
    | dictOf state =>
      obtain ⟨answer, world, evaluated, kept⟩ := represents.dictOfState thread state
      refine Answers.play ⟨answer, world, evaluated, ?_⟩ bridge
      intro within
      obtain ⟨next, step, represents⟩ := kept within
      exact ⟨next, .dictOf bridge thread step, represents⟩

end Host

def Process.StaysWithin : Process Host → List HostEvent → Prop
  | process, [] => process.world.liveObjects ≤ HandleTable.capacity
  | process, event :: rest =>
    process.world.liveObjects ≤ HandleTable.capacity ∧
      match event.play process with
      | .ok _ after => after.StaysWithin rest
      | .error _ _ => True

instance Process.decidableStaysWithin :
    (process : Process Host) → (events : List HostEvent) → Decidable (process.StaysWithin events)
  | _, [] => Nat.decLe _ _
  | process, event :: rest =>
    @instDecidableAnd _ _ (Nat.decLe _ _) <|
      match event.play process with
      | .ok _ after => decidableStaysWithin after rest
      | .error _ _ => .isTrue trivial

theorem Process.StaysWithin.within {process : Process Host} {events : List HostEvent}
    (stays : process.StaysWithin events) : process.world.liveObjects ≤ HandleTable.capacity := by
  cases events with
  | nil => exact stays
  | cons event rest => exact stays.1

theorem playEvents_cons {event : HostEvent} {rest : List HostEvent} {process middle after : Process Host}
    {answer : EventAnswer} {answers : List EventAnswer} (played : event.play process = .ok answer middle)
    (ran : playEvents rest middle = .ok answers after) :
    playEvents (event :: rest) process = .ok (answer :: answers) after := by
  change EStateM.bind event.toEvent.play _ process = _
  change event.toEvent.play process = _ at played
  rw [EStateM.bind, played]
  change EStateM.bind (playAll (rest.map HostEvent.toEvent)) _ middle = _
  change playAll (rest.map HostEvent.toEvent) middle = _ at ran
  rw [EStateM.bind, ran]
  rfl

theorem Process.StaysWithin.of_append {first second : List HostEvent} {process : Process Host}
    (stays : process.StaysWithin (first ++ second)) : process.StaysWithin first := by
  induction first generalizing process with
  | nil => exact stays.within
  | cons event rest ih =>
    refine ⟨stays.1, ?_⟩
    have tail := stays.2
    split at tail
    next => exact ih tail
    next => trivial

theorem Process.StaysWithin.after {first second : List HostEvent} {process after : Process Host}
    {answers : List EventAnswer} (stays : process.StaysWithin (first ++ second))
    (ran : playEvents first process = .ok answers after) : after.StaysWithin second := by
  induction first generalizing process answers with
  | nil =>
    cases ran
    exact stays
  | cons event rest ih =>
    have tail := stays.2
    change (event.play >>= _) process = _ at ran
    cases played : event.play process with
    | error halt last =>
      rw [Run.bind_of_error played] at ran
      cases ran
    | ok answer middle =>
      rw [played] at tail
      rw [Run.bind_of_ok played] at ran
      change (playEvents rest >>= _) middle = _ at ran
      cases again : playEvents rest middle with
      | error halt last =>
        rw [Run.bind_of_error again] at ran
        cases ran
      | ok told last =>
        rw [Run.bind_of_ok again] at ran
        cases ran
        exact ih tail again

inductive HostRun : Process Host → Storage → List HostEvent → List EventAnswer → Process Host →
    Storage → Prop
  | done {process : Process Host} {storage : Storage} (represents : process.world.Represents storage) :
    HostRun process storage [] [] process storage
  | next {process middle after : Process Host} {storage between last : Storage} {event : HostEvent}
      {answer : EventAnswer} {events : List HostEvent} {answers : List EventAnswer}
      (represents : process.world.Represents storage)
      (played : event.play process = .ok answer middle)
      (step : StorageStep storage event answer between)
      (rest : HostRun middle between events answers after last) :
    HostRun process storage (event :: events) (answer :: answers) after last

theorem Host.Represents.run {process : Process Host} {storage : Storage} {events : List HostEvent}
    (represents : process.world.Represents storage) (stays : process.StaysWithin events) :
    ∃ answers after last, HostRun process storage events answers after last := by
  induction events generalizing process storage with
  | nil => exact ⟨[], process, storage, .done represents⟩
  | cons event rest ih =>
    obtain ⟨answer, middle, played, kept⟩ := represents.step event
    have tail := stays.2
    rw [played] at tail
    obtain ⟨next, step, between⟩ := kept tail.within
    obtain ⟨answers, after, last, run⟩ := ih between tail
    exact ⟨answer :: answers, after, last, .next represents played step run⟩

namespace HostRun

variable {process after : Process Host} {storage last : Storage} {events : List HostEvent}
  {answers : List EventAnswer}

theorem first (run : HostRun process storage events answers after last) :
    process.world.Represents storage := by
  cases run <;> assumption

theorem final (run : HostRun process storage events answers after last) :
    after.world.Represents last := by
  induction run <;> assumption

theorem played (run : HostRun process storage events answers after last) :
    playEvents events process = .ok answers after := by
  induction run with
  | done represents => rfl
  | next represents played step rest ih => exact playEvents_cons played ih

theorem stored (run : HostRun process storage events answers after last) :
    StorageRun storage events answers last := by
  induction run with
  | done represents => exact .done _
  | next represents played step rest ih => exact .next step ih

end HostRun

end StateBridge
