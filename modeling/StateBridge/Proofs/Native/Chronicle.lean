import StateBridge.Proofs.Native.Attachment

set_option autoImplicit false

namespace StateBridge

-- A call is over a bridge that it names, or else over the one that is installed.
inductive Mark where
  | created (id : BridgeId) (bridge : Bridge)
  | installed (id : BridgeId)
  | uninstalled
  | called (thread : ThreadId) (named? : Option BridgeId)
  | asked (runtime : RuntimeId) (thread : ThreadId) (op : UpcallOp) (args : List Handle)
  | answered (op : UpcallOp) (answer : Except UpcallError Handle)
  | returned
  deriving DecidableEq

structure Chronicled (World : Type) where
  world : World
  marks : List Mark

inductive Deed where
  | create (bridge : Bridge)
  | install (id : BridgeId)
  | uninstall
  | native (thread : ThreadId) (request : NativeRequest)
  | bridge (thread : ThreadId) (id : BridgeId) (request : BridgeRequest)

inductive DeedAnswer where
  | created (id : BridgeId)
  | slot (previous? : Option BridgeId)
  | native (result : NativeResult)
  | bridge (answer : EventAnswer)

-- Every deed says how the upcalls are met that are made meanwhile.
inductive Reaction (World : Type) where
  | answer (answer : Except UpcallError Handle)
  | halt (halt : Halt)
  | aside (change : Process (Chronicled World) → Process World)
    (next : Process (Chronicled World) → Reaction World)
  | act (deed : Deed)
    (meanwhile : RuntimeId → ThreadId → UpcallOp → List Handle → Process (Chronicled World) →
      Reaction World)
    (next : DeedAnswer → Process (Chronicled World) → Reaction World)

section

variable {World : Type}

namespace Process

def marked (process : Process (Chronicled World)) (mark : Mark) : Process (Chronicled World) :=
  { process with world := ⟨process.world.world, process.world.marks ++ [mark]⟩ }

-- Everything but the bridges, what they have counted and the slot is taken from elsewhere.
def adopt (process : Process (Chronicled World)) (other : Process World) :
    Process (Chronicled World) :=
  { process with
    world := ⟨other.world, process.world.marks⟩
    definitions := other.definitions
    indicators := other.indicators
    log := other.log }

def note (mark : Mark) : Run (Chronicled World) Unit := modify fun process => process.marked mark

end Process

open Process (note)

def Gate.chronicled (gate : Gate (Chronicled World)) : Gate (Chronicled World) :=
  fun runtime thread op args => do
    note (.asked runtime thread op args)
    let answer ← gate runtime thread op args
    note (.answered op answer)
    return answer

def Deed.play (gate : Gate (Chronicled World)) : Deed → Run (Chronicled World) DeedAnswer
  | .create added => do
    let (id, after) := (← get).addBridge added
    set after
    note (.created id added)
    return .created id
  | .install id => do
    let (previous?, after) := (← get).install id
    set after
    note (.installed id)
    return .slot previous?
  | .uninstall => do
    let (previous?, after) := (← get).uninstall
    set after
    note .uninstalled
    return .slot previous?
  | .native thread request => do
    note (.called thread none)
    let result ← request.play gate thread
    note .returned
    return .native result
  | .bridge thread id request => do
    note (.called thread (some id))
    let answer ← request.play gate id thread
    note .returned
    return .bridge answer

def Reaction.play : Reaction World → Run (Chronicled World) (Except UpcallError Handle)
  | .answer reply => return reply
  | .halt cause => throw cause
  | .aside change next => do
    modify fun process => process.adopt (change process)
    (next (← get)).play
  | .act deed meanwhile next => do
    let found ← deed.play <| Gate.chronicled fun runtime thread op args => do
      (meanwhile runtime thread op args (← get)).play
    (next found (← get)).play

def Reaction.told {α : Type} : EStateM.Result Halt (Process (Chronicled World)) α → List Mark
  | .ok _ last | .error _ last => last.world.marks

end

abbrev Conduct (World : Type) :=
  RuntimeId → ThreadId → UpcallOp → List Handle → Process (Chronicled World) → Reaction World

def Conduct.gate {World : Type} (conduct : Conduct World) : Gate (Chronicled World) :=
  Gate.chronicled fun runtime thread op args => do
    (conduct runtime thread op args (← get)).play

abbrev OpenCall := ThreadId × Option (BridgeId × Bridge)

structure Tracker where
  installed? : Option BridgeId
  bridge : BridgeId → Bridge
  stats : BridgeId → UpcallStats
  -- The innermost call comes first.
  calls : List OpenCall

namespace Tracker

def call (tracker : Tracker) (thread : ThreadId) (named? : Option BridgeId) : OpenCall :=
  (thread, (named?.or tracker.installed?).map fun id => (id, tracker.bridge id))

def count (tracker : Tracker) (id : BridgeId) (bridge : Bridge) (op : UpcallOp)
    (answer : Except UpcallError Handle) : Tracker :=
  if bridge.config.profile then
    { tracker with
      stats := Function.update tracker.stats id ((tracker.stats id).hit op answer.isOk) }
  else tracker

-- Only the runtime of the bridge that the innermost call began on can be asked, and counts there, if at all.
def step (tracker : Tracker) : Mark → Option Tracker
  | .created id bridge => some { tracker with bridge := Function.update tracker.bridge id bridge }
  | .installed id => some { tracker with installed? := some id }
  | .uninstalled => some { tracker with installed? := none }
  | .called thread named? => some { tracker with calls := tracker.call thread named? :: tracker.calls }
  | .asked runtime thread _ _ =>
    match tracker.calls with
    | (caller, some (_, bridge)) :: _ =>
      if runtime = bridge.runtime ∧ thread = caller then some tracker else none
    | _ => none
  | .answered op answer =>
    match tracker.calls with
    | (_, some (id, bridge)) :: _ => some (tracker.count id bridge op answer)
    | _ => none
  | .returned =>
    match tracker.calls with
    | _ :: calls => some { tracker with calls }
    | [] => none

end Tracker

namespace Process

variable {World α β : Type}

def tracked (process : Process World) (calls : List OpenCall) : Tracker :=
  ⟨process.installed?, process.bridge, process.bridgeStats, calls⟩

def Follows (process last : Process (Chronicled World)) (calls : List OpenCall) (expected : Tracker) :
    Prop :=
  ∃ marks, last.world.marks = process.world.marks ++ marks ∧
    marks.foldlM Tracker.step (process.tracked calls) = some expected

section

variable {process middle last : Process (Chronicled World)} {calls later : List OpenCall}
  {expected : Tracker}

theorem Follows.refl (process : Process (Chronicled World)) (calls : List OpenCall) :
    Follows process process calls (process.tracked calls) :=
  ⟨[], (List.append_nil _).symm, rfl⟩

theorem Follows.trans (first : Follows process middle calls (middle.tracked later))
    (second : Follows middle last later expected) : Follows process last calls expected := by
  obtain ⟨marks, noted, read⟩ := first
  obtain ⟨more, added, reread⟩ := second
  refine ⟨marks ++ more, ?_, ?_⟩
  next => rw [added, noted, List.append_assoc]
  next =>
    rw [List.foldlM_append, read]
    exact reread

theorem Follows.of_mark {mark : Mark} (marks : last.world.marks = process.world.marks ++ [mark])
    (steps : (process.tracked calls).step mark = some expected) :
    Follows process last calls expected := by
  refine ⟨[mark], marks, ?_⟩
  rw [List.foldlM_cons, steps]
  rfl

theorem Follows.of_marks (follows : Follows process middle calls expected)
    (marks : last.world.marks = middle.world.marks) : Follows process last calls expected := by
  obtain ⟨added, noted, read⟩ := follows
  exact ⟨added, marks.trans noted, read⟩

theorem Follows.of_unseen (marks : last.world.marks = process.world.marks)
    (same : last.tracked calls = process.tracked calls) :
    Follows process last calls (last.tracked calls) :=
  same ▸ (Follows.refl process calls).of_marks marks

def Shows (process : Process (Chronicled World)) (calls : List OpenCall)
    (expected : α → Process (Chronicled World) → Tracker) :
    EStateM.Result Halt (Process (Chronicled World)) α → Prop
  | .ok found after => Follows process after calls (expected found after)
  | .error _ last => ∃ still, Follows process last calls (last.tracked still)

abbrev Informs (process : Process (Chronicled World)) (calls : List OpenCall) :
    EStateM.Result Halt (Process (Chronicled World)) α → Prop :=
  process.Shows calls fun _ after => after.tracked calls

theorem Shows.after {expected : α → Process (Chronicled World) → Tracker}
    {result : EStateM.Result Halt (Process (Chronicled World)) α}
    (first : Follows process middle calls (middle.tracked later))
    (rest : Shows middle later expected result) : Shows process calls expected result := by
  cases result with
  | ok found last => exact first.trans rest
  | error halt last =>
    obtain ⟨still, follows⟩ := rest
    exact ⟨still, first.trans follows⟩

theorem Shows.bind {step : Run (Chronicled World) α} {next : α → Run (Chronicled World) β}
    {expected : β → Process (Chronicled World) → Tracker}
    (informs : Informs process calls (step process))
    (rest : ∀ found after, Shows after calls expected (next found after)) :
    Shows process calls expected ((step >>= next) process) := by
  cases ran : step process with
  | ok found after =>
    rw [ran] at informs
    rw [Run.bind_of_ok ran]
    exact .after informs (rest found after)
  | error halt last =>
    rw [ran] at informs
    rw [Run.bind_of_error ran]
    exact informs

theorem informs_map {step : Run (Chronicled World) α} (present : α → β) :
    Informs process calls ((present <$> step) process) ↔ Informs process calls (step process) := by
  change Informs process calls (EStateM.map present step process) ↔ _
  unfold EStateM.map
  cases step process <;> rfl

end

theorem bridge_addBridge (process : Process World) (bridge : Bridge) :
    (process.addBridge bridge).2.bridge =
      Function.update process.bridge (process.addBridge bridge).1 bridge := by
  funext other
  change (((process.bridges.insert ⟨process.bridges.size⟩ bridge).find? other).getD default) = _
  rw [FiniteMap.find?_insert]
  unfold Function.update
  by_cases same : other = ⟨process.bridges.size⟩
  next =>
    subst same
    simp [addBridge]
  next => simp [addBridge, same, Process.bridge]

theorem tracked_conclude (process : Process World) (calls : List OpenCall) (id : BridgeId)
    (bridge : Bridge) (op : UpcallOp) (answer : Except UpcallError Handle) :
    (process.conclude id bridge op answer).tracked calls =
      (process.tracked calls).count id bridge op answer := by
  have bridges : (process.conclude id bridge op answer).bridge = process.bridge := by
    funext other
    rw [Process.bridge, bridges_conclude]
    rfl
  unfold tracked Tracker.count
  rw [installed?_conclude, bridgeStats_conclude, bridges]
  split <;> rfl

end Process

open Process

section

variable {World α : Type} {gate : Gate (Chronicled World)}

def Gate.Informs (gate : Gate (Chronicled World)) : Prop :=
  ∀ (id : BridgeId) (bridge : Bridge) (thread : ThreadId) (op : UpcallOp) (args : List Handle)
    (outer : List OpenCall) (process : Process (Chronicled World)),
    let calls := (thread, some (id, bridge)) :: outer
    process.Shows calls (fun answer after => (after.conclude id bridge op answer).tracked calls)
      (gate bridge.runtime thread op args process)

theorem Gate.chronicled_informs (informs : ∀ runtime thread op args process calls,
    Process.Informs process calls (gate runtime thread op args process)) :
    gate.chronicled.Informs := by
  intro id bridge thread op args outer process calls
  let asked := process.marked (.asked bridge.runtime thread op args)
  have asks : Follows process asked calls (asked.tracked calls) := by
    refine .of_mark rfl ?_
    simp only [Tracker.step, tracked, calls, and_self, if_true]
    rfl
  refine .after asks ?_
  refine Shows.bind (informs bridge.runtime thread op args asked calls) fun answer after => ?_
  let answered := after.marked (.answered op answer)
  exact Follows.of_mark rfl (congrArg some (tracked_conclude answered calls id bridge op answer).symm)

namespace Process

theorem aborted_follows (process : Process (Chronicled World)) (calls : List OpenCall)
    (error : FatalError) :
    Follows process (process.aborted error) calls ((process.aborted error).tracked calls) :=
  .of_unseen rfl rfl

theorem perform_informs (informs : gate.Informs) (id : BridgeId) (bridge : Bridge)
    (thread : ThreadId) (outer : List OpenCall) (dialogue : Dialogue α)
    (process : Process (Chronicled World)) :
    Informs process ((thread, some (id, bridge)) :: outer)
      (perform gate id bridge thread dialogue process) := by
  let calls := (thread, some (id, bridge)) :: outer
  induction dialogue generalizing process with
  | done result => exact .refl process calls
  | abort error => exact ⟨calls, aborted_follows process calls error⟩
  | fault broken => exact ⟨calls, .refl process calls⟩
  | note line next ih =>
    let noted := process.noted bridge line
    have unseen : Follows process noted _ (noted.tracked calls) := .of_unseen rfl rfl
    exact .after unseen (ih noted)
  | look definition next ih => exact ih (process.definition definition) process
  | claim definition index next ih =>
    let stored := process.storeDefinition definition ((process.definition definition).claim index).2
    have unseen : Follows process stored _ (stored.tracked calls) := .of_unseen rfl rfl
    exact .after unseen (ih _ stored)
  | ask op args next ih =>
    let announced := process.announce id bridge op args
    have unseen : Follows process announced _ (announced.tracked calls) := .of_unseen rfl rfl
    refine .after unseen ?_
    have met := informs id bridge thread op args outer announced
    cases answered : gate bridge.runtime thread op args announced with
    | error halt last =>
      rw [answered] at met
      rw [perform_ask_of_error answered]
      exact met
    | ok answer after =>
      rw [answered] at met
      rw [perform_ask_of_ok answered]
      -- The reader was ahead by one count, and the bridge has caught up here.
      have concluded := Follows.of_marks met
        (congrArg Chronicled.marks (world_conclude after id bridge op answer))
      exact .after concluded (ih answer _)

end Process

theorem BridgeRequest.play_informs (informs : gate.Informs) (request : BridgeRequest)
    (id : BridgeId) (thread : ThreadId) (outer : List OpenCall)
    (process : Process (Chronicled World)) :
    Informs process ((thread, some (id, process.bridge id)) :: outer)
      (request.play gate id thread process) := by
  rw [play_eq]
  exact perform_informs informs id (process.bridge id) thread outer request.dialogue process

theorem NativeRequest.play_informs (informs : gate.Informs) (request : NativeRequest)
    (thread : ThreadId) (outer : List OpenCall) (process : Process (Chronicled World)) :
    Informs process ((process.tracked outer).call thread none :: outer)
      (request.play gate thread process) := by
  have reports (answer : Except ApiError NativeResult) (after : Process (Chronicled World))
      (calls : List OpenCall) : Informs after calls (report thread request answer after) := by
    cases answer with
    | ok value => exact .refl after calls
    | error error => exact Follows.of_unseen rfl rfl
  rw [play_eq]
  refine Shows.bind ?_ fun answer after => reports answer after _
  cases asks : request.request? with
  | none =>
    rcases result_of_unasking gate thread process asks with ⟨answer, same⟩ | ⟨error, same⟩
    next =>
      rw [same]
      exact .refl process _
    next =>
      rw [same]
      exact ⟨_, aborted_follows process _ error⟩
  | some asked =>
    cases installed : process.installed? with
    | none =>
      rw [result_of_uninstalled asks installed]
      exact .refl process _
    | some id =>
      have call : (process.tracked outer).call thread none =
          (thread, some (id, process.bridge id)) := by
        simp only [Tracker.call, tracked, installed]
        rfl
      have played := asked.play_informs informs id thread outer process
      rw [← informs_map EventAnswer.presented?, ← result_of_installed gate thread asks installed,
        informs_map] at played
      rw [call]
      exact played

theorem Deed.play_informs (informs : gate.Informs) (deed : Deed) (calls : List OpenCall)
    (process : Process (Chronicled World)) : Informs process calls (deed.play gate process) := by
  cases deed with
  | create added =>
    let known (bridge : BridgeId → Bridge) : Option Tracker :=
      some ⟨process.installed?, bridge, process.bridgeStats, calls⟩
    exact Follows.of_mark rfl (congrArg known (bridge_addBridge process added).symm)
  | install id => exact Follows.of_mark rfl rfl
  | uninstall => exact Follows.of_mark rfl rfl
  | native thread request =>
    let called := process.marked (.called thread none)
    let call := (process.tracked calls).call thread none
    have begins : Follows process called calls (called.tracked (call :: calls)) := .of_mark rfl rfl
    refine .after begins ?_
    exact Shows.bind (request.play_informs informs thread calls called) fun result after =>
      Follows.of_mark rfl rfl
  | bridge thread id request =>
    let called := process.marked (.called thread (some id))
    let call := (process.tracked calls).call thread (some id)
    have begins : Follows process called calls (called.tracked (call :: calls)) := .of_mark rfl rfl
    refine .after begins ?_
    exact Shows.bind (request.play_informs informs id thread calls called) fun answer after =>
      Follows.of_mark rfl rfl

theorem Reaction.play_informs (reaction : Reaction World) (calls : List OpenCall)
    (process : Process (Chronicled World)) : Informs process calls (reaction.play process) := by
  induction reaction generalizing process calls with
  | answer reply => exact .refl process calls
  | halt cause => exact ⟨calls, .refl process calls⟩
  | aside change next ih =>
    let adopted := process.adopt (change process)
    have unseen : Follows process adopted calls (adopted.tracked calls) := .of_unseen rfl rfl
    exact .after unseen (ih adopted calls adopted)
  | act deed meanwhile next met rest =>
    -- What an upcall meets meanwhile is a part of the reaction, so calls can nest at any depth.
    have informs := Gate.chronicled_informs fun runtime thread op args process calls =>
      met runtime thread op args process calls process
    refine .bind (deed.play_informs informs calls process) fun answer after => ?_
    exact rest answer after calls after

end

-- The slot at the start of a call tells which runtime is asked and where this is counted.
theorem calls_keep_their_bridge :
    (∀ (World : Type) (gate : Gate World) (thread : ThreadId) (process : Process World)
      (request : NativeRequest) (asked : BridgeRequest), request.request? = some asked →
      (∀ id, process.installed? = some id → request.KeepsTo id asked gate thread process) ∧
      (process.installed? = none →
        request.result gate thread process = .ok (.error (.upcall .notAttached)) process)) ∧
    ∀ (World : Type) (reaction : Reaction World) (calls : List OpenCall)
      (process : Process (Chronicled World)), process.Informs calls (reaction.play process) := by
  constructor
  next =>
    intro World gate thread process request asked asks
    constructor
    next => exact fun id installed => NativeRequest.keepsTo gate thread asks installed
    next => exact NativeRequest.result_of_uninstalled asks
  next =>
    intro World reaction calls process
    exact reaction.play_informs calls process

def stateAnswers : Conduct Unit := fun _ _ _ _ _ => .answer (.ok ⟨0x0200010000000000⟩)

-- Asked for a thread state, it takes the bridge out, has a call fail for that, and puts in another one.
def swapsBridges : Conduct Unit := fun _ thread op _ _ =>
  match op with
  | .resolveCurrentThreadState =>
    .act .uninstall stateAnswers fun _ _ =>
    .act (.native thread .threadStateGet) stateAnswers fun _ _ =>
    .act (.install ⟨1⟩) stateAnswers fun _ _ =>
    .act (.native thread .threadStateGet) stateAnswers fun _ _ =>
    .answer (.ok ⟨0x0200010000000000⟩)
  | _ => .answer (.ok ⟨0x0300010000000001⟩)

theorem calls_keep_their_bridge_swapped :
    let thread : ThreadId := ⟨0⟩
    let profiled (runtime : RuntimeId) : Bridge := ⟨runtime, { profile := true }⟩
    let start : Process (Chronicled Unit) := { Process.start ⟨(), []⟩ with
      bridges := (FiniteMap.empty.insert ⟨0⟩ (profiled ⟨7⟩)).insert ⟨1⟩ (profiled ⟨8⟩)
      installed? := some ⟨0⟩ }
    let run : Reaction Unit := .act (.native thread .threadStateGetDict) swapsBridges fun _ _ =>
      .act (.native thread .threadStateGet) stateAnswers fun _ _ => .answer (.ok .null)
    let state : Handle := ⟨0x0200010000000000⟩
    let resolved : Mark := .answered .resolveCurrentThreadState (.ok state)
    NativeRequest.threadStateGetDict.request? = some (.threads .currentDict) ∧
      start.installed? = some ⟨0⟩ ∧
      NativeRequest.threadStateGetDict.KeepsTo ⟨0⟩ (.threads .currentDict) swapsBridges.gate thread
        start ∧
      start.Informs [] (run.play start) ∧
      Reaction.told (run.play start) = [.called thread none,
        .asked ⟨7⟩ thread .resolveCurrentThreadState [],
        .uninstalled, .called thread none, .returned,
        .installed ⟨1⟩, .called thread none,
        .asked ⟨8⟩ thread .resolveCurrentThreadState [], resolved, .returned, resolved,
        .asked ⟨7⟩ thread .threadStateDict [state],
        .answered .threadStateDict (.ok ⟨0x0300010000000001⟩), .returned, .called thread none,
        .asked ⟨8⟩ thread .resolveCurrentThreadState [], resolved, .returned] := by
  intro thread profiled start run state resolved
  have kept := (calls_keep_their_bridge.1 _ swapsBridges.gate thread start .threadStateGetDict
    (.threads .currentDict) rfl).1 ⟨0⟩ rfl
  have informed := calls_keep_their_bridge.2 _ run [] start
  exact ⟨rfl, rfl, kept, informed, by decide +kernel⟩

end StateBridge
