import StateBridge.Proofs.Bridge.Tallies
import StateBridge.Proofs.Native.Chronicle

set_option autoImplicit false

namespace StateBridge

def Mark.created? : Mark → Option BridgeId
  | .created id _ => some id
  | _ => none

def createdBridges (marks : List Mark) : List BridgeId := marks.filterMap Mark.created?

theorem createdBridges_append (marks more : List Mark) :
    createdBridges (marks ++ more) = createdBridges marks ++ createdBridges more :=
  List.filterMap_append

namespace Process

variable {World α β : Type}

structure Recorded (process : Process (Chronicled World)) : Prop where
  numbered : createdBridges process.world.marks = (List.range process.bridges.size).map BridgeId.mk
  missing : ∀ id ∉ createdBridges process.world.marks, process.bridges.find? id = none

section

variable {process last : Process (Chronicled World)}

theorem Recorded.distinct (recorded : process.Recorded) :
    (createdBridges process.world.marks).Nodup := by
  rw [recorded.numbered]
  exact List.nodup_range.map fun first second same => congrArg BridgeId.number same

theorem recorded_start (world : World) : (Process.start (Chronicled.mk world [])).Recorded :=
  ⟨rfl, fun _ _ => rfl⟩

theorem Recorded.of_created (recorded : process.Recorded) (bridges : last.bridges = process.bridges)
    (created : createdBridges last.world.marks = createdBridges process.world.marks) :
    last.Recorded := by
  constructor
  case numbered => rw [created, bridges, recorded.numbered]
  case missing =>
    rw [created, bridges]
    exact recorded.missing

theorem Recorded.of_same (recorded : process.Recorded) (bridges : last.bridges = process.bridges)
    (marks : last.world.marks = process.world.marks) : last.Recorded :=
  recorded.of_created bridges (congrArg createdBridges marks)

theorem Recorded.marked (recorded : process.Recorded) {mark : Mark} (other : mark.created? = none) :
    (process.marked mark).Recorded := by
  refine recorded.of_created rfl ?_
  change createdBridges (process.world.marks ++ [mark]) = _
  rw [createdBridges_append]
  simp [createdBridges, other]

theorem Recorded.addBridge (recorded : process.Recorded) (bridge : Bridge) :
    ((process.addBridge bridge).2.marked (.created (process.addBridge bridge).1 bridge)).Recorded := by
  have fresh : (⟨process.bridges.size⟩ : BridgeId) ∉ createdBridges process.world.marks := by
    rw [recorded.numbered]
    simp
  have size := FiniteMap.size_insert_of_find?_none (recorded.missing _ fresh) bridge
  constructor
  case numbered =>
    change createdBridges (process.world.marks ++ [.created ⟨process.bridges.size⟩ bridge]) =
      (List.range (process.bridges.insert ⟨process.bridges.size⟩ bridge).size).map BridgeId.mk
    rw [createdBridges_append, recorded.numbered, size, List.range_succ, List.map_append]
    rfl
  case missing =>
    intro id absent
    change id ∉ createdBridges (process.world.marks ++ [.created ⟨process.bridges.size⟩ bridge])
      at absent
    change (process.bridges.insert ⟨process.bridges.size⟩ bridge).find? id = none
    rw [createdBridges_append, List.mem_append, not_or] at absent
    have other : id ≠ ⟨process.bridges.size⟩ :=
      fun same => absent.2 (by simp [same, createdBridges, Mark.created?])
    rw [FiniteMap.find?_insert_of_ne _ _ other]
    exact recorded.missing id absent.1

end

def stopped : EStateM.Result Halt (Process World) α → Process World
  | .ok _ last | .error _ last => last

abbrev Records (result : EStateM.Result Halt (Process (Chronicled World)) α) : Prop :=
  (stopped result).Recorded

theorem Recorded.note {process : Process (Chronicled World)} (recorded : process.Recorded) {mark : Mark}
    (other : mark.created? = none) : Records (note mark process) :=
  recorded.marked other

theorem Records.bind {step : Run (Chronicled World) α} {next : α → Run (Chronicled World) β}
    {process : Process (Chronicled World)} (records : Records (step process))
    (rest : ∀ found after, after.Recorded → Records (next found after)) :
    Records ((step >>= next) process) := by
  cases ran : step process with
  | ok found after =>
    rw [ran] at records
    rw [Run.bind_of_ok ran]
    exact rest found after records
  | error halt last =>
    rw [ran] at records
    rw [Run.bind_of_error ran]
    exact records

theorem records_map {step : Run (Chronicled World) α} {process : Process (Chronicled World)}
    (present : α → β) : Records ((present <$> step) process) ↔ Records (step process) := by
  change Records (EStateM.map present step process) ↔ _
  unfold EStateM.map
  cases step process <;> rfl

end Process

open Process

section

variable {World : Type} {gate : Gate (Chronicled World)} {process : Process (Chronicled World)}

def Gate.Records (gate : Gate (Chronicled World)) : Prop :=
  ∀ runtime thread op args (process : Process (Chronicled World)), process.Recorded →
    Process.Records (gate runtime thread op args process)

theorem Gate.Records.chronicled (records : gate.Records) : gate.chronicled.Records := by
  intro runtime thread op args process recorded
  refine Process.Records.bind (recorded.note rfl) fun _ asked announced => ?_
  refine Process.Records.bind (records runtime thread op args asked announced) ?_
  exact fun answer after still => Process.Records.bind (still.note rfl) fun _ _ noted => noted

theorem Process.Recorded.concluded (recorded : process.Recorded) (id : BridgeId) (bridge : Bridge)
    (op : UpcallOp) (answer : Except UpcallError Handle) :
    (process.conclude id bridge op answer).Recorded :=
  recorded.of_same (bridges_conclude ..)
    (congrArg Chronicled.marks (world_conclude process id bridge op answer))

theorem BridgeRequest.bridges_settle (request : BridgeRequest) (question : Question)
    (process : Process World) : (request.settle question process).bridges = process.bridges := by
  unfold settle
  split <;> rfl

theorem BridgeRequest.Course.records {request : BridgeRequest} {id : BridgeId} {bridge : Bridge}
    {thread : ThreadId} {earlier : List Question} {asked : List (Exchange (Chronicled World))}
    {outcome : EStateM.Result Halt (Process (Chronicled World)) EventAnswer}
    (course : request.Course gate id bridge thread process earlier asked outcome)
    (records : gate.Records) (recorded : process.Recorded) : Process.Records outcome := by
  have met {process : Process (Chronicled World)} (recorded : process.Recorded) (op : UpcallOp)
      (args : List Handle) : Process.Records
        (gate bridge.runtime thread op args (process.announce id bridge op args)) :=
    records bridge.runtime thread op args _ (recorded.of_same rfl rfl)
  induction course with
  | returns concludes silent => exact recorded.of_same rfl rfl
  | aborts fatal => exact recorded.of_same rfl rfl
  | @halts process last earlier op args halt due halted =>
    have left := met recorded op args
    rw [halted] at left
    exact left
  | @refused process after earlier op args answer error due answered refused =>
    have left := met recorded op args
    rw [answered] at left
    exact Recorded.concluded left id bridge op answer
  | @accepted process after earlier op args answer later outcome due answered accepted rest ih =>
    have left := met recorded op args
    rw [answered] at left
    apply ih
    exact (Recorded.concluded left id bridge op answer).of_same (bridges_settle ..)
      (congrArg Chronicled.marks (world_settle ..))

theorem BridgeRequest.play_records (records : gate.Records) (request : BridgeRequest) (id : BridgeId)
    (thread : ThreadId) (recorded : process.Recorded) :
    Process.Records (request.play gate id thread process) :=
  (request.course gate id thread process).records records recorded

theorem NativeRequest.play_records (records : gate.Records) (request : NativeRequest)
    (thread : ThreadId) (recorded : process.Recorded) :
    Process.Records (request.play gate thread process) := by
  have reports (answer : Except ApiError NativeResult) (after : Process (Chronicled World))
      (still : after.Recorded) : Process.Records (report thread request answer after) := by
    cases answer with
    | ok value => exact still
    | error error => exact still.of_same rfl rfl
  rw [play_eq]
  refine Process.Records.bind ?_ reports
  cases asks : request.request? with
  | none =>
    rcases result_of_unasking gate thread process asks with ⟨answer, same⟩ | ⟨error, same⟩
    next => rw [same]; exact recorded
    next => rw [same]; exact recorded.of_same rfl rfl
  | some asked =>
    cases installed : process.installed? with
    | none => rw [result_of_uninstalled asks installed]; exact recorded
    | some id =>
      have played := asked.play_records records id thread recorded
      rw [← records_map EventAnswer.presented?, ← result_of_installed gate thread asks installed,
        records_map] at played
      exact played

theorem Deed.play_records (records : gate.Records) (deed : Deed) (recorded : process.Recorded) :
    Process.Records (deed.play gate process) := by
  cases deed with
  | create added => exact recorded.addBridge added
  | install id => exact (recorded.of_same rfl rfl : (process.install id).2.Recorded).marked rfl
  | uninstall => exact (recorded.of_same rfl rfl : process.uninstall.2.Recorded).marked rfl
  | native thread request =>
    refine Process.Records.bind (recorded.note rfl) fun _ _ called => ?_
    refine Process.Records.bind (request.play_records records thread called) fun _ _ still => ?_
    exact Process.Records.bind (still.note rfl) fun _ _ noted => noted
  | bridge thread id request =>
    refine Process.Records.bind (recorded.note rfl) fun _ _ called => ?_
    refine Process.Records.bind (request.play_records records id thread called) fun _ _ still => ?_
    exact Process.Records.bind (still.note rfl) fun _ _ noted => noted

theorem Reaction.play_records (reaction : Reaction World) (recorded : process.Recorded) :
    Process.Records (reaction.play process) := by
  induction reaction generalizing process with
  | answer reply => exact recorded
  | halt cause => exact recorded
  | aside change next ih =>
    let adopted := process.adopt (change process)
    have still : adopted.Recorded := recorded.of_same rfl rfl
    exact ih adopted still
  | act deed meanwhile next met rest =>
    let gate : Gate (Chronicled World) := fun runtime thread op args => do
      (meanwhile runtime thread op args (← get)).play
    have records : gate.Records := fun runtime thread op args process recorded =>
      met runtime thread op args process recorded
    refine Process.Records.bind (deed.play_records records.chronicled recorded) ?_
    exact fun answer after still => rest answer after still

end

structure Meter where
  created : List BridgeId
  installed? : Option BridgeId
  calls : List (Option BridgeId)
  crossings : List Crossing

namespace Meter

def start : Meter := ⟨[], none, [], []⟩

def read (meter : Meter) : Mark → Meter
  | .created id _ => { meter with created := meter.created ++ [id] }
  | .installed id => { meter with installed? := some id }
  | .uninstalled => { meter with installed? := none }
  | .called _ named? =>
    let bridge? := (named?.or meter.installed?).filter fun id => id ∈ meter.created
    { meter with calls := bridge? :: meter.calls }
  | .asked _ _ _ _ => meter
  | .answered op answer =>
    match meter.calls with
    | some id :: _ => { meter with crossings := meter.crossings ++ [⟨id, op, answer⟩] }
    | _ => meter
  | .returned => { meter with calls := meter.calls.tail }

def through (meter : Meter) (id : BridgeId) : List Crossing :=
  meter.crossings.filter fun crossing => crossing.bridge = id

def Meters (meter : Meter) (tracker : Tracker) : OpenCall → Option BridgeId → Prop
  | (_, some (id, bridge)), some metered =>
    metered = id ∧ id ∈ meter.created ∧ bridge = tracker.bridge id
  | (_, some (_, bridge)), none => bridge.config.profile = false
  | (_, none), metered? => metered? = none

structure Explains (meter : Meter) (tracker : Tracker) : Prop where
  installed : meter.installed? = tracker.installed?
  missing : ∀ id ∉ meter.created, tracker.bridge id = default
  calls : List.Forall₂ (meter.Meters tracker) tracker.calls meter.calls
  crossings : ∀ crossing ∈ meter.crossings, crossing.bridge ∈ meter.created
  stats : ∀ id, tracker.stats id =
    if (tracker.bridge id).config.profile then .after (meter.through id) else .zero

variable {meter : Meter} {tracker last : Tracker}

theorem Explains.through_missing (explains : meter.Explains tracker) {id : BridgeId}
    (missing : id ∉ meter.created) : meter.through id = [] := by
  rw [through, List.filter_eq_nil_iff]
  intro crossing member same
  obtain rfl := of_decide_eq_true same
  exact missing (explains.crossings crossing member)

theorem Explains.created (explains : meter.Explains tracker) {id : BridgeId}
    (fresh : id ∉ meter.created) (bridge : Bridge) :
    (meter.read (.created id bridge)).Explains
      { tracker with bridge := Function.update tracker.bridge id bridge } := by
  have kept {other : BridgeId} (known : other ∈ meter.created) :
      Function.update tracker.bridge id bridge other = tracker.bridge other := by
    have apart : other ≠ id := fun same => fresh (same ▸ known)
    exact Function.update_of_ne apart _ _
  constructor
  case installed => exact explains.installed
  case missing =>
    intro other absent
    simp only [read, List.mem_append, List.mem_singleton, not_or] at absent
    exact (Function.update_of_ne absent.2 _ _).trans (explains.missing other absent.1)
  case calls =>
    refine explains.calls.imp fun call metered? meters => ?_
    obtain ⟨thread, _ | ⟨other, begun⟩⟩ := call
    next => exact meters
    next =>
      cases metered? with
      | none => exact meters
      | some metered =>
        obtain ⟨same, known, found⟩ := meters
        exact ⟨same, List.mem_append_left _ known, found.trans (kept known).symm⟩
  case crossings =>
    exact fun crossing member => List.mem_append_left _ (explains.crossings crossing member)
  case stats =>
    intro other
    change tracker.stats other =
      if (Function.update tracker.bridge id bridge other).config.profile then
        .after (meter.through other) else .zero
    by_cases same : other = id
    next =>
      subst same
      -- No upcall has gone through it so far, and what stood in for it does not profile.
      have uncounted := explains.stats other
      rw [explains.missing other fresh] at uncounted
      rw [uncounted, explains.through_missing fresh]
      exact (ite_self _).symm
    next =>
      rw [Function.update_of_ne same]
      exact explains.stats other

theorem Explains.called (explains : meter.Explains tracker) (thread : ThreadId)
    (named? : Option BridgeId) : (meter.read (.called thread named?)).Explains
      { tracker with calls := tracker.call thread named? :: tracker.calls } := by
  refine { explains with calls := .cons ?_ explains.calls }
  unfold Tracker.call
  rw [← explains.installed]
  cases named?.or meter.installed? with
  | none => rfl
  | some id =>
    by_cases known : id ∈ meter.created
    next =>
      rw [Option.filter_some, if_pos (decide_eq_true known)]
      exact ⟨rfl, known, rfl⟩
    next =>
      rw [Option.filter_some, if_neg (by simpa using known)]
      change (tracker.bridge id).config.profile = false
      rw [explains.missing id known]
      rfl

theorem through_concat (meter : Meter) (crossing : Crossing) (id : BridgeId) :
    { meter with crossings := meter.crossings ++ [crossing] : Meter }.through id =
      if crossing.bridge = id then meter.through id ++ [crossing] else meter.through id := by
  simp only [through, List.filter_append]
  split
  next same => simp [same]
  next other => simp [other]

theorem Explains.counted (explains : meter.Explains tracker) {id : BridgeId}
    (known : id ∈ meter.created) (op : UpcallOp) (answer : Except UpcallError Handle) :
    ({ meter with crossings := meter.crossings ++ [⟨id, op, answer⟩] } : Meter).Explains
      (tracker.count id (tracker.bridge id) op answer) := by
  have through := meter.through_concat ⟨id, op, answer⟩
  have crossings : ∀ crossing ∈ meter.crossings ++ [⟨id, op, answer⟩],
      crossing.bridge ∈ meter.created := by
    intro crossing member
    rcases List.mem_append.1 member with earlier | last
    next => exact explains.crossings crossing earlier
    next =>
      obtain rfl := List.mem_singleton.1 last
      exact known
  unfold Tracker.count
  split
  next profiled =>
    refine { explains with crossings := crossings, stats := fun other => ?_ }
    change Function.update tracker.stats id _ other = _
    rw [through other]
    by_cases same : other = id
    next =>
      subst same
      rw [Function.update_self, explains.stats, if_pos profiled, if_pos profiled, if_pos rfl,
        UpcallStats.after_concat]
    next =>
      rw [Function.update_of_ne same, if_neg (Ne.symm same)]
      exact explains.stats other
  next unprofiled =>
    refine { explains with crossings := crossings, stats := fun other => ?_ }
    rw [through other, explains.stats]
    by_cases same : other = id
    next =>
      subst same
      rw [if_neg unprofiled, if_neg unprofiled]
    next => rw [if_neg (Ne.symm same)]

theorem Explains.answered (explains : meter.Explains tracker) {op : UpcallOp}
    {answer : Except UpcallError Handle} (steps : tracker.step (.answered op answer) = some last) :
    (meter.read (.answered op answer)).Explains last := by
  have calls := explains.calls
  simp only [Tracker.step] at steps
  split at steps
  next thread id bridge outer under =>
    cases steps
    rw [under] at calls
    obtain ⟨metered?, rest, meters, -, metered⟩ := List.forall₂_cons_left_iff.1 calls
    simp only [read]
    split
    next passed inner through =>
      -- The bridge of an open call is still the one that the call began on.
      cases metered.symm.trans through
      obtain ⟨rfl, known, rfl⟩ := meters
      exact explains.counted known op answer
    next unmetered =>
      obtain rfl : metered? = none := by
        cases metered? with
        | none => rfl
        | some passed => exact absurd metered (unmetered passed rest)
      have unprofiled : bridge.config.profile = false := meters
      have uncounted : tracker.count id bridge op answer = tracker := by
        simp [Tracker.count, unprofiled]
      rw [uncounted]
      exact explains
  next => cases steps

theorem Explains.step (explains : meter.Explains tracker) {mark : Mark}
    (fresh : ∀ id, mark.created? = some id → id ∉ meter.created)
    (steps : tracker.step mark = some last) : (meter.read mark).Explains last := by
  cases mark with
  | created id bridge =>
    cases steps
    exact explains.created (fresh id rfl) bridge
  | installed id =>
    cases steps
    exact { explains with installed := rfl }
  | uninstalled =>
    cases steps
    exact { explains with installed := rfl }
  | called thread named? =>
    cases steps
    exact explains.called thread named?
  | asked runtime thread op args =>
    simp only [Tracker.step] at steps
    split at steps
    next =>
      split at steps
      next => cases steps; exact explains
      next => cases steps
    next => cases steps
  | answered op answer => exact explains.answered steps
  | returned =>
    have calls := explains.calls
    cases under : tracker.calls with
    | nil => simp [Tracker.step, under] at steps
    | cons call outer =>
      simp only [Tracker.step, under, Option.some.injEq] at steps
      subst steps
      rw [under] at calls
      obtain ⟨metered?, rest, -, inner, metered⟩ := List.forall₂_cons_left_iff.1 calls
      simp only [read, metered]
      exact { explains with calls := inner }

theorem created_read (meter : Meter) (mark : Mark) :
    (meter.read mark).created = meter.created ++ createdBridges [mark] := by
  cases mark with
  | created id bridge => rfl
  | answered op answer =>
    simp only [read]
    split <;> exact (List.append_nil _).symm
  | _ => exact (List.append_nil _).symm

-- Created a second time, a bridge could begin to profile after upcalls had gone through it.
theorem Explains.reads {marks : List Mark} (explains : meter.Explains tracker)
    (distinct : (meter.created ++ createdBridges marks).Nodup)
    (steps : marks.foldlM Tracker.step tracker = some last) :
    (marks.foldl read meter).Explains last := by
  induction marks generalizing meter tracker with
  | nil =>
    cases steps
    exact explains
  | cons mark marks ih =>
    rw [List.foldlM_cons] at steps
    obtain ⟨next, stepped, rest⟩ := Option.bind_eq_some_iff.1 steps
    have split : createdBridges (mark :: marks) = createdBridges [mark] ++ createdBridges marks :=
      createdBridges_append [mark] marks
    rw [split, ← List.append_assoc, ← created_read] at distinct
    refine ih (explains.step (fun id creates known => ?_) stepped) distinct rest
    have both := distinct.of_append_left
    rw [created_read, List.nodup_append] at both
    exact both.2.2 id known id (by simp [createdBridges, creates]) rfl

end Meter

def crossingsThrough (marks : List Mark) (id : BridgeId) : List Crossing :=
  (marks.foldl Meter.read .start).through id

theorem Reaction.follows {World : Type} (reaction : Reaction World)
    (process : Process (Chronicled World)) : ∃ calls,
      let last := stopped (reaction.play process)
      Follows process last [] (last.tracked calls) := by
  have informs := reaction.play_informs [] process
  cases played : reaction.play process with
  | ok reply last =>
    rw [played] at informs
    exact ⟨[], informs⟩
  | error halt last =>
    rw [played] at informs
    exact informs

theorem Reaction.bridgeStats_stopped {World : Type} (reaction : Reaction World) (world : World)
    (id : BridgeId) :
    let last := stopped (reaction.play (Process.start ⟨world, []⟩))
    last.bridgeStats id =
      if (last.bridge id).config.profile then .after (crossingsThrough last.world.marks id)
      else .zero := by
  intro last
  obtain ⟨calls, marks, noted, read⟩ := reaction.follows (Process.start ⟨world, []⟩)
  have recorded : last.Recorded := reaction.play_records (recorded_start world)
  change last.world.marks = [] ++ marks at noted
  rw [List.nil_append] at noted
  have start : Meter.start.Explains ((Process.start (Chronicled.mk world [])).tracked []) := by
    constructor
    case installed => rfl
    case missing => exact fun _ _ => rfl
    case calls => exact .nil
    case crossings => exact fun _ member => nomatch member
    case stats => exact fun _ => rfl
  have distinct : (Meter.start.created ++ createdBridges marks).Nodup := noted ▸ recorded.distinct
  have explains := start.reads distinct read
  rw [crossingsThrough, noted]
  exact explains.stats id

-- Wherever a run stops, a bridge that profiles has counted what has gone through it and returned.
theorem statistics_count_crossings :
    (∀ (World : Type) (world : World) (reaction : Reaction World) (id : BridgeId),
      let last := stopped (reaction.play (Process.start ⟨world, []⟩))
      let crossings := crossingsThrough last.world.marks id
      ((last.bridge id).config.profile = true → crossings.length < 2 ^ 64 →
        (last.bridgeStats id).Reports crossings) ∧
      ((last.bridge id).config.profile = false → (last.bridgeStats id).Reports [])) ∧
    ∀ (World : Type) (request : BridgeRequest) (gate : Gate World) (id : BridgeId)
      (thread : ThreadId) (process : Process World), request.CountsAnswers gate id thread process := by
  constructor
  next =>
    intro World world reaction id last crossings
    have stats := reaction.bridgeStats_stopped world id
    constructor
    next =>
      intro profiled few
      rw [stats, if_pos profiled]
      exact UpcallStats.after_reports few
    next =>
      intro unprofiled
      have none : ([] : List Crossing).length < 2 ^ 64 := by decide
      rw [stats, if_neg (Bool.eq_false_iff.1 unprofiled)]
      exact UpcallStats.after_reports none
  next => exact fun World => BridgeRequest.countsAnswers

def nullAnswers : Conduct Unit := fun _ _ _ _ _ => .answer (.ok .null)

-- Asked for a thread state, it calls two other bridges first. It has no dict to answer with.
def callsBack : Conduct Unit := fun _ thread op _ _ =>
  match op with
  | .resolveCurrentThreadState =>
    .act (.bridge thread ⟨1⟩ (.threads .current)) nullAnswers fun _ _ =>
    .act (.bridge thread ⟨2⟩ (.threads .current)) nullAnswers fun _ _ =>
    .answer (.ok ⟨0x0200010000000000⟩)
  | _ => .answer (.error .noThreadState)

-- Three bridges over one runtime, two of which profile. The answer to the second one is rejected.
theorem statistics_count_crossings_nested :
    let thread : ThreadId := ⟨0⟩
    let bridge (profile : Bool) : Bridge := ⟨⟨7⟩, { profile }⟩
    let run : Reaction Unit :=
      .act (.create (bridge true)) nullAnswers fun _ _ =>
      .act (.create (bridge true)) nullAnswers fun _ _ =>
      .act (.create (bridge false)) nullAnswers fun _ _ =>
      .act (.bridge thread ⟨0⟩ (.threads .currentDict)) callsBack fun _ _ => .answer (.ok .null)
    let last := stopped (run.play (Process.start ⟨(), []⟩))
    let crossings := crossingsThrough last.world.marks
    (last.bridgeStats ⟨0⟩).Reports (crossings ⟨0⟩) ∧
      (last.bridgeStats ⟨0⟩).snapshot =
        [(.resolveCurrentThreadState, 1, 0), (.threadStateDict, 1, 1)] ∧
      (last.bridgeStats ⟨1⟩).Reports (crossings ⟨1⟩) ∧
      (last.bridgeStats ⟨1⟩).snapshot = [(.resolveCurrentThreadState, 1, 0)] ∧
      crossings ⟨2⟩ = [⟨⟨2⟩, .resolveCurrentThreadState, .ok .null⟩] ∧
      (last.bridgeStats ⟨2⟩).Reports [] := by
  intro thread bridge run
  have counted := statistics_count_crossings.1 Unit () run
  have first := (counted ⟨0⟩).1 (by decide +kernel) (by decide +kernel)
  have second := (counted ⟨1⟩).1 (by decide +kernel) (by decide +kernel)
  have third := (counted ⟨2⟩).2 (by decide +kernel)
  exact ⟨first, by decide +kernel, second, by decide +kernel, by decide +kernel, third⟩

end StateBridge
