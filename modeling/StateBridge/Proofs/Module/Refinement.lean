import StateBridge.Proofs.Module.Calls

set_option autoImplicit false

namespace StateBridge

namespace Dialogue

variable {α β : Type}

def OnlyThreads : Dialogue α → Prop
  | .done _ => True
  | .note _ next => next.OnlyThreads
  | .look _ next => ∀ found, (next found).OnlyThreads
  | .ask op _ next =>
    (op = .resolveCurrentThreadState ∨ op = .threadStateDict) ∧ ∀ answer, (next answer).OnlyThreads
  | .abort _ | .fault _ | .claim _ _ _ => False

theorem OnlyThreads.bind {dialogue : Dialogue α} (only : dialogue.OnlyThreads)
    {after : α → Dialogue β} (rest : ∀ result, (after result).OnlyThreads) :
    (dialogue.bind after).OnlyThreads := by
  induction dialogue with
  | done result => exact rest result
  | note line next ih => exact ih only
  | look definition next ih => exact fun found => ih found (only found)
  | ask op args next ih => exact ⟨only.1, fun answer => ih answer (only.2 answer)⟩
  | abort | fault | claim => cases only

theorem OnlyThreads.eval {dialogue : Dialogue α} (only : dialogue.OnlyThreads) (thread : ThreadId)
    (shared : Shared Host) (tagged : shared.world.Tagged) :
    ∃ result world, dialogue.eval Host.runtime thread shared = .ok (result, { shared with world }) ∧
      world.Tagged ∧ shared.world.liveObjects ≤ world.liveObjects ∧
      (world.liveObjects ≤ HandleTable.capacity → shared.world.KeepsModules world) := by
  induction dialogue generalizing shared with
  | done result => exact ⟨result, shared.world, rfl, tagged, le_refl _, fun _ => .refl _⟩
  | note line next ih => exact ih only shared tagged
  | look definition next ih => exact ih _ (only _) shared tagged
  | ask op args next ih =>
    obtain ⟨answer, middle, answered, between, grown, first⟩ := tagged.invoke thread only.1 args
    obtain ⟨result, last, evaluated, final, more, second⟩ :=
      ih answer (only.2 answer) { shared with world := middle } between
    refine ⟨result, last, ?_, final, grown.trans more, ?_⟩
    next =>
      change Host.runtime thread op args shared.world = _ at answered
      rw [Dialogue.eval, answered]
      exact evaluated
    next => exact fun within => (first (more.trans within)).trans (second within)
  | abort | fault | claim => cases only

end Dialogue

namespace BridgeCall

variable {ε α β : Type}

def OnlyThreads (call : BridgeCall ε α) : Prop := call.run.OnlyThreads

theorem OnlyThreads.bind {call : BridgeCall ε α} (only : call.OnlyThreads)
    {next : α → BridgeCall ε β} (rest : ∀ result, (next result).OnlyThreads) :
    (call >>= next).OnlyThreads := by
  refine Dialogue.OnlyThreads.bind only ?_
  intro result
  cases result with
  | error error => trivial
  | ok result => exact rest result

theorem onlyThreads_liftExcept (result : Except ε α) :
    (liftM result : BridgeCall ε α).OnlyThreads := by
  cases result <;> trivial

theorem onlyThreads_ask {op : UpcallOp}
    (threads : op = .resolveCurrentThreadState ∨ op = .threadStateDict) (args : List Handle) :
    (ask op args).OnlyThreads :=
  ⟨threads, fun _ => trivial⟩

theorem onlyThreads_currentThreadState : currentThreadState.OnlyThreads := by
  refine (onlyThreads_ask (.inl rfl) []).bind fun answer => ?_
  refine (onlyThreads_liftExcept _).bind fun handle => ?_
  cases ThreadStateHandle.ofHandle? handle <;> trivial

theorem onlyThreads_dictOf (state : ThreadStateHandle) : (dictOf state).OnlyThreads := by
  refine (onlyThreads_ask (.inr rfl) _).bind fun answer => ?_
  refine (onlyThreads_liftExcept _).bind fun handle => ?_
  cases DictHandle.ofHandle? handle <;> trivial

theorem onlyThreads_threadStateDict : threadStateDict.OnlyThreads :=
  onlyThreads_currentThreadState.bind onlyThreads_dictOf

end BridgeCall

namespace Event

-- A removal without an index aborts, and the registry is changed through bridges only.
def Allowed (process : Process Host) : Event → Prop
  | .modules _ _ (.remove definition) =>
    (process.definition definition).hasSlots ∨ (process.definition definition).index?.isSome
  | .direct _ (.newModule _) => True
  | .direct _ call => call.SparesRegistry
  | _ => True

instance decidableAllowed (process : Process Host) :
    (event : Event) → Decidable (event.Allowed process)
  | .modules _ _ (.remove _) => inferInstanceAs (Decidable (_ ∨ _))
  | .modules _ _ (.find _) | .modules _ _ (.findByIndex _) | .modules _ _ (.init _)
  | .modules _ _ (.add _ _) | .threads _ _ _ | .exit _ => inferInstanceAs (Decidable True)
  | .direct _ (.invoke _ _) => inferInstanceAs (Decidable (_ ∨ _))
  | .direct _ .attach | .direct _ .switch | .direct _ .detach | .direct _ (.newModule _)
  | .direct _ (.moduleName _) | .direct _ (.dictSet _ _ _) | .direct _ (.dictGet _ _)
  | .direct _ (.dictSize _) | .direct _ (.registeredModule _) => inferInstanceAs (Decidable True)

end Event

def Admissible : Process Host → List Event → Prop
  | process, [] => process.world.liveObjects ≤ HandleTable.capacity
  | process, event :: rest =>
    process.world.liveObjects ≤ HandleTable.capacity ∧ event.Allowed process ∧
      match event.play process with
      | .ok _ after => Admissible after rest
      | .error _ _ => True

instance decidableAdmissible :
    (process : Process Host) → (events : List Event) → Decidable (Admissible process events)
  | _, [] => Nat.decLe _ _
  | process, event :: rest =>
    @instDecidableAnd _ _ (Nat.decLe _ _) <|
      @instDecidableAnd _ _ (Event.decidableAllowed process event) <|
        match event.play process with
        | .ok _ after => decidableAdmissible after rest
        | .error _ _ => .isTrue trivial

theorem Admissible.within {process : Process Host} {events : List Event}
    (admissible : Admissible process events) :
    process.world.liveObjects ≤ HandleTable.capacity := by
  cases events with
  | nil => exact admissible
  | cons event rest => exact admissible.1

-- Left open are the handle of a new module, an unused one, and the answers about threads and dicts.
inductive ModuleStep : ModuleMap → Event → EventAnswer → ModuleMap → Prop
  | modules (map : ModuleMap) (bridge : BridgeId) (thread : ThreadId) (request : ModuleRequest) :
    ModuleStep map (.modules bridge thread request) (.module (map.reply request).1)
      (map.reply request).2
  | newModule {map : ModuleMap} (thread : ThreadId) (name : String) {module : ModuleHandle}
      (unused : module ∉ map.live) :
    ModuleStep map (.direct thread (.newModule name)) (.host (.module module))
      { map with live := module :: map.live }
  | registered (map : ModuleMap) (thread : ThreadId) (index : ModuleIndex) :
    ModuleStep map (.direct thread (.registeredModule index)) (.host (.registered (map.entry index)))
      map
  | direct (map : ModuleMap) (thread : ThreadId) {call : HostCall} (answer : HostAnswer)
      (spares : call.SparesRegistry) (other : ∀ index, call ≠ .registeredModule index) :
    ModuleStep map (.direct thread call) (.host answer) map
  | threads (map : ModuleMap) (bridge : BridgeId) (thread : ThreadId) (request : ThreadRequest)
      (answer : EventAnswer) : ModuleStep map (.threads bridge thread request) answer map
  | exit (map : ModuleMap) (thread : ThreadId) (had : Bool) :
    ModuleStep map (.exit thread) (.exited had) map

inductive ModuleRun : ModuleMap → List Event → List EventAnswer → ModuleMap → Prop
  | done (map : ModuleMap) : ModuleRun map [] [] map
  | next {map middle last : ModuleMap} {event : Event} {answer : EventAnswer} {events : List Event}
      {answers : List EventAnswer} (step : ModuleStep map event answer middle)
      (rest : ModuleRun middle events answers last) :
    ModuleRun map (event :: events) (answer :: answers) last

namespace Shared

variable {process : Process Host} {map : ModuleMap}

theorem Represents.keeps {shared : Shared Host} (represents : shared.Represents map) {world : Host}
    (tagged : world.Tagged) (keeps : shared.world.KeepsModules world) :
    { shared with world }.Represents map := by
  refine ⟨tagged, ?_, represents.definition, ?_, keeps.highestIndex.trans represents.highest⟩
  next =>
    intro index
    change world.modules.find? index = _
    rw [keeps.modules, represents.entry]
  next =>
    intro module
    rw [represents.live]
    exact exists_congr fun name => (keeps.live module.handle name).symm

theorem gives_play {ε α : Type} {call : BridgeCall ε α} {thread : ThreadId}
    {expected : Except ε α × ModuleMap} (gives : call.Gives thread process.shared expected)
    (bridge : BridgeId) (present : Except ε α → ModuleReply) :
    ∃ after, (EventAnswer.module <$> present <$>
        Process.call Host.runtime.gate bridge thread call) process =
          .ok (.module (present expected.1)) after ∧ after.shared.Represents expected.2 := by
  obtain ⟨shared, evaluated, represents⟩ := gives
  obtain ⟨after, called, rfl⟩ := Process.call_of_eval evaluated bridge
  exact ⟨after, Process.map_of_ok (Process.map_of_ok called present) EventAnswer.module, represents⟩

theorem Represents.modules (represents : process.shared.Represents map) (bridge : BridgeId)
    (thread : ThreadId) {request : ModuleRequest}
    (allowed : (Event.modules bridge thread request).Allowed process) :
    ∃ after, (Event.modules bridge thread request).play process =
        .ok (.module (map.reply request).1) after ∧ after.shared.Represents (map.reply request).2 := by
  cases request with
  | find definition => exact gives_play (represents.find thread definition) bridge .found
  | findByIndex index => exact gives_play (represents.findByIndex thread index) bridge .found
  | init definition => exact gives_play (represents.init thread definition) bridge .index
  | add module definition => exact gives_play (represents.add thread module definition) bridge .status
  | remove definition =>
    have same : process.definition = map.definition := represents.definition
    rw [Event.Allowed, same] at allowed
    exact gives_play (represents.remove thread definition allowed) bridge .status

theorem Represents.threads {α : Type} (represents : process.shared.Represents map)
    {call : BridgeCall UpcallError α} (only : call.OnlyThreads) (bridge : BridgeId)
    (thread : ThreadId) (present : Except UpcallError α → EventAnswer) :
    ∃ answer after, (present <$> Process.call Host.runtime.gate bridge thread call) process =
        .ok answer after ∧
      (after.world.liveObjects ≤ HandleTable.capacity → after.shared.Represents map) := by
  obtain ⟨result, world, evaluated, tagged, -, keeps⟩ :=
    Dialogue.OnlyThreads.eval only thread process.shared represents.tagged
  obtain ⟨after, called, same⟩ := Process.call_of_eval evaluated bridge
  refine ⟨present result, after, Process.map_of_ok called present, ?_⟩
  intro within
  rw [same]
  have here : after.world = world := congrArg Shared.world same
  exact represents.keeps tagged (keeps (here ▸ within))

theorem onHost_of_ok {α : Type} (step : Host → Except Fault (α × Host)) {result : α} {world : Host}
    (stepped : step process.world = .ok (result, world)) :
    onHost step process = .ok result { process with world } := by
  change EStateM.bind (Run.ofChecked (step process.world)) _ process = _
  rw [stepped]
  rfl

theorem Represents.spares {α : Type} (represents : process.shared.Represents map)
    (step : Host → Except Fault (α × Host)) (spares : process.world.Spares (step process.world))
    (present : α → EventAnswer) : ∃ result world, step process.world = .ok (result, world) ∧
      (present <$> onHost step) process = .ok (present result) { process with world } ∧
      (world.liveObjects ≤ HandleTable.capacity →
        { process with world : Process Host }.shared.Represents map) := by
  obtain ⟨result, world, stepped, tagged, keeps⟩ := spares
  exact ⟨result, world, stepped, Process.map_of_ok (onHost_of_ok step stepped) present,
    fun within => represents.keeps tagged (keeps within)⟩

theorem Represents.newModule (represents : process.shared.Represents map) (thread : ThreadId)
    (name : String) : ∃ answer after,
      (Event.direct thread (.newModule name)).play process = .ok answer after ∧
      (after.world.liveObjects ≤ HandleTable.capacity → ∃ next,
        ModuleStep map (.direct thread (.newModule name)) answer next ∧
          after.shared.Represents next) := by
  obtain ⟨module, world, made, modules, highestIndex, tagged, lookup⟩ :=
    represents.tagged.newModule name
  change process.world.newModule name = _ at made
  have called : process.world.call thread (.newModule name) = .ok (.module module, world) := by
    simp only [Host.call, made]
    rfl
  refine ⟨_, _, Process.map_of_ok
    (onHost_of_ok (fun host => host.call thread (.newModule name)) called) EventAnswer.host, ?_⟩
  intro within
  obtain ⟨missing, lookup⟩ := lookup within
  have unused : module ∉ map.live := by
    rw [represents.live]
    rintro ⟨named, found⟩
    rw [missing] at found
    cases found
  refine ⟨_, .newModule thread name unused, tagged, ?_, represents.definition, ?_,
    highestIndex.trans represents.highest⟩
  next =>
    intro index
    change world.modules.find? index = _
    rw [modules]
    exact represents.entry index
  next =>
    intro other
    change other ∈ module :: map.live ↔ ∃ named, world.objects.get? other.handle = some (.module named)
    rw [lookup, List.mem_cons, represents.live]
    by_cases same : other = module
    next => simp [same]
    next =>
      have differ : other.handle ≠ module.handle := by
        intro handles
        cases other
        cases module
        simp_all
      simp [same, differ]

theorem Represents.direct (represents : process.shared.Represents map) (thread : ThreadId)
    {call : HostCall} (allowed : (Event.direct thread call).Allowed process) : ∃ answer after,
      (Event.direct thread call).play process = .ok answer after ∧
      (after.world.liveObjects ≤ HandleTable.capacity → ∃ next,
        ModuleStep map (.direct thread call) answer next ∧ after.shared.Represents next) := by
  by_cases registers : ∃ index, call = .registeredModule index
  next =>
    obtain ⟨index, rfl⟩ := registers
    refine ⟨_, process, rfl, fun _ => ⟨map, ?_, represents⟩⟩
    have entry : process.world.registeredModule? index = map.entry index := represents.entry index
    rw [entry]
    exact .registered map thread index
  next =>
    by_cases makes : ∃ name, call = .newModule name
    next =>
      obtain ⟨name, rfl⟩ := makes
      exact represents.newModule thread name
    next =>
      have spares : call.SparesRegistry := by
        cases call with
        | newModule name => exact absurd ⟨name, rfl⟩ makes
        | _ => exact allowed
      obtain ⟨answer, world, -, played, kept⟩ := represents.spares
        (fun host => host.call thread call) (represents.tagged.call thread spares)
        EventAnswer.host
      refine ⟨_, _, played, fun within => ⟨map, ?_, kept within⟩⟩
      exact .direct map thread answer spares fun index same => registers ⟨index, same⟩

theorem Represents.step (represents : process.shared.Represents map) {event : Event}
    (allowed : event.Allowed process) : ∃ answer after, event.play process = .ok answer after ∧
      (after.world.liveObjects ≤ HandleTable.capacity → ∃ next,
        ModuleStep map event answer next ∧ after.shared.Represents next) := by
  cases event with
  | modules bridge thread request =>
    obtain ⟨after, played, kept⟩ := represents.modules bridge thread allowed
    exact ⟨_, after, played, fun _ => ⟨_, .modules map bridge thread request, kept⟩⟩
  | threads bridge thread request =>
    have played : ∃ answer after, (Event.threads bridge thread request).play process =
        .ok answer after ∧
        (after.world.liveObjects ≤ HandleTable.capacity → after.shared.Represents map) := by
      cases request with
      | current =>
        exact represents.threads BridgeCall.onlyThreads_currentThreadState bridge thread .state
      | currentDict =>
        exact represents.threads BridgeCall.onlyThreads_threadStateDict bridge thread .dict
      | dictOf state =>
        exact represents.threads (BridgeCall.onlyThreads_dictOf state) bridge thread .dict
    obtain ⟨answer, after, played, kept⟩ := played
    exact ⟨answer, after, played, fun within =>
      ⟨map, .threads map bridge thread request answer, kept within⟩⟩
  | direct thread call => exact represents.direct thread allowed
  | exit thread =>
    obtain ⟨had, world, -, played, kept⟩ := represents.spares
      (fun host => host.dropThreadState thread) (represents.tagged.detach thread)
      EventAnswer.exited
    exact ⟨_, _, played, fun within => ⟨map, .exit map thread had, kept within⟩⟩

theorem Represents.playAll {events : List Event} (represents : process.shared.Represents map)
    (admissible : Admissible process events) : ∃ answers after last,
      StateBridge.playAll events process = .ok answers after ∧ ModuleRun map events answers last ∧
        after.shared.Represents last := by
  induction events generalizing process map with
  | nil => exact ⟨[], process, map, rfl, .done map, represents⟩
  | cons event rest ih =>
    obtain ⟨answer, middle, played, kept⟩ := represents.step admissible.2.1
    have tail := admissible.2.2
    rw [played] at tail
    obtain ⟨next, step, between⟩ := kept tail.within
    obtain ⟨answers, after, last, ran, run, final⟩ := ih between tail
    refine ⟨answer :: answers, after, last, ?_, .next step run, final⟩
    change EStateM.bind event.play _ process = _
    rw [EStateM.bind, played]
    change EStateM.bind (StateBridge.playAll rest) _ middle = _
    rw [EStateM.bind, ran]
    rfl

end Shared

theorem module_calls_refine_map (explicitAttach : Bool) (process : Process Host)
    (new : process.world = .new explicitAttach) (events : List Event)
    (admissible : Admissible process events) :
    ∃ answers after last, playAll events process = .ok answers after ∧
      ModuleRun (.start process.definition) events answers last ∧
      (∀ index, after.world.registeredModule? index = last.entry index) ∧
      (∀ definition, after.definition definition = last.definition definition) ∧
      ∀ module, (after.world.moduleName? module).isSome ↔ module ∈ last.live := by
  have start : process.shared.Represents (.start process.definition) := by
    refine ⟨?_, ?_, rfl, ?_, ?_⟩
    next =>
      change process.world.Tagged
      rw [new]
      exact Host.new_tagged explicitAttach
    next =>
      intro index
      change process.world.modules.find? index = none
      rw [new]
      rfl
    next =>
      intro module
      change module ∈ [] ↔ ∃ name, process.world.objects.get? module.handle = some (.module name)
      rw [new]
      simp [Host.new, HandleTable.get?_empty]
    next =>
      change process.world.highestIndex = 0
      rw [new]
      rfl
  obtain ⟨answers, after, last, ran, run, represents⟩ := start.playAll admissible
  refine ⟨answers, after, last, ran, run, represents.entry, congrFun represents.definition, ?_⟩
  intro module
  rw [represents.live]
  change (after.world.moduleName? module).isSome ↔
    ∃ name, after.world.objects.get? module.handle = some (.module name)
  unfold Host.moduleName?
  cases after.world.objects.get? module.handle with
  | none => simp
  | some value => cases value <;> simp

-- Two bridges share a definition; another one has slots, and the index of a third is too wide.
theorem module_calls_refine_map_shared_definition :
    let module : ModuleHandle := ⟨⟨0x0400010000000000⟩, by decide⟩
    let process : Process Host := { Process.start (Host.new false) with
      definitions := (FiniteMap.empty.insert ⟨1⟩ .withSlots).insert ⟨2⟩ ⟨2 ^ 55, false⟩ }
    let events : List Event :=
      [.direct ⟨0⟩ (.newModule "m"), .modules ⟨0⟩ ⟨0⟩ (.add module ⟨0⟩),
        .modules ⟨1⟩ ⟨1⟩ (.add module ⟨0⟩), .threads ⟨0⟩ ⟨0⟩ .currentDict,
        .modules ⟨1⟩ ⟨1⟩ (.find ⟨0⟩), .modules ⟨0⟩ ⟨0⟩ (.add module ⟨1⟩),
        .modules ⟨0⟩ ⟨0⟩ (.add module ⟨2⟩), .modules ⟨0⟩ ⟨0⟩ (.remove ⟨0⟩), .exit ⟨0⟩]
    let answers : List EventAnswer :=
      [.host (.module module), .module (.status (.ok ())),
        .module (.status (.error (.moduleAlreadyAdded ⟨1, by decide⟩))),
        .dict (.ok ⟨⟨0x0300010000000002⟩, by decide⟩), .module (.found (.ok (some module))),
        .module (.status (.error (.moduleHasSlots addModuleFunction))),
        .module (.status (.error (.upcall
          (.invalidArgument .addModuleByIndex (.indexTooLarge ⟨2 ^ 55, by decide⟩))))),
        .module (.status (.ok ())), .exited true]
    process.world = .new false ∧ Admissible process events ∧
      ∃ after last, playAll events process = .ok answers after ∧
        ModuleRun (.start process.definition) events answers last ∧
        (∀ index, after.world.registeredModule? index = last.entry index) ∧
        (∀ definition, after.definition definition = last.definition definition) ∧
        ∀ module, (after.world.moduleName? module).isSome ↔ module ∈ last.live := by
  intro module process events answers
  have admissible : Admissible process events := by decide +kernel
  have computed : (Process.outcome (playAll events process)).map Prod.fst = .ok answers := by
    decide +kernel
  obtain ⟨told, after, last, ran, same⟩ :=
    module_calls_refine_map false process rfl events admissible
  rw [ran] at computed
  obtain rfl : told = answers := Except.ok.inj computed
  exact ⟨rfl, admissible, after, last, ran, same⟩

end StateBridge
