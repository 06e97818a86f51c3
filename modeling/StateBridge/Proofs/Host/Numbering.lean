import StateBridge.Proofs.Bridge.Course
import StateBridge.Proofs.Host.Service
import StateBridge.Proofs.Module.Refinement

set_option autoImplicit false

namespace StateBridge

def Event.exchanges : Event → Process Host → List (Exchange Host)
  | .modules bridge thread request, process =>
    (BridgeRequest.modules request).exchanges Host.runtime.gate bridge thread process
  | .threads bridge thread request, process =>
    (BridgeRequest.threads request).exchanges Host.runtime.gate bridge thread process
  | .direct thread (.invoke op args), process =>
    match process.world.invoke thread op args with
    | .ok (answer, world) => [⟨⟨op, args, answer⟩, process, { process with world }⟩]
    | .error _ => []
  | .direct _ _, _ | .exit _, _ => []

def history : List Event → Process Host → List (Exchange Host)
  | [], _ => []
  | event :: rest, process =>
    event.exchanges process ++ match event.play process with
      | .ok _ after => history rest after
      | .error _ _ => []

def namedIndices (asked : List (Exchange Host)) : List ModuleIndex :=
  asked.filterMap fun exchange => exchange.index?

def visited (asked : List (Exchange Host)) (last : Host) : List Host :=
  asked.flatMap (fun exchange => [exchange.before.world, exchange.after.world]) ++ [last]

def Exchange.Served (exchange : Exchange Host) : Prop :=
  ∃ thread, exchange.before.world.invoke thread exchange.op exchange.args =
    .ok (exchange.answer, exchange.after.world)

theorem namedIndices_append (first second : List (Exchange Host)) :
    namedIndices (first ++ second) = namedIndices first ++ namedIndices second :=
  List.filterMap_append

theorem namedIndices_singleton (exchange : Exchange Host) :
    namedIndices [exchange] = exchange.index?.toList := by
  cases named : exchange.index? <;> simp [namedIndices, named]

theorem Question.fits_of_index? {question : Question} {index : ModuleIndex}
    (named : question.index? = some index) : index.Fits := by
  unfold Question.index? at named
  split at named
  next => exact ModuleIndex.fits_of_ofHandle? named
  next => exact ModuleIndex.fits_of_ofHandle? named
  next => exact ModuleIndex.fits_of_ofHandle? named
  next => exact ModuleIndex.fits_of_ofHandle? named
  next => cases named

namespace Host

structure Numbered (host : Host) (named : List ModuleIndex) : Prop where
  above : ∀ index ∈ named, index.value ≤ host.highestIndex
  attained : host.highestIndex = 0 ∨ ∃ index ∈ named, index.value = host.highestIndex
  registered : ∀ index module, host.modules.find? index = some module → index.value ≤ host.highestIndex
  bounded : host.highestIndex ≤ Handle.intMax.toNat

variable {host after last : Host} {named : List ModuleIndex} {question : Question}
  {asked earlier later : List (Exchange Host)} {exchange : Exchange Host}

theorem new_numbered (explicitAttach : Bool) : (Host.new explicitAttach).Numbered [] where
  above := by simp
  attained := .inl rfl
  registered := by simp [Host.new]
  bounded := Nat.zero_le _

theorem Numbered.same (numbered : host.Numbered named) (same : host.SameNumbers after) :
    after.Numbered named := by
  obtain ⟨modules, highest⟩ := same
  obtain ⟨above, attained, registered, bounded⟩ := numbered
  constructor <;> simp only [modules, highest] <;> assumption

theorem Numbered.step (numbered : host.Numbered named) (numbers : host.Numbers question after) :
    after.Numbered (named ++ question.index?.toList) ∧ host.highestIndex ≤ after.highestIndex := by
  cases numbers with
  | spared unnamed unassigned same =>
    rw [unnamed, Option.toList_none, List.append_nil]
    exact ⟨numbered.same same, le_of_eq same.highestIndex.symm⟩
  | @named _ _ index other names highest entries =>
    have fits := Question.fits_of_index? names
    rw [names, Option.toList_some]
    refine ⟨⟨?_, ?_, ?_, ?_⟩, by omega⟩
    next =>
      intro known member
      rw [highest]
      rcases List.mem_append.1 member with before | now
      next => have := numbered.above known before; omega
      next => rw [List.mem_singleton.1 now]; omega
    next =>
      -- The new highest index is the one named now, or else the one that was the highest before.
      right
      by_cases higher : host.highestIndex ≤ index.value
      next => exact ⟨index, by simp, by omega⟩
      next =>
        rcases numbered.attained with zero | ⟨known, member, same⟩
        next => omega
        next => exact ⟨known, List.mem_append_left _ member, by omega⟩
    next =>
      intro known module found
      rcases entries known module found with rfl | before
      next => omega
      next => have := numbered.registered known module before; omega
    next =>
      have := numbered.bounded
      unfold ModuleIndex.Fits at fits
      omega
  | assigned fits read =>
    have gives : Question.index? ⟨.assignModuleIndex, [], .ok _⟩ = some host.upperIndex := read
    rw [gives, Option.toList_some]
    have upper : host.upperIndex.value = host.highestIndex + 1 := rfl
    refine ⟨⟨?_, .inr ⟨host.upperIndex, by simp, rfl⟩, ?_, fits⟩, by simp only [upper]; omega⟩
    next =>
      intro known member
      rcases List.mem_append.1 member with before | now
      next => have := numbered.above known before; simp only [upper]; omega
      next => rw [List.mem_singleton.1 now]
    next =>
      intro known module found
      have := numbered.registered known module found
      simp only [upper]
      omega
  | exhausted wide =>
    rw [Question.index?_of_error, Option.toList_none, List.append_nil]
    exact ⟨numbered, le_refl _⟩

-- What a host does between upcalls leaves its registry and its highest index alone.
inductive Serves : Host → List (Exchange Host) → Host → Prop where
  | done (host : Host) : Serves host [] host
  | idle {host middle last : Host} {asked : List (Exchange Host)} (same : host.SameNumbers middle)
    (rest : Serves middle asked last) : Serves host asked last
  | answer {host last : Host} {exchange : Exchange Host} {later : List (Exchange Host)}
    (here : exchange.before.world = host) (served : exchange.Served)
    (numbers : host.Numbers exchange.toQuestion exchange.after.world)
    (rest : Serves exchange.after.world later last) : Serves host (exchange :: later) last

theorem Serves.trans {middle : Host} (first : host.Serves earlier middle)
    (second : middle.Serves later last) : host.Serves (earlier ++ later) last := by
  induction first with
  | done => exact second
  | idle same rest ih => exact .idle same (ih second)
  | answer here served numbers rest ih => exact .answer here served numbers (ih second)

theorem Serves.split (serves : host.Serves (earlier ++ exchange :: later) last) :
    host.Serves earlier exchange.before.world ∧ exchange.Served ∧
      exchange.before.world.Numbers exchange.toQuestion exchange.after.world ∧
      exchange.after.world.Serves later last := by
  generalize whole : earlier ++ exchange :: later = asked at serves
  induction serves generalizing earlier with
  | done => simp at whole
  | idle same rest ih =>
    obtain ⟨before, others⟩ := ih whole
    exact ⟨.idle same before, others⟩
  | answer here served numbers rest ih =>
    cases earlier with
    | nil =>
      cases whole
      subst here
      exact ⟨.done _, served, numbers, rest⟩
    | cons first others =>
      cases whole
      obtain ⟨before, others⟩ := ih rfl
      exact ⟨.answer here served numbers before, others⟩

theorem Numbered.serves (numbered : host.Numbered named) (serves : host.Serves asked last) :
    last.Numbered (named ++ namedIndices asked) ∧ host.highestIndex ≤ last.highestIndex := by
  induction serves generalizing named with
  | done host =>
    rw [show namedIndices [] = [] from rfl, List.append_nil]
    exact ⟨numbered, le_refl _⟩
  | idle same rest ih =>
    obtain ⟨final, more⟩ := ih (numbered.same same)
    exact ⟨final, same.highestIndex ▸ more⟩
  | @answer _ _ exchange later here served numbers rest ih =>
    obtain ⟨next, step⟩ := numbered.step numbers
    obtain ⟨final, more⟩ := ih next
    rw [← namedIndices_singleton, List.append_assoc, ← namedIndices_append] at final
    exact ⟨final, step.trans more⟩

def WithinMark (host : Host) : Prop :=
  (∀ index module, host.registeredModule? index = some module → index.value ≤ host.highestIndex) ∧
    host.highestIndex ≤ Handle.intMax.toNat

theorem Numbered.visited (numbered : host.Numbered named) (serves : host.Serves asked last) :
    (∀ state ∈ visited asked last, state.WithinMark ∧ host.highestIndex ≤ state.highestIndex) ∧
      (StateBridge.visited asked last).Pairwise fun before after =>
        before.highestIndex ≤ after.highestIndex := by
  induction serves generalizing named with
  | done host =>
    simp only [StateBridge.visited, List.flatMap_nil, List.nil_append, List.mem_singleton,
      List.pairwise_singleton, and_true]
    rintro state rfl
    exact ⟨⟨numbered.registered, numbered.bounded⟩, le_refl _⟩
  | idle same rest ih =>
    obtain ⟨within, ordered⟩ := ih (numbered.same same)
    exact ⟨fun state member => ⟨(within state member).1, same.highestIndex ▸ (within state member).2⟩,
      ordered⟩
  | @answer host last exchange later here served numbers rest ih =>
    obtain ⟨next, step⟩ := numbered.step numbers
    obtain ⟨within, ordered⟩ := ih next
    have reached : StateBridge.visited (exchange :: later) last =
        host :: exchange.after.world :: StateBridge.visited later last := by
      simp [StateBridge.visited, here]
    have here : host.WithinMark := ⟨numbered.registered, numbered.bounded⟩
    have after : exchange.after.world.WithinMark := ⟨next.registered, next.bounded⟩
    rw [reached]
    refine ⟨?_, ?_⟩
    next =>
      intro state member
      rcases List.mem_cons.1 member with rfl | member
      next => exact ⟨here, le_refl _⟩
      rcases List.mem_cons.1 member with rfl | member
      next => exact ⟨after, step⟩
      next => exact ⟨(within state member).1, step.trans (within state member).2⟩
    next =>
      refine .cons ?_ (.cons (fun state member => (within state member).2) ordered)
      intro state member
      rcases List.mem_cons.1 member with rfl | member
      next => exact step
      next => exact step.trans (within state member).2

theorem Tagged.upcall {process : Process Host} (tagged : process.world.Tagged) (id : BridgeId)
    (bridge : Bridge) (thread : ThreadId) (op : UpcallOp) (args : List Handle) : ∃ answer after,
      Host.runtime.gate bridge.runtime thread op args (process.announce id bridge op args) =
          .ok answer after ∧
        Exchange.Served ⟨⟨op, args, answer⟩, process, after⟩ ∧ after.world.Tagged ∧
        process.world.Numbers ⟨op, args, answer⟩ after.world := by
  obtain ⟨answer, world, invoked, kept, numbers⟩ := tagged.serves thread op args
  exact ⟨answer, { process.announce id bridge op args with world },
    Runtime.gate_of_ok invoked bridge.runtime, ⟨thread, invoked⟩, kept, numbers⟩

end Host

def Run.Ends {α : Type} (outcome : EStateM.Result Halt (Process Host) α) (last : Process Host) : Prop :=
  (∃ result, outcome = .ok result last) ∨ ∃ error, outcome = .error (.fatal error) last

theorem BridgeRequest.world_settle {World : Type} (request : BridgeRequest) (question : Question)
    (process : Process World) : (request.settle question process).world = process.world := by
  unfold settle
  split <;> rfl

theorem BridgeRequest.Course.serves {request : BridgeRequest} {id : BridgeId} {bridge : Bridge}
    {thread : ThreadId} {process : Process Host} {earlier : List Question}
    {asked : List (Exchange Host)} {outcome : EStateM.Result Halt (Process Host) EventAnswer}
    (course : request.Course Host.runtime.gate id bridge thread process earlier asked outcome)
    (tagged : process.world.Tagged) : ∃ last, last.world.Tagged ∧
      process.world.Serves asked last.world ∧ Run.Ends outcome last := by
  induction course with
  | @returns process earlier reply records concludes silent =>
    exact ⟨{ process with log := process.log ++ records }, tagged, .done _, .inl ⟨reply, rfl⟩⟩
  | @aborts process error fatal =>
    exact ⟨process.aborted error, tagged, .done _, .inr ⟨error, rfl⟩⟩
  | @halts process last earlier op args halt due halted =>
    obtain ⟨answer, after, gated, -⟩ := tagged.upcall id bridge thread op args
    rw [halted] at gated
    cases gated
  | @refused process after earlier op args answer error due answered refused =>
    obtain ⟨told, other, gated, served, kept, numbers⟩ := tagged.upcall id bridge thread op args
    rw [answered] at gated
    cases gated
    refine ⟨_, ?_, .answer rfl served numbers ?_, .inl ⟨_, rfl⟩⟩
    next =>
      rw [Process.world_conclude]
      exact kept
    next =>
      rw [Process.world_conclude]
      exact .done _
  | @accepted process after earlier op args answer later outcome due answered accepted rest ih =>
    obtain ⟨told, other, gated, served, kept, numbers⟩ := tagged.upcall id bridge thread op args
    rw [answered] at gated
    cases gated
    rw [world_settle, Process.world_conclude] at ih
    obtain ⟨last, final, serves, ends⟩ := ih kept
    exact ⟨last, final, .answer rfl served numbers serves, ends⟩

theorem Run.Ends.map {α β : Type} {step : Run Host α} {process last : Process Host}
    (ends : Run.Ends (step process) last) (present : α → β) :
    Run.Ends ((present <$> step) process) last := by
  rcases ends with ⟨result, ran⟩ | ⟨error, ran⟩
  next => exact .inl ⟨present result, Process.map_of_ok ran present⟩
  next =>
    refine .inr ⟨error, ?_⟩
    change EStateM.map present step process = _
    rw [EStateM.map, ran]

theorem Event.serves (event : Event) {process : Process Host} (tagged : process.world.Tagged) :
    ∃ last, last.world.Tagged ∧ process.world.Serves (event.exchanges process) last.world ∧
      Run.Ends (event.play process) last := by
  cases event with
  | modules bridge thread request =>
    exact ((BridgeRequest.modules request).course Host.runtime.gate bridge thread process).serves tagged
  | threads bridge thread request =>
    exact ((BridgeRequest.threads request).course Host.runtime.gate bridge thread process).serves tagged
  | direct thread call =>
    obtain ⟨answer, after, ran, kept, called⟩ := tagged.called thread call
    have ends : Run.Ends ((Event.direct thread call).play process) { process with world := after } :=
      .inl ⟨_, Process.map_of_ok (Shared.onHost_of_ok (fun host => host.call thread call) ran) _⟩
    refine ⟨_, kept, ?_, ends⟩
    cases called with
    | spared other same =>
      cases call with
      | invoke op args => exact absurd rfl (other op args)
      | _ => exact .idle same (.done _)
    | invoked invoked numbers =>
      simp only [exchanges, invoked]
      exact .answer rfl ⟨thread, invoked⟩ numbers (.done _)
  | exit thread =>
    obtain ⟨had, after, dropped, kept, -⟩ := tagged.dropThreadState thread
    exact ⟨{ process with world := after }, kept,
      .idle (Host.dropThreadState_same dropped) (.done _),
      .inl ⟨_, Process.map_of_ok
        (Shared.onHost_of_ok (fun host => host.dropThreadState thread) dropped) _⟩⟩

theorem playAll_ends {event : Event} {rest : List Event} {process middle last : Process Host}
    {answer : EventAnswer} (played : event.play process = .ok answer middle)
    (ends : Run.Ends (playAll rest middle) last) : Run.Ends (playAll (event :: rest) process) last := by
  have onward : playAll (event :: rest) process = ((answer :: ·) <$> playAll rest) middle := by
    rw [playAll, Run.bind_of_ok played]
    simp only [bind_pure_comp]
  rw [onward]
  exact ends.map _

theorem playAll_of_halt {event : Event} {process last : Process Host} {halt : Halt}
    (played : event.play process = .error halt last) (rest : List Event) :
    playAll (event :: rest) process = .error halt last := by
  rw [playAll, Run.bind_of_error played]

theorem playAll_serves (events : List Event) {process : Process Host} (tagged : process.world.Tagged) :
    ∃ last, last.world.Tagged ∧ process.world.Serves (history events process) last.world ∧
      Run.Ends (playAll events process) last := by
  induction events generalizing process with
  | nil => exact ⟨process, tagged, .done _, .inl ⟨[], rfl⟩⟩
  | cons event rest ih =>
    obtain ⟨middle, between, first, ended⟩ := event.serves tagged
    simp only [history]
    rcases ended with ⟨answer, played⟩ | ⟨error, played⟩
    next =>
      obtain ⟨last, final, second, ends⟩ := ih between
      rw [played]
      exact ⟨last, final, first.trans second, playAll_ends played ends⟩
    next =>
      rw [played, List.append_nil]
      exact ⟨middle, between, first, .inr ⟨error, playAll_of_halt played rest⟩⟩

namespace Exchange

-- Only an assignment that is asked with arguments can fail while there is an index left.
structure AssignsFresh (earlier : List (Exchange Host)) (exchange : Exchange Host)
    (later : List (Exchange Host)) : Prop where
  fresh : ∀ handle, exchange.answer = .ok handle → ∃ index : ModuleIndex, index.Fits ∧
    handle.toInt? = some (index.value : Int) ∧ exchange.after.world.highestIndex = index.value ∧
    (∀ other ∈ namedIndices earlier, other.value < index.value) ∧
    exchange.before.world.registeredModule? index = none ∧
    exchange.after.world.registeredModule? index = none
  exhausted : exchange.args = [] → ((∃ error, exchange.answer = .error error) ↔
    ∃ top ∈ namedIndices earlier, top.value = Handle.intMax.toNat)
  lasting : exchange.args = [] → ∀ error, exchange.answer = .error error →
    error = .indexSpaceExhausted ∧ exchange.after.world = exchange.before.world ∧
      ∀ other ∈ later, other.op = .assignModuleIndex → ∃ error, other.answer = .error error

end Exchange

namespace Host

variable {host after last : Host} {named : List ModuleIndex} {earlier later : List (Exchange Host)}
  {exchange : Exchange Host}

theorem Numbered.unregistered (numbered : host.Numbered named) {index : ModuleIndex}
    (above : host.highestIndex < index.value) : host.registeredModule? index = none := by
  cases found : host.registeredModule? index with
  | none => rfl
  | some module =>
    have := numbered.registered index module found
    omega

theorem Numbered.exhausted_iff (numbered : host.Numbered named) :
    ¬ host.upperIndex.Fits ↔ ∃ top ∈ named, top.value = Handle.intMax.toNat := by
  have bounded := numbered.bounded
  have wide : ¬ host.upperIndex.Fits ↔ host.highestIndex = Handle.intMax.toNat := by
    change ¬ host.highestIndex + 1 ≤ Handle.intMax.toNat ↔ _
    omega
  rw [wide]
  constructor
  next =>
    intro highest
    rcases numbered.attained with zero | ⟨top, member, same⟩
    next =>
      rw [zero] at highest
      exact absurd highest (by decide)
    next => exact ⟨top, member, same.trans highest⟩
  next =>
    rintro ⟨top, member, same⟩
    have := numbered.above top member
    omega

theorem Numbers.fails_of_wide {question : Question} (numbers : host.Numbers question after)
    (wide : ¬ host.upperIndex.Fits) (assigns : question.op = .assignModuleIndex) :
    ∃ error, question.answer = .error error := by
  cases numbers with
  | spared unnamed unassigned same => exact (unassigned assigns).2
  | named other names highest entries => exact absurd assigns other
  | assigned fits read => exact absurd fits wide
  | exhausted wide => exact ⟨_, rfl⟩

theorem Numbered.fails_later (numbered : host.Numbered named) (wide : ¬ host.upperIndex.Fits)
    (serves : host.Serves later last) : ∀ other ∈ later, other.op = .assignModuleIndex →
      ∃ error, other.answer = .error error := by
  intro other member assigns
  obtain ⟨first, rest, rfl⟩ := List.append_of_mem member
  obtain ⟨before, -, numbers, -⟩ := serves.split
  have mark := (numbered.serves before).2
  refine numbers.fails_of_wide (fun fits => wide ?_) assigns
  change other.before.world.highestIndex + 1 ≤ Handle.intMax.toNat at fits
  change host.highestIndex + 1 ≤ Handle.intMax.toNat
  omega

theorem Numbered.assignsFresh (numbered : host.Numbered [])
    (serves : host.Serves (earlier ++ exchange :: later) last)
    (assigns : exchange.op = .assignModuleIndex) : exchange.AssignsFresh earlier later := by
  obtain ⟨first, -, numbers, rest⟩ := serves.split
  obtain ⟨known, -⟩ := numbered.serves first
  rw [List.nil_append] at known
  obtain ⟨⟨op, args, answer⟩, before, after⟩ := exchange
  cases assigns
  generalize reached : after.world = next at numbers
  cases numbers with
  | spared unnamed unassigned same =>
    obtain ⟨bare, error, failed⟩ := unassigned rfl
    cases failed
    constructor
    next => rintro handle ⟨⟩
    next => exact fun none => absurd none bare
    next => exact fun none => absurd none bare
  | named other names highest entries => exact absurd rfl other
  | @assigned handle fits read =>
    have above : before.world.highestIndex < before.world.upperIndex.value := Nat.lt_succ_self _
    constructor
    next =>
      rintro _ ⟨⟩
      refine ⟨before.world.upperIndex, fits, ModuleIndex.ofHandle?_eq_some_iff.1 read, ?_, ?_,
        known.unregistered above, ?_⟩
      next => rw [reached]
      next => exact fun other member => Nat.lt_succ_of_le (known.above other member)
      next =>
        rw [reached]
        exact known.unregistered above
    next =>
      rintro -
      rw [← known.exhausted_iff]
      simpa using fits
    next => rintro - error ⟨⟩
  | exhausted wide =>
    constructor
    next => rintro handle ⟨⟩
    next => exact fun _ => iff_of_true ⟨_, rfl⟩ (known.exhausted_iff.1 wide)
    next =>
      rintro - _ ⟨⟩
      rw [reached] at rest
      exact ⟨rfl, reached, known.fails_later wide rest⟩

end Host

-- Every index given out is above all that were given out, named or registered before it.
theorem assigned_indices_are_fresh (explicitAttach : Bool) (process : Process Host)
    (events : List Event) :
    let start : Process Host := { process with world := .new explicitAttach }
    ∃ last : Process Host,
      ((∃ answers, playAll events start = .ok answers last) ∨
        ∃ error, playAll events start = .error (.fatal error) last) ∧
      (∀ earlier exchange later, history events start = earlier ++ exchange :: later →
        exchange.Served ∧
          (exchange.op = .assignModuleIndex → exchange.AssignsFresh earlier later)) ∧
      (∀ host ∈ visited (history events start) last.world, host.WithinMark) ∧
      (visited (history events start) last.world).Pairwise fun before after =>
        before.highestIndex ≤ after.highestIndex := by
  intro start
  have fresh := Host.new_numbered explicitAttach
  have tagged : start.world.Tagged := Host.new_tagged explicitAttach
  obtain ⟨last, -, serves, ends⟩ := playAll_serves events tagged
  obtain ⟨within, ordered⟩ := fresh.visited serves
  refine ⟨last, ends, ?_, fun host member => (within host member).1, ordered⟩
  intro earlier exchange later split
  rw [split] at serves
  exact ⟨serves.split.2.1, fresh.assignsFresh serves⟩

-- A lookup of the highest index that a handle can carry leaves none to give out.
example : ((history [.direct ⟨0⟩ (.invoke .assignModuleIndex []),
    .direct ⟨1⟩ (.invoke .findModuleByIndex [⟨0x017FFFFFFFFFFFFF⟩]),
    .direct ⟨0⟩ (.invoke .assignModuleIndex [])] (.start (.new false))).map fun exchange =>
      exchange.answer) =
    [.ok ⟨0x0100000000000001⟩, .ok .null, .error .indexSpaceExhausted] := by
  decide +kernel

end StateBridge
