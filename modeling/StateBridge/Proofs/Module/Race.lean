import StateBridge.Proofs.Module.Callers
import StateBridge.Proofs.Process.Reentry

set_option autoImplicit false

namespace StateBridge

namespace Race

variable {race next : Race} {turn : Turn} {position : Nat} {index : ModuleIndex}

def Agrees (race : Race) : Prop :=
  ∀ caller ∈ race.callers, caller.Knows race.definition race.contested.index?

inductive Moves (race : Race) : Turn → Race → Prop
  | enter (thread : ThreadId) (request : IndexRequest) :
    race.Moves (.enter thread request)
      { race with callers := race.callers ++ [.start race.definition thread request] }
  | absent (position : Nat) (missing : race.callers[position]? = none) :
    race.Moves (.caller position) race
  | caller (position : Nat) (before after : Caller) (shared : Shared Host)
      (here : race.callers[position]? = some before)
      (moved : before.Moved race.definition after race.shared shared) :
    race.Moves (.caller position) { race with shared, callers := race.callers.set position after }
  | elsewhere (shared : Shared Host) :
    race.Moves (.elsewhere shared)
      { race with shared := shared.storeDefinition race.definition race.contested }

theorem Agrees.step (agrees : race.Agrees) (turn : Turn) :
    ∃ next, race.step turn = .ok next ∧ race.Moves turn next := by
  cases turn with
  | enter thread request => exact ⟨_, rfl, .enter thread request⟩
  | elsewhere shared => exact ⟨_, rfl, .elsewhere shared⟩
  | caller position =>
    cases here : race.callers[position]? with
    | none => exact ⟨race, by simp only [Race.step, here], .absent position here⟩
    | some caller =>
      have knows := agrees caller (List.mem_of_getElem? here)
      obtain ⟨after, shared, advanced, moved⟩ := Caller.Knows.advance knows
      exact ⟨_, step_of_advance here advanced, .caller position caller after shared here moved⟩

theorem Moves.definition (moves : race.Moves turn next) : next.definition = race.definition := by
  cases moves <;> rfl

theorem Moves.kept (moves : race.Moves turn next) (present : race.contested.index? = some index) :
    next.contested = race.contested := by
  cases moves with
  | enter | absent => rfl
  | caller position before after shared here moved => exact moved.kept index present
  | elsewhere shared => exact Function.update_self ..

theorem Agrees.moves (agrees : race.Agrees) (moves : race.Moves turn next) : next.Agrees := by
  have kept : ∀ index, race.contested.index? = some index → next.contested.index? = some index := by
    intro index present
    rw [moves.kept present, present]
  intro caller member
  rw [moves.definition]
  cases moves with
  | enter thread request =>
    rcases List.mem_append.1 member with old | new
    next => exact agrees caller old
    next =>
      cases List.mem_singleton.1 new
      exact .start race.definition _ thread request
  | absent position missing => exact agrees caller member
  | elsewhere shared => exact (agrees caller member).mono kept
  | caller position before after shared here moved =>
    rcases List.mem_or_eq_of_mem_set member with old | rfl
    next => exact (agrees caller old).mono kept
    next => exact moved.knows

theorem Moves.others (moves : race.Moves (.caller position) next)
    (indexed : ∀ other, race.contested.index? = some other → other = index) {other : ModuleIndex}
    (differ : other ≠ index) :
    next.shared.world.registeredModule? other = race.shared.world.registeredModule? other := by
  cases moves with
  | absent position missing => rfl
  | caller position before after shared here moved =>
    rcases moved.did with quiet | ⟨named, present, registers⟩
    next => exact congrArg (fun modules : ModuleRegistry => modules.find? other) quiet.modules
    next =>
      rw [indexed named present] at registers
      exact registers.others other differ

theorem Agrees.run (agrees : race.Agrees) (turns : List Turn) :
    ∃ last, race.run turns = .ok last ∧ last.Agrees ∧ last.definition = race.definition ∧
      ∀ index, race.contested.index? = some index → last.contested = race.contested := by
  induction turns generalizing race with
  | nil => exact ⟨race, rfl, agrees, rfl, fun _ _ => rfl⟩
  | cons turn rest ih =>
    obtain ⟨next, stepped, moves⟩ := agrees.step turn
    obtain ⟨last, ran, agreed, same, kept⟩ := ih (agrees.moves moves)
    refine ⟨last, ?_, agreed, same.trans moves.definition, ?_⟩
    next =>
      rw [Race.run, stepped]
      exact ran
    next =>
      intro index present
      have same := moves.kept present
      rw [kept index (same ▸ present), same]

theorem Agrees.moment (agrees : race.Agrees) (turns : List Turn)
    (unassigned : race.contested.index? = none) :
    ∃ moment index, ∀ count, count ≤ turns.length → ∃ middle,
      race.run (turns.take count) = .ok middle ∧ middle.Agrees ∧ middle.definition = race.definition ∧
      middle.contested.index? = if count < moment then none else some index := by
  -- The moment is the first turn that leaves an index behind. From there on the index stays.
  induction turns generalizing race with
  | nil =>
    refine ⟨1, ⟨1, Nat.one_pos⟩, ?_⟩
    intro count bounded
    cases Nat.le_zero.1 bounded
    exact ⟨race, rfl, agrees, rfl, unassigned⟩
  | cons turn rest ih =>
    obtain ⟨next, stepped, moves⟩ := agrees.step turn
    have agreed := agrees.moves moves
    have later (count : Nat) : race.run ((turn :: rest).take (count + 1)) = next.run (rest.take count) := by
      rw [List.take_succ_cons, Race.run, stepped]
      rfl
    cases assigned : next.contested.index? with
    | none =>
      obtain ⟨moment, index, history⟩ := ih agreed assigned
      refine ⟨moment + 1, index, ?_⟩
      intro count bounded
      cases count with
      | zero => exact ⟨race, rfl, agrees, rfl, by rw [unassigned, if_pos (Nat.succ_pos _)]⟩
      | succ count =>
        rw [later]
        obtain ⟨middle, ran, agreed, same, index?⟩ := history count (Nat.le_of_succ_le_succ bounded)
        refine ⟨middle, ran, agreed, same.trans moves.definition, ?_⟩
        simpa only [Nat.add_lt_add_iff_right] using index?
    | some index =>
      refine ⟨1, index, ?_⟩
      intro count bounded
      cases count with
      | zero => exact ⟨race, rfl, agrees, rfl, by rw [unassigned, if_pos Nat.one_pos]⟩
      | succ count =>
        obtain ⟨last, ran, agreed, same, kept⟩ := agreed.run (rest.take count)
        refine ⟨last, (later count).trans ran, agreed, same.trans moves.definition, ?_⟩
        rw [kept index assigned, assigned, if_neg (by omega)]

def Decided (race : Race) (module : ModuleHandle) (index : ModuleIndex) : Prop :=
  race.shared.world.registeredModule? index = some module ∧
  ∃ (winner : Nat) (caller : Caller), race.callers[winner]? = some caller ∧ caller.Reached ∧
    caller.dialogue.Answers (.status (.ok ())) ∧
    ∀ (position : Nat) (other : Caller), race.callers[position]? = some other →
      position ≠ winner → other.Reached →
      other.dialogue.Answers (.status (.error (.moduleAlreadyAdded index)))

structure Contest (module : ModuleHandle) (index : ModuleIndex) (race : Race) : Prop where
  live : race.shared.world.liveModule? module.handle = some module
  only : ∀ caller ∈ race.callers, ∀ other, caller.request = .add other → other = module
  standing : (race.shared.world.registeredModule? index = none ∧
    ∀ caller ∈ race.callers, ¬ caller.Reached) ∨ race.Decided module index

namespace Contest

variable {module : ModuleHandle} {before after : Caller} {shared : Shared Host}

theorem only_set (contest : race.Contest module index) (here : race.callers[position]? = some before)
    (request : after.request = before.request) : ∀ caller ∈ race.callers.set position after,
      ∀ other, caller.request = .add other → other = module := by
  intro caller present
  rcases List.mem_or_eq_of_mem_set present with old | rfl
  next => exact contest.only caller old
  next => exact request ▸ contest.only before (List.mem_of_getElem? here)

theorem quiet (contest : race.Contest module index) (here : race.callers[position]? = some before)
    (quiet : before.Quiet after race.shared shared) :
    { race with shared, callers := race.callers.set position after }.Contest module index := by
  have same : shared.world.registeredModule? index = race.shared.world.registeredModule? index :=
    congrArg (fun modules : ModuleRegistry => modules.find? index) quiet.modules
  refine ⟨(Host.liveModule?_congr quiet.objects _).trans contest.live,
    contest.only_set here quiet.request, ?_⟩
  rcases contest.standing with ⟨free, unreached⟩ | ⟨entry, winner, caller, found, reached, answers, rest⟩
  next =>
    refine .inl ⟨same.trans free, ?_⟩
    intro caller present
    rcases List.mem_or_eq_of_mem_set present with old | rfl
    next => exact unreached caller old
    next =>
      have yet := unreached before (List.mem_of_getElem? here)
      exact fun further => yet (quiet.reached.1 further)
  next =>
    refine .inr ⟨same.trans entry, winner, ?_⟩
    have others : ∀ place other, (race.callers.set position after)[place]? = some other →
        place ≠ winner → other.Reached →
        other.dialogue.Answers (.status (.error (.moduleAlreadyAdded index))) := by
      intro place other there differ further
      rcases getElem?_set_cases there with ⟨rfl, rfl⟩ | ⟨_, old⟩
      next => exact quiet.answers _ (rest _ before here differ (quiet.reached.1 further))
      next => exact rest place other old differ further
    by_cases won : winner = position
    next =>
      subst won
      cases found.symm.trans here
      exact ⟨after, getElem?_set_caller here after, quiet.reached.2 reached, quiet.answers _ answers,
        others⟩
    next =>
      exact ⟨caller, (List.getElem?_set_ne (Ne.symm won)).trans found, reached, answers, others⟩

theorem registers (contest : race.Contest module index) (here : race.callers[position]? = some before)
    (registers : before.Registers index after race.shared shared) :
    { race with shared, callers := race.callers.set position after }.Contest module index := by
  obtain ⟨added, requested, placed⟩ := registers.placed
  cases contest.only before (List.mem_of_getElem? here) added requested
  obtain ⟨entry, first, second⟩ := placed contest.live
  refine ⟨(Host.liveModule?_congr registers.objects _).trans contest.live,
    contest.only_set here registers.request, .inr ⟨entry, ?_⟩⟩
  rcases contest.standing with ⟨free, unreached⟩ | ⟨taken, winner, caller, found, reached, answers, rest⟩
  next =>
    -- The entry was free, so this call is the one that has added the module.
    refine ⟨position, after, getElem?_set_caller here after, registers.reached, first free, ?_⟩
    intro place other there differ further
    rcases getElem?_set_cases there with ⟨same, _⟩ | ⟨_, old⟩
    next => exact absurd same differ
    next => exact absurd further (unreached other (List.mem_of_getElem? old))
  next =>
    have differ : winner ≠ position := by
      rintro rfl
      cases found.symm.trans here
      exact registers.yet reached
    refine ⟨winner, caller, (List.getElem?_set_ne differ.symm).trans found, reached, answers, ?_⟩
    intro place other there apart further
    rcases getElem?_set_cases there with ⟨_, rfl⟩ | ⟨_, old⟩
    next => exact second taken
    next => exact rest place other old apart further

theorem enter (contest : race.Contest module index) (thread : ThreadId) {request : IndexRequest}
    (only : ∀ other, request = .add other → other = module) :
    { race with callers := race.callers ++ [Caller.start race.definition thread request] }.Contest
      module index := by
  have unreached : ¬ (Caller.start race.definition thread request).Reached := by
    rintro ⟨question, asked, _⟩
    cases asked
  refine ⟨contest.live, ?_, ?_⟩
  next =>
    intro caller member
    rcases List.mem_append.1 member with old | new
    next => exact contest.only caller old
    next =>
      cases List.mem_singleton.1 new
      exact only
  next =>
    rcases contest.standing with ⟨free, yet⟩ | ⟨entry, winner, caller, found, reached, answers, rest⟩
    next =>
      refine .inl ⟨free, ?_⟩
      intro caller member
      rcases List.mem_append.1 member with old | new
      next => exact yet caller old
      next =>
        cases List.mem_singleton.1 new
        exact unreached
    next =>
      have within := (List.getElem?_eq_some_iff.1 found).1
      refine .inr ⟨entry, winner, caller, (List.getElem?_append_left within).trans found, reached,
        answers, ?_⟩
      intro place other there differ further
      rcases getElem?_append_cases there with old | rfl
      next => exact rest place other old differ further
      next => exact absurd further unreached

theorem moves (contest : race.Contest module index) (moves : race.Moves turn next)
    (indexed : ∀ other, race.contested.index? = some other → other = index)
    (only : ∀ thread other, turn = .enter thread (.add other) → other = module)
    (undisturbed : ∀ shared, turn = .elsewhere shared →
      shared.world.liveModule? module.handle = some module ∧
      shared.world.registeredModule? index = race.shared.world.registeredModule? index) :
    next.Contest module index := by
  cases moves with
  | enter thread request =>
    refine contest.enter thread ?_
    rintro other rfl
    exact only thread other rfl
  | absent position missing => exact contest
  | elsewhere shared =>
    obtain ⟨live, same⟩ := undisturbed shared rfl
    refine ⟨live, contest.only, ?_⟩
    rcases contest.standing with ⟨free, unreached⟩ | ⟨entry, rest⟩
    next => exact .inl ⟨same.trans free, unreached⟩
    next => exact .inr ⟨same.trans entry, rest⟩
  | caller position before after shared here moved =>
    rcases moved.did with quiet | ⟨named, present, registers⟩
    next => exact contest.quiet here quiet
    next =>
      rw [indexed named present] at registers
      exact contest.registers here registers

end Contest

structure Undisturbed (race : Race) (turns : List Turn) (module : ModuleHandle)
    (index : ModuleIndex) : Prop where
  live : race.shared.world.liveModule? module.handle = some module
  free : race.shared.world.registeredModule? index = none
  elsewhere : ∀ count shared before, turns[count]? = some (.elsewhere shared) →
    race.run (turns.take count) = .ok before →
    shared.world.liveModule? module.handle = some module ∧
      shared.world.registeredModule? index = before.shared.world.registeredModule? index

theorem Undisturbed.contest {turns : List Turn} {module : ModuleHandle}
    (undisturbed : race.Undisturbed turns module index) (agrees : race.Agrees)
    (only : ∀ thread other, .enter thread (.add other) ∈ turns → other = module)
    (none : race.callers = [])
    (indexed : ∀ count middle, count ≤ turns.length → race.run (turns.take count) = .ok middle →
      ∀ other, middle.contested.index? = some other → other = index)
    {count : Nat} (bounded : count ≤ turns.length) {middle : Race}
    (ran : race.run (turns.take count) = .ok middle) : middle.Contest module index := by
  induction count generalizing middle with
  | zero =>
    cases ran
    refine ⟨undisturbed.live, ?_, .inl ⟨undisturbed.free, ?_⟩⟩ <;> simp [none]
  | succ count ih =>
    obtain ⟨before, earlier, agreed, _⟩ := agrees.run (turns.take count)
    obtain ⟨turn, there⟩ : ∃ turn, turns[count]? = some turn :=
      ⟨_, List.getElem?_eq_getElem (Nat.lt_of_succ_le bounded)⟩
    obtain ⟨after, stepped, moves⟩ := agreed.step turn
    rw [run_take_succ earlier there, stepped] at ran
    cases ran
    have within := Nat.le_of_succ_le bounded
    refine (ih within earlier).moves moves (indexed count before within earlier) ?_ ?_
    next =>
      rintro thread other rfl
      exact only thread other (List.mem_of_getElem? there)
    next =>
      rintro shared rfl
      exact undisturbed.elsewhere count shared before there earlier

theorem start_agrees (definition : DefinitionId) (shared : Shared Host) :
    (start definition shared).Agrees := by
  intro caller member
  cases member

theorem reentrant_call_returns (definition : DefinitionId) (before after : Callbacks) (depth : Nat)
    (bridge : BridgeId) (thread : ThreadId) (request : IndexRequest) (process : Process Host) :
    ∃ reply final turns last, (request.toModule definition).play
        (reentrantGate definition before after depth) bridge thread process = .ok reply final ∧
      (start definition process.shared).run turns = .ok last ∧ last.shared = final.shared ∧
      (∃ caller ∈ last.callers, caller.dialogue = .done reply) ∧
      (∀ turn ∈ turns,
        turn.Only fun other => other = request ∨ before.Makes other ∨ after.Makes other) ∧
      ∀ told, reply.Mentions told → (final.definition definition).index? = some told := by
  have agrees := start_agrees definition process.shared
  let only (other : IndexRequest) : Prop := other = request ∨ before.Makes other ∨ after.Makes other
  have interleaves : Interleaves definition only (reentrantGate definition before after depth) :=
    interleaves_reentrantGate definition (fun _ made => .inr (.inl made))
      (fun _ made => .inr (.inr made)) depth
  have reaches := interleaves.play bridge thread (show only request from .inl rfl)
    (show (start definition process.shared).definition = definition from rfl) rfl
  cases played : (request.toModule definition).play (reentrantGate definition before after depth)
      bridge thread process with
  | ok reply final =>
    rw [played] at reaches
    obtain ⟨last, leads, shared, finished, member, ended⟩ := reaches
    obtain ⟨turns, ran, these⟩ := leads.turns
    refine ⟨reply, final, turns, last, rfl, ran, shared, ⟨finished, member, ended⟩, these, ?_⟩
    intro told mentions
    obtain ⟨same, reran, agreed, _⟩ := agrees.run turns
    cases reran.symm.trans ran
    have knows := (agreed finished member).obtains (.inl ⟨reply, by rw [ended]; rfl, mentions⟩)
    rw [contested, leads.definition, shared] at knows
    exact knows
  | error halt final =>
    rw [played] at reaches
    obtain ⟨turns, failed⟩ := reaches
    obtain ⟨last, ran, _⟩ := agrees.run turns
    cases ran.symm.trans failed

theorem turns_share_index (definition : DefinitionId) (shared : Shared Host) (turns : List Turn)
    (unassigned : (shared.definition definition).rawIndex = 0) :
    ∃ moment index, ∀ count, count ≤ turns.length → ∃ race,
      (start definition shared).run (turns.take count) = .ok race ∧
      (race.shared.definition definition).rawIndex = (if count < moment then 0 else index.value) ∧
      (∀ caller ∈ race.callers, ∀ told, caller.Obtains told → told = index) ∧
      (∀ position next, race.step (.caller position) = .ok next → ∀ other, other ≠ index →
        next.shared.world.registeredModule? other = race.shared.world.registeredModule? other) ∧
      ∀ module, (∀ thread other, .enter thread (.add other) ∈ turns → other = module) →
        (start definition shared).Undisturbed turns module index →
        (∃ caller ∈ race.callers, caller.Reached) → race.Decided module index := by
  have agrees := start_agrees definition shared
  obtain ⟨moment, index, history⟩ :=
    agrees.moment turns (ModuleDefinition.index?_eq_none_iff.2 unassigned)
  have indexed : ∀ count race, count ≤ turns.length →
      (start definition shared).run (turns.take count) = .ok race →
      ∀ other, race.contested.index? = some other → other = index := by
    intro count race bounded ran other present
    obtain ⟨middle, same, _, _, index?⟩ := history count bounded
    cases same.symm.trans ran
    rw [present] at index?
    split at index? <;> cases index?
    rfl
  refine ⟨moment, index, ?_⟩
  intro count bounded
  obtain ⟨race, ran, agreed, same, index?⟩ := history count bounded
  refine ⟨race, ran, ?_, ?_, ?_, ?_⟩
  next =>
    change race.definition = definition at same
    rw [contested, same] at index?
    split at index?
    next => rw [if_pos ‹_›, ModuleDefinition.index?_eq_none_iff.1 index?]
    next => rw [if_neg ‹_›, ModuleDefinition.index?_eq_some_iff.1 index?]
  next =>
    intro caller member told obtained
    exact indexed count race bounded ran told ((agreed caller member).obtains obtained)
  next =>
    intro position next stepped other differ
    obtain ⟨after, same, moves⟩ := agreed.step (.caller position)
    cases same.symm.trans stepped
    exact moves.others (indexed count race bounded ran) differ
  next =>
    intro module only undisturbed reached
    have contest := undisturbed.contest agrees only rfl indexed bounded ran
    obtain ⟨caller, member, came⟩ := reached
    exact contest.standing.resolve_left fun standing => standing.2 caller member came

-- A definition gets its index in one moment, and every call comes to it, nested ones at any depth included.
theorem shared_definition_race (definition : DefinitionId) (shared : Shared Host) (turns : List Turn)
    (unassigned : (shared.definition definition).rawIndex = 0) :
    (∃ moment index, ∀ count, count ≤ turns.length → ∃ race,
      (start definition shared).run (turns.take count) = .ok race ∧
      (race.shared.definition definition).rawIndex = (if count < moment then 0 else index.value) ∧
      (∀ caller ∈ race.callers, ∀ told, caller.Obtains told → told = index) ∧
      (∀ position next, race.step (.caller position) = .ok next → ∀ other, other ≠ index →
        next.shared.world.registeredModule? other = race.shared.world.registeredModule? other) ∧
      ∀ module, (∀ thread other, .enter thread (.add other) ∈ turns → other = module) →
        (start definition shared).Undisturbed turns module index →
        (∃ caller ∈ race.callers, caller.Reached) → race.Decided module index) ∧
    ∀ (before after : Callbacks) (depth : Nat) (bridge : BridgeId) (thread : ThreadId)
      (request : IndexRequest) (process : Process Host), process.shared = shared →
      ∃ reply final nested last, (request.toModule definition).play
          (reentrantGate definition before after depth) bridge thread process = .ok reply final ∧
        (start definition shared).run nested = .ok last ∧ last.shared = final.shared ∧
        (∃ caller ∈ last.callers, caller.dialogue = .done reply) ∧
        (∀ turn ∈ nested,
          turn.Only fun other => other = request ∨ before.Makes other ∨ after.Makes other) ∧
        ∀ told, reply.Mentions told → (final.definition definition).index? = some told := by
  refine ⟨turns_share_index definition shared turns unassigned, ?_⟩
  rintro before after depth bridge thread request process rfl
  exact reentrant_call_returns definition before after depth bridge thread request process

-- By turns, the caller that was answered 1 comes second; by nesting, the inner call takes 1 from the outer.
theorem shared_definition_race_lost_claim :
    let module : ModuleHandle := ⟨⟨0x0400010000000000⟩, by decide⟩
    let world : Host := ((Host.new false).newModule "m").toOption.elim (.new false) Prod.snd
    let shared : Shared Host := ⟨world, fun _ => .fresh⟩
    let turns : List Turn :=
      [.enter ⟨0⟩ (.add module), .enter ⟨1⟩ (.add module), .caller 0, .caller 0, .caller 0, .caller 1,
        .caller 1, .caller 1, .caller 1, .caller 0, .enter ⟨0⟩ .init, .caller 0, .caller 1, .caller 2]
    let before : Callbacks := fun _ _ op _ _ =>
      if op = .assignModuleIndex then [⟨⟨1⟩, ⟨1⟩, .init⟩] else []
    let process : Process Host := .start world
    (shared.definition ⟨0⟩).rawIndex = 0 ∧ process.shared = shared ∧
      (∃ race, (start ⟨0⟩ shared).run turns = .ok race ∧
        (race.shared.definition ⟨0⟩).rawIndex = 2 ∧ race.Decided module ⟨2, Nat.two_pos⟩) ∧
      ∃ reply final nested last, ((IndexRequest.add module).toModule ⟨0⟩).play
          (reentrantGate ⟨0⟩ before (fun _ _ _ _ _ => []) 1) ⟨0⟩ ⟨0⟩ process = .ok reply final ∧
        (start ⟨0⟩ shared).run nested = .ok last ∧ last.shared = final.shared ∧
        (final.definition ⟨0⟩).rawIndex = 1 ∧
        final.world.registeredModule? ⟨1, Nat.one_pos⟩ = some module ∧
        final.world.highestIndex = 2 := by
  intro module world shared turns before process
  obtain ⟨⟨moment, index, history⟩, nests⟩ := shared_definition_race ⟨0⟩ shared turns rfl
  obtain ⟨race, ran, raw, _, _, decided⟩ := history turns.length (Nat.le_refl _)
  rw [List.take_length] at ran
  have evaluated : ((start ⟨0⟩ shared).run turns).toOption.map (fun race =>
      ((race.shared.definition ⟨0⟩).rawIndex, race.callers.map fun caller => caller.asked.map Question.op)) =
      some (2, [[.assignModuleIndex, .addModuleByIndex], [.assignModuleIndex, .addModuleByIndex], []]) := by
    decide +kernel
  rw [ran] at evaluated
  obtain ⟨second, asked⟩ := Prod.mk.inj (Option.some.inj evaluated)
  have named : index = ⟨2, Nat.two_pos⟩ := by
    rw [second] at raw
    split at raw
    next => cases raw
    next => exact ModuleIndex.mk.injEq .. ▸ raw.symm
  have undisturbed : (start ⟨0⟩ shared).Undisturbed turns module index := by
    refine ⟨by decide +kernel, rfl, ?_⟩
    intro count other before there
    simpa [turns] using List.mem_of_getElem? there
  have reached : ∃ caller ∈ race.callers, caller.Reached := by
    have member : [.assignModuleIndex, .addModuleByIndex] ∈
        race.callers.map fun caller => caller.asked.map Question.op := by simp [asked]
    obtain ⟨caller, present, ops⟩ := List.mem_map.1 member
    have added : .addModuleByIndex ∈ caller.asked.map Question.op := by simp [ops]
    obtain ⟨question, made, op⟩ := List.mem_map.1 added
    exact ⟨caller, present, question, made, op⟩
  have only : ∀ thread other, .enter thread (.add other) ∈ turns → other = module := by
    intro thread other entered
    have both : thread = ⟨0⟩ ∧ other = module ∨ thread = ⟨1⟩ ∧ other = module := by
      simpa [turns] using entered
    exact both.elim And.right And.right
  have computed : (Process.outcome (((IndexRequest.add module).toModule ⟨0⟩).play
      (reentrantGate ⟨0⟩ before (fun _ _ _ _ _ => []) 1) ⟨0⟩ ⟨0⟩ process)).map (fun (_, shared) =>
        ((shared.definition ⟨0⟩).rawIndex, shared.world.registeredModule? ⟨1, Nat.one_pos⟩,
          shared.world.highestIndex)) = .ok (1, some module, 2) := by
    decide +kernel
  obtain ⟨reply, final, nested, last, played, nests, same, -⟩ :=
    nests before (fun _ _ _ _ _ => []) 1 ⟨0⟩ ⟨0⟩ (.add module) process rfl
  rw [played] at computed
  obtain ⟨first, rest⟩ := Prod.mk.inj (Except.ok.inj computed)
  obtain ⟨entry, highest⟩ := Prod.mk.inj rest
  exact ⟨rfl, rfl, ⟨race, ran, second, named ▸ decided module only undisturbed reached⟩,
    reply, final, nested, last, played, nests, same, first, entry, highest⟩

end Race

end StateBridge
