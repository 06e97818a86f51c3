import StateBridge.Proofs.Process.Race

set_option autoImplicit false

namespace StateBridge

def IndexRequest.toModule (definition : DefinitionId) : IndexRequest → ModuleRequest
  | .init => .init definition
  | .add module => .add module definition

structure Callback where
  bridge : BridgeId
  thread : ThreadId
  request : IndexRequest

abbrev Callbacks := RuntimeId → ThreadId → UpcallOp → List Handle → Process Host → List Callback

def Callbacks.Makes (callbacks : Callbacks) (request : IndexRequest) : Prop :=
  ∃ id thread op args process, ∃ callback ∈ callbacks id thread op args process,
    callback.request = request

def Turn.Only (only : IndexRequest → Prop) : Turn → Prop
  | .enter _ request => only request
  | .caller _ => True
  | .elsewhere _ => False

section

variable (definition : DefinitionId)

def playCallbacks (gate : Gate Host) : List Callback → Run Host Unit
  | [] => return ()
  | callback :: rest => do
    let _ ← (callback.request.toModule definition).play gate callback.bridge callback.thread
    playCallbacks gate rest

/-- Forwards upcalls to the host, and calls back before and after that, up to a depth. -/
def reentrantGate (before after : Callbacks) : Nat → Gate Host
  | 0 => Host.runtime.gate
  | depth + 1 => fun id thread op args => do
    let inner := reentrantGate before after depth
    playCallbacks definition inner (before id thread op args (← get))
    let answer ← Host.runtime.gate id thread op args
    playCallbacks definition inner (after id thread op args (← get))
    return answer

end

theorem IndexRequest.play_toModule (request : IndexRequest) (definition : DefinitionId)
    (gate : Gate Host) (bridge : BridgeId) (thread : ThreadId) (process : Process Host) :
    (request.toModule definition).play gate bridge thread process =
      Process.perform gate bridge (process.bridge bridge) thread (request.dialogue definition)
        process := by
  cases request with
  | init =>
    rw [IndexRequest.dialogue, Process.perform_map]
    rfl
  | add module =>
    rw [IndexRequest.dialogue, Process.perform_map]
    rfl

namespace Race

structure Leads (only : IndexRequest → Prop) (spared : Nat → Prop) (race last : Race) : Prop where
  turns : ∃ turns, race.run turns = .ok last ∧ ∀ turn ∈ turns, turn.Only only
  definition : last.definition = race.definition
  kept : ∀ position caller, spared position → race.callers[position]? = some caller →
    last.callers[position]? = some caller

def Reaches {α : Type} (race : Race) (only : IndexRequest → Prop) (spared : Nat → Prop)
    (finish : α → Race → Prop) : Except Halt (α × Shared Host) → Prop
  | .ok (result, shared) =>
    ∃ last, race.Leads only spared last ∧ last.shared = shared ∧ finish result last
  | .error halt => ∃ turns, race.run turns = .error halt

section

variable {α β : Type} {race middle last : Race} {only : IndexRequest → Prop} {spared fewer : Nat → Prop}
  {finish : α → Race → Prop} {outcome : Except Halt (α × Shared Host)}

theorem Leads.refl (race : Race) : race.Leads only spared race :=
  ⟨⟨[], rfl, by simp⟩, rfl, fun _ _ _ here => here⟩

theorem Leads.trans (first : race.Leads only spared middle) (second : middle.Leads only spared last) :
    race.Leads only spared last := by
  obtain ⟨turns, ran, these⟩ := first.turns
  obtain ⟨more, further, those⟩ := second.turns
  refine ⟨⟨turns ++ more, ?_, List.forall_mem_append.2 ⟨these, those⟩⟩,
    second.definition.trans first.definition, ?_⟩
  next =>
    rw [run_append, ran]
    exact further
  next =>
    intro position caller spares here
    exact second.kept position caller spares (first.kept position caller spares here)

theorem Leads.mono (leads : race.Leads only spared last)
    (fewer_spared : ∀ position caller, race.callers[position]? = some caller → fewer position →
      spared position) : race.Leads only fewer last :=
  ⟨leads.turns, leads.definition, fun position caller spares here =>
    leads.kept position caller (fewer_spared position caller here spares) here⟩

theorem Leads.of_advance {position : Nat} {caller after : Caller} {shared : Shared Host}
    (here : race.callers[position]? = some caller)
    (advanced : caller.advance race.shared = .ok (after, shared)) :
    race.Leads only (· ≠ position) { race with shared, callers := race.callers.set position after } := by
  refine ⟨⟨[.caller position], ?_, by simp [Turn.Only]⟩, rfl, ?_⟩
  next =>
    rw [run, step_of_advance here advanced]
    rfl
  next =>
    intro other found differ there
    exact (List.getElem?_set_ne (Ne.symm differ)).trans there

theorem Reaches.after (leads : race.Leads only spared middle)
    (reaches : middle.Reaches only spared finish outcome) : race.Reaches only spared finish outcome := by
  cases outcome with
  | ok result =>
    obtain ⟨last, further, rest⟩ := reaches
    exact ⟨last, leads.trans further, rest⟩
  | error halt =>
    obtain ⟨turns, ran, -⟩ := leads.turns
    obtain ⟨more, further⟩ := reaches
    refine ⟨turns ++ more, ?_⟩
    rw [run_append, ran]
    exact further

theorem Reaches.mono (reaches : race.Reaches only spared finish outcome)
    (fewer_spared : ∀ position caller, race.callers[position]? = some caller → fewer position →
      spared position) {finish' : α → Race → Prop}
    (weaker : ∀ result last, race.Leads only spared last → finish result last → finish' result last) :
    race.Reaches only fewer finish' outcome := by
  cases outcome with
  | ok result =>
    obtain ⟨last, leads, shared, finished⟩ := reaches
    exact ⟨last, leads.mono fewer_spared, shared, weaker _ _ leads finished⟩
  | error halt => exact reaches

theorem Reaches.bind {first : Run Host α} {next : α → Run Host β} {process : Process Host}
    {finish' : β → Race → Prop}
    (reaches : race.Reaches only spared finish (Process.outcome (first process)))
    (rest : ∀ result middle between, race.Leads only spared middle →
      middle.shared = between.shared → finish result middle →
      middle.Reaches only spared finish' (Process.outcome (next result between))) :
    race.Reaches only spared finish' (Process.outcome ((first >>= next) process)) := by
  rw [Process.outcome_bind]
  cases ran : first process with
  | ok result between =>
    rw [ran] at reaches
    obtain ⟨middle, leads, shared, finished⟩ := reaches
    exact (rest result middle between leads shared finished).after leads
  | error halt between =>
    rw [ran] at reaches
    exact reaches

end

/-- A gate makes no more of an upcall than turns of a race, in which the caller gets its answer. -/
def Interleaves (definition : DefinitionId) (only : IndexRequest → Prop) (gate : Gate Host) : Prop :=
  ∀ (race : Race) (position : Nat) (caller : Caller) (op : UpcallOp) (args : List Handle)
    (next : Except UpcallError Handle → Dialogue ModuleReply) (id : RuntimeId)
    (process : Process Host), race.definition = definition → race.shared = process.shared →
    race.callers[position]? = some caller → caller.dialogue = .ask op args next →
    race.Reaches only (· ≠ position) (fun answer last => last.callers[position]? = some
      { caller with dialogue := next answer, asked := caller.asked ++ [⟨op, args, answer⟩] })
      (Process.outcome (gate id caller.thread op args process))

section

variable {definition : DefinitionId} {gate : Gate Host} {only : IndexRequest → Prop}

theorem interleaves_runtime (definition : DefinitionId) (only : IndexRequest → Prop) :
    Interleaves definition only Host.runtime.gate := by
  intro race position caller op args next id process _ same here left
  rw [Process.outcome_gate, ← same]
  cases answered : Host.runtime caller.thread op args race.shared.world with
  | ok result =>
    have leads : race.Leads only _ _ := .of_advance here (Caller.advance_ask left answered)
    exact ⟨_, leads, rfl, getElem?_set_caller here _⟩
  | error broken =>
    refine ⟨[.caller position], ?_⟩
    simp only [run, step, here, Caller.advance, left, answered]
    rfl

theorem Interleaves.perform (interleaves : Interleaves definition only gate) (id : BridgeId)
    (bridge : Bridge) (thread : ThreadId) (dialogue : Dialogue ModuleReply) {race : Race}
    {position : Nat} {caller : Caller} {process : Process Host} (about : race.definition = definition)
    (same : race.shared = process.shared) (here : race.callers[position]? = some caller)
    (on : caller.thread = thread) (left : caller.dialogue = dialogue) :
    race.Reaches only (· ≠ position) (fun reply last => ∃ finished,
      last.callers[position]? = some finished ∧ finished.dialogue = .done reply)
      (Process.outcome (Process.perform gate id bridge thread dialogue process)) := by
  induction dialogue generalizing race caller process with
  | done result => exact ⟨race, .refl race, same, caller, here, left⟩
  | abort error =>
    refine ⟨[.caller position], ?_⟩
    simp only [run, step, here, Caller.advance, left]
    rfl
  | fault broken =>
    refine ⟨[.caller position], ?_⟩
    simp only [run, step, here, Caller.advance, left]
    rfl
  | note line next ih =>
    have advanced : caller.advance race.shared = .ok ({ caller with dialogue := next }, race.shared) := by
      simp only [Caller.advance, left]
    refine .after (.of_advance here advanced) ?_
    exact ih about same (getElem?_set_caller here _) on rfl
  | look looked next ih =>
    have advanced : caller.advance race.shared = .ok ({ caller with
        dialogue := next (process.definition looked) }, race.shared) := by
      simp only [Caller.advance, left, same]
      rfl
    refine .after (.of_advance here advanced) ?_
    exact ih _ about same (getElem?_set_caller here _) on rfl
  | claim claimed index next ih =>
    refine .after (.of_advance here (Caller.advance_claim left race.shared)) ?_
    have stored := Process.shared_storeDefinition process claimed
      ((process.definition claimed).claim index).2
    refine ih _ about (.trans ?_ stored.symm) (getElem?_set_caller here _) on ?_
    next =>
      rw [same]
      rfl
    next =>
      rw [same]
      rfl
  | ask op args next ih =>
    subst on
    obtain ⟨announced, unchanged, answered⟩ :=
      Process.outcome_upcall gate id bridge op args process
    refine .bind (answered ▸ interleaves race position caller op args next bridge.runtime announced
      about (same.trans unchanged.symm) here left) ?_
    intro answer middle between leads shared there
    exact ih answer (leads.definition.trans about) shared there rfl rfl

theorem Interleaves.play (interleaves : Interleaves definition only gate) (bridge : BridgeId)
    (thread : ThreadId) {request : IndexRequest} (enters : only request) {race : Race}
    {process : Process Host} (about : race.definition = definition)
    (same : race.shared = process.shared) : race.Reaches only (fun _ => True) (fun reply last => ∃ finished ∈ last.callers,
      finished.dialogue = .done reply)
      (Process.outcome ((request.toModule definition).play gate bridge thread process)) := by
  -- A call that is made now enters as the last caller, and leaves all the others as they are.
  let entered := { race with callers := race.callers ++ [Caller.start race.definition thread request] }
  have leads : race.Leads only (fun _ => True) entered := by
    refine ⟨⟨[.enter thread request], rfl, by simpa [Turn.Only] using enters⟩, rfl, ?_⟩
    intro position caller _ here
    exact (List.getElem?_append_left (List.getElem?_eq_some_iff.1 here).1).trans here
  have here : entered.callers[race.callers.length]? =
      some (.start race.definition thread request) := by simp [entered]
  have reaches := interleaves.perform bridge (process.bridge bridge) thread
    (request.dialogue definition) (show entered.definition = definition from about) same here rfl
    (congrArg request.dialogue about)
  rw [IndexRequest.play_toModule]
  refine (Reaches.after (leads.mono fun _ _ _ _ => trivial) reaches).mono ?_ ?_
  next =>
    intro position caller there _
    exact Nat.ne_of_lt (List.getElem?_eq_some_iff.1 there).1
  next =>
    intro reply last _ finished
    obtain ⟨caller, there, ended⟩ := finished
    exact ⟨caller, List.mem_of_getElem? there, ended⟩

theorem Interleaves.playCallbacks (interleaves : Interleaves definition only gate)
    {callbacks : List Callback} (enter : ∀ callback ∈ callbacks, only callback.request) {race : Race}
    {process : Process Host}
    (about : race.definition = definition) (same : race.shared = process.shared) :
    race.Reaches only (fun _ => True) (fun _ _ => True)
      (Process.outcome (StateBridge.playCallbacks definition gate callbacks process)) := by
  induction callbacks generalizing race process with
  | nil => exact ⟨race, .refl race, same, trivial⟩
  | cons callback rest ih =>
    obtain ⟨first, others⟩ := List.forall_mem_cons.1 enter
    refine .bind (interleaves.play callback.bridge callback.thread first about same) ?_
    intro reply middle between leads shared _
    exact ih others (leads.definition.trans about) shared

theorem interleaves_reentrantGate (definition : DefinitionId) {before after : Callbacks}
    (early : ∀ request, before.Makes request → only request)
    (late : ∀ request, after.Makes request → only request) (depth : Nat) :
    Interleaves definition only (reentrantGate definition before after depth) := by
  induction depth with
  | zero => exact interleaves_runtime definition only
  | succ depth ih =>
    intro race position caller op args next id process about same here left
    have kept : ∀ {middle : Race} {caller : Caller}, middle.callers[position]? = some caller →
        ∀ _ : Unit, ∀ last, middle.Leads only (fun _ => True) last → True →
        last.callers[position]? = some caller :=
      fun there _ last leads _ => leads.kept position _ trivial there
    let inner := reentrantGate definition before after depth
    let conclude (answer : Except UpcallError Handle) (called : Process Host) :
        Run Host (Except UpcallError Handle) := do
      StateBridge.playCallbacks definition inner (after id caller.thread op args called)
      return answer
    change race.Reaches _ _ _ (Process.outcome ((do
      StateBridge.playCallbacks definition inner (before id caller.thread op args process)
      let answer ← Host.runtime.gate id caller.thread op args
      conclude answer (← get)) process))
    have called := ih.playCallbacks (fun callback called => early callback.request
      ⟨id, caller.thread, op, args, process, callback, called, rfl⟩) about same
    refine .bind (called.mono (fun _ _ _ _ => trivial) (kept here)) ?_
    intro _ middle between leads shared there
    have about := leads.definition.trans about
    refine .bind (interleaves_runtime definition only middle position caller op args next id between about
      shared there left) ?_
    intro answer later last leads shared answered
    have about := leads.definition.trans about
    have called := ih.playCallbacks (fun callback called => late callback.request
      ⟨id, caller.thread, op, args, last, callback, called, rfl⟩) about shared
    change later.Reaches _ _ _ (Process.outcome (conclude answer last last))
    refine .bind (called.mono (fun _ _ _ _ => trivial) (kept answered)) ?_
    intro _ final ended _ shared there
    exact ⟨final, .refl final, shared, there⟩

end

end Race

end StateBridge
