import StateBridge.Proofs.Bridge.Requests

set_option autoImplicit false

namespace StateBridge

inductive Line where
  | issued (op : UpcallOp) (args : List Handle)
  | answered (op : UpcallOp) (answer : Except UpcallError Handle)
  | noted (note : RegistryNote)
  | aborted (error : FatalError)

namespace Line

def message (id : BridgeId) : Line → LogMessage
  | .issued op args => .upcallIssued id op args
  | .answered op (.ok handle) => .upcallAnswered id op handle
  | .answered op (.error error) => .upcallFailed id op error
  | .noted note => note.message
  | .aborted error => .fatal error

def level (config : BridgeConfig) : Line → LogLevel
  | .issued _ _ => if config.traceUpcalls then .info else .trace
  | .answered _ (.ok _) => .trace
  | .answered _ (.error _) => .debug
  | .noted note => note.level config
  | .aborted _ => .error

def record (id : BridgeId) (config : BridgeConfig) (line : Line) : LogRecord :=
  ⟨line.level config, line.message id⟩

theorem text_message (line : Line) (first second : BridgeId) :
    (line.message first).text = (line.message second).text := by
  cases line with
  | answered op answer => cases answer <;> rfl
  | _ => rfl

/-- Announcements of upcalls, and changes of the registry that replace nothing. -/
def BroughtOut (config plain : BridgeConfig) (line : Line) : Prop :=
  (∃ op args, line = .issued op args ∧ config.traceUpcalls = true ∧ plain.traceUpcalls = false ∧
    line.level config = .info ∧ line.level plain = .trace) ∨
  (∃ note, line = .noted note ∧ (∀ module previous index, note ≠ .replaced module previous index) ∧
    config.traceModules = true ∧ plain.traceModules = false ∧
    line.level config = .info ∧ line.level plain = .debug)

theorem level_cases (line : Line) (first second : BridgeConfig) :
    line.level first = line.level second ∨ line.BroughtOut first second ∨
      line.BroughtOut second first := by
  cases line with
  | issued op args =>
    cases one : first.traceUpcalls <;> cases two : second.traceUpcalls <;>
      simp [BroughtOut, level, one, two]
  | answered op answer => cases answer <;> exact .inl rfl
  | noted note =>
    cases note with
    | replaced module previous index => exact .inl rfl
    | _ =>
      cases one : first.traceModules <;> cases two : second.traceModules <;>
        simp [BroughtOut, level, RegistryNote.level, one, two]
  | aborted error => exact .inl rfl

end Line

structure Account (World α : Type) where
  ending : Except Halt α
  shared : Shared World
  questions : List Question
  lines : List Line

section

variable {World α : Type}

def Account.after (questions : List Question) (lines : List Line) (rest : Account World α) :
    Account World α :=
  { rest with questions := questions ++ rest.questions, lines := lines ++ rest.lines }

def Dialogue.account (runtime : Runtime World) (thread : ThreadId) :
    Dialogue α → Shared World → Account World α
  | .done result, shared => ⟨.ok result, shared, [], []⟩
  | .abort error, shared => ⟨.error (.fatal error), shared, [], [.aborted error]⟩
  | .fault broken, shared => ⟨.error (.fault broken), shared, [], []⟩
  | .note line next, shared => (next.account runtime thread shared).after [] [.noted line]
  | .look definition next, shared =>
    (next (shared.definition definition)).account runtime thread shared
  | .claim definition index next, shared =>
    let (won, claimed) := (shared.definition definition).claim index
    (next won).account runtime thread (shared.storeDefinition definition claimed)
  | .ask op args next, shared =>
    match runtime thread op args shared.world with
    | .ok (answer, world) =>
      ((next answer).account runtime thread { shared with world }).after
        [⟨op, args, answer⟩] [.issued op args, .answered op answer]
    | .error broken => ⟨.error (.fault broken), shared, [], [.issued op args]⟩

def Run.finish (ending : Except Halt α) (last : Process World) :
    EStateM.Result Halt (Process World) α :=
  match ending with
  | .ok result => .ok result last
  | .error halt => .error halt last

namespace Process

structure Writes (id : BridgeId) (config : BridgeConfig) (process last : Process World)
    (lines : List Line) : Prop where
  log : last.log = process.log ++ lines.map (Line.record id config)
  bridges : last.bridges = process.bridges

variable {id : BridgeId} {config : BridgeConfig} {process middle last : Process World}
  {first later : List Line}

theorem Writes.none (process : Process World) : Writes id config process process [] :=
  ⟨(List.append_nil _).symm, rfl⟩

theorem Writes.trans (written : Writes id config process middle first)
    (more : Writes id config middle last later) :
    Writes id config process last (first ++ later) := by
  refine ⟨?_, more.bridges.trans written.bridges⟩
  rw [more.log, written.log, List.map_append, List.append_assoc]

theorem writes_conclude (id : BridgeId) (bridge : Bridge) (op : UpcallOp)
    (answer : Except UpcallError Handle) (process : Process World) :
    Writes id bridge.config process (process.conclude id bridge op answer) [.answered op answer] := by
  refine ⟨?_, bridges_conclude process id bridge op answer⟩
  unfold conclude
  cases bridge.config.profile <;> cases answer <;> rfl

@[simp] theorem shared_conclude (id : BridgeId) (bridge : Bridge) (op : UpcallOp)
    (answer : Except UpcallError Handle) (process : Process World) :
    (process.conclude id bridge op answer).shared = process.shared := by
  simp only [shared, world_conclude, definition_conclude]

variable {runtime : Runtime World} {thread : ThreadId}

theorem perform_account (id : BridgeId) (bridge : Bridge) (dialogue : Dialogue α)
    (process : Process World) :
    let told := dialogue.account runtime thread process.shared
    (exchanges runtime.gate id bridge thread dialogue process).map Exchange.toQuestion =
        told.questions ∧
      ∃ last, perform runtime.gate id bridge thread dialogue process = Run.finish told.ending last ∧
        last.shared = told.shared ∧ Writes id bridge.config process last told.lines := by
  induction dialogue generalizing process with
  | done result => exact ⟨rfl, process, rfl, rfl, .none process⟩
  | abort error => exact ⟨rfl, process.aborted error, rfl, rfl, rfl, rfl⟩
  | fault broken => exact ⟨rfl, process, rfl, rfl, .none process⟩
  | note line next ih =>
    obtain ⟨asked, last, ran, shared, written⟩ := ih (process.noted bridge line)
    have noted : Writes id bridge.config process (process.noted bridge line) [.noted line] := ⟨rfl, rfl⟩
    exact ⟨asked, last, ran, shared, noted.trans written⟩
  | look definition next ih => exact ih (process.definition definition) process
  | claim definition index next ih =>
    have rest := ih ((process.definition definition).claim index).1
      (process.storeDefinition definition ((process.definition definition).claim index).2)
    rw [shared_storeDefinition] at rest
    obtain ⟨asked, last, ran, shared, written⟩ := rest
    exact ⟨asked, last, ran, shared, written.log, written.bridges⟩
  | ask op args next ih =>
    simp only [Dialogue.account]
    cases answered : runtime thread op args process.shared.world with
    | error broken =>
      change runtime thread op args (process.announce id bridge op args).world = _ at answered
      have halted := Runtime.gate_of_error answered bridge.runtime
      refine ⟨?_, process.announce id bridge op args, perform_ask_of_error halted, rfl, rfl, rfl⟩
      rw [exchanges_ask_of_error halted]
      rfl
    | ok found =>
      obtain ⟨answer, world⟩ := found
      change runtime thread op args (process.announce id bridge op args).world = _ at answered
      have gated := Runtime.gate_of_ok answered bridge.runtime
      let after : Process World := { process.announce id bridge op args with world }
      obtain ⟨asked, last, ran, shared, written⟩ := ih answer (after.conclude id bridge op answer)
      rw [shared_conclude] at asked ran shared written
      have announced : Writes id bridge.config process after [.issued op args] := ⟨rfl, rfl⟩
      have concluded := announced.trans (writes_conclude id bridge op answer after)
      refine ⟨?_, last, ?_, shared, concluded.trans written⟩
      next =>
        rw [exchanges_ask_of_ok gated, List.map_cons, asked]
        rfl
      next =>
        rw [perform_ask_of_ok gated]
        exact ran

end Process

end

/-- A call of some operation of a bridge, or something that happens to a process apart from that. -/
inductive Errand (World : Type) where
  | call (thread : ThreadId) (request : BridgeRequest)
  | define (id : DefinitionId) (definition : ModuleDefinition)
  | meanwhile (change : World → World)

structure Transcript where
  answers : List EventAnswer
  questions : List (ThreadId × Question)
  halt? : Option Halt

namespace Transcript

def halted (asked : List (ThreadId × Question)) (halt : Halt) : Transcript := ⟨[], asked, some halt⟩

def after (answer : EventAnswer) (asked : List (ThreadId × Question)) (rest : Transcript) :
    Transcript :=
  { rest with answers := answer :: rest.answers, questions := asked ++ rest.questions }

end Transcript

section

variable {World : Type}

def playErrands (gate : Gate World) (route : Nat → BridgeId) :
    List (Errand World) → Nat → Process World → Transcript × Process World
  | [], _, process => (⟨[], [], none⟩, process)
  | .define id definition :: rest, position, process =>
    playErrands gate route rest (position + 1) (process.storeDefinition id definition)
  | .meanwhile change :: rest, position, process =>
    playErrands gate route rest (position + 1) { process with world := change process.world }
  | .call thread request :: rest, position, process =>
    let asked := (request.exchanges gate (route position) thread process).map fun exchange =>
      (thread, exchange.toQuestion)
    match request.play gate (route position) thread process with
    | .error halt last => (.halted asked halt, last)
    | .ok answer after =>
      let (later, last) := playErrands gate route rest (position + 1) after
      (later.after answer asked, last)

structure Story (World : Type) where
  transcript : Transcript
  shared : Shared World
  lines : List (Nat × Line)

def tellErrands (runtime : Runtime World) :
    List (Errand World) → Nat → Shared World → Story World
  | [], _, shared => ⟨⟨[], [], none⟩, shared, []⟩
  | .define id definition :: rest, position, shared =>
    tellErrands runtime rest (position + 1) (shared.storeDefinition id definition)
  | .meanwhile change :: rest, position, shared =>
    tellErrands runtime rest (position + 1) { shared with world := change shared.world }
  | .call thread request :: rest, position, shared =>
    let told := request.dialogue.account runtime thread shared
    let asked := told.questions.map fun question => (thread, question)
    let lines := told.lines.map fun line => (position, line)
    match told.ending with
    | .error halt => ⟨.halted asked halt, told.shared, lines⟩
    | .ok answer =>
      let later := tellErrands runtime rest (position + 1) told.shared
      ⟨later.transcript.after answer asked, later.shared, lines ++ later.lines⟩

def routed (route : Nat → BridgeId) (bridge : BridgeId → Bridge) (lines : List (Nat × Line)) :
    List LogRecord :=
  lines.map fun (position, line) => line.record (route position) (bridge (route position)).config

theorem BridgeRequest.play_account (runtime : Runtime World) (request : BridgeRequest)
    (id : BridgeId) (thread : ThreadId) (process : Process World) :
    let told := request.dialogue.account runtime thread process.shared
    (request.exchanges runtime.gate id thread process).map Exchange.toQuestion = told.questions ∧
      ∃ last, request.play runtime.gate id thread process = Run.finish told.ending last ∧
        last.shared = told.shared ∧
        Process.Writes id (process.bridge id).config process last told.lines := by
  rw [BridgeRequest.play_eq]
  exact Process.perform_account id (process.bridge id) request.dialogue process

theorem playErrands_told (runtime : Runtime World) (route : Nat → BridgeId)
    (errands : List (Errand World)) (position : Nat) (process : Process World) :
    let story := tellErrands runtime errands position process.shared
    ∃ last, playErrands runtime.gate route errands position process = (story.transcript, last) ∧
      last.shared = story.shared ∧ last.bridges = process.bridges ∧
      last.log = process.log ++ routed route process.bridge story.lines := by
  induction errands generalizing position process with
  | nil => exact ⟨process, rfl, rfl, rfl, (List.append_nil _).symm⟩
  | cons errand rest ih =>
    cases errand with
    | define id definition =>
      have told := ih (position + 1) (process.storeDefinition id definition)
      rw [Process.shared_storeDefinition] at told
      exact told
    | meanwhile change => exact ih (position + 1) { process with world := change process.world }
    | call thread request =>
      obtain ⟨asked, middle, played, shared, written⟩ :=
        request.play_account runtime (route position) thread process
      simp only [playErrands, tellErrands, played]
      rw [show (request.exchanges runtime.gate (route position) thread process).map
        (fun exchange => (thread, exchange.toQuestion)) = _ from (List.map_map ..).symm, asked]
      have here : middle.log = process.log ++ routed route process.bridge
          ((request.dialogue.account runtime thread process.shared).lines.map fun line =>
            (position, line)) := by
        rw [written.log, routed, List.map_map]
        rfl
      cases ending : (request.dialogue.account runtime thread process.shared).ending with
      | error halt => exact ⟨middle, rfl, shared, written.bridges, here⟩
      | ok answer =>
        have told := ih (position + 1) middle
        rw [shared] at told
        obtain ⟨last, later, same, bridges, log⟩ := told
        have unchanged : middle.bridge = process.bridge := by
          funext id
          simp only [Process.bridge, written.bridges]
        refine ⟨last, ?_, same, bridges.trans written.bridges, ?_⟩
        next =>
          simp only [Run.finish, later]
        next =>
          rw [log, here, unchanged, List.append_assoc]
          exact congrArg (process.log ++ ·) (List.map_append ..).symm

-- Only the level of a log line tells apart over which bridges the calls went.
theorem bridges_are_interchangeable (runtime : Runtime World) (errands : List (Errand World))
    (process : Process World) (bridges others : FiniteMap BridgeId Bridge)
    (counters : FiniteMap BridgeId UpcallStats) (route detour : Nat → BridgeId) :
    let straight := { process with bridges := bridges }
    let around := { process with bridges := others, stats := counters }
    let first := playErrands runtime.gate route errands 0 straight
    let second := playErrands runtime.gate detour errands 0 around
    first.1 = second.1 ∧ first.2.world = second.2.world ∧
      first.2.definition = second.2.definition ∧
      first.2.bridges = bridges ∧ second.2.bridges = others ∧
      ∃ lines : List (Nat × Line),
        first.2.log = process.log ++ routed route straight.bridge lines ∧
        second.2.log = process.log ++ routed detour around.bridge lines ∧
        ∀ position line, (position, line) ∈ lines →
          (line.message (route position)).text = (line.message (detour position)).text ∧
          let config := (straight.bridge (route position)).config
          let other := (around.bridge (detour position)).config
          line.level config = line.level other ∨
            line.BroughtOut config other ∨ line.BroughtOut other config := by
  intro straight around first second
  obtain ⟨last, played, shared, kept, log⟩ :=
    playErrands_told runtime route errands 0 straight
  obtain ⟨final, detoured, same, left, written⟩ :=
    playErrands_told runtime detour errands 0 around
  have alike : straight.shared = around.shared := rfl
  rw [alike] at played shared log
  simp only [first, second, played, detoured]
  have agree := shared.trans same.symm
  refine ⟨trivial, congrArg Shared.world agree, congrArg Shared.definition agree, kept, left,
    _, log, written, ?_⟩
  intro position line member
  exact ⟨line.text_message _ _, line.level_cases _ _⟩

end

end StateBridge
