import StateBridge.Proofs.Process.Race

set_option autoImplicit false

namespace StateBridge

/-- An upcall that was answered, with the process as the gate got it and as it gave it back. -/
structure Exchange (World : Type) extends Question where
  before : Process World
  after : Process World

namespace Process

variable {World α β : Type}

def noted (process : Process World) (bridge : Bridge) (line : RegistryNote) : Process World :=
  { process with log := process.log ++ [⟨line.level bridge.config, line.message⟩] }

def announce (process : Process World) (id : BridgeId) (bridge : Bridge) (op : UpcallOp)
    (args : List Handle) : Process World :=
  let level := if bridge.config.traceUpcalls then LogLevel.info else LogLevel.trace
  { process with log := process.log ++ [⟨level, .upcallIssued id op args⟩] }

def aborted (process : Process World) (error : FatalError) : Process World :=
  { process with log := process.log ++ [⟨.error, .fatal error⟩] }

def conclude (process : Process World) (id : BridgeId) (bridge : Bridge) (op : UpcallOp)
    (answer : Except UpcallError Handle) : Process World :=
  let counted := if bridge.config.profile then process.countUpcall id op answer.isOk else process
  let entry : LogRecord := match answer with
    | .ok handle => ⟨.trace, .upcallAnswered id op handle⟩
    | .error error => ⟨.debug, .upcallFailed id op error⟩
  { counted with log := counted.log ++ [entry] }

@[simp] theorem definition_announce (process : Process World) (id : BridgeId) (bridge : Bridge)
    (op : UpcallOp) (args : List Handle) :
    (process.announce id bridge op args).definition = process.definition := rfl

@[simp] theorem world_conclude (process : Process World) (id : BridgeId) (bridge : Bridge)
    (op : UpcallOp) (answer : Except UpcallError Handle) :
    (process.conclude id bridge op answer).world = process.world := by
  unfold conclude
  cases bridge.config.profile <;> rfl

@[simp] theorem definitions_conclude (process : Process World) (id : BridgeId) (bridge : Bridge)
    (op : UpcallOp) (answer : Except UpcallError Handle) :
    (process.conclude id bridge op answer).definitions = process.definitions := by
  unfold conclude
  cases bridge.config.profile <;> rfl

@[simp] theorem bridges_conclude (process : Process World) (id : BridgeId) (bridge : Bridge)
    (op : UpcallOp) (answer : Except UpcallError Handle) :
    (process.conclude id bridge op answer).bridges = process.bridges := by
  unfold conclude
  cases bridge.config.profile <;> rfl

@[simp] theorem installed?_conclude (process : Process World) (id : BridgeId) (bridge : Bridge)
    (op : UpcallOp) (answer : Except UpcallError Handle) :
    (process.conclude id bridge op answer).installed? = process.installed? := by
  unfold conclude
  cases bridge.config.profile <;> rfl

@[simp] theorem definition_conclude (process : Process World) (id : BridgeId) (bridge : Bridge)
    (op : UpcallOp) (answer : Except UpcallError Handle) :
    (process.conclude id bridge op answer).definition = process.definition := by
  funext definition
  simp only [Process.definition, definitions_conclude]

variable (gate : Gate World) (id : BridgeId) (bridge : Bridge) (thread : ThreadId)

theorem upcall_eq (op : UpcallOp) (args : List Handle) (process : Process World) :
    upcall gate id bridge thread op args process =
      match gate bridge.runtime thread op args (process.announce id bridge op args) with
      | .ok answer after => .ok answer (after.conclude id bridge op answer)
      | .error halt last => .error halt last := by
  change EStateM.bind (gate bridge.runtime thread op args) _
    (process.announce id bridge op args) = _
  unfold EStateM.bind
  cases gate bridge.runtime thread op args (process.announce id bridge op args) with
  | error halt last => rfl
  | ok answer after =>
    unfold conclude
    cases bridge.config.profile <;> cases answer <;> rfl

-- What happens inside the gate meanwhile, such as upcalls of other calls, is not among them.
def exchanges : Dialogue α → Process World → List (Exchange World)
  | .done _, _ | .abort _, _ | .fault _, _ => []
  | .note line next, process => exchanges next (process.noted bridge line)
  | .look definition next, process => exchanges (next (process.definition definition)) process
  | .claim definition index next, process =>
    let (won, claimed) := (process.definition definition).claim index
    exchanges (next won) (process.storeDefinition definition claimed)
  | .ask op args next, process =>
    match gate bridge.runtime thread op args (process.announce id bridge op args) with
    | .ok answer after =>
      ⟨⟨op, args, answer⟩, process, after⟩ ::
        exchanges (next answer) (after.conclude id bridge op answer)
    | .error _ _ => []

variable {gate id bridge thread} {op : UpcallOp} {args : List Handle}
  {next : Except UpcallError Handle → Dialogue α} {process : Process World}

theorem exchanges_ask_of_ok {answer : Except UpcallError Handle} {after : Process World}
    (answered : gate bridge.runtime thread op args (process.announce id bridge op args) =
      .ok answer after) :
    exchanges gate id bridge thread (.ask op args next) process =
      ⟨⟨op, args, answer⟩, process, after⟩ ::
        exchanges gate id bridge thread (next answer) (after.conclude id bridge op answer) := by
  simp only [exchanges, answered]

theorem exchanges_ask_of_error {halt : Halt} {last : Process World}
    (halted : gate bridge.runtime thread op args (process.announce id bridge op args) =
      .error halt last) :
    exchanges gate id bridge thread (.ask op args next) process = [] := by
  simp only [exchanges, halted]

theorem perform_ask_of_ok {answer : Except UpcallError Handle} {after : Process World}
    (answered : gate bridge.runtime thread op args (process.announce id bridge op args) =
      .ok answer after) :
    perform gate id bridge thread (.ask op args next) process =
      perform gate id bridge thread (next answer) (after.conclude id bridge op answer) := by
  have returned : upcall gate id bridge thread op args process =
      .ok answer (after.conclude id bridge op answer) := by rw [upcall_eq, answered]
  rw [perform, Run.bind_of_ok returned]

theorem perform_ask_of_error {halt : Halt} {last : Process World}
    (halted : gate bridge.runtime thread op args (process.announce id bridge op args) =
      .error halt last) :
    perform gate id bridge thread (.ask op args next) process = .error halt last := by
  have stopped : upcall gate id bridge thread op args process = .error halt last := by
    rw [upcall_eq, halted]
  rw [perform, Run.bind_of_error stopped]

end Process

end StateBridge
