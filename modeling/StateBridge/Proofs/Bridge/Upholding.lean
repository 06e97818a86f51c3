import StateBridge.Proofs.Host.Numbering

set_option autoImplicit false

namespace StateBridge

variable {World α β : Type} {holds : World → Prop}

-- The world is as it should be wherever the step stops: at its end, or where the process is aborted.
def Run.Upholds (holds : World → Prop) : EStateM.Result Halt (Process World) α → Prop
  | .ok _ last => holds last.world
  | .error halt last => (∃ error, halt = .fatal error) ∧ holds last.world

def Gate.Upholds (gate : Gate World) (holds : World → Prop) : Prop :=
  ∀ runtime thread op args process, holds process.world →
    Run.Upholds holds (gate runtime thread op args process)

namespace Run

variable {step : Run World α} {process : Process World}

theorem Upholds.ends {result : EStateM.Result Halt (Process World) α}
    (upholds : Upholds holds result) :
    (∃ found last, result = .ok found last ∧ holds last.world) ∨
      ∃ error last, result = .error (.fatal error) last ∧ holds last.world := by
  cases result with
  | ok found last => exact .inl ⟨found, last, rfl, upholds⟩
  | error halt last =>
    obtain ⟨⟨error, rfl⟩, kept⟩ := upholds
    exact .inr ⟨error, last, rfl, kept⟩

theorem Upholds.bind {next : α → Run World β} (upholds : Upholds holds (step process))
    (rest : ∀ found after, holds after.world → Upholds holds (next found after)) :
    Upholds holds ((step >>= next) process) := by
  cases ran : step process with
  | ok found after =>
    rw [ran] at upholds
    rw [bind_of_ok ran]
    exact rest found after upholds
  | error halt last =>
    rw [ran] at upholds
    rw [bind_of_error ran]
    exact upholds

theorem upholds_map (present : α → β) :
    Upholds holds ((present <$> step) process) ↔ Upholds holds (step process) := by
  change Upholds holds (EStateM.map present step process) ↔ _
  unfold EStateM.map
  cases step process <;> rfl

end Run

namespace BridgeRequest

variable {gate : Gate World} {id : BridgeId} {bridge : Bridge} {thread : ThreadId}
  {request : BridgeRequest} {process : Process World} {earlier : List Question}
  {asked : List (Exchange World)} {outcome : EStateM.Result Halt (Process World) EventAnswer}

theorem Course.upholds (course : request.Course gate id bridge thread process earlier asked outcome)
    (trusted : gate.Upholds holds) (start : holds process.world) : Run.Upholds holds outcome := by
  induction course with
  | returns concludes silent => exact start
  | aborts fatal => exact ⟨⟨_, rfl⟩, start⟩
  | @halts process last earlier op args halt due halted =>
    have met := trusted bridge.runtime thread op args (process.announce id bridge op args) start
    rw [halted] at met
    exact met
  | @refused process after earlier op args answer error due answered refused =>
    have met := trusted bridge.runtime thread op args (process.announce id bridge op args) start
    rw [answered] at met
    rw [Run.Upholds, Process.world_conclude]
    exact met
  | @accepted process after earlier op args answer later outcome due answered accepted rest ih =>
    have met := trusted bridge.runtime thread op args (process.announce id bridge op args) start
    rw [answered] at met
    apply ih
    rw [world_settle, Process.world_conclude]
    exact met

theorem play_upholds (trusted : gate.Upholds holds) (request : BridgeRequest) (id : BridgeId)
    (thread : ThreadId) (start : holds process.world) :
    Run.Upholds holds (request.play gate id thread process) :=
  (request.course gate id thread process).upholds trusted start

end BridgeRequest

end StateBridge
