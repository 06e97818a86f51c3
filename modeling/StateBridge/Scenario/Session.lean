import StateBridge.Scenario.Play

set_option autoImplicit false

namespace StateBridge.Scenario

structure StepReport where
  answer : Answer
  hostSizes : List (String × Nat × Nat)
  events : List Event
  log : List LogRecord

structure Ending where
  halt : Halt
  errors : List LogRecord

structure SessionReport where
  steps : List StepReport
  ending? : Option Ending

def playTop (gate : Gate Stage) (step : Step) : StageRun Answer := do
  match step with
  | .exitThread name => exitThread name
  | .act name _ _ => playStep gate (← threadNamed name) step
  | .newScript name _ _ _ => playStep gate (← threadNamed name) step

def reportOf (answer : Answer) (process : Process Stage) : StepReport :=
  ⟨answer, process.world.hostSizes, process.world.events, process.log⟩

def playSteps (gate : Gate Stage) : List Step → Process Stage → SessionReport
  | [], _ => ⟨[], none⟩
  | step :: rest, process =>
    match (playTop gate step).run process with
    | .ok answer after =>
      let report := reportOf answer after
      let cleared := { after with log := [], world := { after.world with events := [] } }
      let ⟨steps, ending?⟩ := playSteps gate rest cleared
      ⟨report :: steps, ending?⟩
    | .error halt after =>
      ⟨[], some ⟨halt, after.log.filter fun record => record.level = .error⟩⟩

-- Upcalls nest at most as deep as the scripts hold answers, since each answer is taken once.
def playSession (config : BridgeConfig) (steps : List Step) : SessionReport :=
  playSteps (gate (stepsAnswerCount steps)) steps (.start (.empty config))

end StateBridge.Scenario
