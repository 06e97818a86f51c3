import StateBridge.Bridge.Basic
import StateBridge.Module.Definition
import StateBridge.Scenario.Expression
import StateBridge.Upcall.Error

set_option autoImplicit false

namespace StateBridge.Scenario

inductive BridgeAction where
  | currentThreadState
  | threadStateDict
  | dictOf (state : HandleExpr)
  | findModule (definition : String)
  | findModuleByIndex (index : Nat)
  | initModuleDefinition (definition : String)
  | addModule (module : HandleExpr) (definition? : Option String)
  | removeModule (definition : String)
  | stats
  | config
  | describe

inductive HostAction where
  | attach
  | switch
  | detach
  | newModule (name : String)
  | moduleName (module : HandleExpr)
  | dictSet (dict : HandleExpr) (key : String) (value : HandleExpr)
  | dictGet (dict : HandleExpr) (key : String)
  | dictSize (dict : HandleExpr)
  | registeredModule (index : Nat)
  | invoke (op : String) (args : List HandleExpr)

inductive NativeAction where
  | threadStateGet
  | threadStateGetDict
  | findModule (definition? : Option String)
  | addModule (module : HandleExpr) (definition? : Option String)
  | removeModule (definition? : Option String)
  | lockEnsure
  | lockRelease (raw : Int32)
  | errorOccurred
  | errorClear

inductive Action where
  | newHost (name : String) (explicitAttach : Bool)
  | newBridge (name runtime : String) (config? : Option BridgeConfig)
  | newDefinition (name : String) (definition : ModuleDefinition)
  | getDefinition (name : String)
  | drop (name : String)
  | install (name runtime : String) (config? : Option BridgeConfig)
  | uninstall
  | installed
  | withBridge
  | bridge (name : String) (action : BridgeAction)
  | host (name : String) (action : HostAction)
  | native (action : NativeAction)
  | errorOccurred
  | errorFetch
  | errorClear

mutual

inductive Step where
  | act (thread : String) (action : Action) (saveAs? : Option String)
  | exitThread (thread : String)
  | newScript (thread name : String) (script : List Queue) (fallback? : Option String)

inductive Queue where
  | of (op : UpcallOp) (answers : List ScriptedAnswer)

-- The steps come before the answer. Without an outcome the upcall goes to the fallback.
inductive ScriptedAnswer where
  | after (during : List Step) (outcome? : Option (Except UpcallError HandleExpr))

end

mutual

def Step.answerCount : Step → Nat
  | .act _ _ _ => 0
  | .exitThread _ => 0
  | .newScript _ _ script _ => queuesAnswerCount script

def stepsAnswerCount : List Step → Nat
  | [] => 0
  | step :: rest => step.answerCount + stepsAnswerCount rest

def Queue.answerCount : Queue → Nat
  | .of _ answers => answersAnswerCount answers

def queuesAnswerCount : List Queue → Nat
  | [] => 0
  | queue :: rest => queue.answerCount + queuesAnswerCount rest

def ScriptedAnswer.answerCount : ScriptedAnswer → Nat
  | .after during _ => stepsAnswerCount during + 1

def answersAnswerCount : List ScriptedAnswer → Nat
  | [] => 0
  | answer :: rest => answer.answerCount + answersAnswerCount rest

end

end StateBridge.Scenario
