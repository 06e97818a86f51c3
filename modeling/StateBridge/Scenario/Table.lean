import StateBridge.Handle.Table
import StateBridge.Scenario.Expression

set_option autoImplicit false

namespace StateBridge.Scenario

structure TableStage where
  table : HandleTable String
  saved : SavedHandles

inductive TableAction where
  | insert (kind : HandleKind) (value : String)
  | fill (kind : HandleKind) (count : Nat)
  | churn (kind : HandleKind) (count : Nat)
  | get (handle : HandleExpr)
  | set (handle : HandleExpr) (value : String)
  | contains (handle : HandleExpr)
  | remove (handle : HandleExpr)

structure TableStep where
  action : TableAction
  saveAs? : Option String

inductive TableAnswer where
  | handle (handle : Handle)
  | filled (first? last? : Option Handle)
  | churned (last? : Option Handle) (removed : Nat)
  | value (value? : Option String)
  | flag (value : Bool)
  | refused (refusal : Refusal)
  | fault (fault : Fault)

namespace TableAnswer

def handle? : TableAnswer → Option Handle
  | .handle issued => some issued
  | .filled _ last? => last?
  | .churned last? _ => last?
  | _ => none

end TableAnswer

def fillTable (kind : HandleKind) : Nat → Nat → List Handle → HandleTable String →
    Except Fault (List Handle × HandleTable String)
  | 0, _, handles, table => return (handles, table)
  | count + 1, number, handles, table => do
    let (handle, table) ← table.insert kind ("v" ++ toString number)
    fillTable kind count (number + 1) (handle :: handles) table

def churnTable (kind : HandleKind) : Nat → Option Handle → Nat → HandleTable String →
    Except Fault ((Option Handle × Nat) × HandleTable String)
  | 0, last?, removed, table => return ((last?, removed), table)
  | count + 1, _, removed, table => do
    let (handle, table) ← table.insert kind ""
    let (value?, table) ← table.remove handle
    churnTable kind count (some handle) (removed + if value?.isSome then 1 else 0) table

namespace TableStage

def play (stage : TableStage) :
    TableAction → ExceptT Refusal (Except Fault) (TableAnswer × HandleTable String)
  | .insert kind value => do
    let (handle, table) ← stage.table.insert kind value
    return (.handle handle, table)
  | .fill kind count => do
    let (handles, table) ← fillTable kind count 0 [] stage.table
    return (.filled handles.getLast? handles.head?, table)
  | .churn kind count => do
    let ((last?, removed), table) ← churnTable kind count none 0 stage.table
    return (.churned last? removed, table)
  | .get handle => do
    return (.value (stage.table.get? (← handle.eval stage.saved)), stage.table)
  | .set handle value => do
    let handle ← handle.eval stage.saved
    return (.value (stage.table.get? handle), stage.table.set handle value)
  | .contains handle => do
    return (.flag (stage.table.contains (← handle.eval stage.saved)), stage.table)
  | .remove handle => do
    let (value?, table) ← stage.table.remove (← handle.eval stage.saved)
    return (.value value?, table)

def step (stage : TableStage) (step : TableStep) : TableAnswer × TableStage :=
  match (stage.play step.action).run with
  | .ok (.ok (answer, table)) =>
    (answer, ⟨table, saveAs stage.saved step.saveAs? answer.handle?⟩)
  | .ok (.error refusal) => (.refused refusal, stage)
  | .error fault => (.fault fault, stage)

def run : TableStage → List TableStep → List (TableAnswer × Nat × Bool)
  | _, [] => []
  | stage, next :: rest =>
    let (answer, stage) := stage.step next
    (answer, stage.table.size, stage.table.isEmpty) :: run stage rest

end TableStage

def runTable (steps : List TableStep) : List (TableAnswer × Nat × Bool) :=
  TableStage.run ⟨.empty, .empty⟩ steps

end StateBridge.Scenario
