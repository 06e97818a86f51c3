set_option autoImplicit false

namespace StateBridge

structure RuntimeId where
  number : Nat
  deriving DecidableEq, Repr, Inhabited

/-- One run of a native thread. A thread started again after its exit is another one. -/
structure ThreadId where
  number : Nat
  deriving DecidableEq, Repr, Inhabited

inductive UpcallOp where
  | resolveCurrentThreadState
  | threadStateDict
  | findModuleByIndex
  | addModuleByIndex
  | removeModuleByIndex
  | assignModuleIndex
  deriving DecidableEq, Repr

namespace UpcallOp

def all : List UpcallOp :=
  [.resolveCurrentThreadState, .threadStateDict, .findModuleByIndex, .addModuleByIndex,
    .removeModuleByIndex, .assignModuleIndex]

def name : UpcallOp → String
  | .resolveCurrentThreadState => "resolve-current-thread-state"
  | .threadStateDict => "thread-state-dict"
  | .findModuleByIndex => "find-module-by-index"
  | .addModuleByIndex => "add-module-by-index"
  | .removeModuleByIndex => "remove-module-by-index"
  | .assignModuleIndex => "assign-module-index"

def ofName? (name : String) : Option UpcallOp :=
  all.find? fun op => op.name == name

def position : UpcallOp → Fin 6
  | .resolveCurrentThreadState => 0
  | .threadStateDict => 1
  | .findModuleByIndex => 2
  | .addModuleByIndex => 3
  | .removeModuleByIndex => 4
  | .assignModuleIndex => 5

@[simp] theorem mem_all (op : UpcallOp) : op ∈ all := by
  cases op <;> simp [all]

theorem all_nodup : all.Nodup := by decide

@[simp] theorem getElem?_position (op : UpcallOp) : all[op.position.val]? = some op := by
  cases op <;> rfl

theorem position_injective {first second : UpcallOp}
    (same : first.position = second.position) : first = second := by
  have entry := getElem?_position first
  rw [same, getElem?_position] at entry
  exact (Option.some.inj entry).symm

@[simp] theorem ofName?_name (op : UpcallOp) : ofName? op.name = some op := by
  cases op <;> decide

end UpcallOp

end StateBridge
