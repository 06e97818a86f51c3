set_option autoImplicit false

namespace StateBridge

inductive LockState where
  | locked
  | unlocked
  deriving DecidableEq, Repr

namespace LockState

def raw : LockState → Int32
  | .locked => 0
  | .unlocked => 1

def ofRaw? (raw : Int32) : Option LockState :=
  if raw = 0 then some .locked else if raw = 1 then some .unlocked else none

def name : LockState → String
  | .locked => "Locked"
  | .unlocked => "Unlocked"

-- The managed runtime serialises every call at its gate, so there is nothing to take.
def ensure : LockState := .unlocked

def release (_state : LockState) : Unit := ()

@[simp] theorem ofRaw?_raw (state : LockState) : ofRaw? state.raw = some state := by
  cases state <;> decide

end LockState

structure LockGuards where
  states : List LockState
  deriving DecidableEq, Repr

namespace LockGuards

def none : LockGuards := ⟨[]⟩

def depth (guards : LockGuards) : Nat := guards.states.length

def ensure (guards : LockGuards) : LockState × LockGuards :=
  (.ensure, ⟨.ensure :: guards.states⟩)

def release (guards : LockGuards) : Bool × LockGuards :=
  match guards.states with
  | [] => (false, guards)
  | _ :: states => (true, ⟨states⟩)

def within {ε α : Type} (guards : LockGuards) (body : LockState → Except ε α) :
    Except ε α × LockGuards :=
  let (state, opened) := guards.ensure
  let result := body state
  (result, opened.release.2)

@[simp] theorem release_ensure (guards : LockGuards) :
    guards.ensure.2.release = (true, guards) := rfl

end LockGuards

end StateBridge
