import StateBridge.Lock

set_option autoImplicit false

namespace StateBridge.Scenario

inductive LockStep where
  | ofRaw (raw : Int32)
  | ensure
  | release (state : LockState)
  | openGuard
  | closeGuard
  | within
  | withinFailing (text : String)

inductive LockAnswer where
  | decoded (state? : Option LockState)
  | state (state : LockState)
  | released (done : Unit)
  | opened (state : LockState) (depth : Nat)
  | closed (hadOne : Bool) (depth : Nat)
  | failed (text : String)

def playLock (guards : LockGuards) : LockStep → LockAnswer × LockGuards
  | .ofRaw raw => (.decoded (LockState.ofRaw? raw), guards)
  | .ensure => (.state .ensure, guards)
  | .release state => (.released state.release, guards)
  | .openGuard =>
    let (state, guards) := guards.ensure
    (.opened state guards.depth, guards)
  | .closeGuard =>
    let (hadOne, guards) := guards.release
    (.closed hadOne guards.depth, guards)
  | .within =>
    match guards.within fun state => (.ok state : Except String LockState) with
    | (.ok state, guards) => (.state state, guards)
    | (.error text, guards) => (.failed text, guards)
  | .withinFailing text =>
    match guards.within fun _ => (.error text : Except String LockState) with
    | (.ok state, guards) => (.state state, guards)
    | (.error text, guards) => (.failed text, guards)

def runLockFrom : LockGuards → List LockStep → List LockAnswer
  | _, [] => []
  | guards, step :: rest =>
    let (answer, guards) := playLock guards step
    answer :: runLockFrom guards rest

def runLock (steps : List LockStep) : List LockAnswer := runLockFrom .none steps

end StateBridge.Scenario
