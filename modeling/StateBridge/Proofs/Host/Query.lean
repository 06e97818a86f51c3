import StateBridge.Host.Call

set_option autoImplicit false

namespace StateBridge

namespace HostQuery

theorem run_decode_resolve (args : List Handle) :
    (decode .resolveCurrentThreadState args).run = .ok (match args with
      | [] => .ok .resolve
      | _ => .error (.invalidArgument .resolveCurrentThreadState (.wrongCount 0 args.length))) := by
  -- The count of the arguments is looked at first, and no argument is read that is not there.
  cases args <;> rfl

theorem run_decode_dictOf (args : List Handle) :
    (decode .threadStateDict args).run = .ok (match args with
      | [state] => .ok (.dictOf state)
      | _ => .error (.invalidArgument .threadStateDict (.wrongCount 1 args.length))) := by
  rcases args with _ | ⟨state, _ | ⟨other, rest⟩⟩ <;> rfl

theorem run_expectIndex (op : UpcallOp) (handle : Handle) (next : ModuleIndex → HostQuery) :
    (do let index ← expectIndex op handle; return next index : Checked HostQuery).run =
      .ok (match ModuleIndex.ofHandle? handle with
        | some index => .ok (next index)
        | none => .error (.invalidArgument op .indexNotPositive)) := by
  unfold expectIndex
  cases ModuleIndex.ofHandle? handle <;> rfl

theorem run_decode_find (args : List Handle) :
    (decode .findModuleByIndex args).run = .ok (match args with
      | [handle] => match ModuleIndex.ofHandle? handle with
        | some index => .ok (.find index)
        | none => .error (.invalidArgument .findModuleByIndex .indexNotPositive)
      | _ => .error (.invalidArgument .findModuleByIndex (.wrongCount 1 args.length))) := by
  rcases args with _ | ⟨handle, _ | ⟨other, rest⟩⟩
  next => rfl
  next => exact run_expectIndex .findModuleByIndex handle .find
  next => rfl

theorem run_decode_add (args : List Handle) :
    (decode .addModuleByIndex args).run = .ok (match args with
      | [module, handle] => match ModuleIndex.ofHandle? handle with
        | some index => .ok (.add module index)
        | none => .error (.invalidArgument .addModuleByIndex .indexNotPositive)
      | _ => .error (.invalidArgument .addModuleByIndex (.wrongCount 2 args.length))) := by
  rcases args with _ | ⟨module, _ | ⟨handle, _ | ⟨other, rest⟩⟩⟩
  next => rfl
  next => rfl
  next => exact run_expectIndex .addModuleByIndex handle (.add module)
  next => rfl

theorem run_decode_remove (args : List Handle) :
    (decode .removeModuleByIndex args).run = .ok (match args with
      | [handle] => match ModuleIndex.ofHandle? handle with
        | some index => .ok (.remove index)
        | none => .error (.invalidArgument .removeModuleByIndex .indexNotPositive)
      | _ => .error (.invalidArgument .removeModuleByIndex (.wrongCount 1 args.length))) := by
  rcases args with _ | ⟨handle, _ | ⟨other, rest⟩⟩
  next => rfl
  next => exact run_expectIndex .removeModuleByIndex handle .remove
  next => rfl

theorem run_decode_assign (args : List Handle) :
    (decode .assignModuleIndex args).run = .ok (match args with
      | [] => .ok .assign
      | _ => .error (.invalidArgument .assignModuleIndex (.wrongCount 0 args.length))) := by
  cases args <;> rfl

def arity : UpcallOp → Nat
  | .resolveCurrentThreadState | .assignModuleIndex => 0
  | .threadStateDict | .findModuleByIndex | .removeModuleByIndex => 1
  | .addModuleByIndex => 2

def ofIndex (op : UpcallOp) (handle : Handle) (query : ModuleIndex → HostQuery) :
    Except UpcallError HostQuery :=
  match ModuleIndex.ofHandle? handle with
  | some index => .ok (query index)
  | none => .error (.invalidArgument op .indexNotPositive)

def read : UpcallOp → List Handle → Except UpcallError HostQuery
  | .resolveCurrentThreadState, [] => .ok .resolve
  | .threadStateDict, [state] => .ok (.dictOf state)
  | .findModuleByIndex, [handle] => ofIndex .findModuleByIndex handle .find
  | .addModuleByIndex, [module, handle] => ofIndex .addModuleByIndex handle (.add module)
  | .removeModuleByIndex, [handle] => ofIndex .removeModuleByIndex handle .remove
  | .assignModuleIndex, [] => .ok .assign
  | op, args => .error (.invalidArgument op (.wrongCount (arity op) args.length))

theorem run_decode (op : UpcallOp) (args : List Handle) :
    (decode op args).run = .ok (read op args) := by
  cases op with
  | resolveCurrentThreadState =>
    rw [run_decode_resolve]
    cases args <;> rfl
  | threadStateDict =>
    rw [run_decode_dictOf]
    rcases args with _ | ⟨state, _ | ⟨other, rest⟩⟩ <;> rfl
  | findModuleByIndex =>
    rw [run_decode_find]
    rcases args with _ | ⟨handle, _ | ⟨other, rest⟩⟩ <;> rfl
  | addModuleByIndex =>
    rw [run_decode_add]
    rcases args with _ | ⟨module, _ | ⟨handle, _ | ⟨other, rest⟩⟩⟩ <;> rfl
  | removeModuleByIndex =>
    rw [run_decode_remove]
    rcases args with _ | ⟨handle, _ | ⟨other, rest⟩⟩ <;> rfl
  | assignModuleIndex =>
    rw [run_decode_assign]
    cases args <;> rfl

theorem read_eq_resolve {op : UpcallOp} {args : List Handle} (asks : read op args = .ok .resolve) :
    op = .resolveCurrentThreadState ∧ args = [] := by
  unfold read ofIndex at asks
  grind

theorem read_eq_dictOf {op : UpcallOp} {args : List Handle} {state : Handle}
    (asks : read op args = .ok (.dictOf state)) : op = .threadStateDict ∧ args = [state] := by
  unfold read ofIndex at asks
  grind

end HostQuery

namespace Host

theorem invoke_of_query {op : UpcallOp} {args : List Handle} {query : HostQuery}
    (decoded : (HostQuery.decode op args).run = .ok (.ok query)) (host : Host) (thread : ThreadId) :
    host.invoke thread op args = host.answer thread query := by
  unfold invoke
  rw [decoded]
  rfl

theorem invoke_of_error {op : UpcallOp} {args : List Handle} {error : UpcallError}
    (decoded : (HostQuery.decode op args).run = .ok (.error error)) (host : Host)
    (thread : ThreadId) : host.invoke thread op args = .ok (.error error, host) := by
  unfold invoke
  rw [decoded]
  rfl

theorem invoke_eq (host : Host) (thread : ThreadId) (op : UpcallOp) (args : List Handle) :
    host.invoke thread op args = match HostQuery.read op args with
      | .ok query => host.answer thread query
      | .error error => .ok (.error error, host) := by
  have decoded := HostQuery.run_decode op args
  cases read : HostQuery.read op args with
  | ok query => exact invoke_of_query (decoded.trans (congrArg _ read)) host thread
  | error error => exact invoke_of_error (decoded.trans (congrArg _ read)) host thread

end Host

end StateBridge
