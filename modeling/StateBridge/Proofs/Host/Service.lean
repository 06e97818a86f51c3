import StateBridge.Proofs.Module.Calls
import StateBridge.Proofs.Process.Race

set_option autoImplicit false

namespace StateBridge

namespace ModuleIndex

theorem fits_of_ofHandle? {handle : Handle} {index : ModuleIndex}
    (read : ofHandle? handle = some index) : index.Fits := by
  simp only [ofHandle?, Option.bind_eq_some_iff, ofNat?_eq_some_iff] at read
  obtain ⟨value, carried, same⟩ := read
  unfold Handle.toInt? at carried
  split at carried
  next =>
    have below : (handle.payload.toNat : Int).bmod Handle.payloadCount.toNat <
        (Handle.payloadCount.toNat + 1) / 2 := Int.bmod_lt (by rw [Handle.toNat_payloadCount]; omega)
    rw [Option.some.inj carried, Handle.toNat_payloadCount] at below
    unfold Fits Handle.intMax
    omega
  next => cases carried

end ModuleIndex

def Question.index? (question : Question) : Option ModuleIndex :=
  match question.op, question.args, question.answer with
  | .assignModuleIndex, [], .ok handle => ModuleIndex.ofHandle? handle
  | .findModuleByIndex, [handle], .ok _ | .removeModuleByIndex, [handle], .ok _ =>
    ModuleIndex.ofHandle? handle
  | .addModuleByIndex, [_, handle], .ok _ => ModuleIndex.ofHandle? handle
  | _, _, _ => none

theorem Question.index?_of_error (op : UpcallOp) (args : List Handle) (error : UpcallError) :
    Question.index? ⟨op, args, .error error⟩ = none := by
  unfold Question.index?
  split <;> simp_all

namespace HostQuery

def op : HostQuery → UpcallOp
  | .resolve => .resolveCurrentThreadState
  | .dictOf _ => .threadStateDict
  | .find _ => .findModuleByIndex
  | .add _ _ => .addModuleByIndex
  | .remove _ => .removeModuleByIndex
  | .assign => .assignModuleIndex

def index? : HostQuery → Option ModuleIndex
  | .find index | .add _ index | .remove index => some index
  | .resolve | .dictOf _ | .assign => none

theorem eq_assign_of_op {query : HostQuery} (assigns : query.op = .assignModuleIndex) :
    query = .assign := by
  cases query with
  | assign => rfl
  | _ => cases assigns

variable {asked : UpcallOp} {args : List Handle} {query : HostQuery}

theorem ofIndex_eq_ok {handle : Handle} {wrap : ModuleIndex → HostQuery}
    (read : ofIndex asked handle wrap = .ok query) :
    ∃ index, ModuleIndex.ofHandle? handle = some index ∧ query = wrap index := by
  unfold ofIndex at read
  split at read
  next index found =>
    cases read
    exact ⟨index, found, rfl⟩
  next => cases read

theorem op_of_read (read : HostQuery.read asked args = .ok query) : query.op = asked := by
  unfold HostQuery.read at read
  split at read
  next => cases read; rfl
  next => cases read; rfl
  next => obtain ⟨index, -, rfl⟩ := ofIndex_eq_ok read; rfl
  next => obtain ⟨index, -, rfl⟩ := ofIndex_eq_ok read; rfl
  next => obtain ⟨index, -, rfl⟩ := ofIndex_eq_ok read; rfl
  next => cases read; rfl
  next => cases read

theorem index?_of_read (read : HostQuery.read asked args = .ok query) (other : query ≠ .assign)
    (answer : Handle) : Question.index? ⟨asked, args, .ok answer⟩ = query.index? := by
  unfold HostQuery.read at read
  split at read
  next => cases read; rfl
  next => cases read; rfl
  next => obtain ⟨index, found, rfl⟩ := ofIndex_eq_ok read; exact found
  next => obtain ⟨index, found, rfl⟩ := ofIndex_eq_ok read; exact found
  next => obtain ⟨index, found, rfl⟩ := ofIndex_eq_ok read; exact found
  next => cases read; exact absurd rfl other
  next => cases read

theorem args_of_read_assign (read : HostQuery.read .assignModuleIndex args = .ok query) : args = [] := by
  cases args with
  | nil => rfl
  | cons first rest => cases read

end HostQuery

namespace Host

variable {host after : Host} {thread : ThreadId}

structure SameNumbers (before after : Host) : Prop where
  modules : after.modules = before.modules
  highestIndex : after.highestIndex = before.highestIndex

theorem SameNumbers.refl (host : Host) : host.SameNumbers host := ⟨rfl, rfl⟩

theorem SameNumbers.trans {first second third : Host} (one : first.SameNumbers second)
    (two : second.SameNumbers third) : first.SameNumbers third :=
  ⟨two.modules.trans one.modules, two.highestIndex.trans one.highestIndex⟩

inductive Numbers (host : Host) : Question → Host → Prop where
  | spared {question : Question} {after : Host} (unnamed : question.index? = none)
    (unassigned : question.op = .assignModuleIndex → question.args ≠ [] ∧
      ∃ error, question.answer = .error error) (same : host.SameNumbers after) :
    Numbers host question after
  | named {question : Question} {after : Host} {index : ModuleIndex} (other : question.op ≠ .assignModuleIndex)
    (named : question.index? = some index)
    (highest : after.highestIndex = max host.highestIndex index.value)
    (entries : ∀ other module, after.modules.find? other = some module →
      other = index ∨ host.modules.find? other = some module) :
    Numbers host question after
  | assigned {handle : Handle} (fits : host.upperIndex.Fits)
    (read : ModuleIndex.ofHandle? handle = some host.upperIndex) :
    Numbers host ⟨.assignModuleIndex, [], .ok handle⟩
      { host with highestIndex := host.upperIndex.value }
  | exhausted (wide : ¬ host.upperIndex.Fits) :
    Numbers host ⟨.assignModuleIndex, [], .error .indexSpaceExhausted⟩ host

theorem ok_of_bind {α β : Type} {first : Except Fault α} {next : α → Except Fault β} {result : β}
    (ran : first >>= next = .ok result) : ∃ middle, first = .ok middle ∧ next middle = .ok result := by
  cases first with
  | error broken => cases ran
  | ok middle => exact ⟨middle, rfl, ran⟩

theorem newThreadState_same {state : Handle} (made : host.newThreadState thread = .ok (state, after)) :
    host.SameNumbers after := by
  obtain ⟨stored, -, rest⟩ := ok_of_bind made
  cases rest
  exact ⟨rfl, rfl⟩

theorem dropThreadState_same {had : Bool} (dropped : host.dropThreadState thread = .ok (had, after)) :
    host.SameNumbers after := by
  unfold dropThreadState at dropped
  split at dropped
  next =>
    cases dropped
    exact .refl host
  next =>
    obtain ⟨⟨value?, objects⟩, -, rest⟩ := ok_of_bind dropped
    simp only at rest
    split at rest
    next =>
      obtain ⟨removed, -, rest⟩ := ok_of_bind rest
      cases rest
      exact ⟨rfl, rfl⟩
    next =>
      cases rest
      exact ⟨rfl, rfl⟩

theorem attach_same {state : ThreadStateHandle} (attached : host.attach thread = .ok (state, after)) :
    host.SameNumbers after := by
  unfold attach at attached
  split at attached
  next =>
    obtain ⟨typed, -, rest⟩ := ok_of_bind attached
    cases rest
    exact .refl host
  next =>
    obtain ⟨⟨handle, middle⟩, made, rest⟩ := ok_of_bind attached
    obtain ⟨typed, -, rest⟩ := ok_of_bind rest
    cases rest
    exact newThreadState_same made

theorem switch_same {state : ThreadStateHandle} (switched : host.switch thread = .ok (state, after)) :
    host.SameNumbers after := by
  obtain ⟨⟨had, middle⟩, dropped, rest⟩ := ok_of_bind switched
  obtain ⟨⟨handle, last⟩, made, rest⟩ := ok_of_bind rest
  obtain ⟨typed, -, rest⟩ := ok_of_bind rest
  cases rest
  exact (dropThreadState_same dropped).trans (newThreadState_same made)

theorem resolve_same {answer : Except UpcallError Handle}
    (answered : host.answer thread .resolve = .ok (answer, after)) : host.SameNumbers after := by
  simp only [Host.answer] at answered
  split at answered
  next =>
    cases answered
    exact .refl host
  next =>
    split at answered
    next =>
      cases answered
      exact .refl host
    next =>
      obtain ⟨⟨handle, middle⟩, made, rest⟩ := ok_of_bind answered
      cases rest
      exact newThreadState_same made

theorem dictOf_same {state : Handle} {answer : Except UpcallError Handle}
    (answered : host.answer thread (.dictOf state) = .ok (answer, after)) : host.SameNumbers after := by
  simp only [Host.answer] at answered
  split at answered
  next =>
    cases answered
    exact .refl host
  next =>
    obtain ⟨⟨dict, objects⟩, -, rest⟩ := ok_of_bind answered
    cases rest
    exact ⟨rfl, rfl⟩
  next =>
    cases answered
    exact .refl host

theorem Numbers.of_error {op : UpcallOp} {args : List Handle} {error : UpcallError}
    (unassigned : op = .assignModuleIndex → args ≠ []) :
    host.Numbers ⟨op, args, .error error⟩ host :=
  .spared (Question.index?_of_error op args error)
    (fun assigns => ⟨unassigned assigns, error, rfl⟩) (.refl host)

section

variable {op : UpcallOp} {args : List Handle} {query : HostQuery}

theorem Numbers.of_threads (read : HostQuery.read op args = .ok query) (unnamed : query.index? = none)
    (other : query.op ≠ .assignModuleIndex) (answer : Except UpcallError Handle)
    (same : host.SameNumbers after) : host.Numbers ⟨op, args, answer⟩ after := by
  have asks := HostQuery.op_of_read read
  refine .spared ?_ (fun assigns => absurd (asks.trans assigns) other) same
  cases answer with
  | error error => exact Question.index?_of_error op args error
  | ok handle =>
    have notAssign : query ≠ .assign := by
      rintro rfl
      exact other rfl
    exact (HostQuery.index?_of_read read notAssign handle).trans unnamed

theorem Numbers.of_named (read : HostQuery.read op args = .ok query) {index : ModuleIndex}
    (named : query.index? = some index) {answer : Handle}
    (highest : after.highestIndex = max host.highestIndex index.value)
    (entries : ∀ other module, after.modules.find? other = some module →
      other = index ∨ host.modules.find? other = some module) :
    host.Numbers ⟨op, args, .ok answer⟩ after := by
  have notAssign : query ≠ .assign := by
    rintro rfl
    cases named
  have asks := HostQuery.op_of_read read
  refine .named (fun assigns => ?_) ((HostQuery.index?_of_read read notAssign answer).trans named)
    highest entries
  exact notAssign (HostQuery.eq_assign_of_op (asks.trans assigns))

end

theorem Tagged.noteIndex (tagged : host.Tagged) (index : ModuleIndex) :
    (host.noteIndex index).Tagged :=
  ⟨tagged.objects, tagged.threads⟩

theorem Tagged.serves (tagged : host.Tagged) (thread : ThreadId) (op : UpcallOp) (args : List Handle) :
    ∃ answer after, host.invoke thread op args = .ok (answer, after) ∧ after.Tagged ∧
      host.Numbers ⟨op, args, answer⟩ after := by
  rw [invoke_eq]
  cases read : HostQuery.read op args with
  | error error =>
    refine ⟨.error error, host, rfl, tagged, .of_error ?_⟩
    rintro rfl rfl
    cases read
  | ok query =>
    simp only
    cases query with
    | resolve =>
      obtain ⟨answer, after, answered, kept, -⟩ := tagged.resolve thread
      exact ⟨answer, after, answered, kept,
        .of_threads read rfl (by decide) answer (resolve_same answered)⟩
    | dictOf state =>
      obtain ⟨answer, after, answered, kept, -⟩ := tagged.dictOf thread state
      exact ⟨answer, after, answered, kept,
        .of_threads read rfl (by simp [HostQuery.op]) answer (dictOf_same answered)⟩
    | find index =>
      exact ⟨_, _, rfl, tagged.noteIndex index, .of_named read rfl rfl fun other module => .inr⟩
    | add handle index =>
      simp only [Host.answer]
      cases live : host.liveModule? handle with
      | none =>
        refine ⟨_, _, rfl, tagged, .of_error ?_⟩
        rintro rfl
        cases HostQuery.op_of_read read
      | some module =>
        refine ⟨_, _, rfl, ⟨tagged.objects, tagged.threads⟩, .of_named read rfl rfl ?_⟩
        intro other found stored
        rw [ModuleRegistry.find?_insert] at stored
        split at stored
        next same => exact .inl same
        next => exact .inr stored
    | remove index =>
      refine ⟨_, { host.noteIndex index with modules := (host.modules.remove index).2 }, rfl,
        ⟨tagged.objects, tagged.threads⟩, .of_named read rfl rfl ?_⟩
      intro other found stored
      rw [ModuleRegistry.find?_remove] at stored
      split at stored
      next => cases stored
      next => exact .inr stored
    | assign =>
      obtain rfl := HostQuery.op_of_read read
      obtain rfl := HostQuery.args_of_read_assign read
      have invoked := invoke_of_query (HostQuery.run_decode_assign []) host thread
      rw [← invoked]
      by_cases fits : host.upperIndex.Fits
      next =>
        obtain ⟨handle, -, carried, answered⟩ := runtime_assign fits thread
        exact ⟨_, _, answered, ⟨tagged.objects, tagged.threads⟩, .assigned fits carried⟩
      next => exact ⟨_, _, runtime_exhausted fits thread, tagged, .exhausted fits⟩

inductive Called (host : Host) (thread : ThreadId) : HostCall → Host → Prop where
  | spared {call : HostCall} {after : Host} (other : ∀ op args, call ≠ .invoke op args)
    (same : host.SameNumbers after) : Called host thread call after
  | invoked {op : UpcallOp} {args : List Handle} {answer : Except UpcallError Handle} {after : Host}
    (invoked : host.invoke thread op args = .ok (answer, after))
    (numbers : host.Numbers ⟨op, args, answer⟩ after) : Called host thread (.invoke op args) after

theorem Tagged.called (tagged : host.Tagged) (thread : ThreadId) (call : HostCall) :
    ∃ answer after, host.call thread call = .ok (answer, after) ∧ after.Tagged ∧
      host.Called thread call after := by
  cases call with
  | attach =>
    obtain ⟨state, after, attached, kept, -⟩ := tagged.attach thread
    exact ⟨.threadState state, after, by simp only [Host.call, attached]; rfl, kept,
      .spared (by simp) (attach_same attached)⟩
  | switch =>
    obtain ⟨state, after, switched, kept, -⟩ := tagged.switch thread
    exact ⟨.threadState state, after, by simp only [Host.call, switched]; rfl, kept,
      .spared (by simp) (switch_same switched)⟩
  | detach =>
    obtain ⟨had, after, dropped, kept, -⟩ := tagged.detach thread
    exact ⟨.flag had, after, by simp only [Host.call, dropped]; rfl, kept,
      .spared (by simp) (dropThreadState_same dropped)⟩
  | newModule name =>
    obtain ⟨module, after, made, modules, highest, kept, -⟩ := tagged.newModule name
    exact ⟨.module module, after, by simp only [Host.call, made]; rfl, kept,
      .spared (by simp) ⟨modules, highest⟩⟩
  | dictSet dict key value =>
    obtain ⟨kept, keeps⟩ := tagged.dictSet dict key value
    exact ⟨_, _, rfl, kept, .spared (by simp) ⟨keeps.modules, keeps.highestIndex⟩⟩
  | moduleName | dictGet | dictSize | registeredModule =>
    exact ⟨_, host, rfl, tagged, .spared (by simp) (.refl host)⟩
  | invoke op args =>
    obtain ⟨result, after, invoked, kept, numbers⟩ := tagged.serves thread op args
    exact ⟨.upcall result, after, by simp only [Host.call, invoked]; rfl, kept,
      .invoked invoked numbers⟩

end Host

end StateBridge
