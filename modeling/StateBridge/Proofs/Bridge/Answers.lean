import StateBridge.Proofs.Module.Phases

set_option autoImplicit false

namespace StateBridge

namespace ModuleIndex

theorem ofHandle?_eq_some_iff {handle : Handle} {index : ModuleIndex} :
    ofHandle? handle = some index ↔ handle.toInt? = some (index.value : Int) := by
  have positive := index.positive
  cases read : handle.toInt? with
  | none => simp [ofHandle?, read]
  | some value =>
    simp only [ofHandle?, read, Option.bind_some, ofNat?_eq_some_iff, Option.some.injEq]
    omega

theorem kind?_of_ofHandle? {handle : Handle} {index : ModuleIndex}
    (read : ofHandle? handle = some index) : handle.kind? = some .int := by
  have carried := ofHandle?_eq_some_iff.1 read
  unfold Handle.toInt? at carried
  split at carried
  next isInt => exact Handle.isKind_iff.1 isInt
  next => cases carried

end ModuleIndex

theorem Host.moduleAnswer_injective {first second : Option ModuleHandle}
    (same : moduleAnswer first = moduleAnswer second) : first = second := by
  have one := BridgeCall.optionalModule_moduleAnswer .findModuleByIndex first
  rw [same, BridgeCall.optionalModule_moduleAnswer] at one
  exact (Except.ok.inj one).symm

namespace UpcallOp

def expected : UpcallOp → HandleKind
  | .resolveCurrentThreadState => .threadState
  | .threadStateDict => .dict
  | .findModuleByIndex | .addModuleByIndex | .removeModuleByIndex => .module
  | .assignModuleIndex => .int

def Accepts (op : UpcallOp) (handle : Handle) : Prop :=
  match op with
  | .resolveCurrentThreadState | .threadStateDict => handle.kind? = some op.expected
  | .findModuleByIndex | .addModuleByIndex | .removeModuleByIndex =>
    handle = .null ∨ handle.kind? = some op.expected
  | .assignModuleIndex => ∃ value, handle.toInt? = some value ∧ 0 < value

def unexpected (op : UpcallOp) (handle : Handle) : UpcallError :=
  .unexpectedHandle op op.expected handle.describe

theorem accepts_assign_iff {handle : Handle} : assignModuleIndex.Accepts handle ↔
    ∃ index, ModuleIndex.ofHandle? handle = some index := by
  constructor
  next =>
    rintro ⟨value, read, positive⟩
    refine ⟨⟨value.toNat, by omega⟩, ModuleIndex.ofHandle?_eq_some_iff.2 ?_⟩
    rw [read, Int.toNat_of_nonneg (by omega)]
  next =>
    rintro ⟨index, read⟩
    exact ⟨index.value, ModuleIndex.ofHandle?_eq_some_iff.1 read, by have := index.positive; omega⟩

end UpcallOp

namespace Question

def RefusedWith (question : Question) (error : UpcallError) : Prop :=
  question.answer = .error error ∨ ∃ handle, question.answer = .ok handle ∧
    ¬ question.op.Accepts handle ∧ error = question.op.unexpected handle

def Accepted (question : Question) : Prop :=
  ∃ handle, question.answer = .ok handle ∧ question.op.Accepts handle

theorem Accepted.not_refused {question : Question} (accepted : question.Accepted)
    {error : UpcallError} : ¬ question.RefusedWith error := by
  obtain ⟨handle, answered, accepts⟩ := accepted
  rintro (failed | ⟨other, same, refuses, -⟩)
  next =>
    rw [answered] at failed
    cases failed
  next =>
    rw [answered] at same
    cases same
    exact refuses accepts

theorem RefusedWith.unique {question : Question} {first second : UpcallError}
    (one : question.RefusedWith first) (two : question.RefusedWith second) : first = second := by
  rcases one with failed | ⟨handle, answered, -, rfl⟩
  next =>
    rcases two with same | ⟨handle, answered, -⟩
    next =>
      rw [failed] at same
      cases same
      rfl
    next =>
      rw [failed] at answered
      cases answered
  next =>
    rcases two with failed | ⟨other, same, -, rfl⟩
    next =>
      rw [answered] at failed
      cases failed
    next =>
      rw [answered] at same
      cases same
      rfl

end Question

namespace BridgeCall

variable {α : Type}

def Judges (op : UpcallOp) (judge : Handle → Except UpcallError α) : Prop :=
  ∀ handle, (op.Accepts handle ∧ ∃ value, judge handle = .ok value) ∨
    (¬ op.Accepts handle ∧ judge handle = .error (op.unexpected handle))

def typedAnswer (op : UpcallOp) (wrap? : Handle → Option α) (unwrapped : Handle → UpcallError)
    (handle : Handle) : Except UpcallError α := do
  let handle ← expectKind op handle op.expected
  match wrap? handle with
  | some value => return value
  | none => throw (unwrapped handle)

def stateAnswer : Handle → Except UpcallError ThreadStateHandle :=
  typedAnswer .resolveCurrentThreadState ThreadStateHandle.ofHandle? fun _ => .noThreadState

def dictAnswer : Handle → Except UpcallError DictHandle :=
  typedAnswer .threadStateDict DictHandle.ofHandle? UpcallOp.threadStateDict.unexpected

def indexAnswer : Handle → Except UpcallError ModuleIndex :=
  typedAnswer .assignModuleIndex ModuleIndex.ofHandle? UpcallOp.assignModuleIndex.unexpected

section

variable {op : UpcallOp} {wrap? : Handle → Option α} {unwrapped : Handle → UpcallError} {handle : Handle}

theorem typedAnswer_of_kind (ofKind : handle.kind? = some op.expected) :
    typedAnswer op wrap? unwrapped handle = match wrap? handle with
      | some value => .ok value
      | none => .error (unwrapped handle) := by
  have checked : expectKind op handle op.expected = .ok handle := by
    simp [expectKind, Handle.isKind_iff.2 ofKind]
  unfold typedAnswer
  rw [checked]
  simp only [bind, Except.bind]
  cases wrap? handle <;> rfl

theorem typedAnswer_of_not_kind (other : handle.kind? ≠ some op.expected) :
    typedAnswer op wrap? unwrapped handle = .error (op.unexpected handle) := by
  have checked : expectKind op handle op.expected = .error (op.unexpected handle) := by
    simp [expectKind, mt Handle.isKind_iff.1 other, UpcallOp.unexpected]
  unfold typedAnswer
  rw [checked]
  rfl

theorem typedAnswer_eq_ok_iff
    (typed : ∀ handle value, wrap? handle = some value → handle.kind? = some op.expected) {value : α} :
    typedAnswer op wrap? unwrapped handle = .ok value ↔ wrap? handle = some value := by
  by_cases ofKind : handle.kind? = some op.expected
  next =>
    rw [typedAnswer_of_kind ofKind]
    cases wrap? handle <;> simp
  next =>
    have unwrappable : wrap? handle ≠ some value := mt (typed handle value) ofKind
    simp [typedAnswer_of_not_kind ofKind, unwrappable]

theorem judges_typedAnswer
    (typed : ∀ handle value, wrap? handle = some value → handle.kind? = some op.expected)
    (accepts : ∀ handle, op.Accepts handle ↔ ∃ value, wrap? handle = some value)
    (complains : ∀ handle, ¬ op.Accepts handle → handle.kind? = some op.expected →
      unwrapped handle = op.unexpected handle) :
    Judges op (typedAnswer op wrap? unwrapped) := by
  intro handle
  by_cases accepted : op.Accepts handle
  next =>
    obtain ⟨value, wrapped⟩ := (accepts handle).1 accepted
    exact .inl ⟨accepted, value, (typedAnswer_eq_ok_iff typed).2 wrapped⟩
  next =>
    refine .inr ⟨accepted, ?_⟩
    by_cases ofKind : handle.kind? = some op.expected
    next =>
      have unwrappable : wrap? handle = none := by
        simpa [Option.eq_none_iff_forall_ne_some] using mt (accepts handle).2 accepted
      rw [typedAnswer_of_kind ofKind, unwrappable]
      exact congrArg Except.error (complains handle accepted ofKind)
    next => exact typedAnswer_of_not_kind ofKind

end

theorem stateAnswer_eq_ok_iff {handle : Handle} {state : ThreadStateHandle} :
    stateAnswer handle = .ok state ↔ handle = state.handle :=
  (typedAnswer_eq_ok_iff fun _ _ => TypedHandle.kind?_of_ofHandle?).trans TypedHandle.ofHandle?_eq_some_iff

theorem dictAnswer_eq_ok_iff {handle : Handle} {dict : DictHandle} :
    dictAnswer handle = .ok dict ↔ handle = dict.handle :=
  (typedAnswer_eq_ok_iff fun _ _ => TypedHandle.kind?_of_ofHandle?).trans TypedHandle.ofHandle?_eq_some_iff

theorem indexAnswer_eq_ok_iff {handle : Handle} {index : ModuleIndex} :
    indexAnswer handle = .ok index ↔ ModuleIndex.ofHandle? handle = some index :=
  typedAnswer_eq_ok_iff fun _ _ => ModuleIndex.kind?_of_ofHandle?

theorem judges_stateAnswer : Judges .resolveCurrentThreadState stateAnswer := by
  apply judges_typedAnswer
  next => exact fun _ _ => TypedHandle.kind?_of_ofHandle?
  next =>
    intro handle
    constructor
    next => exact fun ofKind => ⟨⟨handle, ofKind⟩, TypedHandle.ofHandle?_eq_some_iff.2 rfl⟩
    next => exact fun ⟨_, wrapped⟩ => TypedHandle.kind?_of_ofHandle? wrapped
  next => exact fun _ refuses ofKind => absurd ofKind refuses

theorem judges_dictAnswer : Judges .threadStateDict dictAnswer := by
  apply judges_typedAnswer
  next => exact fun _ _ => TypedHandle.kind?_of_ofHandle?
  next =>
    intro handle
    constructor
    next => exact fun ofKind => ⟨⟨handle, ofKind⟩, TypedHandle.ofHandle?_eq_some_iff.2 rfl⟩
    next => exact fun ⟨_, wrapped⟩ => TypedHandle.kind?_of_ofHandle? wrapped
  next => exact fun _ _ _ => rfl

theorem judges_indexAnswer : Judges .assignModuleIndex indexAnswer :=
  judges_typedAnswer (fun _ _ => ModuleIndex.kind?_of_ofHandle?)
    (fun _ => UpcallOp.accepts_assign_iff) fun _ _ _ => rfl

theorem optionalModule_eq_ok_iff {op : UpcallOp} {handle : Handle} {module? : Option ModuleHandle} :
    optionalModule op handle = .ok module? ↔ handle = Host.moduleAnswer module? := by
  constructor
  next =>
    intro accepted
    unfold optionalModule expectOptionalKind expectKind at accepted
    split at accepted
    next isNull =>
      cases accepted
      exact Handle.isNull_iff.1 isNull
    next =>
      split at accepted
      next isModule =>
        cases accepted
        have wrapped : ModuleHandle.ofHandle? handle =
            some ⟨handle, Handle.isKind_iff.1 isModule⟩ := TypedHandle.ofHandle?_handle ⟨handle, _⟩
        simp only [Option.bind_some, wrapped, Host.moduleAnswer]
      next => cases accepted
  next =>
    intro same
    subst same
    exact optionalModule_moduleAnswer op module?

theorem accepts_moduleAnswer {handle : Handle} :
    (handle = .null ∨ handle.kind? = some .module) ↔ ∃ module?, handle = Host.moduleAnswer module? := by
  constructor
  next =>
    rintro (isNull | isModule)
    next => exact ⟨none, isNull⟩
    next => exact ⟨some ⟨handle, isModule⟩, rfl⟩
  next =>
    rintro ⟨none | module, rfl⟩
    next => exact .inl rfl
    next => exact .inr module.isKind

theorem judges_optionalModule {op : UpcallOp} (optional : ∀ handle,
    op.Accepts handle ↔ handle = .null ∨ handle.kind? = some .module) (kind : op.expected = .module) :
    Judges op (optionalModule op) := by
  intro handle
  by_cases accepts : op.Accepts handle
  next =>
    obtain ⟨module?, same⟩ := accepts_moduleAnswer.1 ((optional handle).1 accepts)
    exact .inl ⟨accepts, module?, optionalModule_eq_ok_iff.2 same⟩
  next =>
    have neither := mt (optional handle).2 accepts
    rw [not_or, ← Handle.isNull_iff, ← Handle.isKind_iff] at neither
    refine .inr ⟨accepts, ?_⟩
    simp [optionalModule, expectOptionalKind, expectKind, neither, Except.map, UpcallOp.unexpected,
      kind]

end BridgeCall

end StateBridge
