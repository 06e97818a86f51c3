import StateBridge.Proofs.Module.Calls
import StateBridge.Proofs.Process.Race

set_option autoImplicit false

namespace StateBridge

def ModuleReply.Mentions : ModuleReply → ModuleIndex → Prop
  | .index (.ok told), named => told = named
  | .status (.error (.moduleAlreadyAdded told)), named => told = named
  | _, _ => False

namespace Dialogue

def Answers (reply : ModuleReply) : Dialogue ModuleReply → Prop
  | .done result => result = reply
  | .note _ next => next.Answers reply
  | _ => False

def Concludes (index : ModuleIndex) (dialogue : Dialogue ModuleReply) : Prop :=
  ∃ reply, dialogue.Answers reply ∧ ∀ told, reply.Mentions told → told = index

-- Such a call learns from the answer whether it was the first to register the module.
def Places (request : IndexRequest) (index : ModuleIndex) : Dialogue ModuleReply → Prop
  | .ask op args next => ∃ module handle, request = .add module ∧ op = .addModuleByIndex ∧
      args = [module.handle, handle] ∧ ModuleIndex.ofHandle? handle = some index ∧
      (next (.ok .null)).Answers (.status (.ok ())) ∧
      (next (.ok module.handle)).Answers (.status (.error (.moduleAlreadyAdded index))) ∧
      ∀ answer, (next answer).Concludes index
  | _ => False

def Settled (request : IndexRequest) (index : ModuleIndex) (dialogue : Dialogue ModuleReply) : Prop :=
  dialogue.Places request index ∨ dialogue.Concludes index

-- The index comes from the definition, by looking or by a claim, and never from the runtime alone.
def Unsettled (definition : DefinitionId) (request : IndexRequest) : Dialogue ModuleReply → Prop
  | .done reply => ∀ told, ¬ reply.Mentions told
  | .look looked next => looked = definition ∧ ∀ found : ModuleDefinition,
      (next found).Unsettled definition request ∨
        ∃ index, found.index? = some index ∧ (next found).Settled request index
  | .claim claimed _ next => claimed = definition ∧ ∀ won, (next won).Settled request won
  | .ask op args next => op = .assignModuleIndex ∧ args = [] ∧
      ∀ answer, (next answer).Unsettled definition request
  | _ => False

variable {dialogue : Dialogue ModuleReply} {index : ModuleIndex}

theorem Answers.unique {first second : ModuleReply} (answers : dialogue.Answers first)
    (others : dialogue.Answers second) : first = second := by
  induction dialogue with
  | done result => exact answers.symm.trans others
  | note line next ih => exact ih answers others
  | abort | fault | look | claim | ask => exact answers.elim

theorem Concludes.of_done {reply : ModuleReply} (told : ∀ told, reply.Mentions told → told = index) :
    (Dialogue.done reply).Concludes index := ⟨reply, rfl, told⟩

end Dialogue

namespace BridgeCall

def assignedIndex (answer : Except UpcallError Handle) : Except UpcallError ModuleIndex := do
  let handle ← expectKind .assignModuleIndex (← answer) .int
  match ModuleIndex.ofHandle? handle with
  | some index => return index
  | none => throw (.unexpectedHandle .assignModuleIndex .int handle.describe)

theorem run_initModuleDefinition (definition : DefinitionId) :
    (initModuleDefinition definition).run = .look definition fun found =>
      match found.index? with
      | some index => .done (.ok index)
      | none => .ask .assignModuleIndex [] fun answer =>
        match assignedIndex answer with
        | .ok index => .claim definition index fun won => .done (.ok won)
        | .error error => .done (.error error) := by
  refine congrArg (Dialogue.look definition) (funext fun found => ?_)
  change ExceptT.run (match found.index? with | some index => _ | none => _) = _
  cases found.index? with
  | some index => rfl
  | none =>
    refine congrArg (Dialogue.ask UpcallOp.assignModuleIndex []) (funext fun answer => ?_)
    cases answer with
    | error error => rfl
    | ok handle =>
      let claimed (handle : Handle) : BridgeCall UpcallError ModuleIndex :=
        match ModuleIndex.ofHandle? handle with
        | some index => claim definition index
        | none => throw (.unexpectedHandle .assignModuleIndex .int handle.describe)
      change (liftM (expectKind .assignModuleIndex handle .int) >>= claimed).run = _
      simp only [assignedIndex, bind, Except.bind]
      cases expectKind .assignModuleIndex handle .int with
      | error error => rfl
      | ok handle =>
        change (claimed handle).run = _
        simp only [claimed]
        cases ModuleIndex.ofHandle? handle <;> rfl

theorem run_placeModule (module : ModuleHandle) {index : ModuleIndex} {handle : Handle}
    (carried : index.toHandle? = some (.ok handle)) :
    (asApi (placeModule module index) >>= reportPlaced module index).run =
      .ask .addModuleByIndex [module.handle, handle] fun answer =>
        match answer.bind (optionalModule .addModuleByIndex) with
        | .ok previous? => (reportPlaced module index previous?).run
        | .error error => .done (.error (.upcall error)) := by
  unfold placeModule indexArgument
  rw [carried]
  refine congrArg (Dialogue.ask _ _) (funext fun answer => ?_)
  cases answer with
  | error error => rfl
  | ok handle =>
    change (asApi (liftM (optionalModule .addModuleByIndex handle)) >>= _).run =
      match optionalModule .addModuleByIndex handle with
      | .ok previous? => (reportPlaced module index previous?).run
      | .error error => .done (.error (.upcall error))
    cases optionalModule .addModuleByIndex handle <;> rfl

theorem unsettled_init (definition : DefinitionId) (request : IndexRequest)
    (next : Except UpcallError ModuleIndex → Dialogue ModuleReply)
    (given : ∀ index, (next (.ok index)).Settled request index)
    (failed : ∀ error, (next (.error error)).Unsettled definition request) :
    ((initModuleDefinition definition).run.bind next).Unsettled definition request := by
  -- However a call goes on from the index that it is given, until then it has none.
  rw [run_initModuleDefinition]
  refine ⟨rfl, ?_⟩
  intro found
  cases assigned : found.index? with
  | some index =>
    simp only [assigned]
    exact .inr ⟨index, rfl, given index⟩
  | none =>
    simp only [assigned]
    refine .inl ⟨rfl, rfl, ?_⟩
    intro answer
    beta_reduce
    cases assignedIndex answer with
    | error error => exact failed error
    | ok index => exact ⟨rfl, given⟩

theorem concludes_reportPlaced (module : ModuleHandle) (index : ModuleIndex)
    (previous? : Option ModuleHandle) :
    (ModuleReply.status <$> (reportPlaced module index previous?).run).Concludes index := by
  cases previous? with
  | none => exact ⟨_, rfl, fun told mentions => mentions.elim⟩
  | some previous =>
    by_cases same : previous = module
    next =>
      simp only [reportPlaced, if_pos same]
      exact ⟨_, rfl, fun told mentions => mentions.symm⟩
    next =>
      simp only [reportPlaced, if_neg same]
      exact ⟨_, rfl, fun told mentions => mentions.elim⟩

theorem settled_place (module : ModuleHandle) (index : ModuleIndex) :
    (ModuleReply.status <$> (asApi (placeModule module index) >>=
      reportPlaced module index).run).Settled (.add module) index := by
  by_cases fits : index.Fits
  next =>
    obtain ⟨handle, carried, read⟩ := fits.toHandle?
    rw [run_placeModule module carried]
    refine .inl ⟨module, handle, rfl, rfl, rfl, read, rfl, ?_, ?_⟩
    next =>
      have present := optionalModule_moduleAnswer .addModuleByIndex (some module)
      change Dialogue.Answers _ (ModuleReply.status <$>
        (match optionalModule .addModuleByIndex module.handle with
        | .ok previous? => (reportPlaced module index previous?).run
        | .error error => .done (.error (.upcall error))))
      rw [show optionalModule .addModuleByIndex module.handle = .ok (some module) from present]
      simp only [reportPlaced, if_true]
      rfl
    next =>
      intro answer
      change Dialogue.Concludes _ (ModuleReply.status <$>
        (match answer.bind (optionalModule .addModuleByIndex) with
        | .ok previous? => (reportPlaced module index previous?).run
        | .error error => .done (.error (.upcall error))))
      cases answer.bind (optionalModule .addModuleByIndex) with
      | error error => exact .of_done fun told mentions => mentions.elim
      | ok previous? => exact concludes_reportPlaced module index previous?
  next =>
    have refused : (placeModule module index).run = .done (.error
        (.invalidArgument .addModuleByIndex (.indexTooLarge index))) := by
      unfold placeModule indexArgument
      rw [ModuleIndex.toHandle?_of_not_fits fits]
      rfl
    right
    change Dialogue.Concludes _ (Dialogue.bind (Dialogue.bind (Dialogue.bind
      (placeModule module index).run _) _) _)
    rw [refused]
    exact .of_done fun told mentions => mentions.elim

theorem unsettled_dialogue (definition : DefinitionId) (request : IndexRequest) :
    (request.dialogue definition).Unsettled definition request := by
  cases request with
  | init =>
    exact unsettled_init definition .init _
      (fun index => .inr (.of_done fun told mentions => mentions.symm))
      fun error told mentions => mentions.elim
  | add module =>
    simp only [IndexRequest.dialogue, addModule_eq]
    refine ⟨rfl, ?_⟩
    intro found
    left
    change Dialogue.Unsettled _ _ (ModuleReply.status <$> (
      if found.hasSlots then throw (.moduleHasSlots addModuleFunction)
      else asApi (initModuleDefinition definition) >>= fun index =>
        asApi (placeModule module index) >>= reportPlaced module index :
          BridgeCall ApiError Unit).run)
    cases found.hasSlots with
    | true => exact fun told mentions => mentions.elim
    | false =>
      change Dialogue.Unsettled _ _ (Dialogue.bind (Dialogue.bind (Dialogue.bind
        (initModuleDefinition definition).run _) _) _)
      rw [Dialogue.bind_assoc, Dialogue.bind_assoc]
      exact unsettled_init definition _ _ (settled_place module) fun error told mentions => mentions.elim

end BridgeCall

end StateBridge
