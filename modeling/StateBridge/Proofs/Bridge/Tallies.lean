import StateBridge.Proofs.Native.Attachment

set_option autoImplicit false

namespace StateBridge

structure Crossing where
  bridge : BridgeId
  op : UpcallOp
  answer : Except UpcallError Handle
  deriving DecidableEq

namespace UpcallStats

structure Reports (stats : UpcallStats) (crossings : List Crossing) : Prop where
  calls : ∀ op, (stats.calls op).toNat = crossings.countP fun crossing => crossing.op = op
  failures : ∀ op, (stats.failures op).toNat =
    crossings.countP fun crossing => crossing.op = op ∧ crossing.answer.isOk = false
  failed : ∀ op, stats.failures op ≤ stats.calls op
  total : stats.total.toNat = (UpcallOp.all.map fun op => (stats.calls op).toNat).sum
  crossed : stats.total.toNat = crossings.length
  listed : ∀ op calls failures, (op, calls, failures) ∈ stats.snapshot ↔
    stats.calls op ≠ 0 ∧ calls = stats.calls op ∧ failures = stats.failures op
  ordered : List.Sublist (stats.snapshot.map Prod.fst) UpcallOp.all
  once : (stats.snapshot.map Prod.fst).Nodup

def after (crossings : List Crossing) : UpcallStats :=
  crossings.foldl (fun stats crossing => stats.hit crossing.op crossing.answer.isOk) zero

theorem after_concat (crossings : List Crossing) (crossing : Crossing) :
    after (crossings ++ [crossing]) = (after crossings).hit crossing.op crossing.answer.isOk := by
  rw [after, List.foldl_append]
  rfl

-- The counters wrap around, so that they only say how many there were up to multiples of 2^64.
theorem tally_after (crossings : List Crossing) (op : UpcallOp) :
    (after crossings).tally op =
      ⟨UInt64.ofNat (crossings.countP fun crossing => crossing.op = op),
        UInt64.ofNat (crossings.countP fun crossing =>
          crossing.op = op ∧ crossing.answer.isOk = false)⟩ := by
  induction crossings using List.reverseRecOn with
  | nil => exact tally_zero op
  | append_singleton crossings crossing ih =>
    rw [after_concat, tally_hit, List.countP_append, List.countP_append, List.countP_singleton,
      List.countP_singleton]
    by_cases same : op = crossing.op
    next =>
      subst same
      rw [if_pos rfl, calls, failures, ih]
      cases crossing.answer.isOk <;> simp [UInt64.ofNat_add]
    next => simp [ih, same, Ne.symm same]

theorem sum_countP (crossings : List Crossing) :
    (UpcallOp.all.map fun op => crossings.countP fun crossing => crossing.op = op).sum =
      crossings.length := by
  induction crossings with
  | nil => decide
  | cons crossing crossings ih =>
    simp only [UpcallOp.all, List.map_cons, List.map_nil, List.sum_cons, List.sum_nil,
      List.countP_cons, List.length_cons] at ih ⊢
    cases crossing.op <;> simp <;> omega

theorem calls_after (crossings : List Crossing) (op : UpcallOp) : (after crossings).calls op =
    UInt64.ofNat (crossings.countP fun crossing => crossing.op = op) := by
  rw [calls, tally_after]

theorem failures_after (crossings : List Crossing) (op : UpcallOp) : (after crossings).failures op =
    UInt64.ofNat (crossings.countP fun crossing =>
      crossing.op = op ∧ crossing.answer.isOk = false) := by
  rw [failures, tally_after]

theorem total_after (crossings : List Crossing) :
    (after crossings).total = UInt64.ofNat crossings.length := by
  rw [← sum_countP crossings]
  simp only [total, UpcallOp.all, List.map_cons, List.map_nil, List.foldl_cons, List.foldl_nil,
    List.sum_cons, List.sum_nil, calls_after, UInt64.ofNat_add]
  ac_rfl

theorem mem_snapshot {stats : UpcallStats} {op : UpcallOp} {calls failures : UInt64} :
    (op, calls, failures) ∈ stats.snapshot ↔
      stats.calls op ≠ 0 ∧ calls = stats.calls op ∧ failures = stats.failures op := by
  simp only [snapshot, List.mem_map, List.mem_filter, UpcallOp.mem_all, true_and, decide_eq_true_eq,
    UInt64.pos_iff_ne_zero, Prod.mk.injEq]
  constructor
  next =>
    rintro ⟨listed, called, rfl, rfl, rfl⟩
    exact ⟨called, rfl, rfl⟩
  next =>
    rintro ⟨called, rfl, rfl⟩
    exact ⟨op, called, rfl, rfl, rfl⟩

theorem snapshot_sublist (stats : UpcallStats) :
    List.Sublist (stats.snapshot.map Prod.fst) UpcallOp.all := by
  have ops : stats.snapshot.map Prod.fst = UpcallOp.all.filter fun op => 0 < stats.calls op := by
    simp [snapshot, Function.comp_def]
  rw [ops]
  exact List.filter_sublist

theorem after_reports {crossings : List Crossing} (few : crossings.length < 2 ^ 64) :
    (after crossings).Reports crossings := by
  have whole (predicate : Crossing → Bool) :
      (UInt64.ofNat (crossings.countP predicate)).toNat = crossings.countP predicate :=
    UInt64.toNat_ofNat_of_lt (crossings.countP_le_length.trans_lt few)
  have called (op : UpcallOp) : ((after crossings).calls op).toNat =
      crossings.countP fun crossing => crossing.op = op := by
    rw [calls_after, whole]
  have failed (op : UpcallOp) : ((after crossings).failures op).toNat =
      crossings.countP fun crossing => crossing.op = op ∧ crossing.answer.isOk = false := by
    rw [failures_after, whole]
  have crossed : (after crossings).total.toNat = crossings.length := by
    rw [total_after]
    exact UInt64.toNat_ofNat_of_lt few
  constructor
  case calls => exact called
  case failures => exact failed
  case failed =>
    intro op
    rw [UInt64.le_iff_toNat_le, called, failed]
    exact List.countP_mono_left fun crossing _ both => by simp_all
  case total =>
    simp only [called]
    rw [crossed, sum_countP]
  case crossed => exact crossed
  case listed => exact fun op calls failures => mem_snapshot
  case ordered => exact snapshot_sublist _
  case once => exact (snapshot_sublist _).nodup UpcallOp.all_nodup

end UpcallStats

namespace BridgeRequest

section

variable {World : Type} (request : BridgeRequest) (gate : Gate World) (id : BridgeId)
  (thread : ThreadId) (process : Process World)

-- The runtime may make other calls while it has an upcall, and these are counted before it.
structure CountsAnswers : Prop where
  untouched : ∀ first exchange later,
    request.exchanges gate id thread process = first ++ exchange :: later →
      exchange.before.bridgeStats = (request.reached id (process.bridge id) process first).bridgeStats
  counted : ∀ first exchange later,
    request.exchanges gate id thread process = first ++ exchange :: later →
      (request.reached id (process.bridge id) process (first ++ [exchange])).bridgeStats =
        if (process.bridge id).config.profile then Function.update exchange.after.bridgeStats id
          ((exchange.after.bridgeStats id).hit exchange.op exchange.answer.isOk)
        else exchange.after.bridgeStats
  others : ∀ first exchange later,
    request.exchanges gate id thread process = first ++ exchange :: later → ∀ other ≠ id,
      (request.reached id (process.bridge id) process (first ++ [exchange])).bridgeStats other =
        exchange.after.bridgeStats other
  returned : ∀ reply after, request.play gate id thread process = .ok reply after →
    after.bridgeStats = (request.left gate id thread process).bridgeStats
  -- A handle of a wrong kind makes the call fail, but not the upcall.
  rejected : ∀ exchange ∈ request.exchanges gate id thread process, ∀ handle,
    exchange.answer = .ok handle → ¬ exchange.op.Accepts handle →
      ∃ after, request.play gate id thread process =
          .ok (request.failed (exchange.op.unexpected handle)) after ∧
        after.bridgeStats =
          if (process.bridge id).config.profile then Function.update exchange.after.bridgeStats id
            ((exchange.after.bridgeStats id).hit exchange.op true)
          else exchange.after.bridgeStats
  uncrossed : request.exchanges gate id thread process = [] → ∀ reply after,
    request.play gate id thread process = .ok reply after → after.bridgeStats = process.bridgeStats
  decided : request.Decided process.definition → request.exchanges gate id thread process = [] ∧
    ∃ reply, request.play gate id thread process = .ok reply process

end

variable {World : Type} {gate : Gate World} {id : BridgeId} {thread : ThreadId}
  {process : Process World} {request : BridgeRequest}

theorem bridgeStats_of_returned {reply : EventAnswer} {after : Process World}
    (played : request.play gate id thread process = .ok reply after) :
    after.bridgeStats = (request.left gate id thread process).bridgeStats := by
  obtain ⟨records, rfl⟩ := after_of_returned played
  rfl

theorem bridgeStats_reached_concat (request : BridgeRequest) (id : BridgeId) (bridge : Bridge)
    (process : Process World) (first : List (Exchange World)) (exchange : Exchange World) :
    (request.reached id bridge process (first ++ [exchange])).bridgeStats =
      if bridge.config.profile then Function.update exchange.after.bridgeStats id
        ((exchange.after.bridgeStats id).hit exchange.op exchange.answer.isOk)
      else exchange.after.bridgeStats := by
  rw [reached_concat, bridgeStats_settle, Process.bridgeStats_conclude]

theorem countsAnswers (request : BridgeRequest) (gate : Gate World) (id : BridgeId)
    (thread : ThreadId) (process : Process World) :
    request.CountsAnswers gate id thread process := by
  constructor
  case untouched =>
    intro first exchange later split
    rw [before_eq_reached split]
  case counted => exact fun first exchange later split => bridgeStats_reached_concat ..
  case others =>
    intro first exchange later split other apart
    rw [bridgeStats_reached_concat]
    split
    next => rw [Function.update_of_ne apart]
    next => rfl
  case returned => exact fun reply after => bridgeStats_of_returned
  case rejected =>
    intro exchange member handle answered refuses
    obtain ⟨first, -, played⟩ := refused_of_mem member (.inr ⟨handle, answered, refuses, rfl⟩)
    refine ⟨_, played, ?_⟩
    rw [Process.bridgeStats_conclude, answered]
    rfl
  case uncrossed =>
    intro uncrossed reply after played
    rw [bridgeStats_of_returned played, left, uncrossed]
    rfl
  case decided => exact decided_returns

end BridgeRequest

end StateBridge
