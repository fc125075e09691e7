import Otf2Dump.Writer.Run

/-!
# What every method does to the trace

A method either leaves the records, the clock bounds, the region table and the request tracker
alone, or it is a traced handler whose steps are stated once here; a relation that each step
keeps is kept by every method.
-/

set_option autoImplicit false

namespace Otf2Dump

/-!
## The calls
-/

/-- The `start` and `stop` of a trace-phase call. The first-pass calls and the set-up and
finalization methods take none. -/
def Call.times : Call → Option (Otf2TimeT × Otf2TimeT)
  | .mpiSend start stop .. | .mpiBsend start stop .. | .mpiSsend start stop ..
  | .mpiRsend start stop .. | .mpiRecv start stop .. | .mpiIsend start stop ..
  | .mpiIbsend start stop .. | .mpiIssend start stop .. | .mpiIrsend start stop ..
  | .mpiIrecv start stop .. | .genericCall start stop _ | .mpiWait start stop _
  | .mpiWaitany start stop _ | .mpiWaitall start stop .. | .mpiWaitsome start stop ..
  | .mpiTest start stop .. | .mpiTestany start stop .. | .mpiTestall start stop ..
  | .mpiTestsome start stop .. | .mpiBarrier start stop _ | .mpiBcast start stop ..
  | .mpiGather start stop .. | .mpiGatherv start stop .. | .mpiScatter start stop ..
  | .mpiScatterv start stop .. | .mpiReduce start stop .. | .mpiScan start stop ..
  | .mpiAllgather start stop .. | .mpiAllgatherv start stop .. | .mpiAlltoall start stop ..
  | .mpiAlltoallv start stop .. | .mpiAllreduce start stop .. | .mpiReduceScatter start stop ..
  | .mpiGroupUnion start stop .. | .mpiGroupDifference start stop ..
  | .mpiGroupIntersection start stop .. | .mpiGroupIncl start stop ..
  | .mpiGroupExcl start stop .. | .mpiGroupRangeIncl start stop .. | .mpiCommDup start stop ..
  | .mpiCommGroup start stop .. | .mpiCommCreate start stop .. | .mpiCommSplit start stop ..
  | .mpiTypeContiguous start stop .. | .mpiTypeHvector start stop ..
  | .mpiTypeVector start stop .. | .mpiTypeCreateHvector start stop ..
  | .mpiTypeIndexed start stop .. | .mpiTypeHindexed start stop ..
  | .mpiTypeCreateHindexed start stop .. | .mpiTypeStruct start stop ..
  | .mpiTypeCreateStruct start stop .. | .mpiTypeCreateSubarray start stop .. =>
    some (start, stop)
  | _ => none

/-- The name each handler passes to `_ENTER`; `none` for the methods that write no region. -/
def Call.enterName : Call → Option String
  | .mpiSend .. => some "MPI_Send"
  | .mpiBsend .. => some "MPI_Bsend"
  | .mpiSsend .. => some "MPI_Ssend"
  | .mpiRsend .. => some "MPI_Rsend"
  | .mpiRecv .. => some "MPI_Recv"
  | .mpiIsend .. => some "MPI_Isend"
  | .mpiIbsend .. => some "MPI_Ibsend"
  | .mpiIssend .. => some "MPI_Issend"
  | .mpiIrsend .. => some "MPI_Irsend"
  | .mpiIrecv .. => some "MPI_Irecv"
  | .genericCall _ _ name => some name
  | .mpiWait .. => some "MPI_Wait"
  | .mpiWaitany .. => some "MPI_Waitany"
  | .mpiWaitall .. => some "MPI_Waitall"
  | .mpiWaitsome .. => some "MPI_Waitsome"
  | .mpiTest .. => some "MPI_Test"
  | .mpiTestany .. => some "MPI_Testany"
  | .mpiTestall .. => some "MPI_Testall"
  | .mpiTestsome .. => some "MPI_Testsome"
  | .mpiBarrier .. => some "MPI_Barrier"
  | .mpiBcast .. => some "MPI_Bcast"
  | .mpiGather .. => some "MPI_Gather"
  | .mpiGatherv .. => some "MPI_Gatherv"
  | .mpiScatter .. => some "MPI_Scatter"
  | .mpiScatterv .. => some "MPI_Scatterv"
  | .mpiReduce .. => some "MPI_Reduce"
  | .mpiScan .. => some "MPI_Scan"
  | .mpiAllgather .. => some "MPI_Allgather"
  | .mpiAllgatherv .. => some "MPI_Allgatherv"
  | .mpiAlltoall .. => some "MPI_Alltoall"
  | .mpiAlltoallv .. => some "MPI_Alltoallv"
  | .mpiAllreduce .. => some "MPI_Allreduce"
  | .mpiReduceScatter .. => some "MPI_Reduce_scatter"
  | .mpiGroupUnion .. => some "MPI_Group_union"
  | .mpiGroupDifference .. => some "MPI_Group_difference"
  | .mpiGroupIntersection .. => some "MPI_Group_intersection"
  | .mpiGroupIncl .. => some "MPI_Group_incl"
  | .mpiGroupExcl .. => some "MPI_Group_excl"
  | .mpiGroupRangeIncl .. => some "MPI_Group_range_incl"
  | .mpiCommDup .. => some "MPI_Comm_dup"
  | .mpiCommGroup .. => some "MPI_Comm_group"
  | .mpiCommCreate .. => some "MPI_Comm_create"
  | .mpiCommSplit .. => some "MPI_Comm_split"
  | .mpiTypeContiguous .. => some "MPI_Type_contiguous"
  | .mpiTypeHvector .. => some "MPI_Type_hvector"
  | .mpiTypeVector .. => some "MPI_Type_vector"
  | .mpiTypeCreateHvector .. => some "MPI_Type_create_hvector"
  | .mpiTypeIndexed .. => some "MPI_Type_indexed"
  | .mpiTypeHindexed .. => some "MPI_Type_hindexed"
  | .mpiTypeCreateHindexed .. => some "MPI_Type_hindexed"
  | .mpiTypeStruct .. => some "MPI_Type_struct"
  | .mpiTypeCreateStruct .. => some "MPI_Type_create_struct"
  | .mpiTypeCreateSubarray .. => some "MPI_Type_create_subarray"
  | _ => none

/-- The calls that can return between `_ENTER` and `_LEAVE()`. -/
def Call.returnsEarly : Call → Bool
  | .mpiTypeContiguous .. | .mpiTypeCreateSubarray .. => true
  | _ => false

/-- The communicator handle a point-to-point or collective call passes. -/
def Call.comm : Call → Option CommT
  | .mpiSend _ _ _ _ _ comm _ | .mpiBsend _ _ _ _ _ comm _ | .mpiSsend _ _ _ _ _ comm _
  | .mpiRsend _ _ _ _ _ comm _ | .mpiRecv _ _ _ _ _ comm _ | .mpiIsend _ _ _ _ _ comm _ _
  | .mpiIbsend _ _ _ _ _ comm _ _ | .mpiIssend _ _ _ _ _ comm _ _ | .mpiIrsend _ _ _ _ _ comm _ _
  | .mpiIrecv _ _ _ _ _ comm _ _ | .mpiBarrier _ _ comm | .mpiBcast _ _ _ _ _ comm
  | .mpiGather _ _ _ _ _ _ _ comm | .mpiGatherv _ _ _ _ _ _ _ _ comm
  | .mpiScatter _ _ _ _ _ _ _ comm | .mpiScatterv _ _ _ _ _ _ _ _ comm
  | .mpiReduce _ _ _ _ _ comm | .mpiScan _ _ _ _ comm | .mpiAllgather _ _ _ _ _ _ comm
  | .mpiAllgatherv _ _ _ _ _ _ _ comm | .mpiAlltoall _ _ _ _ _ _ comm
  | .mpiAlltoallv _ _ _ _ _ _ _ comm | .mpiAllreduce _ _ _ _ comm
  | .mpiReduceScatter _ _ _ _ _ comm => some comm
  | _ => none

/-- The request an `mpi_irecv` call posts. -/
def Call.irecvRequest : Call → Option RequestT
  | .mpiIrecv _ _ _ _ _ _ _ request => some request
  | _ => none

/-!
## Methods that throw no exception
-/

/-- `method` throws no exception: it returns, calls `abort()` or reaches undefined behaviour.
After it the driver never goes on with a writer left half-way through it. -/
def NoException {α : Type} (method : WriterM α) : Prop :=
  ∀ w message w', method w ≠ .error (.exception message) w'

namespace NoException

variable {α β : Type}

theorem of_returns {method : WriterM α} (returns : Returns method) : NoException method := by
  intro w message w' threw
  obtain ⟨value, w'', ran⟩ := returns w
  rw [ran] at threw
  cases threw

theorem of_readsOnly {method : WriterM α} (reads : ReadsOnly method) : NoException method := by
  intro w message w' threw
  rcases reads w with ⟨value, ran⟩ | ⟨reason, ran⟩ <;> rw [ran] at threw <;> cases threw

theorem pure (value : α) : NoException (pure value : WriterM α) := of_returns (Returns.pure value)

theorem get : NoException (get : WriterM OTF2Writer) := of_returns Returns.get

theorem modify (change : OTF2Writer → OTF2Writer) : NoException (modify change) :=
  of_returns (Returns.modify change)

theorem modifyGet (change : OTF2Writer → α × OTF2Writer) :
    NoException (modifyGet change : WriterM α) :=
  of_returns (Returns.modifyGet change)

theorem abort (message : String) : NoException (throw (.abort message) : WriterM α) := by
  intro w message' w' threw
  cases threw

theorem bind {method : WriterM α} {next : α → WriterM β} (first : NoException method)
    (rest : ∀ value, NoException (next value)) : NoException (method >>= next) := by
  intro w message w' threw
  rw [run_bind] at threw
  cases outcome : method w with
  | ok value middle =>
    rw [outcome] at threw
    exact rest value middle message w' threw
  | error fault middle =>
    rw [outcome] at threw
    cases threw
    exact first w message _ outcome

theorem ite {condition : Prop} [Decidable condition] {yes no : WriterM α}
    (onYes : NoException yes) (onNo : NoException no) :
    NoException (if condition then yes else no) := by
  split
  · exact onYes
  · exact onNo

theorem forM {items : List α} {body : α → WriterM Unit} (each : ∀ item, NoException (body item)) :
    NoException (items.forM body) := by
  induction items with
  | nil => exact pure _
  | cons item items ih => exact (each item).bind fun _ => ih

theorem forCount {count : CInt} {body : Nat → WriterM Unit}
    (each : ∀ index, NoException (body index)) : NoException (forCount count body) :=
  forM each

theorem emit (event : Event) : NoException (emit event) := modify _

theorem countEvents (n : Nat) : NoException (countEvents n) := modify _

theorem typeSizeAt (type : MpiTypeT) : NoException (typeSizeAt type) := modifyGet _

theorem setTypeSize (type : MpiTypeT) (size : CInt) : NoException (setTypeSize type size) :=
  modify _

theorem incompleteCall (request : RequestT) (type : RequestType) :
    NoException (incompleteCall request type) :=
  get.bind fun _ => ite (modify _) (pure _)

theorem completeCall (request : RequestT) (timestamp : Otf2TimeT) :
    NoException (completeCall request timestamp) := by
  unfold Otf2Dump.completeCall
  refine get.bind fun w => ?_
  split
  · exact ite (abort _) (pure _)
  · exact (emit _).bind fun _ => (countEvents _).bind fun _ => modify _
  · split
    · exact of_readsOnly (ReadsOnly.undefined _)
    · exact (emit _).bind fun _ => (modify _).bind fun _ => (countEvents _).bind fun _ => modify _

theorem mpiSendInner (start : Otf2TimeT) (type : MpiTypeT) (count : U64) (dest : U32)
    (comm : CommT) (tag : U32) : NoException (mpiSendInner start type count dest comm tag) :=
  (typeSizeAt _).bind fun _ => (emit _).bind fun _ => (countEvents _).bind fun _ => pure _

theorem mpiIsendInner (start : Otf2TimeT) (type : MpiTypeT) (count : U64) (dest : U32)
    (comm : CommT) (tag : U32) (request : RequestT) :
    NoException (mpiIsendInner start type count dest comm tag request) :=
  (incompleteCall _ _).bind fun _ => get.bind fun _ => (emit _).bind fun _ =>
    (countEvents _).bind fun _ => pure _

theorem mpiWaitallLoop (start : Otf2TimeT) (requests : List RequestT) (indices : List Nat)
    (called : List RequestT) : NoException (mpiWaitallLoop start requests indices called) := by
  induction indices generalizing called with
  | nil => exact pure _
  | cons i rest ih =>
    exact (of_readsOnly (ReadsOnly.readAt _ _)).bind fun _ => get.bind fun _ =>
      ite ((completeCall _ _).bind fun _ => ih _) (ih _)

theorem mpiTStructInner (count : CInt) (blocklengths : List CInt) (oldtypes : List MpiTypeT)
    (newtype : MpiTypeT) : NoException (mpiTStructInner count blocklengths oldtypes newtype) :=
  (of_readsOnly (ReadsOnly.mpiTStructLoop _ _ _ _)).bind fun
    | none => pure _
    | some _ => setTypeSize _ _

end NoException

theorem guarantees_discard {relation : OTF2Writer → OTF2Writer → Prop} {α : Type}
    {method : WriterM α} (inner : Guarantees relation method) :
    Guarantees relation (discard method) :=
  fun w w' after => inner w w' (by rwa [afterCall_discard] at after)

/-- A method that throws no exception and relates its writers by `first`, then one that relates
them by `second`, relate them by `second` when the two compose to it. -/
theorem Guarantees.seq {first second : OTF2Writer → OTF2Writer → Prop}
    (composes : ∀ u v w, first u v → second v w → second u w) {α β : Type} {method : WriterM α}
    {next : α → WriterM β} (head : Guarantees first method) (clean : NoException method)
    (rest : ∀ value, Guarantees second (next value)) : Guarantees second (method >>= next) := by
  intro w w' after
  rw [run_bind] at after
  cases outcome : method w with
  | ok value middle =>
    rw [outcome] at after
    exact composes _ _ _ (head.of_ok outcome) (rest value middle w' after)
  | error fault middle =>
    rw [outcome] at after
    cases fault with
    | exception message => exact absurd outcome (clean w message middle)
    | abort | undefined => cases after

/-!
## Steps that leave the trace alone
-/

/-- From `w` to `w'` nothing changed that the records, the event counter, the clock bounds,
the region table or the request tracker hold. -/
structure OTF2Writer.Quiet (w w' : OTF2Writer) : Prop where
  records : w'.evtWriter = w.evtWriter
  eventCount : w'.eventCount = w.eventCount
  startTime : w'.startTime = w.startTime
  stopTime : w'.stopTime = w.stopTime
  regions : w'.otf2RegionsTable = w.otf2RegionsTable
  nullRequest : w'.nullRequest = w.nullRequest
  requestType : w'.requestType = w.requestType
  irecvRequests : w'.irecvRequests = w.irecvRequests

namespace OTF2Writer.Quiet

theorem refl (w : OTF2Writer) : w.Quiet w := ⟨rfl, rfl, rfl, rfl, rfl, rfl, rfl, rfl⟩

theorem trans (u v w : OTF2Writer) (first : u.Quiet v) (second : v.Quiet w) : u.Quiet w :=
  ⟨second.1.trans first.1, second.2.trans first.2, second.3.trans first.3,
    second.4.trans first.4, second.5.trans first.5, second.6.trans first.6,
    second.7.trans first.7, second.8.trans first.8⟩

end OTF2Writer.Quiet

section Quiet

open OTF2Writer

theorem quiet_typeSizeAt (type : MpiTypeT) : Guarantees Quiet (typeSizeAt type) :=
  Guarantees.modifyGet fun _ => by split <;> exact ⟨rfl, rfl, rfl, rfl, rfl, rfl, rfl, rfl⟩

theorem quiet_groupAt (group : Int) : Guarantees Quiet (groupAt group) :=
  Guarantees.modifyGet fun _ => by split <;> exact ⟨rfl, rfl, rfl, rfl, rfl, rfl, rfl, rfl⟩

theorem quiet_setTypeSize (type : MpiTypeT) (size : CInt) : Guarantees Quiet (setTypeSize type size) :=
  Guarantees.modify fun _ => ⟨rfl, rfl, rfl, rfl, rfl, rfl, rfl, rfl⟩

theorem quiet_modifyGroup (group : Int) (change : OTF2MpiGroup → OTF2MpiGroup) :
    Guarantees Quiet (modifyGroup group change) :=
  Guarantees.modify fun _ => ⟨rfl, rfl, rfl, rfl, rfl, rfl, rfl, rfl⟩

theorem quiet_modifyComm (comm : CommT) (change : OTF2MpiComm → OTF2MpiComm) :
    Guarantees Quiet (modifyComm comm change) :=
  Guarantees.modify fun _ => ⟨rfl, rfl, rfl, rfl, rfl, rfl, rfl, rfl⟩

theorem quiet_setGlobalRank (group : Int) (index : Nat) (value : CInt) :
    Guarantees Quiet (setGlobalRank group index value) :=
  Guarantees.bind Quiet.trans (Guarantees.get Quiet.refl) fun _ =>
    Guarantees.ite (quiet_modifyGroup _ _) (Guarantees.undefined Quiet.refl _)

theorem quiet_writeDefFiles (eventCounts : List CInt) : Guarantees Quiet (writeDefFiles eventCounts) :=
  (writeDefFiles_frame eventCounts).imp fun _ _ ⟨_, _, moved⟩ =>
    moved ▸ ⟨rfl, rfl, rfl, rfl, rfl, rfl, rfl, rfl⟩

theorem quiet_mpiTStructInner (count : CInt) (blocklengths : List CInt) (oldtypes : List MpiTypeT)
    (newtype : MpiTypeT) : Guarantees Quiet (mpiTStructInner count blocklengths oldtypes newtype) :=
  Guarantees.mpiTStructInner Quiet.refl Quiet.trans quiet_setTypeSize _ _ _ _

end Quiet

/-- The methods of the calls without times leave the trace and the tracker alone, on every exit
a run goes on from; `register_null_request` alone sets a field of the tracker. -/
theorem callMethod_untraced {call : Call} (untimed : call.times = none)
    {top : OTF2Writer → OTF2Writer → Prop} (quiet : ∀ w w', w.Quiet w' → top w w')
    (null : ∀ request, call = .registerNullRequest request →
      Guarantees top (registerNullRequest request)) :
    Guarantees top (callMethod call) := by
  cases call <;> cases untimed
  case registerNullRequest request => exact null request rfl
  all_goals
    refine Guarantees.imp quiet ?_
    dsimp only [callMethod, openArchive, closeArchive, registerCommWorld, registerCommSelf,
      registerCommError, registerCommNull, setClockResolution, registerType,
      mpiGroupUnionFirstPass, mpiGroupDifferenceFirstPass, mpiGroupIntersectionFirstPass,
      groupAlgebraFirstPass, mpiGroupRangeInclFirstPass, mpiGroupInclFirstPass,
      mpiGroupExclFirstPass, resizeGlobalRanks, mpiCommDupFirstPass, mpiCommCreateFirstPass,
      mpiCommSplitFirstPass]
    with_reducible repeat'
      first
      | apply Guarantees.bind OTF2Writer.Quiet.trans
      | intro _
      | apply Guarantees.discard OTF2Writer.Quiet.refl OTF2Writer.Quiet.trans
      | apply Guarantees.ite
      | apply Guarantees.pure OTF2Writer.Quiet.refl
      | apply Guarantees.get OTF2Writer.Quiet.refl
      | apply Guarantees.throw OTF2Writer.Quiet.refl
      | apply Guarantees.readAt OTF2Writer.Quiet.refl
      | apply Guarantees.intSub OTF2Writer.Quiet.refl
      | apply Guarantees.forCount OTF2Writer.Quiet.refl OTF2Writer.Quiet.trans
      | apply Guarantees.foldlM OTF2Writer.Quiet.refl OTF2Writer.Quiet.trans
      | apply Guarantees.exclSweep OTF2Writer.Quiet.refl OTF2Writer.Quiet.trans quiet_setGlobalRank
      | apply quiet_writeDefFiles
      | apply quiet_groupAt
      | apply quiet_modifyGroup
      | apply quiet_modifyComm
      | apply quiet_setGlobalRank
      | apply quiet_setTypeSize
      | apply Guarantees.modify
      | exact ⟨rfl, rfl, rfl, rfl, rfl, rfl, rfl, rfl⟩

/-!
## The steps of a traced handler
-/

/-- What a relation `top` between the writers before and after a call with times `start` and
`stop` needs of its handler, once `_ENTER` has returned `region`: `step region` relates the
writers around a step before `_LEAVE()`, and `close region` the writer a step starts from to the
one the handler returns with. -/
structure HandlerRules (call : Call) (start stop : Otf2TimeT)
    (step close : Nat → OTF2Writer → OTF2Writer → Prop) (top : OTF2Writer → OTF2Writer → Prop) :
    Prop where
  refl : ∀ region w, step region w w
  trans : ∀ region u v w, step region u v → step region v w → step region u w
  quiet : ∀ region w w', w.Quiet w' → step region w w'
  closes : ∀ region u v w, step region u v → close region v w → close region u w
  afterEnter : ∀ (name : String) {β : Type} (body : Nat → WriterM β),
    call.enterName = some name → (∀ region, Guarantees (close region) (body region)) →
    Guarantees top (enter start stop name >>= body)
  leaves : ∀ region, Guarantees (close region) (leave stop region)
  early : ∀ region {α : Type} (value : α), call.returnsEarly = true →
    Guarantees (close region) (pure value : WriterM α)
  sendInner : ∀ region type count dest comm tag, call.comm = some comm →
    Guarantees (step region) (mpiSendInner start type count dest comm tag)
  isendInner : ∀ region type count dest comm tag request, call.comm = some comm →
    Guarantees (step region) (mpiIsendInner start type count dest comm tag request)
  completes : ∀ region request, Guarantees (step region) (completeCall request start)
  recv : ∀ region source comm tag bytes, call.comm = some comm →
    Guarantees (close region) (emit (.mpiRecv start source comm tag bytes) >>= fun _ =>
      countEvents 1 >>= fun _ => leave stop region)
  irecv : ∀ region bytes source tag comm request, call.comm = some comm →
    call.irecvRequest = some request →
    Guarantees (close region) ((modify fun w =>
      { w with irecvRequests := Function.update w.irecvRequests request
                                  (some ⟨bytes, source, tag, comm, request⟩) }) >>= fun _ =>
      incompleteCall request .irecv >>= fun _ => emit (.mpiIrecvRequest start request) >>= fun _ =>
      countEvents 1 >>= fun _ => leave stop region)
  collective : ∀ region collective comm root {sent received : WriterM U64}, ReadsOnly sent →
    ReadsOnly received → call.comm = some comm →
    Guarantees (close region) (collectiveWrapper start stop collective comm root sent received >>=
      fun _ => leave stop region)

namespace HandlerRules

variable {call : Call} {start stop : Otf2TimeT} {step close : Nat → OTF2Writer → OTF2Writer → Prop}
  {top : OTF2Writer → OTF2Writer → Prop} (rules : HandlerRules call start stop step close top)
  {region : Nat}
include rules

theorem of_quiet {α : Type} {method : WriterM α} (quiet : Guarantees OTF2Writer.Quiet method) :
    Guarantees (step region) method :=
  quiet.imp (rules.quiet region)

theorem closeBind {α β : Type} {method : WriterM α} {next : α → WriterM β}
    (first : Guarantees (step region) method) (clean : NoException method)
    (rest : ∀ value, Guarantees (close region) (next value)) :
    Guarantees (close region) (method >>= next) :=
  Guarantees.seq (rules.closes region) first clean rest

theorem mpiWaitallLoop (requests : List RequestT) (indices : List Nat) (called : List RequestT) :
    Guarantees (step region) (mpiWaitallLoop start requests indices called) := by
  induction indices generalizing called with
  | nil => exact Guarantees.pure (rules.refl region) _
  | cons i rest ih =>
    exact Guarantees.bind (rules.trans region) (rules.of_quiet (Guarantees.readAt
      OTF2Writer.Quiet.refl _ _)) fun _ => Guarantees.bind (rules.trans region)
      (Guarantees.get (rules.refl region)) fun _ => Guarantees.ite
        (Guarantees.bind (rules.trans region) (rules.completes region _) fun _ => ih _) (ih _)

end HandlerRules

/-- Every method of a call with times keeps `top`, given how each step of its handler keeps
`step`, `close` and `top`. -/
theorem callMethod_traced {call : Call} {start stop : Otf2TimeT}
    (timed : call.times = some (start, stop)) {step close : Nat → OTF2Writer → OTF2Writer → Prop}
    {top : OTF2Writer → OTF2Writer → Prop} (rules : HandlerRules call start stop step close top) :
    Guarantees top (callMethod call) := by
  cases call <;> cases timed <;>
    dsimp only [callMethod, mpiSend, mpiBsend, mpiSsend, mpiRsend, sendCall, mpiRecv, mpiIsend,
      mpiIbsend, mpiIssend, mpiIrsend, isendCall, mpiIrecv, genericCall, mpiWait, mpiWaitany,
      waitCall, mpiWaitall, mpiWaitsome, mpiTestsome, someCall, mpiTest, mpiTestany, mpiTestall,
      mpiBarrier, mpiBcast, mpiGather, mpiGatherv, mpiScatter, mpiScatterv, mpiReduce, mpiScan,
      mpiAllgather, mpiAllgatherv, mpiAlltoall, mpiAlltoallv, mpiAllreduce, mpiReduceScatter,
      mpiGroupUnion, mpiGroupDifference, mpiGroupIntersection, mpiGroupIncl, mpiGroupExcl,
      mpiGroupRangeIncl, mpiCommDup, mpiCommGroup, mpiCommCreate, mpiCommSplit,
      mpiTypeContiguous, mpiTypeHvector, mpiTypeVector, mpiTypeCreateHvector, vectorCall,
      mpiTVectorInner, mpiTypeIndexed, mpiTypeHindexed, mpiTypeCreateHindexed, indexedCall,
      mpiTIndexedInner, mpiTypeStruct, mpiTypeCreateStruct, structCall, mpiTypeCreateSubarray] <;>
    refine guarantees_discard (rules.afterEnter _ _ rfl fun region => ?_) <;>
    with_reducible repeat'
      first
      | intro _
      | apply rules.recv
      | apply rules.irecv
      | apply rules.collective
      | apply rules.closeBind
      | apply Guarantees.bind (rules.trans _)
      | apply NoException.bind
      | apply Guarantees.ite
      | apply NoException.ite
      | apply rules.leaves
      | apply rules.early
      | apply rules.sendInner
      | apply rules.isendInner
      | apply rules.completes
      | apply rules.mpiWaitallLoop
      | apply Guarantees.forCount (rules.refl _) (rules.trans _)
      | apply rules.of_quiet
      | apply Guarantees.pure OTF2Writer.Quiet.refl
      | apply Guarantees.get OTF2Writer.Quiet.refl
      | apply Guarantees.readAt OTF2Writer.Quiet.refl
      | apply Guarantees.intMul OTF2Writer.Quiet.refl
      | apply Guarantees.of_readsOnly OTF2Writer.Quiet.refl (ReadsOnly.arraySum _ _)
      | apply quiet_typeSizeAt
      | apply quiet_setTypeSize
      | apply quiet_mpiTStructInner
      | apply NoException.get
      | apply NoException.pure
      | apply NoException.typeSizeAt
      | apply NoException.setTypeSize
      | apply NoException.completeCall
      | apply NoException.mpiSendInner
      | apply NoException.mpiIsendInner
      | apply NoException.mpiWaitallLoop
      | apply NoException.mpiTStructInner
      | apply NoException.forCount
      | apply NoException.of_readsOnly (ReadsOnly.readAt _ _)
      | apply NoException.of_readsOnly (ReadsOnly.arraySum _ _)
      | apply NoException.of_readsOnly (ReadsOnly.intMul _ _)
      | apply ReadsOnly.bind
      | apply ReadsOnly.pure
      | apply ReadsOnly.get
      | apply ReadsOnly.ite
      | apply ReadsOnly.map
      | apply ReadsOnly.arraySum
      | apply ReadsOnly.intAdd
      | apply ReadsOnly.intSub
      | apply ReadsOnly.intMul
      | with_unfolding_all rfl

end Otf2Dump
