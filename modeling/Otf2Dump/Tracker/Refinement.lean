import Otf2Dump.Handlers
import Otf2Dump.Tracker.Invariants

/-!
# The handlers drive the request tracker

Every method moves its writer's tracker by tracker operations, and only by those its call can
issue.
-/

set_option autoImplicit false

namespace Otf2Dump

/-- The tracker operations a call can issue. -/
def Call.issues (call : Call) : TrackerOp → Prop
  | .record event _ => ∀ comm, event.communicator = some comm → call.comm = some comm
  | .isend _ _ comm _ _ _ => call.comm = some comm
  | .irecv _ capture => call.irecvRequest = some capture.request ∧ call.comm = some capture.comm
  | .complete _ _ => True
  | .registerNull request => call = .registerNullRequest request

/-- The tracker of `w'` is reached from that of `w` by operations `call` issues. -/
def TrackerMoves (call : Call) (w w' : OTF2Writer) : Prop :=
  ∃ ops : List TrackerOp, (∀ op ∈ ops, call.issues op) ∧
    TrackerOp.runAll ops w.tracker = some w'.tracker

namespace TrackerMoves

variable {call : Call}

theorem refl (w : OTF2Writer) : TrackerMoves call w w := ⟨[], by simp, rfl⟩

theorem trans (u v w : OTF2Writer) :
    TrackerMoves call u v → TrackerMoves call v w → TrackerMoves call u w := by
  rintro ⟨first, issued, ran⟩ ⟨second, issued', ran'⟩
  refine ⟨first ++ second, fun op mem => ?_, ?_⟩
  · rcases List.mem_append.mp mem with mem | mem
    · exact issued op mem
    · exact issued' op mem
  · rw [TrackerOp.runAll_append, ran, Option.some_bind]
    exact ran'

theorem of_frame {w w' : OTF2Writer} (null : w'.nullRequest = w.nullRequest)
    (types : w'.requestType = w.requestType) (irecvs : w'.irecvRequests = w.irecvRequests)
    (records : w'.evtWriter = w.evtWriter) : TrackerMoves call w w' :=
  ⟨[], by simp, by simp [OTF2Writer.tracker, null, types, irecvs, records]⟩

theorem of_quiet {w w' : OTF2Writer} (quiet : w.Quiet w') : TrackerMoves call w w' :=
  of_frame quiet.nullRequest quiet.requestType quiet.irecvRequests quiet.records

theorem single {w w' : OTF2Writer} (op : TrackerOp) (issued : call.issues op)
    (applied : op.apply w.tracker = some w'.tracker) : TrackerMoves call w w' :=
  ⟨[op], by simpa using issued, by simpa using applied⟩

end TrackerMoves

/-!
## The blocks of the handlers
-/

section Blocks

variable {call : Call}

theorem trackerMoves_of_modify {change : OTF2Writer → OTF2Writer}
    (null : ∀ w, (change w).nullRequest = w.nullRequest)
    (types : ∀ w, (change w).requestType = w.requestType)
    (irecvs : ∀ w, (change w).irecvRequests = w.irecvRequests)
    (records : ∀ w, (change w).evtWriter = w.evtWriter) :
    Guarantees (TrackerMoves call) (modify change) :=
  Guarantees.modify fun w => TrackerMoves.of_frame (null w) (types w) (irecvs w) (records w)

theorem trackerMoves_of_modifyGet {α : Type} {change : OTF2Writer → α × OTF2Writer}
    (null : ∀ w, (change w).2.nullRequest = w.nullRequest)
    (types : ∀ w, (change w).2.requestType = w.requestType)
    (irecvs : ∀ w, (change w).2.irecvRequests = w.irecvRequests)
    (records : ∀ w, (change w).2.evtWriter = w.evtWriter) :
    Guarantees (TrackerMoves call) (modifyGet change : WriterM α) :=
  Guarantees.modifyGet fun w => TrackerMoves.of_frame (null w) (types w) (irecvs w) (records w)

theorem trackerMoves_emit (event : Event) (plain : event.requestId = none)
    (carries : ∀ comm, event.communicator = some comm → call.comm = some comm) :
    Guarantees (TrackerMoves call) (emit event) := by
  rintro w w' ⟨⟩
  exact TrackerMoves.single (.record event plain) carries rfl

theorem trackerMoves_mpiIsendInner (start : Otf2TimeT) (type : MpiTypeT) (count : U64)
    (dest : U32) (comm : CommT) (tag : U32) (request : RequestT) (issued : call.comm = some comm) :
    Guarantees (TrackerMoves call) (mpiIsendInner start type count dest comm tag request) := by
  intro w w' after
  by_cases tracked : request = w.nullRequest <;>
    simp only [mpiIsendInner, incompleteCall, emit, countEvents, run_bind, run_modify, run_get,
      run_pure, tracked, ne_eq, not_true_eq_false, not_false_eq_true, if_true, if_false] at after <;>
    cases after <;>
    exact TrackerMoves.single (.isend start dest comm tag _ request)
      issued (by simp [TrackerOp.apply, TrackerView.track, TrackerView.write, OTF2Writer.tracker,
        tracked]; rfl)

theorem trackerMoves_enter (start stop : Otf2TimeT) (name : String) :
    Guarantees (TrackerMoves call) (enter start stop name) :=
  Guarantees.bind TrackerMoves.trans
    (trackerMoves_of_modify (fun _ => rfl) (fun _ => rfl) (fun _ => rfl) fun _ => rfl) fun _ =>
  Guarantees.bind TrackerMoves.trans
    (trackerMoves_of_modify (fun _ => rfl) (fun _ => rfl) (fun _ => rfl) fun _ => rfl) fun _ =>
  Guarantees.bind TrackerMoves.trans
    (trackerMoves_of_modifyGet (fun _ => rfl) (fun _ => rfl) (fun _ => rfl) fun _ => rfl)
    fun _ =>
  Guarantees.bind TrackerMoves.trans (trackerMoves_emit _ rfl fun _ found => nomatch found)
    fun _ =>
  Guarantees.bind TrackerMoves.trans
    (trackerMoves_of_modify (fun _ => rfl) (fun _ => rfl) (fun _ => rfl) fun _ => rfl) fun _ =>
  Guarantees.pure TrackerMoves.refl _

theorem trackerMoves_leave (stop : Otf2TimeT) (thisRegion : Nat) :
    Guarantees (TrackerMoves call) (leave stop thisRegion) := by
  intro w w' after
  simp only [leave, emit, countEvents, run_bind, run_modify, run_pure] at after
  cases after
  exact TrackerMoves.single (.record (.leave stop thisRegion) rfl)
    (fun _ found => nomatch found) rfl

theorem trackerMoves_mpiSendInner (start : Otf2TimeT) (type : MpiTypeT) (count : U64)
    (dest : U32) (comm : CommT) (tag : U32) (issued : call.comm = some comm) :
    Guarantees (TrackerMoves call) (mpiSendInner start type count dest comm tag) :=
  Guarantees.bind TrackerMoves.trans ((quiet_typeSizeAt _).imp fun _ _ => TrackerMoves.of_quiet)
    fun _ =>
  Guarantees.bind TrackerMoves.trans
    (trackerMoves_emit _ rfl fun _ found => Option.some.inj found ▸ issued) fun _ =>
  Guarantees.bind TrackerMoves.trans
    (trackerMoves_of_modify (fun _ => rfl) (fun _ => rfl) (fun _ => rfl) fun _ => rfl) fun _ =>
  Guarantees.pure TrackerMoves.refl _

theorem trackerMoves_collectiveWrapper (start stop : Otf2TimeT) (collective : CollectiveOp)
    (comm : CommT) (root : CInt) {sent received : WriterM U64} (sentReads : ReadsOnly sent)
    (receivedReads : ReadsOnly received) (issued : call.comm = some comm) :
    Guarantees (TrackerMoves call)
      (collectiveWrapper start stop collective comm root sent received) :=
  Guarantees.bind TrackerMoves.trans (trackerMoves_emit _ rfl fun _ found => nomatch found)
    fun _ =>
  Guarantees.bind TrackerMoves.trans (Guarantees.of_readsOnly TrackerMoves.refl sentReads)
    fun _ =>
  Guarantees.bind TrackerMoves.trans (Guarantees.of_readsOnly TrackerMoves.refl receivedReads)
    fun _ =>
  Guarantees.bind TrackerMoves.trans
    (trackerMoves_emit _ rfl fun _ found => Option.some.inj found ▸ issued) fun _ =>
  trackerMoves_of_modify (fun _ => rfl) (fun _ => rfl) (fun _ => rfl) fun _ => rfl

theorem trackerMoves_completeCall (request : RequestT) (timestamp : Otf2TimeT) :
    Guarantees (TrackerMoves call) (completeCall request timestamp) := by
  intro w w' after
  refine TrackerMoves.single (.complete request timestamp) trivial ?_
  simp only [completeCall, run_bind, run_get] at after
  cases pending : w.requestType request with
  | none =>
    simp only [pending] at after
    split at after
    · simp at after
    · cases after
      simp [TrackerOp.apply, OTF2Writer.tracker, pending, *]
  | some kind =>
    cases kind with
    | isend =>
      simp only [pending, emit, countEvents, eraseRequestType, run_bind, run_modify] at after
      cases after
      simp only [TrackerOp.apply, OTF2Writer.tracker, pending]
      rfl
    | irecv =>
      cases found : w.irecvRequests request with
      | none => simp [pending, found, undefined] at after
      | some stored =>
        simp only [pending, found, emit, countEvents, eraseRequestType, eraseIrecvRequest,
          run_bind, run_modify] at after
        cases after
        simp only [TrackerOp.apply, OTF2Writer.tracker, pending, found]
        rfl

theorem trackerMoves_registerNullRequest (request : RequestT)
    (issued : call = .registerNullRequest request) :
    Guarantees (TrackerMoves call) (registerNullRequest request) := by
  rintro w w' ⟨⟩
  exact TrackerMoves.single (.registerNull request) issued rfl

theorem trackerMoves_irecvPost (start stop : Otf2TimeT) (bytes : U64) (source : U32) (tag : U32)
    (comm : CommT) (request : RequestT) (region : Nat) (issued : call.comm = some comm)
    (posted : call.irecvRequest = some request) :
    Guarantees (TrackerMoves call) ((modify fun w =>
      { w with irecvRequests := Function.update w.irecvRequests request
                                  (some ⟨bytes, source, tag, comm, request⟩) }) >>= fun _ =>
      incompleteCall request .irecv >>= fun _ => emit (.mpiIrecvRequest start request) >>= fun _ =>
      countEvents 1 >>= fun _ => leave stop region) := by
  intro w w' after
  by_cases tracked : request = w.nullRequest <;>
    simp only [incompleteCall, leave, emit, countEvents, run_bind, run_modify, run_get,
      run_pure, tracked, ne_eq, not_true_eq_false, not_false_eq_true, if_true, if_false,
      Function.update_same] at after <;>
    cases after <;>
    exact ⟨[.irecv start ⟨bytes, source, tag, comm, request⟩, .record (.leave stop region) rfl],
      fun op mem => by
        rcases List.mem_cons.mp mem with rfl | mem
        · exact ⟨posted, issued⟩
        · rcases List.mem_singleton.mp mem with rfl
          exact fun _ found => (nomatch found),
      by simp [TrackerOp.apply, TrackerView.track, TrackerView.write, TrackerView.capture,
        OTF2Writer.tracker, tracked]⟩

end Blocks

theorem handlerRules_tracker (call : Call) (start stop : Otf2TimeT) :
    HandlerRules call start stop (fun _ => TrackerMoves call) (fun _ => TrackerMoves call)
      (TrackerMoves call) where
  refl _ := TrackerMoves.refl
  trans _ := TrackerMoves.trans
  quiet _ _ _ := TrackerMoves.of_quiet
  closes _ := TrackerMoves.trans
  afterEnter _ _ _ _ rest := Guarantees.bind TrackerMoves.trans (trackerMoves_enter _ _ _) rest
  leaves _ := trackerMoves_leave _ _
  early _ _ _ _ := Guarantees.pure TrackerMoves.refl _
  sendInner _ _ _ _ _ _ issued := trackerMoves_mpiSendInner _ _ _ _ _ _ issued
  isendInner _ _ _ _ _ _ _ issued := trackerMoves_mpiIsendInner _ _ _ _ _ _ _ issued
  completes _ _ := trackerMoves_completeCall _ _
  recv _ _ _ _ _ issued := Guarantees.bind TrackerMoves.trans
    (trackerMoves_emit _ rfl fun _ found => Option.some.inj found ▸ issued) fun _ =>
    Guarantees.bind TrackerMoves.trans
      (trackerMoves_of_modify (fun _ => rfl) (fun _ => rfl) (fun _ => rfl) fun _ => rfl) fun _ =>
    trackerMoves_leave _ _
  irecv region _ _ _ _ _ issued posted := trackerMoves_irecvPost _ _ _ _ _ _ _ region issued posted
  collective _ _ _ _ _ _ sentReads receivedReads issued := Guarantees.bind TrackerMoves.trans
    (trackerMoves_collectiveWrapper _ _ _ _ _ sentReads receivedReads issued) fun _ =>
    trackerMoves_leave _ _

/-- Every method moves its writer's tracker by operations its call issues. -/
theorem callMethod_moves_tracker (call : Call) :
    Guarantees (TrackerMoves call) (callMethod call) := by
  cases timed : call.times with
  | none =>
    exact callMethod_untraced timed (fun _ _ => TrackerMoves.of_quiet)
      trackerMoves_registerNullRequest
  | some times => exact callMethod_traced timed (handlerRules_tracker call times.1 times.2)

end Otf2Dump
