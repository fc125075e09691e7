import Otf2Dump.Writer.Run

/-!
# The request tracker as a machine

`request_type`, `irecv_requests` and the null request, with the records written next to them,
as a machine whose operations are the blocks of the handlers that touch them.
-/

set_option autoImplicit false

namespace Otf2Dump

/-!
## Records that name a request
-/

/-- The request a record posts or completes. -/
def Event.requestId : Event → Option RequestT
  | .mpiIsend _ _ _ _ _ request | .mpiIsendComplete _ request | .mpiIrecvRequest _ request
  | .mpiIrecv _ _ _ _ _ request => some request
  | _ => none

/-- The request a record completes, with the kind of the completion. -/
def Event.completes : Event → Option (RequestT × RequestType)
  | .mpiIsendComplete _ request => some (request, .isend)
  | .mpiIrecv _ _ _ _ _ request => some (request, .irecv)
  | _ => none

/-- The request a record posts, with its kind. -/
def Event.posts : Event → Option (RequestT × RequestType)
  | .mpiIsend _ _ _ _ _ request => some (request, .isend)
  | .mpiIrecvRequest _ request => some (request, .irecv)
  | _ => none

/-- The communicator a record carries. -/
def Event.communicator : Event → Option CommT
  | .mpiSend _ _ comm _ _ | .mpiRecv _ _ comm _ _ | .mpiIsend _ _ comm _ _ _
  | .mpiIrecv _ _ comm _ _ _ | .mpiCollectiveEnd _ _ comm _ _ _ => some comm
  | _ => none

theorem Event.requestId_of_completes {event : Event} {request : RequestT} {kind : RequestType}
    (completes : event.completes = some (request, kind)) : event.requestId = some request := by
  cases event <;> simp_all [Event.completes, Event.requestId]

theorem Event.completes_of_requestId_none {event : Event} (plain : event.requestId = none) :
    event.completes = none := by
  cases event <;> simp_all [Event.completes, Event.requestId]

/-!
## The spec's request states
-/

/-- The state of `request` after one more record: a post of it makes it pending with the
post's kind, a completion of it ends it, and any other record leaves it. -/
def pendingAfter (request : RequestT) (pending : Option RequestType) : Event → Option RequestType
  | .mpiIsend _ _ _ _ _ posted => if posted = request then some .isend else pending
  | .mpiIrecvRequest _ posted => if posted = request then some .irecv else pending
  | .mpiIsendComplete _ completed | .mpiIrecv _ _ _ _ _ completed =>
    if completed = request then none else pending
  | _ => pending

/-- The state of `request` after `records`: the kind of its pending post, or `none`. -/
def pendingKind (request : RequestT) (records : List Event) : Option RequestType :=
  records.foldl (pendingAfter request) none

@[simp] theorem pendingKind_nil (request : RequestT) : pendingKind request [] = none := rfl

@[simp] theorem pendingKind_append_singleton (request : RequestT) (records : List Event)
    (event : Event) :
    pendingKind request (records ++ [event]) =
      pendingAfter request (pendingKind request records) event := by
  simp [pendingKind]

theorem pendingAfter_of_requestId_ne {request : RequestT} {event : Event}
    (other : event.requestId ≠ some request) (pending : Option RequestType) :
    pendingAfter request pending event = pending := by
  cases event <;> simp_all [pendingAfter, Event.requestId]

theorem pendingAfter_of_posts {request : RequestT} {event : Event} {kind : RequestType}
    (posts : event.posts = some (request, kind)) (other : RequestT)
    (pending : Option RequestType) :
    pendingAfter other pending event = if other = request then some kind else pending := by
  cases event <;> simp only [Event.posts, Option.some.injEq, Prod.mk.injEq, reduceCtorEq] at posts <;>
    obtain ⟨rfl, rfl⟩ := posts <;> simp [pendingAfter, eq_comm]

theorem pendingAfter_of_completes {request : RequestT} {event : Event} {kind : RequestType}
    (completes : event.completes = some (request, kind)) (other : RequestT)
    (pending : Option RequestType) :
    pendingAfter other pending event = if other = request then none else pending := by
  cases event <;>
    simp only [Event.completes, Option.some.injEq, Prod.mk.injEq, reduceCtorEq] at completes <;>
    obtain ⟨rfl, rfl⟩ := completes <;> simp [pendingAfter, eq_comm]

theorem Event.completes_of_posts {event : Event} {request : RequestT} {kind : RequestType}
    (posts : event.posts = some (request, kind)) : event.completes = none := by
  cases event <;> simp_all [Event.posts, Event.completes]

theorem pendingKind_eq_some {request : RequestT} {kind : RequestType} {records : List Event}
    (pending : pendingKind request records = some kind) :
    ∃ earlier post between, records = earlier ++ post :: between ∧
      post.posts = some (request, kind) ∧ ∀ event ∈ between, event.requestId ≠ some request := by
  induction records using List.reverseRecOn with
  | nil => cases pending
  | append_singleton records event ih =>
    rw [pendingKind_append_singleton] at pending
    by_cases names : event.requestId = some request
    · refine ⟨records, event, [], by simp, ?_, by simp⟩
      clear ih
      cases event <;> simp_all [pendingAfter, Event.requestId, Event.posts]
    · obtain ⟨earlier, post, between, split, posts, quiet⟩ :=
        ih (by rwa [pendingAfter_of_requestId_ne names] at pending)
      refine ⟨earlier, post, between ++ [event], by simp [split], posts, ?_⟩
      simpa [or_imp, forall_and] using ⟨quiet, names⟩

/-- Every completion of `request` in `records` closes a pending post of the same kind. -/
def CompletionsMatched (request : RequestT) (records : List Event) : Prop :=
  ∀ before event after kind, records = before ++ event :: after →
    event.completes = some (request, kind) → pendingKind request before = some kind

theorem CompletionsMatched.nil (request : RequestT) : CompletionsMatched request [] := by
  intro before event after kind split
  simp at split

theorem CompletionsMatched.append_singleton {request : RequestT} {records : List Event}
    (matched : CompletionsMatched request records) {event : Event}
    (closes : ∀ kind, event.completes = some (request, kind) →
      pendingKind request records = some kind) :
    CompletionsMatched request (records ++ [event]) := by
  intro before completion after kind split completes
  rcases List.eq_nil_or_concat after with rfl | ⟨middle, last, rfl⟩
  · obtain ⟨rfl, ⟨⟩⟩ := List.append_inj' split rfl
    exact closes kind completes
  · rw [List.concat_eq_append, ← List.cons_append, ← List.append_assoc] at split
    obtain ⟨split, -⟩ := List.append_inj' split rfl
    exact matched before completion middle kind split completes

/-!
## The tracker and its operations
-/

/-- The request tracker of a writer, with the records its operations append to. -/
structure TrackerView where
  nullRequest : RequestT
  requestType : RequestT → Option RequestType
  irecvRequests : RequestT → Option IrecvCapture
  records : List Event

/-- A writer's request tracker. -/
def OTF2Writer.tracker (w : OTF2Writer) : TrackerView :=
  ⟨w.nullRequest, w.requestType, w.irecvRequests, w.evtWriter⟩

/-- A block of a handler that touches the request tracker. -/
inductive TrackerOp where
  /-- A record that names no request. -/
  | record (event : Event) (plain : event.requestId = none)
  /-- `incomplete_call(request, REQUEST_TYPE_ISEND)` and the `MpiIsend` record of
  `mpi_isend_inner`. -/
  | isend (time : Otf2TimeT) (receiver : U32) (communicator : CommT) (msgTag : U32)
      (msgLength : U64) (request : RequestT)
  /-- The capture stored by `mpi_irecv`, `incomplete_call(request, REQUEST_TYPE_IRECV)` and the
  `MpiIrecvRequest` record. -/
  | irecv (time : Otf2TimeT) (capture : IrecvCapture)
  /-- `complete_call(request, timestamp)`. -/
  | complete (request : RequestT) (timestamp : Otf2TimeT)
  /-- `register_null_request(request)`. -/
  | registerNull (request : RequestT)

/-- `incomplete_call` on the tracker. -/
def TrackerView.track (v : TrackerView) (request : RequestT) (type : RequestType) :
    TrackerView :=
  if request ≠ v.nullRequest then
    { v with requestType := Function.update v.requestType request (some type) }
  else v

/-- Append a record. -/
def TrackerView.write (v : TrackerView) (event : Event) : TrackerView :=
  { v with records := v.records ++ [event] }

def TrackerView.capture (v : TrackerView) (capture : IrecvCapture) : TrackerView :=
  { v with irecvRequests := Function.update v.irecvRequests capture.request (some capture) }

def TrackerView.untrack (v : TrackerView) (request : RequestT) : TrackerView :=
  { v with requestType := Function.update v.requestType request none }

def TrackerView.release (v : TrackerView) (request : RequestT) : TrackerView :=
  { v with irecvRequests := Function.update v.irecvRequests request none }

/-- One operation; `none` where `complete_call` aborts or dereferences `end()`. -/
def TrackerOp.apply : TrackerOp → TrackerView → Option TrackerView
  | .record event _, v => some (v.write event)
  | .isend time receiver comm tag length request, v =>
    some ((v.track request .isend).write (.mpiIsend time receiver comm tag length request))
  | .irecv time capture, v =>
    some (((v.capture capture).track capture.request .irecv).write
      (.mpiIrecvRequest time capture.request))
  | .complete request timestamp, v =>
    match v.requestType request with
    | none => if request ≠ v.nullRequest then none else some v
    | some .isend => some ((v.write (.mpiIsendComplete timestamp request)).untrack request)
    | some .irecv =>
      match v.irecvRequests request with
      | none => none
      | some stored =>
        some (((v.write (.mpiIrecv timestamp stored.source stored.comm stored.tag
          stored.bytesSent request)).release request).untrack request)
  | .registerNull request, v => some { v with nullRequest := request }

/-- Operations one after the other. -/
def TrackerOp.runAll (ops : List TrackerOp) (v : TrackerView) : Option TrackerView :=
  ops.foldlM (fun v op => op.apply v) v

@[simp] theorem TrackerOp.runAll_nil (v : TrackerView) : TrackerOp.runAll [] v = some v := rfl

@[simp] theorem TrackerOp.runAll_cons (op : TrackerOp) (ops : List TrackerOp) (v : TrackerView) :
    TrackerOp.runAll (op :: ops) v = (op.apply v).bind (TrackerOp.runAll ops) := rfl

theorem TrackerOp.runAll_append (ops more : List TrackerOp) (v : TrackerView) :
    TrackerOp.runAll (ops ++ more) v = (TrackerOp.runAll ops v).bind (TrackerOp.runAll more) := by
  simp [TrackerOp.runAll, List.foldlM_append]

theorem TrackerOp.runAll_preserves (invariant : TrackerView → Prop)
    (allowed : TrackerOp → Prop)
    (step : ∀ op v v', allowed op → invariant v → op.apply v = some v' → invariant v')
    {ops : List TrackerOp} (each : ∀ op ∈ ops, allowed op) {v v' : TrackerView}
    (holds : invariant v) (ran : TrackerOp.runAll ops v = some v') : invariant v' := by
  induction ops generalizing v with
  | nil => cases ran; exact holds
  | cons op ops ih =>
    rw [TrackerOp.runAll_cons, Option.bind_eq_some] at ran
    obtain ⟨middle, applied, ran⟩ := ran
    exact ih (fun op mem => each op (.tail _ mem))
      (step op v middle (each op (.head _)) holds applied) ran

end Otf2Dump
