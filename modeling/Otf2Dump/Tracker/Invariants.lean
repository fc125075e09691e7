import Otf2Dump.Tracker.Machine

/-!
# Invariants of the request tracker

Every tracker operation keeps `TrackerView.Valid`, the spec's request machine over the records,
except `register_null_request`, and keeps the captures of `mpi_irecv` (`KeepsCapture`).
-/

set_option autoImplicit false

namespace Otf2Dump

namespace TrackerView

section Fields

variable (v : TrackerView)

@[simp] theorem write_nullRequest (event : Event) : (v.write event).nullRequest = v.nullRequest :=
  rfl

@[simp] theorem write_requestType (event : Event) : (v.write event).requestType = v.requestType :=
  rfl

@[simp] theorem write_irecvRequests (event : Event) :
    (v.write event).irecvRequests = v.irecvRequests := rfl

@[simp] theorem write_records (event : Event) : (v.write event).records = v.records ++ [event] :=
  rfl

@[simp] theorem track_nullRequest (request : RequestT) (type : RequestType) :
    (v.track request type).nullRequest = v.nullRequest := by
  unfold track; split <;> rfl

@[simp] theorem track_irecvRequests (request : RequestT) (type : RequestType) :
    (v.track request type).irecvRequests = v.irecvRequests := by
  unfold track; split <;> rfl

@[simp] theorem track_records (request : RequestT) (type : RequestType) :
    (v.track request type).records = v.records := by
  unfold track; split <;> rfl

theorem track_requestType (request : RequestT) (type : RequestType) (other : RequestT) :
    (v.track request type).requestType other =
      if request ≠ v.nullRequest ∧ other = request then some type else v.requestType other := by
  unfold track
  by_cases tracked : request ≠ v.nullRequest <;> by_cases same : other = request <;>
    simp [tracked, same, Function.update_apply]

@[simp] theorem capture_nullRequest (capture : IrecvCapture) :
    (v.capture capture).nullRequest = v.nullRequest := rfl

@[simp] theorem capture_requestType (capture : IrecvCapture) :
    (v.capture capture).requestType = v.requestType := rfl

@[simp] theorem capture_irecvRequests (capture : IrecvCapture) :
    (v.capture capture).irecvRequests =
      Function.update v.irecvRequests capture.request (some capture) := rfl

@[simp] theorem capture_records (capture : IrecvCapture) :
    (v.capture capture).records = v.records := rfl

@[simp] theorem untrack_nullRequest (request : RequestT) :
    (v.untrack request).nullRequest = v.nullRequest := rfl

@[simp] theorem untrack_requestType (request : RequestT) :
    (v.untrack request).requestType = Function.update v.requestType request none := rfl

@[simp] theorem untrack_irecvRequests (request : RequestT) :
    (v.untrack request).irecvRequests = v.irecvRequests := rfl

@[simp] theorem untrack_records (request : RequestT) :
    (v.untrack request).records = v.records := rfl

@[simp] theorem release_nullRequest (request : RequestT) :
    (v.release request).nullRequest = v.nullRequest := rfl

@[simp] theorem release_requestType (request : RequestT) :
    (v.release request).requestType = v.requestType := rfl

@[simp] theorem release_irecvRequests (request : RequestT) :
    (v.release request).irecvRequests = Function.update v.irecvRequests request none := rfl

@[simp] theorem release_records (request : RequestT) :
    (v.release request).records = v.records := rfl

end Fields

/-!
## Agreement with the spec's request states
-/

/-- The tracker is the spec's request machine over its records. -/
structure Valid (v : TrackerView) : Prop where
  nullUntracked : v.requestType v.nullRequest = none
  tracksPending : ∀ request, request ≠ v.nullRequest →
    v.requestType request = pendingKind request v.records
  irecvCaptured : ∀ request, v.requestType request = some .irecv →
    (v.irecvRequests request).isSome
  completionsMatched : ∀ request, request ≠ v.nullRequest →
    CompletionsMatched request v.records

theorem Valid.of_write {v v' : TrackerView} (valid : v.Valid) {event : Event}
    (sameNull : v'.nullRequest = v.nullRequest) (written : v'.records = v.records ++ [event])
    (untracked : v'.requestType v.nullRequest = none)
    (moves : ∀ request, request ≠ v.nullRequest →
      v'.requestType request = pendingAfter request (v.requestType request) event)
    (closes : ∀ request kind, request ≠ v.nullRequest → event.completes = some (request, kind) →
      v.requestType request = some kind)
    (captured : ∀ request, v'.requestType request = some .irecv →
      (v'.irecvRequests request).isSome) : v'.Valid where
  nullUntracked := sameNull ▸ untracked
  tracksPending request other := by
    rw [sameNull] at other
    rw [written, pendingKind_append_singleton, moves request other,
      valid.tracksPending request other]
  irecvCaptured := captured
  completionsMatched request other := by
    rw [sameNull] at other
    rw [written]
    exact (valid.completionsMatched request other).append_singleton fun kind completes =>
      valid.tracksPending request other ▸ closes request kind other completes

theorem Valid.record {v : TrackerView} (valid : v.Valid) {event : Event}
    (plain : event.requestId = none) : (v.write event).Valid :=
  valid.of_write rfl rfl valid.nullUntracked
    (fun _ _ => (pendingAfter_of_requestId_ne (by simp [plain]) _).symm)
    (fun _ _ _ completes => by simp [Event.completes_of_requestId_none plain] at completes)
    valid.irecvCaptured

theorem Valid.post {v v' : TrackerView} (valid : v.Valid) {request : RequestT}
    {kind : RequestType} (event : Event) (posts : event.posts = some (request, kind))
    (sameNull : v'.nullRequest = v.nullRequest) (written : v'.records = v.records ++ [event])
    (tracked : v'.requestType = (v.track request kind).requestType)
    (captured : ∀ other, v'.requestType other = some .irecv →
      (v'.irecvRequests other).isSome) : v'.Valid := by
  refine valid.of_write sameNull written ?_ (fun other notNull => ?_)
    (fun _ _ _ completes => by simp [Event.completes_of_posts posts] at completes) captured
  · rw [tracked, track_requestType, if_neg (by tauto)]
    exact valid.nullUntracked
  · rw [tracked, track_requestType, pendingAfter_of_posts posts]
    by_cases same : other = request
    · subst same; simp [notNull]
    · simp [same]

theorem Valid.completion {v v' : TrackerView} (valid : v.Valid) {request : RequestT}
    {kind : RequestType} (event : Event) (completes : event.completes = some (request, kind))
    (pending : v.requestType request = some kind)
    (sameNull : v'.nullRequest = v.nullRequest) (written : v'.records = v.records ++ [event])
    (untracked : v'.requestType = Function.update v.requestType request none)
    (captured : ∀ other, v'.requestType other = some .irecv →
      (v'.irecvRequests other).isSome) : v'.Valid := by
  refine valid.of_write sameNull written ?_ (fun other _ => ?_) (fun other _ _ closes => ?_)
    captured
  · rw [untracked, Function.update_apply]
    split
    · rfl
    · exact valid.nullUntracked
  · rw [untracked, Function.update_apply, pendingAfter_of_completes completes]
  · rw [completes] at closes
    cases closes
    exact pending

theorem Valid.complete {v v' : TrackerView} (valid : v.Valid) {request : RequestT}
    {timestamp : Otf2TimeT} (applied : (TrackerOp.complete request timestamp).apply v = some v') :
    v'.Valid := by
  simp only [TrackerOp.apply] at applied
  cases pending : v.requestType request with
  | none =>
    simp only [pending, ne_eq, ite_not] at applied
    split at applied
    · cases applied
      exact valid
    · cases applied
  | some kind =>
    cases kind with
    | isend =>
      simp only [pending, Option.some.injEq] at applied
      subst applied
      refine valid.completion (.mpiIsendComplete timestamp request) rfl pending rfl rfl
        rfl fun other tracked => ?_
      simp only [untrack_requestType, write_requestType, Function.update_apply] at tracked
      split_ifs at tracked
      exact valid.irecvCaptured other tracked
    | irecv =>
      cases found : v.irecvRequests request with
      | none => simp [pending, found] at applied
      | some stored =>
        simp only [pending, found, Option.some.injEq] at applied
        subst applied
        refine valid.completion (.mpiIrecv timestamp _ _ _ _ request) rfl pending rfl rfl
          rfl fun other tracked => ?_
        simp only [untrack_requestType, release_requestType, write_requestType,
          Function.update_apply] at tracked
        split_ifs at tracked with same
        simpa [Function.update_apply, same] using valid.irecvCaptured other tracked

/-- Every operation but `register_null_request` keeps the tracker valid. -/
theorem Valid.apply {op : TrackerOp} {v v' : TrackerView} (valid : v.Valid)
    (notNull : ∀ request, op ≠ .registerNull request) (applied : op.apply v = some v') :
    v'.Valid := by
  cases op with
  | record event plain =>
    cases applied
    exact valid.record plain
  | isend time receiver comm tag length request =>
    cases applied
    refine valid.post (.mpiIsend time receiver comm tag length request) rfl (by simp)
      (by simp) rfl fun other tracked => ?_
    simp only [write_requestType, track_requestType] at tracked
    split_ifs at tracked
    · cases tracked
    · simpa using valid.irecvCaptured other tracked
  | irecv time capture =>
    cases applied
    refine valid.post (.mpiIrecvRequest time capture.request) rfl (by simp) (by simp)
      (by funext other; simp [track_requestType]) fun other tracked => ?_
    by_cases same : other = capture.request
    · simp [same]
    · simp only [write_requestType, track_requestType, capture_requestType,
        capture_nullRequest] at tracked
      rw [if_neg (by tauto)] at tracked
      simpa [same] using valid.irecvCaptured other tracked
  | complete request timestamp => exact valid.complete applied
  | registerNull request => exact absurd rfl (notNull request)

/-!
## The capture of a posted receive
-/

/-- From the record numbered `start` on, every `MpiIrecv` completion of `capture`'s request
carries `capture`, and while the request is an `Irecv` in the tracker its capture is
`capture`. -/
structure KeepsCapture (capture : IrecvCapture) (start : Nat) (v : TrackerView) : Prop where
  stored : v.requestType capture.request = some .irecv →
    v.irecvRequests capture.request = some capture
  written : ∀ event ∈ v.records.drop start, event.completes = some (capture.request, .irecv) →
    ∃ time, event = .mpiIrecv time capture.source capture.comm capture.tag capture.bytesSent
      capture.request
  within : start ≤ v.records.length

theorem KeepsCapture.of_write {capture : IrecvCapture} {start : Nat} {v v' : TrackerView}
    (keeps : v.KeepsCapture capture start) (event : Event)
    (written : v'.records = v.records ++ [event])
    (stored : v'.requestType capture.request = some .irecv →
      v'.irecvRequests capture.request = some capture)
    (carries : event.completes = some (capture.request, .irecv) →
      ∃ time, event = .mpiIrecv time capture.source capture.comm capture.tag capture.bytesSent
        capture.request) : v'.KeepsCapture capture start where
  stored := stored
  written other mem := by
    rw [written, List.drop_append_of_le_length keeps.within, List.mem_append,
      List.mem_singleton] at mem
    rcases mem with mem | rfl
    · exact keeps.written other mem
    · exact carries
  within := by
    rw [written, List.length_append]
    exact keeps.within.trans (Nat.le_add_right _ _)

/-- Every operation but a new capture for the same request keeps the capture. -/
theorem KeepsCapture.apply {capture : IrecvCapture} {start : Nat} {op : TrackerOp}
    {v v' : TrackerView} (keeps : v.KeepsCapture capture start)
    (fresh : ∀ time other, op = .irecv time other → other.request ≠ capture.request)
    (applied : op.apply v = some v') : v'.KeepsCapture capture start := by
  cases op with
  | record event plain =>
    cases applied
    exact keeps.of_write event rfl keeps.stored fun completes => by
      simp [Event.completes_of_requestId_none plain] at completes
  | isend time receiver comm tag length request =>
    cases applied
    refine keeps.of_write (.mpiIsend time receiver comm tag length request) (by simp)
      (fun tracked => ?_) (fun completes => by cases completes)
    simp only [write_requestType, track_requestType] at tracked
    split_ifs at tracked
    · cases tracked
    · simpa using keeps.stored tracked
  | irecv time other =>
    cases applied
    have other_request := fresh time other rfl
    refine keeps.of_write (.mpiIrecvRequest time other.request) (by simp)
      (fun tracked => ?_) (fun completes => by cases completes)
    simp only [write_requestType, track_requestType, capture_requestType,
      capture_nullRequest] at tracked
    rw [if_neg (by tauto)] at tracked
    simpa [Function.update_apply, Ne.symm other_request] using keeps.stored tracked
  | complete request timestamp =>
    simp only [TrackerOp.apply] at applied
    cases pending : v.requestType request with
    | none =>
      simp only [pending, ne_eq, ite_not] at applied
      split at applied
      · cases applied
        exact keeps
      · cases applied
    | some kind =>
      cases kind with
      | isend =>
        simp only [pending, Option.some.injEq] at applied
        subst applied
        refine keeps.of_write (.mpiIsendComplete timestamp request) rfl
          (fun tracked => ?_) (fun completes => by cases completes)
        simp only [untrack_requestType, write_requestType, Function.update_apply] at tracked
        split_ifs at tracked
        exact keeps.stored tracked
      | irecv =>
        cases found : v.irecvRequests request with
        | none => simp [pending, found] at applied
        | some stored =>
          simp only [pending, found, Option.some.injEq] at applied
          subst applied
          refine keeps.of_write (.mpiIrecv timestamp _ _ _ _ request) rfl
            (fun tracked => ?_) (fun completes => ?_)
          · simp only [untrack_requestType, release_requestType, write_requestType,
              Function.update_apply] at tracked
            split_ifs at tracked with same
            simpa [Function.update_apply, same] using keeps.stored tracked
          · simp only [Event.completes, Option.some.injEq, Prod.mk.injEq] at completes
            obtain ⟨rfl, -⟩ := completes
            rw [keeps.stored pending] at found
            cases found
            exact ⟨timestamp, rfl⟩
  | registerNull request =>
    cases applied
    exact ⟨keeps.stored, keeps.written, keeps.within⟩

end TrackerView

end Otf2Dump
