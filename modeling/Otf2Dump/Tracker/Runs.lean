import Otf2Dump.Tracker.Refinement
import Otf2Dump.Writer.GlobalIds

/-!
# The request tracker over runs

After `register_null_request` the tracker of every writer a run reaches is the spec's request
machine, and an `mpi_irecv` capture is carried by the completions of its request.
-/

set_option autoImplicit false

namespace Otf2Dump

/-- A run moves the tracker by operations its calls issue. -/
theorem run_moves_tracker {w w' : OTF2Writer} {calls : List Call} (ran : run w calls = some w') :
    ∃ ops : List TrackerOp, (∀ op ∈ ops, ∃ call ∈ calls, call.issues op) ∧
      TrackerOp.runAll ops w.tracker = some w'.tracker := by
  induction calls generalizing w with
  | nil =>
    cases ran
    exact ⟨[], by simp, rfl⟩
  | cons call calls ih =>
    simp only [run, List.foldlM_cons, Option.bind_eq_bind, Option.bind_eq_some] at ran
    obtain ⟨next, stepped, ran⟩ := ran
    obtain ⟨first, issued, moved⟩ := callMethod_moves_tracker call w next stepped
    obtain ⟨rest, issued', moved'⟩ := ih ran
    refine ⟨first ++ rest, fun op mem => ?_, by rw [TrackerOp.runAll_append, moved]; exact moved'⟩
    rcases List.mem_append.mp mem with mem | mem
    · exact ⟨call, .head _, issued op mem⟩
    · obtain ⟨other, member, issues⟩ := issued' op mem
      exact ⟨other, .tail _ member, issues⟩

/-!
## The tracker is the spec's request machine
-/

theorem TrackerOp.apply_nullRequest {op : TrackerOp}
    (notNull : ∀ request, op ≠ .registerNull request) {v v' : TrackerView} (applied : op.apply v = some v') : v'.nullRequest = v.nullRequest := by
  cases op with
  | record | isend | irecv => cases applied; simp
  | complete request timestamp =>
    simp only [TrackerOp.apply] at applied
    split at applied
    · split at applied <;> cases applied
      rfl
    · cases applied
      rfl
    · split at applied <;> cases applied
      rfl
  | registerNull request => exact absurd rfl (notNull request)

theorem tracker_new_registered (header : Header) (world : WorldConfig) (initial null : RequestT) :
    ({ OTF2Writer.new header world initial with nullRequest := null } : OTF2Writer).tracker.Valid
    where
  nullUntracked := rfl
  tracksPending _ _ := rfl
  irecvCaptured _ found := by cases found
  completionsMatched request _ := CompletionsMatched.nil request

/-- After `register_null_request(null)` and any calls but another registration, the tracker
is valid for `null`. -/
theorem tracker_valid_of_run {header : Header} {world : WorldConfig} {initial null : RequestT}
    {calls : List Call} {w : OTF2Writer}
    (ran : run (OTF2Writer.new header world initial) (.registerNullRequest null :: calls) = some w)
    (once : ∀ call ∈ calls, ∀ request, call ≠ .registerNullRequest request) :
    w.tracker.Valid ∧ w.nullRequest = null := by
  simp only [run, List.foldlM_cons, Option.bind_eq_bind, Option.bind_eq_some] at ran
  obtain ⟨registered, stepped, ran⟩ := ran
  cases stepped
  obtain ⟨ops, issued, moved⟩ := run_moves_tracker ran
  have notNull : ∀ op ∈ ops, ∀ request, op ≠ .registerNull request := by
    rintro op mem request rfl
    obtain ⟨call, member, rfl⟩ := issued _ mem
    exact once _ member request rfl
  exact TrackerOp.runAll_preserves (fun v => v.Valid ∧ v.nullRequest = null) _
    (fun op _ _ notNull ⟨valid, sameNull⟩ applied =>
      ⟨valid.apply notNull applied, (TrackerOp.apply_nullRequest notNull applied).trans sameNull⟩)
    notNull ⟨tracker_new_registered header world initial null, rfl⟩ moved

/-- The request tracker of a run on one rank: every completion record of a request other than
the null one closes the latest post of that request, with its kind; `complete_call` on a
request with no pending post aborts without writing anything, and on the null request does
nothing; and an `Irecv` entry always has its capture. -/
theorem completion_matches_latest_post {header : Header} {world : WorldConfig}
    {initial null : RequestT} {calls : List Call} {w : OTF2Writer}
    (ran : run (OTF2Writer.new header world initial) (.registerNullRequest null :: calls) = some w)
    (once : ∀ call ∈ calls, ∀ request, call ≠ .registerNullRequest request) :
    (∀ request, request ≠ null → ∀ before event after kind,
      w.evtWriter = before ++ event :: after → event.completes = some (request, kind) →
      ∃ earlier post between, before = earlier ++ post :: between ∧
        post.posts = some (request, kind) ∧ ∀ other ∈ between, other.requestId ≠ some request) ∧
    (∀ request timestamp, request ≠ null → pendingKind request w.evtWriter = none →
      ∃ message, completeCall request timestamp w = .error (.abort message) w) ∧
    (∀ timestamp, completeCall null timestamp w = .ok () w) ∧
    (∀ request, w.requestType request = some .irecv → (w.irecvRequests request).isSome) := by
  obtain ⟨valid, registered⟩ := tracker_valid_of_run ran once
  have tracked : ∀ request, request ≠ null →
      w.requestType request = pendingKind request w.evtWriter := fun request other =>
    valid.tracksPending request (show request ≠ w.nullRequest from registered ▸ other)
  refine ⟨fun request other before event after kind split completes => ?_,
    fun request timestamp other unposted => ?_, fun timestamp => ?_, valid.irecvCaptured⟩
  · exact pendingKind_eq_some (valid.completionsMatched request
      (show request ≠ w.nullRequest from registered ▸ other) before event after kind split completes)
  · exact ⟨"Error: request (" ++ toString request ++ ") not found on rank "
      ++ toString w.world.rank.toInt,
      by simp [completeCall, run_bind, (tracked request other).trans unposted, registered, other]⟩
  · have untracked : w.requestType null = none := registered ▸ valid.nullUntracked
    simp [completeCall, run_bind, untracked, registered]

theorem completion_matches_latest_post_after_wait :
    let calls : List Call := [.registerType 7 4, .mpiIrecv 1 2 7 1 0 0 0 9, .mpiWait 3 4 9]
    ∃ w, run (OTF2Writer.new ⟨0, 1, 1, 2, 0, -1⟩ ⟨1, 0⟩ 0) (.registerNullRequest 0 :: calls) =
        some w ∧
      (∀ call ∈ calls, ∀ request, call ≠ .registerNullRequest request) ∧
      (∀ request, request ≠ 0 → ∀ before event after kind,
        w.evtWriter = before ++ event :: after → event.completes = some (request, kind) →
        ∃ earlier post between, before = earlier ++ post :: between ∧
          post.posts = some (request, kind) ∧ ∀ other ∈ between, other.requestId ≠ some request) ∧
      (∀ request timestamp, request ≠ 0 → pendingKind request w.evtWriter = none →
        ∃ message, completeCall request timestamp w = .error (.abort message) w) ∧
      (∀ timestamp, completeCall 0 timestamp w = .ok () w) ∧
      (∀ request, w.requestType request = some .irecv → (w.irecvRequests request).isSome) := by
  intro calls
  obtain ⟨w, ran⟩ : ∃ w, run (OTF2Writer.new ⟨0, 1, 1, 2, 0, -1⟩ ⟨1, 0⟩ 0)
      (.registerNullRequest 0 :: calls) = some w := ⟨_, rfl⟩
  have once : ∀ call ∈ calls, ∀ request, call ≠ .registerNullRequest request := by simp [calls]
  exact ⟨w, ran, once, completion_matches_latest_post ran once⟩

/-!
## What `mpi_irecv` captured
-/

theorem mpiIrecv_step_captures {w w' : OTF2Writer} {start stop : Otf2TimeT} {type : MpiTypeT}
    {count : U64} {source : U32} {comm : CommT} {tag : U32} {request : RequestT}
    (posted : (Call.mpiIrecv start stop type count source comm tag request).step w = some w') :
    w'.irecvRequests request = some ⟨w.countBytes type count, source, tag, comm, request⟩ := by
  dsimp only [Call.step, callMethod] at posted
  simp only [afterCall_discard] at posted
  by_cases tracked : request = w.nullRequest
  · simp only [mpiIrecv, enter, incompleteCall, leave, emit, countEvents, run_bind, run_modify,
      run_modifyGet, run_get, run_pure, tracked, ne_eq, not_true_eq_false, reduceIte] at posted
    cases posted
    rw [tracked]
    exact (Function.update_same _ _ _).trans rfl
  · simp only [mpiIrecv, enter, incompleteCall, leave, emit, countEvents, run_bind, run_modify,
      run_modifyGet, run_get, run_pure, tracked, ne_eq, not_false_eq_true, reduceIte] at posted
    cases posted
    exact (Function.update_same _ _ _).trans rfl

/-- After an `mpi_irecv` of `request`, while no call posts `request` as an `Irecv` again, the
tracker keeps what that call captured, in the state it was called in. -/
theorem capture_kept_along_run {w0 w1 w : OTF2Writer} {start stop : Otf2TimeT}
    {type : MpiTypeT} {count : U64} {source : U32} {comm : CommT} {tag : U32}
    {request : RequestT} {calls : List Call}
    (posted : (Call.mpiIrecv start stop type count source comm tag request).step w0 = some w1)
    (ran : run w1 calls = some w) (latest : ∀ call ∈ calls, call.irecvRequest ≠ some request) :
    w.tracker.KeepsCapture ⟨w0.countBytes type count, source, tag, comm, request⟩
      w1.evtWriter.length := by
  obtain ⟨ops, issued, moved⟩ := run_moves_tracker ran
  refine TrackerOp.runAll_preserves _ (fun op => ∃ call ∈ calls, call.issues op)
    (fun op _ _ issues keeps applied => keeps.apply ?_ applied) issued
    ⟨fun _ => mpiIrecv_step_captures posted, by simp [OTF2Writer.tracker], le_refl _⟩ moved
  rintro time other rfl same
  obtain ⟨call, member, posts, -⟩ := issues
  exact latest call member (posts.trans (congrArg some same))

theorem completeCall_irecv {request : RequestT} (timestamp : Otf2TimeT) {w : OTF2Writer}
    {capture : IrecvCapture} (pending : w.requestType request = some .irecv)
    (stored : w.irecvRequests request = some capture) :
    ∃ w', completeCall request timestamp w = .ok () w' ∧ w'.evtWriter = w.evtWriter ++
      [.mpiIrecv timestamp capture.source capture.comm capture.tag capture.bytesSent request] := by
  simp only [completeCall, pending, stored, emit, countEvents, eraseRequestType,
    eraseIrecvRequest, run_bind, run_get, run_modify]
  exact ⟨_, rfl, rfl⟩

/-- After the latest `mpi_irecv` of a request, completing the request while it is pending as an
`Irecv` writes one `MpiIrecv` record, carrying the source, communicator, tag and byte count
that call captured, the byte count as `count_bytes(type, count)` stood when it was called; and
every `MpiIrecv` completion of the request written since carries the same. -/
theorem irecv_completion_carries_capture {w0 w1 w : OTF2Writer} {start stop : Otf2TimeT}
    {type : MpiTypeT} {count : U64} {source : U32} {comm : CommT} {tag : U32}
    {request : RequestT} {calls : List Call}
    (posted : (Call.mpiIrecv start stop type count source comm tag request).step w0 = some w1)
    (ran : run w1 calls = some w) (latest : ∀ call ∈ calls, call.irecvRequest ≠ some request) :
    (∀ timestamp, w.requestType request = some .irecv →
      ∃ w', completeCall request timestamp w = .ok () w' ∧ w'.evtWriter = w.evtWriter ++
        [.mpiIrecv timestamp source comm tag (w0.countBytes type count) request]) ∧
    ∀ event ∈ w.evtWriter.drop w1.evtWriter.length, event.completes = some (request, .irecv) →
      ∃ time, event = .mpiIrecv time source comm tag (w0.countBytes type count) request := by
  have keeps := capture_kept_along_run posted ran latest
  exact ⟨fun timestamp pending => completeCall_irecv timestamp pending (keeps.stored pending),
    keeps.written⟩

/-- An `mpi_irecv` of 9 with a 4-byte type, then `register_type` giving the type 8 bytes: the
`MpiIrecv` record the completion writes carries the 4 bytes of the post. -/
theorem irecv_completion_carries_capture_on_wait :
    ∃ w0 w1 w, run (OTF2Writer.new ⟨0, 1, 1, 2, 0, -1⟩ ⟨1, 0⟩ 0)
        [.registerNullRequest 0, .registerType 7 4] = some w0 ∧
      (Call.mpiIrecv 1 2 7 1 0 0 0 9).step w0 = some w1 ∧
      run w1 [.registerType 7 8] = some w ∧
      (∀ call ∈ [Call.registerType 7 8], call.irecvRequest ≠ some 9) ∧
      w.requestType 9 = some .irecv ∧ w0.countBytes 7 1 = 4 ∧ w.countBytes 7 1 = 8 ∧
      (∃ w', completeCall 9 3 w = .ok () w' ∧
        w'.evtWriter = w.evtWriter ++ [.mpiIrecv 3 0 0 0 (w0.countBytes 7 1) 9]) ∧
      ∀ event ∈ w.evtWriter.drop w1.evtWriter.length, event.completes = some (9, .irecv) →
        ∃ time, event = .mpiIrecv time 0 0 0 (w0.countBytes 7 1) 9 := by
  let start := OTF2Writer.new ⟨0, 1, 1, 2, 0, -1⟩ ⟨1, 0⟩ 0
  let w0 := (run start [.registerNullRequest 0, .registerType 7 4]).getD start
  let w1 := ((Call.mpiIrecv 1 2 7 1 0 0 0 9).step w0).getD w0
  let w := (run w1 [.registerType 7 8]).getD w1
  have posted : (Call.mpiIrecv 1 2 7 1 0 0 0 9).step w0 = some w1 := rfl
  have ran : run w1 [.registerType 7 8] = some w := rfl
  have latest : ∀ call ∈ [Call.registerType 7 8], call.irecvRequest ≠ some 9 := by decide
  have carried := irecv_completion_carries_capture posted ran latest
  exact ⟨w0, w1, w, rfl, posted, ran, latest, rfl, rfl, rfl, carried.1 3 rfl, carried.2⟩

/-!
## Communicators in the records
-/

/-- From the record numbered `start` on, a record that carries a communicator and completes
nothing carries `comm`. -/
structure TrackerView.CarriesComm (comm : Option CommT) (start : Nat) (v : TrackerView) :
    Prop where
  carried : ∀ event ∈ v.records.drop start, ∀ c, event.communicator = some c →
    event.completes = none → comm = some c
  within : start ≤ v.records.length

theorem TrackerView.CarriesComm.of_write {comm : Option CommT} {start : Nat}
    {v v' : TrackerView} (carries : v.CarriesComm comm start) (event : Event)
    (written : v'.records = v.records ++ [event])
    (carried : ∀ c, event.communicator = some c → event.completes = none → comm = some c) :
    v'.CarriesComm comm start where
  carried other mem := by
    rw [written, List.drop_append_of_le_length carries.within, List.mem_append,
      List.mem_singleton] at mem
    rcases mem with mem | rfl
    · exact carries.carried other mem
    · exact carried
  within := by
    rw [written, List.length_append]
    exact carries.within.trans (Nat.le_add_right _ _)

theorem TrackerView.CarriesComm.apply {call : Call} {start : Nat} {op : TrackerOp}
    {v v' : TrackerView} (carries : v.CarriesComm call.comm start) (issued : call.issues op)
    (applied : op.apply v = some v') : v'.CarriesComm call.comm start := by
  cases op with
  | record event plain =>
    cases applied
    exact carries.of_write event rfl fun c found _ => issued c found
  | isend time receiver comm tag length request =>
    cases applied
    exact carries.of_write (.mpiIsend time receiver comm tag length request) (by simp)
      fun c found _ => Option.some.inj found ▸ issued
  | irecv time capture =>
    cases applied
    exact carries.of_write (.mpiIrecvRequest time capture.request) (by simp)
      fun c found _ => nomatch found
  | complete request timestamp =>
    simp only [TrackerOp.apply] at applied
    split at applied
    · split at applied <;> cases applied
      exact carries
    · cases applied
      exact carries.of_write _ rfl fun c found _ => nomatch found
    · split at applied <;> cases applied
      exact carries.of_write _ rfl fun c _ completes => nomatch completes
  | registerNull request =>
    cases applied
    exact ⟨carries.carried, carries.within⟩

/-- The communicator in a record is the local handle passed to the call that wrote it; an
`MpiIrecv` completion carries the one passed to the latest `mpi_irecv` of its request.
`comms_[c].global_id` is not read. -/
theorem records_carry_local_handles :
    (∀ (call : Call) (w w' : OTF2Writer), call.step w = some w' →
      ∀ event ∈ w'.evtWriter.drop w.evtWriter.length, ∀ comm, event.communicator = some comm →
        event.completes = none → call.comm = some comm) ∧
    (∀ (w0 w1 w : OTF2Writer) (start stop : Otf2TimeT) (type : MpiTypeT) (count : U64)
      (source : U32) (comm : CommT) (tag : U32) (request : RequestT) (calls : List Call),
      (Call.mpiIrecv start stop type count source comm tag request).step w0 = some w1 →
      run w1 calls = some w → (∀ call ∈ calls, call.irecvRequest ≠ some request) →
      ∀ event ∈ w.evtWriter.drop w1.evtWriter.length, event.completes = some (request, .irecv) →
        event.communicator = some comm) := by
  refine ⟨fun call w w' stepped => ?_, fun w0 w1 w _ _ _ _ _ _ _ _ _ posted ran latest => ?_⟩
  · obtain ⟨ops, issued, moved⟩ := callMethod_moves_tracker call w w' stepped
    exact (TrackerOp.runAll_preserves (TrackerView.CarriesComm call.comm w.evtWriter.length) _ (fun _ _ _ issues carries applied => carries.apply issues applied)
      issued ⟨by simp [OTF2Writer.tracker], le_refl _⟩ moved).carried
  · intro event mem completes
    obtain ⟨time, rfl⟩ := (capture_kept_along_run posted ran latest).written event mem completes
    rfl

theorem records_carry_local_handles_on_send_and_wait :
    let start := OTF2Writer.new ⟨0, 1, 1, 2, 0, -1⟩ ⟨1, 0⟩ 0
    let w0 := (run start [.registerNullRequest 0, .registerType 7 4]).getD start
    let w1 := ((Call.mpiSend 1 2 7 1 0 5 0).step w0).getD w0
    let w2 := ((Call.mpiIrecv 3 4 7 1 0 6 0 9).step w1).getD w1
    let w := (run w2 [.mpiWait 5 6 9]).getD w2
    (Call.mpiSend 1 2 7 1 0 5 0).step w0 = some w1 ∧
      (∀ event ∈ w1.evtWriter.drop w0.evtWriter.length, ∀ comm,
        event.communicator = some comm → event.completes = none →
        (Call.mpiSend 1 2 7 1 0 5 0).comm = some comm) ∧
      (Call.mpiIrecv 3 4 7 1 0 6 0 9).step w1 = some w2 ∧ run w2 [.mpiWait 5 6 9] = some w ∧
      (∀ call ∈ [Call.mpiWait 5 6 9], call.irecvRequest ≠ some 9) ∧
      ∀ event ∈ w.evtWriter.drop w2.evtWriter.length, event.completes = some (9, .irecv) →
        event.communicator = some 6 := by
  intro start w0 w1 w2 w
  have sent : (Call.mpiSend 1 2 7 1 0 5 0).step w0 = some w1 := rfl
  have posted : (Call.mpiIrecv 3 4 7 1 0 6 0 9).step w1 = some w2 := rfl
  have ran : run w2 [.mpiWait 5 6 9] = some w := rfl
  have latest : ∀ call ∈ [Call.mpiWait 5 6 9], call.irecvRequest ≠ some 9 := by decide
  exact ⟨sent, records_carry_local_handles.1 _ _ _ sent, posted, ran, latest,
    records_carry_local_handles.2 _ _ _ _ _ _ _ _ _ _ _ _ posted ran latest⟩

/-- After the first pass, the agreement and the assignment, an `MPI_Comm_split` communicator
keeps the value-initialised `global_id` 0 (`mpi_comm_split_first_pass` registers nothing), and
the `MpiSend` record of a send on it carries its local handle 5. -/
theorem split_comm_record_carries_local_handle :
    ∃ w1 assigner w2 w3,
      run (OTF2Writer.new ⟨0, 1, 1, 2, 0, -1⟩ ⟨1, 0⟩ 0)
        [.openArchive "trace" 1 0, .registerCommWorld 0, .mpiCommSplitFirstPass 0 0 0 5] =
        some w1 ∧
      w1.agreeGlobalIds 1 { nextId := 0 } = some assigner ∧
      w1.assignGlobalIds 1 assigner = some (.ok w2) ∧
      run w2 [.registerType 7 4, .mpiCommSplit 1 2 0 0 0 5, .mpiSend 3 4 7 1 0 5 0] = some w3 ∧
      Event.mpiSend 3 0 5 0 4 ∈ w3.evtWriter ∧ (w3.comms 5).globalId = 0 :=
  ⟨_, _, _, _, rfl, rfl, rfl, rfl, by decide, rfl⟩

end Otf2Dump
