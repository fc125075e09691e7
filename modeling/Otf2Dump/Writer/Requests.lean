import Otf2Dump.Writer.TypeSizes

/-!
# Point-to-point calls and the request tracker

The blocking sends and receives, the non-blocking posts, `complete_call`, and the wait/test
family.
-/

set_option autoImplicit false

namespace Otf2Dump

/-- `generic_call`: `_ENTER(name); _LEAVE();`. -/
def genericCall (start stop : Otf2TimeT) (name : String) : WriterM Otf2WriterResult := do
  let thisRegion ← enter start stop name
  leave stop thisRegion

/-!
## Blocking point-to-point
-/

/-- `mpi_send_inner`: the size is read with `type_sizes_[type]`, not `count_bytes`. -/
def mpiSendInner (start : Otf2TimeT) (type : MpiTypeT) (count : U64) (dest : U32)
    (comm : CommT) (tag : U32) : WriterM Otf2WriterResult := do
  let size ← typeSizeAt type
  emit (.mpiSend start dest comm tag (size.toU64 * count))
  countEvents 1
  pure .success

/-- The blocking send family: `_ENTER(name)`, `mpi_send_inner`, `_LEAVE()`. -/
def sendCall (name : String) (start stop : Otf2TimeT) (type : MpiTypeT) (count : U64)
    (dest : U32) (comm : CommT) (tag : U32) : WriterM Otf2WriterResult := do
  let thisRegion ← enter start stop name
  let _ ← mpiSendInner start type count dest comm tag
  leave stop thisRegion

def mpiSend (start stop : Otf2TimeT) (type : MpiTypeT) (count : U64) (dest : U32)
    (comm : CommT) (tag : U32) : WriterM Otf2WriterResult :=
  sendCall "MPI_Send" start stop type count dest comm tag

def mpiBsend (start stop : Otf2TimeT) (type : MpiTypeT) (count : U64) (dest : U32)
    (comm : CommT) (tag : U32) : WriterM Otf2WriterResult :=
  sendCall "MPI_Bsend" start stop type count dest comm tag

def mpiSsend (start stop : Otf2TimeT) (type : MpiTypeT) (count : U64) (dest : U32)
    (comm : CommT) (tag : U32) : WriterM Otf2WriterResult :=
  sendCall "MPI_Ssend" start stop type count dest comm tag

def mpiRsend (start stop : Otf2TimeT) (type : MpiTypeT) (count : U64) (dest : U32)
    (comm : CommT) (tag : U32) : WriterM Otf2WriterResult :=
  sendCall "MPI_Rsend" start stop type count dest comm tag

def mpiRecv (start stop : Otf2TimeT) (type : MpiTypeT) (count : U64) (source : U32)
    (comm : CommT) (tag : U32) : WriterM Otf2WriterResult := do
  let thisRegion ← enter start stop "MPI_Recv"
  emit (.mpiRecv start source comm tag ((← get).countBytes type count))
  countEvents 1
  leave stop thisRegion

/-!
## The request tracker
-/

/-- `incomplete_call`: record the kind of a posted request, unless it is the null request. -/
def incompleteCall (requestId : RequestT) (type : RequestType) : WriterM Unit := do
  if requestId ≠ (← get).nullRequest then
    modify fun w => { w with requestType := Function.update w.requestType requestId (some type) }

def eraseRequestType (requestId : RequestT) : WriterM Unit :=
  modify fun w => { w with requestType := Function.update w.requestType requestId none }

def eraseIrecvRequest (requestId : RequestT) : WriterM Unit :=
  modify fun w => { w with irecvRequests := Function.update w.irecvRequests requestId none }

/-- `complete_call`. An untracked request aborts unless it is the null request. In the
`REQUEST_TYPE_IRECV` branch the capture is read through `irecv_it->second` before
`irecv_it` is compared with `end()`. -/
def completeCall (requestId : RequestT) (timestamp : Otf2TimeT) : WriterM Unit := do
  let w ← get
  match w.requestType requestId with
  | none =>
    if requestId ≠ w.nullRequest then
      throw (.abort ("Error: request (" ++ toString requestId ++ ") not found on rank "
        ++ toString w.world.rank.toInt))
  | some .isend =>
    emit (.mpiIsendComplete timestamp requestId)
    countEvents 1
    eraseRequestType requestId
  | some .irecv =>
    match w.irecvRequests requestId with
    | none => undefined "irecv_requests.end() dereferenced"
    | some irecv =>
      emit (.mpiIrecv timestamp irecv.source irecv.comm irecv.tag irecv.bytesSent requestId)
      eraseIrecvRequest requestId
      countEvents 1
      eraseRequestType requestId

def mpiIsendInner (start : Otf2TimeT) (type : MpiTypeT) (count : U64) (dest : U32)
    (comm : CommT) (tag : U32) (request : RequestT) : WriterM Otf2WriterResult := do
  incompleteCall request .isend
  emit (.mpiIsend start dest comm tag ((← get).countBytes type count) request)
  countEvents 1
  pure .success

/-- The non-blocking send family: `_ENTER(name)`, `mpi_isend_inner`, `_LEAVE()`. -/
def isendCall (name : String) (start stop : Otf2TimeT) (type : MpiTypeT) (count : U64)
    (dest : U32) (comm : CommT) (tag : U32) (request : RequestT) : WriterM Otf2WriterResult := do
  let thisRegion ← enter start stop name
  let _ ← mpiIsendInner start type count dest comm tag request
  leave stop thisRegion

def mpiIsend (start stop : Otf2TimeT) (type : MpiTypeT) (count : U64) (dest : U32)
    (comm : CommT) (tag : U32) (request : RequestT) : WriterM Otf2WriterResult :=
  isendCall "MPI_Isend" start stop type count dest comm tag request

def mpiIbsend (start stop : Otf2TimeT) (type : MpiTypeT) (count : U64) (dest : U32)
    (comm : CommT) (tag : U32) (request : RequestT) : WriterM Otf2WriterResult :=
  isendCall "MPI_Ibsend" start stop type count dest comm tag request

def mpiIssend (start stop : Otf2TimeT) (type : MpiTypeT) (count : U64) (dest : U32)
    (comm : CommT) (tag : U32) (request : RequestT) : WriterM Otf2WriterResult :=
  isendCall "MPI_Issend" start stop type count dest comm tag request

def mpiIrsend (start stop : Otf2TimeT) (type : MpiTypeT) (count : U64) (dest : U32)
    (comm : CommT) (tag : U32) (request : RequestT) : WriterM Otf2WriterResult :=
  isendCall "MPI_Irsend" start stop type count dest comm tag request

/-- With a datatype never registered, `mpi_send` records a message length of 0 where
`count_bytes` gives 4 bytes an element, as `mpi_isend` records, and leaves
`type_sizes_[type] = 0` behind, so later byte counts of that type are 0 too. -/
theorem mpiSend_unregistered_type_records_zero :
    let start : OTF2Writer := OTF2Writer.new ⟨0, 1, 1, 2, 0, -1⟩ ⟨1, 0⟩ 0
    start.countBytes 7 3 = 12 ∧
    (∃ w, mpiSend 1 2 7 3 0 0 0 start = .ok .success w ∧
      w.evtWriter = [.enter 1 0, .mpiSend 1 0 0 0 0, .leave 2 0] ∧ w.countBytes 7 3 = 0) ∧
    ∃ w, mpiIsend 1 2 7 3 0 0 0 9 start = .ok .success w ∧
      w.evtWriter = [.enter 1 0, .mpiIsend 1 0 0 0 12 9, .leave 2 0] :=
  ⟨rfl, ⟨_, rfl, rfl, rfl⟩, _, rfl, rfl⟩

/-- `mpi_irecv`. The capture is stored for every request, the null request included. -/
def mpiIrecv (start stop : Otf2TimeT) (type : MpiTypeT) (count : U64) (source : U32)
    (comm : CommT) (tag : U32) (request : RequestT) : WriterM Otf2WriterResult := do
  let thisRegion ← enter start stop "MPI_Irecv"
  let irecv : IrecvCapture := ⟨(← get).countBytes type count, source, tag, comm, request⟩
  modify fun w => { w with irecvRequests := Function.update w.irecvRequests request (some irecv) }
  incompleteCall request .irecv
  emit (.mpiIrecvRequest start request)
  countEvents 1
  leave stop thisRegion

/-!
## Wait and test
-/

/-- The single-request wait family: `_ENTER(name)`, `complete_call(request, start)`, `_LEAVE()`. -/
def waitCall (name : String) (start stop : Otf2TimeT) (request : RequestT) :
    WriterM Otf2WriterResult := do
  let thisRegion ← enter start stop name
  completeCall request start
  leave stop thisRegion

def mpiWait (start stop : Otf2TimeT) (request : RequestT) : WriterM Otf2WriterResult :=
  waitCall "MPI_Wait" start stop request

def mpiWaitany (start stop : Otf2TimeT) (request : RequestT) : WriterM Otf2WriterResult :=
  waitCall "MPI_Waitany" start stop request

/-- The loop of `mpi_waitall` over the indices left, with the set `called` of the requests
already completed in this call. -/
def mpiWaitallLoop (start : Otf2TimeT) (requests : List RequestT) :
    List Nat → List RequestT → WriterM Unit
  | [], _ => pure ()
  | i :: rest, called => do
    let req ← readAt requests i
    if req ≠ (← get).nullRequest ∧ req ∉ called then
      completeCall req start
      mpiWaitallLoop start requests rest (req :: called)
    else
      mpiWaitallLoop start requests rest called

theorem Guarantees.mpiWaitallLoop {relation : OTF2Writer → OTF2Writer → Prop}
    (reflexive : ∀ w, relation w w)
    (transitive : ∀ u v w, relation u v → relation v w → relation u w)
    (completes : ∀ request timestamp, Guarantees relation (completeCall request timestamp))
    (start : Otf2TimeT) (requests : List RequestT) (indices : List Nat) (called : List RequestT) :
    Guarantees relation (mpiWaitallLoop start requests indices called) := by
  induction indices generalizing called with
  | nil => exact Guarantees.pure reflexive _
  | cons i rest ih =>
    exact Guarantees.bind transitive (Guarantees.readAt reflexive _ _) fun _ =>
      Guarantees.bind transitive (Guarantees.get reflexive) fun _ =>
        Guarantees.ite (Guarantees.bind transitive (completes _ _) fun _ => ih _) (ih _)

/-- `mpi_waitall`: each non-null request of the array is completed at most once. -/
def mpiWaitall (start stop : Otf2TimeT) (count : CInt) (requests : List RequestT) :
    WriterM Otf2WriterResult := do
  let thisRegion ← enter start stop "MPI_Waitall"
  mpiWaitallLoop start requests (List.range count.toInt.toNat) []
  leave stop thisRegion

/-- The indexed completion family (`mpi_waitsome`, `mpi_testsome`):
`complete_call(requests[indices[i]], start)` for each `i < outcount`. -/
def someCall (name : String) (start stop : Otf2TimeT) (requests : List RequestT)
    (outcount : CInt) (indices : List CInt) : WriterM Otf2WriterResult := do
  let thisRegion ← enter start stop name
  forCount outcount fun i => do
    let index ← readAt indices i
    completeCall (← readAt requests index.toInt) start
  leave stop thisRegion

def mpiWaitsome (start stop : Otf2TimeT) (requests : List RequestT) (outcount : CInt)
    (indices : List CInt) : WriterM Otf2WriterResult :=
  someCall "MPI_Waitsome" start stop requests outcount indices

def mpiTest (start stop : Otf2TimeT) (request : RequestT) (flag : CInt) :
    WriterM Otf2WriterResult := do
  let thisRegion ← enter start stop "MPI_Test"
  if flag ≠ 0 then completeCall request start
  leave stop thisRegion

def mpiTestany (start stop : Otf2TimeT) (requests : List RequestT) (index flag : CInt) :
    WriterM Otf2WriterResult := do
  let thisRegion ← enter start stop "MPI_Testany"
  if flag ≠ 0 then completeCall (← readAt requests index.toInt) start
  leave stop thisRegion

/-- `mpi_testall`: unlike `mpi_waitall` it neither skips the null request nor repeats. -/
def mpiTestall (start stop : Otf2TimeT) (count : CInt) (requests : List RequestT)
    (flag : CInt) : WriterM Otf2WriterResult := do
  let thisRegion ← enter start stop "MPI_Testall"
  if flag ≠ 0 then
    forCount count fun i => do completeCall (← readAt requests i) start
  leave stop thisRegion

def mpiTestsome (start stop : Otf2TimeT) (requests : List RequestT) (outcount : CInt)
    (indices : List CInt) : WriterM Otf2WriterResult :=
  someCall "MPI_Testsome" start stop requests outcount indices

end Otf2Dump
