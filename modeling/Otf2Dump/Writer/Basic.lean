import Mathlib.Data.List.Basic
import Mathlib.Logic.Function.Basic
import Mathlib.Algebra.Group.Int

/-!
# The OTF2 writer state

The per-rank state of `dumpi::OTF2_Writer`, the records and definitions it writes, and the
`_ENTER`/`_LEAVE` macros; the constants of the absent header are parameters (`Header`), handles
are integers, and C `int` and `uint64_t` arithmetic is on `BitVec 32` and `BitVec 64`.
-/

set_option autoImplicit false

namespace Otf2Dump

/-- C `int`. -/
abbrev CInt := BitVec 32
/-- C `uint32_t`. -/
abbrev U32 := BitVec 32
/-- C `uint64_t`. -/
abbrev U64 := BitVec 64
abbrev Otf2TimeT := U64
abbrev CommT := Int
abbrev RequestT := Int
abbrev MpiTypeT := Int

/-- `int` to `uint64_t`: sign extension. -/
def CInt.toU64 (value : CInt) : U64 := value.signExtend 64

/-- `uint64_t` to `int`: the low 32 bits. -/
def U64.toCInt (value : U64) : CInt := value.truncate 32

/-- `std::min(a, b)`, which is `(b < a) ? b : a`. -/
def stdMin (a b : U64) : U64 := if b < a then b else a

/-- `std::max(a, b)`, which is `(a < b) ? b : a`. -/
def stdMax (a b : U64) : U64 := if a < b then b else a

/-!
## Records
-/

/-- `REQUEST_TYPE`. -/
inductive RequestType where
  | isend
  | irecv
  deriving DecidableEq, Repr

/-- `OTF2_CollectiveOp` values the collective handlers pass. -/
inductive CollectiveOp where
  | barrier | bcast | gather | gatherv | scatter | scatterv | reduce | scan
  | allgather | allgatherv | alltoall | alltoallv | allreduce | reduceScatter
  deriving DecidableEq, Repr

/-- The event records appended through `evt_writer`, with the arguments the writer
passes (the location and attribute list, always `nullptr`, are left out). -/
inductive Event where
  | enter (time : Otf2TimeT) (region : Nat)
  | leave (time : Otf2TimeT) (region : Nat)
  | mpiSend (time : Otf2TimeT) (receiver : U32) (communicator : CommT) (msgTag : U32)
      (msgLength : U64)
  | mpiRecv (time : Otf2TimeT) (sender : U32) (communicator : CommT) (msgTag : U32)
      (msgLength : U64)
  | mpiIsend (time : Otf2TimeT) (receiver : U32) (communicator : CommT) (msgTag : U32)
      (msgLength : U64) (requestId : RequestT)
  | mpiIsendComplete (time : Otf2TimeT) (requestId : RequestT)
  | mpiIrecvRequest (time : Otf2TimeT) (requestId : RequestT)
  | mpiIrecv (time : Otf2TimeT) (sender : U32) (communicator : CommT) (msgTag : U32)
      (msgLength : U64) (requestId : RequestT)
  | mpiCollectiveBegin (time : Otf2TimeT)
  | mpiCollectiveEnd (time : Otf2TimeT) (collectiveOp : CollectiveOp) (communicator : CommT)
      (root : CInt) (sizeSent sizeReceived : U64)
  deriving DecidableEq, Repr

/-- The global definitions `write_def_files` writes, with the ids and string ids it passes. -/
inductive GlobalDef where
  | clockProperties (timerResolution globalOffset traceLength : U64)
  | string (id : Nat) (text : String)
  | paradigm (name : Nat)
  | region (id : Nat) (name canonicalName description sourceFile : Nat)
  | systemTreeNode (name className : Nat)
  | locationGroup (id : Nat) (name : Nat)
  | location (id : Nat) (name : Nat) (numberOfEvents : CInt)
  | group (id : Int) (name : Nat) (members : List Nat)
  deriving DecidableEq, Repr

/-- `irecv_capture`: what `mpi_irecv` records for the later completion. -/
structure IrecvCapture where
  bytesSent : U64
  source : U32
  tag : U32
  comm : CommT
  request : RequestT
  deriving DecidableEq, Repr

/-- `OTF2_MPI_Comm`, value-initialised as `std::map::operator[]` creates it. -/
structure OTF2MpiComm where
  localId : CommT := 0
  globalId : Int := 0
  localGroupId : Int := 0
  name : String := ""
  isRoot : Bool := false
  /-- `sub_comms`: pointers into `comms_`, which never erases, so each is the key of
  the record it points to. -/
  subComms : List CommT := []
  deriving DecidableEq, Repr

/-- `OTF2_MPI_Group`, value-initialised. -/
structure OTF2MpiGroup where
  localId : Int := 0
  isCommWorld : Bool := false
  globalRanks : List CInt := []
  deriving DecidableEq, Repr

/-- Modelled from the spec: the string and region tables of the absent header.
"Interner entries: value → stable integer ID, assigned in first-seen order." -/
structure Interner where
  entries : List String := []
  deriving DecidableEq, Repr

/-- Modelled from the spec: `insert` returns the id a value already has, or gives it
the next one. -/
def Interner.insert (table : Interner) (value : String) : Interner × Nat :=
  if value ∈ table.entries then (table, table.entries.indexOf value)
  else (⟨table.entries ++ [value]⟩, table.entries.length)

/-- Modelled from the spec: `get(name)`, the id of a value. -/
def Interner.get (table : Interner) (value : String) : Nat := table.entries.indexOf value

/-- The constants the absent header declares. -/
structure Header where
  mpiCommWorldId : CommT
  mpiCommSelfId : CommT
  commWorldGroupId : Int
  commSelfGroupId : Int
  commLocationsGroupId : Int
  undefinedRoot : CInt

/-- `get_world_rank`, `get_comm_rank` and `get_comm_size`, with their C parameter lists. -/
structure RankQueries where
  getWorldRank : CInt → CInt → CInt
  getCommRank : CInt → CommT → CInt
  getCommSize : CommT → CInt

/-- The three lookups as `otf2writer.cc` defines them: `//TODO` stubs returning 0. -/
def RankQueries.stubs : RankQueries where
  getWorldRank _ _ := 0
  getCommRank _ _ := 0
  getCommSize _ := 0

/-- `worldConfig`. -/
structure WorldConfig where
  size : CInt
  rank : CInt

/-- `OTF2_Writer`'s members that the modelled methods read or write. -/
structure OTF2Writer where
  header : Header
  queries : RankQueries
  /-- `archive_ != nullptr`. -/
  archive : Bool
  world : WorldConfig
  startTime : Otf2TimeT
  stopTime : Otf2TimeT
  commWorldId : CommT
  commSelfId : CommT
  commErrorId : CommT
  commNullId : CommT
  nullRequest : RequestT
  clockResolution : U64
  eventCount : Nat
  typeSizes : MpiTypeT → Option CInt
  requestType : RequestT → Option RequestType
  irecvRequests : RequestT → Option IrecvCapture
  otf2RegionsTable : Interner
  otf2StringsTable : Interner
  /-- `comms_` is only read through `operator[]`, so a handle never registered reads
  as the value-initialised record: the map is a total function. -/
  comms : CommT → OTF2MpiComm
  groups : Int → Option OTF2MpiGroup
  /-- The records appended through `evt_writer`, oldest first. -/
  evtWriter : List Event
  /-- The records written through the global definition writer, oldest first. -/
  globalDefs : List GlobalDef

/-- The constructor `OTF2_Writer()`. `world_` and `null_request_` are left
uninitialised there, so they are arguments. -/
def OTF2Writer.new (header : Header) (world : WorldConfig) (nullRequest : RequestT) :
    OTF2Writer where
  header := header
  queries := RankQueries.stubs
  archive := false
  world := world
  startTime := ~~~0
  stopTime := 0
  commWorldId := -1
  commSelfId := -1
  commErrorId := -1
  commNullId := -1
  nullRequest := nullRequest
  clockResolution := 1
  eventCount := 0
  typeSizes _ := none
  requestType _ := none
  irecvRequests _ := none
  otf2RegionsTable := {}
  otf2StringsTable := {}
  comms _ := {}
  groups _ := none
  evtWriter := []
  globalDefs := []

/-!
## Methods
-/

/-- How a method ends other than by returning. -/
inductive Fault where
  /-- `abort()` after a message on `std::cerr`. -/
  | abort (message : String)
  /-- A thrown exception; the caller may catch it and go on with the writer as it is. -/
  | exception (message : String)
  /-- Undefined behaviour: an out-of-range read, a dereferenced `end()`, a signed
  overflow. The model stops there. -/
  | undefined (reason : String)
  deriving DecidableEq, Repr

/-- `OTF2_WRITER_RESULT` values the methods return. -/
inductive Otf2WriterResult where
  | success
  | errorArchiveAlreadyOpen
  | errorUknownMpiType
  deriving DecidableEq, Repr

/-- A method of the writer. -/
abbrev WriterM := EStateM Fault OTF2Writer

/-- Append a record through `evt_writer`. -/
def emit (event : Event) : WriterM Unit :=
  modify fun w => { w with evtWriter := w.evtWriter ++ [event] }

def countEvents (n : Nat) : WriterM Unit :=
  modify fun w => { w with eventCount := w.eventCount + n }

/-- The `_ENTER(name)` macro; it returns `this_region`. -/
def enter (start stop : Otf2TimeT) (name : String) : WriterM Nat := do
  modify fun w => { w with startTime := stdMin w.startTime start }
  modify fun w => { w with stopTime := stdMax w.stopTime stop }
  let thisRegion ← modifyGet fun w =>
    ((w.otf2RegionsTable.insert name).2, { w with otf2RegionsTable := (w.otf2RegionsTable.insert name).1 })
  emit (.enter start thisRegion)
  countEvents 1
  pure thisRegion

/-- The `_LEAVE()` macro, which also returns `OTF2_WRITER_SUCCESS`. -/
def leave (stop : Otf2TimeT) (thisRegion : Nat) : WriterM Otf2WriterResult := do
  emit (.leave stop thisRegion)
  countEvents 1
  pure .success

/-- Undefined behaviour at this point. -/
def undefined {α : Type} (reason : String) : WriterM α := throw (.undefined reason)

/-- `array[index]` of a C array the caller passes: undefined out of range. -/
def readAt {α : Type} (array : List α) (index : Int) : WriterM α :=
  if h : 0 ≤ index ∧ index.toNat < array.length then pure (array.get ⟨index.toNat, h.2⟩)
  else undefined "array index out of range"

theorem readAt_of_lt {α : Type} (array : List α) {index : Nat} (inside : index < array.length) :
    readAt array index = pure array[index] := by
  unfold Otf2Dump.readAt
  rw [dif_pos ⟨Int.ofNat_nonneg _, by simpa using inside⟩]
  rfl

def forCount (count : CInt) (body : Nat → WriterM Unit) : WriterM Unit :=
  (List.range count.toInt.toNat).forM body

/-- Signed `int` addition: undefined on overflow. -/
def intAdd (a b : CInt) : WriterM CInt :=
  if -2 ^ 31 ≤ a.toInt + b.toInt ∧ a.toInt + b.toInt < 2 ^ 31 then pure (a + b)
  else undefined "signed overflow"

/-- Signed `int` subtraction: undefined on overflow. -/
def intSub (a b : CInt) : WriterM CInt :=
  if -2 ^ 31 ≤ a.toInt - b.toInt ∧ a.toInt - b.toInt < 2 ^ 31 then pure (a - b)
  else undefined "signed overflow"

/-- Signed `int` multiplication: undefined on overflow. -/
def intMul (a b : CInt) : WriterM CInt :=
  if -2 ^ 31 ≤ a.toInt * b.toInt ∧ a.toInt * b.toInt < 2 ^ 31 then pure (a * b)
  else undefined "signed overflow"

/-- `groups_[group]`: the record, inserted value-initialised when absent. -/
def groupAt (group : Int) : WriterM OTF2MpiGroup :=
  modifyGet fun w =>
    match w.groups group with
    | some record => (record, w)
    | none => ({}, { w with groups := Function.update w.groups group (some {}) })

/-- Store a group record (a write through a `groups_[group]` reference). -/
def setGroup (group : Int) (record : OTF2MpiGroup) : WriterM Unit :=
  modify fun w => { w with groups := Function.update w.groups group (some record) }

/-- Update a communicator record (a write through a `comms_[comm]` reference). -/
def modifyComm (comm : CommT) (change : OTF2MpiComm → OTF2MpiComm) : WriterM Unit :=
  modify fun w => { w with comms := Function.update w.comms comm (change (w.comms comm)) }

/-!
## Exits and frames
-/

/-- The writer a run goes on with after a method: the one it returned with, or the one it
threw from (the driver catches exceptions). After `abort()` or undefined behaviour there is
none. -/
def afterCall {α : Type} : EStateM.Result Fault OTF2Writer α → Option OTF2Writer
  | .ok _ w => some w
  | .error (.exception _) w => some w
  | .error _ _ => none

@[simp] theorem afterCall_abort {α : Type} (message : String) (w : OTF2Writer) :
    afterCall (.error (.abort message) w : EStateM.Result Fault OTF2Writer α) = none := rfl

@[simp] theorem afterCall_undefined {α : Type} (reason : String) (w : OTF2Writer) :
    afterCall (.error (.undefined reason) w : EStateM.Result Fault OTF2Writer α) = none := rfl

theorem afterCall_error {α β : Type} (fault : Fault) (w : OTF2Writer) :
    afterCall (.error fault w : EStateM.Result Fault OTF2Writer α) =
      afterCall (.error fault w : EStateM.Result Fault OTF2Writer β) := by
  cases fault <;> rfl

@[simp] theorem afterCall_discard {α : Type} (method : WriterM α) (w : OTF2Writer) :
    afterCall ((discard method) w) = afterCall (method w) := by
  simp only [discard, Functor.mapConst, Function.comp_apply, EStateM.map]
  cases method w with
  | ok => rfl
  | error fault w' => exact afterCall_error fault w'

theorem run_bind {α β : Type} (method : WriterM α) (next : α → WriterM β) (w : OTF2Writer) :
    (method >>= next) w = match method w with
      | .ok value w' => next value w'
      | .error fault w' => .error fault w' := by
  simp only [bind, EStateM.bind]
  cases method w <;> rfl

theorem run_bind_ok {α β : Type} {method : WriterM α} {next : α → WriterM β} {w w'' : OTF2Writer}
    {result : β} (ran : (method >>= next) w = .ok result w'') :
    ∃ value w', method w = .ok value w' ∧ next value w' = .ok result w'' := by
  rw [run_bind] at ran
  cases first : method w with
  | ok value w' => rw [first] at ran; exact ⟨value, w', rfl, ran⟩
  | error fault w' => rw [first] at ran; cases ran

@[simp] theorem run_pure {α : Type} (value : α) (w : OTF2Writer) :
    (pure value : WriterM α) w = .ok value w := rfl

@[simp] theorem run_modify (change : OTF2Writer → OTF2Writer) (w : OTF2Writer) :
    (modify change : WriterM Unit) w = .ok () (change w) := rfl

@[simp] theorem run_modifyGet {α : Type} (change : OTF2Writer → α × OTF2Writer) (w : OTF2Writer) :
    (modifyGet change : WriterM α) w = .ok (change w).1 (change w).2 := rfl

@[simp] theorem run_get (w : OTF2Writer) : (get : WriterM OTF2Writer) w = .ok w w := rfl

@[simp] theorem run_throw {α : Type} (fault : Fault) (w : OTF2Writer) :
    (throw fault : WriterM α) w = .error fault w := rfl

/-- Every writer a run goes on with after `method` is related by `relation` to the writer
it started from. -/
def Guarantees (relation : OTF2Writer → OTF2Writer → Prop) {α : Type} (method : WriterM α) :
    Prop :=
  ∀ w w', afterCall (method w) = some w' → relation w w'

/-- A method that returns normally continues the run, so what it guarantees holds of it. -/
theorem Guarantees.of_ok {relation : OTF2Writer → OTF2Writer → Prop} {α : Type}
    {method : WriterM α} (guaranteed : Guarantees relation method) {w w' : OTF2Writer} {value : α}
    (ran : method w = .ok value w') : relation w w' :=
  guaranteed w w' (by rw [ran]; rfl)

theorem Guarantees.imp {relation weaker : OTF2Writer → OTF2Writer → Prop} {α : Type}
    {method : WriterM α} (implies : ∀ w w', relation w w' → weaker w w')
    (guaranteed : Guarantees relation method) : Guarantees weaker method :=
  fun w w' after => implies w w' (guaranteed w w' after)

/-- `method` keeps `invariant`. -/
def Preserves (invariant : OTF2Writer → Prop) {α : Type} (method : WriterM α) : Prop :=
  Guarantees (fun w w' => invariant w → invariant w') method

section Guarantees

variable {relation : OTF2Writer → OTF2Writer → Prop}
  (reflexive : ∀ w, relation w w)
  (transitive : ∀ u v w, relation u v → relation v w → relation u w)
include reflexive

theorem Guarantees.pure {α : Type} (value : α) : Guarantees relation (pure value : WriterM α) := by
  rintro w w' ⟨⟩
  exact reflexive w

theorem Guarantees.throw {α : Type} (fault : Fault) :
    Guarantees relation (throw fault : WriterM α) := by
  intro w w' after
  cases fault <;> cases after
  exact reflexive w

theorem Guarantees.get : Guarantees relation (get : WriterM OTF2Writer) := by
  rintro w w' ⟨⟩
  exact reflexive w

omit reflexive in
include transitive in
theorem Guarantees.bind {α β : Type} {method : WriterM α} {next : α → WriterM β}
    (first : Guarantees relation method) (rest : ∀ value, Guarantees relation (next value)) :
    Guarantees relation (method >>= next) := by
  intro w w' after
  rw [run_bind] at after
  cases outcome : method w with
  | ok value middle =>
    rw [outcome] at after
    exact transitive _ _ _ (first w middle (by rw [outcome]; rfl)) (rest value middle w' after)
  | error fault middle =>
    rw [outcome] at after
    exact first w w' (by rw [outcome, afterCall_error]; exact after)

omit reflexive in
theorem Guarantees.ite {α : Type} {condition : Prop} [Decidable condition]
    {yes no : WriterM α} (onYes : Guarantees relation yes) (onNo : Guarantees relation no) :
    Guarantees relation (if condition then yes else no) := by
  split
  · exact onYes
  · exact onNo

omit reflexive in
theorem Guarantees.modify {change : OTF2Writer → OTF2Writer}
    (changes : ∀ w, relation w (change w)) : Guarantees relation (modify change) := by
  rintro w w' ⟨⟩
  exact changes w

omit reflexive in
theorem Guarantees.modifyGet {α : Type} {change : OTF2Writer → α × OTF2Writer}
    (changes : ∀ w, relation w (change w).2) : Guarantees relation (modifyGet change : WriterM α) := by
  rintro w w' ⟨⟩
  exact changes w

theorem Guarantees.undefined {α : Type} (reason : String) :
    Guarantees relation (undefined reason : WriterM α) :=
  Guarantees.throw reflexive _

theorem Guarantees.readAt {α : Type} (array : List α) (index : Int) :
    Guarantees relation (readAt array index) := by
  unfold Otf2Dump.readAt
  split
  · exact Guarantees.pure reflexive _
  · exact Guarantees.undefined reflexive _

include transitive in
theorem Guarantees.forM_mem {α : Type} {items : List α} {body : α → WriterM Unit}
    (each : ∀ item ∈ items, Guarantees relation (body item)) :
    Guarantees relation (items.forM body) := by
  induction items with
  | nil => exact Guarantees.pure reflexive _
  | cons item items ih =>
    exact Guarantees.bind transitive (each item (.head _)) fun _ =>
      ih fun item mem => each item (.tail _ mem)

include transitive in
theorem Guarantees.forM {α : Type} {items : List α} {body : α → WriterM Unit}
    (each : ∀ item, Guarantees relation (body item)) :
    Guarantees relation (items.forM body) :=
  Guarantees.forM_mem reflexive transitive fun item _ => each item

include transitive in
theorem Guarantees.foldlM {α β : Type} {items : List α} {body : β → α → WriterM β} {init : β}
    (each : ∀ acc item, Guarantees relation (body acc item)) :
    Guarantees relation (items.foldlM body init) := by
  induction items generalizing init with
  | nil => exact Guarantees.pure reflexive _
  | cons item items ih =>
    exact Guarantees.bind transitive (each init item) fun _ => ih

include transitive in
theorem Guarantees.forCount {count : CInt} {body : Nat → WriterM Unit}
    (each : ∀ index, Guarantees relation (body index)) :
    Guarantees relation (forCount count body) :=
  Guarantees.forM reflexive transitive each

include transitive in
theorem Guarantees.forCount_lt {count : CInt} {body : Nat → WriterM Unit}
    (each : ∀ index < count.toInt.toNat, Guarantees relation (body index)) :
    Guarantees relation (Otf2Dump.forCount count body) :=
  Guarantees.forM_mem reflexive transitive fun index member => each index (List.mem_range.mp member)

include transitive in
theorem Guarantees.map {α β : Type} (f : α → β) {method : WriterM α}
    (inner : Guarantees relation method) : Guarantees relation (f <$> method) := by
  rw [map_eq_pure_bind]
  exact Guarantees.bind transitive inner fun _ => Guarantees.pure reflexive _

include transitive in
theorem Guarantees.discard {α : Type} {method : WriterM α} (inner : Guarantees relation method) :
    Guarantees relation (discard method) :=
  Guarantees.map reflexive transitive _ inner

theorem Guarantees.intAdd (a b : CInt) : Guarantees relation (intAdd a b) :=
  Guarantees.ite (Guarantees.pure reflexive _) (Guarantees.undefined reflexive _)

theorem Guarantees.intSub (a b : CInt) : Guarantees relation (intSub a b) :=
  Guarantees.ite (Guarantees.pure reflexive _) (Guarantees.undefined reflexive _)

theorem Guarantees.intMul (a b : CInt) : Guarantees relation (intMul a b) :=
  Guarantees.ite (Guarantees.pure reflexive _) (Guarantees.undefined reflexive _)

end Guarantees

/-- A computation that only reads the writer: it returns with the writer unchanged, or stops
with undefined behaviour. The volume expressions of the collectives are such. -/
def ReadsOnly {α : Type} (method : WriterM α) : Prop :=
  ∀ w, (∃ value, method w = .ok value w) ∨ ∃ reason, method w = .error (.undefined reason) w

section ReadsOnly

variable {α β : Type}

theorem ReadsOnly.pure (value : α) : ReadsOnly (pure value : WriterM α) :=
  fun _ => .inl ⟨value, rfl⟩

theorem ReadsOnly.get : ReadsOnly (get : WriterM OTF2Writer) :=
  fun w => .inl ⟨w, rfl⟩

theorem ReadsOnly.undefined (reason : String) : ReadsOnly (undefined reason : WriterM α) :=
  fun _ => .inr ⟨reason, rfl⟩

theorem ReadsOnly.bind {method : WriterM α} {next : α → WriterM β} (first : ReadsOnly method)
    (rest : ∀ value, ReadsOnly (next value)) : ReadsOnly (method >>= next) := by
  intro w
  rw [run_bind]
  rcases first w with ⟨value, result⟩ | ⟨reason, result⟩ <;> rw [result]
  · exact rest value w
  · exact .inr ⟨reason, rfl⟩

theorem ReadsOnly.map (f : α → β) {method : WriterM α} (inner : ReadsOnly method) :
    ReadsOnly (f <$> method) := by
  rw [map_eq_pure_bind]
  exact inner.bind fun _ => ReadsOnly.pure _

theorem ReadsOnly.ite {condition : Prop} [Decidable condition] {yes no : WriterM α}
    (onYes : ReadsOnly yes) (onNo : ReadsOnly no) : ReadsOnly (if condition then yes else no) := by
  split
  · exact onYes
  · exact onNo

theorem ReadsOnly.readAt (array : List α) (index : Int) : ReadsOnly (readAt array index) := by
  unfold Otf2Dump.readAt
  split
  · exact ReadsOnly.pure _
  · exact ReadsOnly.undefined _

theorem ReadsOnly.intAdd (a b : CInt) : ReadsOnly (intAdd a b) :=
  ReadsOnly.ite (ReadsOnly.pure _) (ReadsOnly.undefined _)

theorem ReadsOnly.intSub (a b : CInt) : ReadsOnly (intSub a b) :=
  ReadsOnly.ite (ReadsOnly.pure _) (ReadsOnly.undefined _)

theorem ReadsOnly.intMul (a b : CInt) : ReadsOnly (intMul a b) :=
  ReadsOnly.ite (ReadsOnly.pure _) (ReadsOnly.undefined _)

theorem Guarantees.of_readsOnly {relation : OTF2Writer → OTF2Writer → Prop}
    (reflexive : ∀ w, relation w w) {method : WriterM α} (reads : ReadsOnly method) :
    Guarantees relation method := by
  intro w w' after
  rcases reads w with ⟨value, result⟩ | ⟨reason, result⟩ <;> rw [result] at after <;> cases after
  exact reflexive w

end ReadsOnly

/-!
## Methods that return
-/

/-- `method` returns normally from every writer. -/
def Returns {α : Type} (method : WriterM α) : Prop :=
  ∀ w, ∃ value w', method w = .ok value w'

section Returns

variable {α β : Type}

theorem Returns.pure (value : α) : Returns (pure value : WriterM α) := fun w => ⟨value, w, rfl⟩

theorem Returns.get : Returns (get : WriterM OTF2Writer) := fun w => ⟨w, w, rfl⟩

theorem Returns.modify (change : OTF2Writer → OTF2Writer) : Returns (modify change) :=
  fun w => ⟨(), change w, rfl⟩

theorem Returns.modifyGet (change : OTF2Writer → α × OTF2Writer) :
    Returns (modifyGet change : WriterM α) :=
  fun w => ⟨(change w).1, (change w).2, rfl⟩

theorem Returns.bind {method : WriterM α} {next : α → WriterM β} (first : Returns method)
    (rest : ∀ value, Returns (next value)) : Returns (method >>= next) := by
  intro w
  obtain ⟨value, w', ran⟩ := first w
  obtain ⟨result, w'', ran'⟩ := rest value w'
  exact ⟨result, w'', by rw [run_bind, ran]; exact ran'⟩

theorem Returns.forM {items : List α} {body : α → WriterM Unit}
    (each : ∀ item ∈ items, Returns (body item)) : Returns (items.forM body) := by
  induction items with
  | nil => exact Returns.pure _
  | cons item items ih =>
    exact Returns.bind (each item (.head _)) fun _ => ih fun item mem => each item (.tail _ mem)

theorem Returns.forCount {count : CInt} {body : Nat → WriterM Unit}
    (each : ∀ index < count.toInt.toNat, Returns (body index)) : Returns (forCount count body) :=
  Returns.forM fun index member => each index (List.mem_range.mp member)

theorem Returns.readAt (array : List α) {index : Int}
    (inside : 0 ≤ index ∧ index.toNat < array.length) : Returns (readAt array index) := by
  unfold Otf2Dump.readAt
  rw [dif_pos inside]
  exact Returns.pure _

theorem Returns.run {method : WriterM Unit} (returns : Returns method) (w : OTF2Writer) :
    ∃ w', method w = .ok () w' := by
  obtain ⟨⟨⟩, w', ran⟩ := returns w
  exact ⟨w', ran⟩

end Returns

end Otf2Dump
