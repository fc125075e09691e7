import Otf2Dump.DerivedSizes

/-!
# The collective volume model

The volume table of the design (§4.4), and that every collective handler records its two
volumes whenever the `int`s it computes hold their values.
-/

set_option autoImplicit false

namespace Otf2Dump

/-- The size `count_bytes` uses for a type: its registered size, or 4 bytes. -/
def OTF2Writer.byteSize (w : OTF2Writer) (type : MpiTypeT) : Int := (w.sizes type).getD 4

/-- What a rank knows of the communicator of a collective. -/
structure RankView where
  isRoot : Bool
  commSize : Int
  rank : Int
  deriving Repr, DecidableEq

/-- A collective call, with the counts and types its volumes depend on; the `v` variants
carry the first `comm_size` counts. -/
inductive Collective where
  | barrier
  | bcast (count : Int) (type : MpiTypeT)
  | gather (sendcount : Int) (sendtype : MpiTypeT) (recvcount : Int) (recvtype : MpiTypeT)
  | gatherv (sendcount : Int) (sendtype : MpiTypeT) (recvcounts : List Int) (recvtype : MpiTypeT)
  | scatter (sendcount : Int) (sendtype : MpiTypeT) (recvcount : Int) (recvtype : MpiTypeT)
  | scatterv (sendcounts : List Int) (sendtype : MpiTypeT) (recvcount : Int) (recvtype : MpiTypeT)
  | reduce (count : Int) (type : MpiTypeT)
  | scan (count : Int) (type : MpiTypeT)
  | allgather (sendcount : Int) (sendtype : MpiTypeT) (recvcount : Int) (recvtype : MpiTypeT)
  | allgatherv (sendcount : Int) (sendtype : MpiTypeT) (recvcounts : List Int)
      (recvtype : MpiTypeT)
  | alltoall (recvcount : Int) (recvtype : MpiTypeT)
  | alltoallv (sendcounts : List Int) (sendtype : MpiTypeT) (recvcounts : List Int)
      (recvtype : MpiTypeT)
  | allreduce (count : Int) (type : MpiTypeT)
  | reduceScatter (recvcounts : List Int) (type : MpiTypeT)
  deriving Repr, DecidableEq

section Table

variable (size : MpiTypeT → Int) (view : RankView)

def bytesOf (type : MpiTypeT) (count : Int) : Int := size type * count

/-- The table of §4.4: the sent and the received volume. -/
def Collective.volume : Collective → Int × Int
  | .barrier => (0, 0)
  | .bcast n t =>
    (if view.isRoot then bytesOf size t n * view.commSize else 0, bytesOf size t n)
  | .gather ns ts nr tr =>
    (bytesOf size ts ns, if view.isRoot then bytesOf size tr nr * view.commSize else 0)
  | .gatherv ns ts recvcounts tr =>
    (bytesOf size ts ns, if view.isRoot then bytesOf size tr recvcounts.sum else 0)
  | .scatter ns ts nr tr =>
    (if view.isRoot then bytesOf size ts ns * view.commSize else 0, bytesOf size tr nr)
  | .scatterv sendcounts ts nr tr =>
    (if view.isRoot then bytesOf size ts sendcounts.sum else 0, bytesOf size tr nr)
  | .reduce n t =>
    (bytesOf size t n, if view.isRoot then bytesOf size t n * view.commSize else 0)
  | .scan n t =>
    ((view.commSize - view.rank - 1) * bytesOf size t n, (view.rank + 1) * bytesOf size t n)
  | .allgather ns ts nr tr =>
    (view.commSize * bytesOf size ts ns, view.commSize * bytesOf size tr nr)
  | .allgatherv ns ts recvcounts tr =>
    (view.commSize * bytesOf size ts ns, bytesOf size tr recvcounts.sum)
  | .alltoall nr tr => (view.commSize * bytesOf size tr nr, view.commSize * bytesOf size tr nr)
  | .alltoallv sendcounts ts recvcounts tr =>
    (bytesOf size ts sendcounts.sum, bytesOf size tr recvcounts.sum)
  | .allreduce n t => (bytesOf size t n * view.commSize, bytesOf size t n * view.commSize)
  | .reduceScatter recvcounts t =>
    (bytesOf size t view.commSize, view.commSize * recvcounts.getD view.rank.toNat 0 * size t)

/-- The running sums of `array_sum` over `counts` are `int`s. -/
def SumsInInt (counts : List Int) : Prop := ∀ part ∈ counts.inits, InInt part.sum

instance (counts : List Int) : Decidable (SumsInInt counts) :=
  inferInstanceAs (Decidable (∀ _ ∈ _, _))

/-- The quantities the handler of a collective holds in an `int` are `int`s. -/
def Collective.IntsFit : Collective → Prop
  | .bcast n t | .reduce n t =>
    InInt (bytesOf size t n) ∧ (view.isRoot → InInt (bytesOf size t n * view.commSize))
  | .gatherv _ _ recvcounts _ => view.isRoot → SumsInInt recvcounts
  | .scatterv sendcounts _ _ _ => view.isRoot → SumsInInt sendcounts
  | .scan n t =>
    InInt (bytesOf size t n) ∧ InInt (view.commSize - view.rank) ∧
      InInt (view.commSize - view.rank - 1) ∧
      InInt ((view.commSize - view.rank - 1) * bytesOf size t n) ∧ InInt (view.rank + 1) ∧
      InInt ((view.rank + 1) * bytesOf size t n)
  | .allgatherv _ _ recvcounts _ => SumsInInt recvcounts
  | .alltoall nr tr => InInt (view.commSize * bytesOf size tr nr)
  | .alltoallv sendcounts _ recvcounts _ => SumsInInt sendcounts ∧ SumsInInt recvcounts
  | .allreduce n t => InInt (bytesOf size t n * view.commSize)
  | .reduceScatter recvcounts t =>
    InInt (bytesOf size t view.commSize) ∧
      InInt (view.commSize * recvcounts.getD view.rank.toNat 0) ∧
      InInt (view.commSize * recvcounts.getD view.rank.toNat 0 * size t)
  | _ => True

instance (collective : Collective) : Decidable (collective.IntsFit size view) := by
  cases collective <;> unfold Collective.IntsFit <;> infer_instance

end Table

/-!
## The handlers as the table sees them
-/

/-- A call of a collective handler: the region it enters, the fields of its
`MpiCollectiveEnd` record other than the volumes, the view of the rank and the collective. -/
structure CollectiveCall where
  name : String
  start : Otf2TimeT
  stop : Otf2TimeT
  op : CollectiveOp
  comm : CommT
  root : CInt
  view : RankView
  collective : Collective

/-- The first `count` entries of a C array, as integers. -/
def firstCounts (counts : List CInt) (count : CInt) : List Int :=
  (counts.map BitVec.toInt).take count.toInt.toNat

/-- The collective a call of a collective handler makes, seen from the writer `w`: the rank
lookups of `w` give whether the rank is the root and its view of the communicator. -/
def Call.collective (w : OTF2Writer) : Call → Option CollectiveCall
  | .mpiBarrier start stop comm =>
    some ⟨"MPI_Barrier", start, stop, .barrier, comm, w.header.undefinedRoot, ⟨false, 0, 0⟩,
      .barrier⟩
  | .mpiBcast start stop count type root comm =>
    some ⟨"MPI_Bcast", start, stop, .bcast, comm, root,
      ⟨w.isRoot root comm, (w.commSize comm).toInt, 0⟩, .bcast count.toInt type⟩
  | .mpiGather start stop sendcount sendtype recvcount recvtype root comm =>
    some ⟨"MPI_Gather", start, stop, .gather, comm, root,
      ⟨w.isRoot root comm, (w.commSize comm).toInt, 0⟩,
      .gather sendcount.toInt sendtype recvcount.toInt recvtype⟩
  | .mpiGatherv start stop commSize sendcount sendtype recvcounts recvtype root comm =>
    some ⟨"MPI_Gatherv", start, stop, .gatherv, comm, root,
      ⟨w.isRoot root comm, commSize.toInt, 0⟩,
      .gatherv sendcount.toInt sendtype (firstCounts recvcounts commSize) recvtype⟩
  | .mpiScatter start stop sendcount sendtype recvcount recvtype root comm =>
    some ⟨"MPI_Scatter", start, stop, .scatter, comm, root,
      ⟨w.isRoot root comm, (w.commSize comm).toInt, 0⟩,
      .scatter sendcount.toInt sendtype recvcount.toInt recvtype⟩
  | .mpiScatterv start stop commSize sendcounts sendtype recvcount recvtype root comm =>
    some ⟨"MPI_Scatterv", start, stop, .scatterv, comm, root,
      ⟨w.isRoot root comm, commSize.toInt, 0⟩,
      .scatterv (firstCounts sendcounts commSize) sendtype recvcount.toInt recvtype⟩
  | .mpiReduce start stop count type root comm =>
    some ⟨"MPI_Reduce", start, stop, .reduce, comm, root,
      ⟨w.isRoot root comm, (w.commSize comm).toInt, 0⟩, .reduce count.toInt type⟩
  | .mpiScan start stop count datatype comm =>
    some ⟨"MPI_Scan", start, stop, .scan, comm, w.header.undefinedRoot,
      ⟨false, (w.commSize comm).toInt, (w.commRankOfCall comm).toInt⟩,
      .scan count.toInt datatype⟩
  | .mpiAllgather start stop sendcount sendtype recvcount recvtype comm =>
    some ⟨"MPI_Allgather", start, stop, .allgather, comm, w.header.undefinedRoot,
      ⟨false, (w.commSize comm).toInt, 0⟩,
      .allgather sendcount.toInt sendtype recvcount.toInt recvtype⟩
  | .mpiAllgatherv start stop commSize sendcount sendtype recvcounts recvtype comm =>
    some ⟨"MPI_Allgatherv", start, stop, .allgatherv, comm, w.header.undefinedRoot,
      ⟨false, commSize.toInt, 0⟩,
      .allgatherv sendcount.toInt sendtype (firstCounts recvcounts commSize) recvtype⟩
  | .mpiAlltoall start stop _ _ recvcount recvtype comm =>
    some ⟨"MPI_Alltoall", start, stop, .alltoall, comm, w.header.undefinedRoot,
      ⟨false, (w.commSize comm).toInt, 0⟩, .alltoall recvcount.toInt recvtype⟩
  | .mpiAlltoallv start stop commSize sendcounts sendtype recvcounts recvtype comm =>
    some ⟨"MPI_Alltoallv", start, stop, .alltoallv, comm, w.header.undefinedRoot,
      ⟨false, commSize.toInt, 0⟩,
      .alltoallv (firstCounts sendcounts commSize) sendtype (firstCounts recvcounts commSize)
        recvtype⟩
  | .mpiAllreduce start stop count type comm =>
    some ⟨"MPI_Allreduce", start, stop, .allreduce, comm, w.header.undefinedRoot,
      ⟨false, (w.commSize comm).toInt, 0⟩, .allreduce count.toInt type⟩
  | .mpiReduceScatter start stop commSize recvcounts type comm =>
    some ⟨"MPI_Reduce_scatter", start, stop, .reduceScatter, comm, w.header.undefinedRoot,
      ⟨false, commSize.toInt, (w.commRankOfCall comm).toInt⟩,
      .reduceScatter (recvcounts.map BitVec.toInt) type⟩
  | _ => none

/-- What the handler reads is there: the arrays of the `v` variants hold `comm_size` counts,
and `mpi_reduce_scatter` finds the rank's count and a registered size of its type. -/
def Call.CountsHold (w : OTF2Writer) : Call → Prop
  | .mpiGatherv _ _ commSize _ _ recvcounts _ _ _
  | .mpiAllgatherv _ _ commSize _ _ recvcounts _ _ => commSize.toInt.toNat ≤ recvcounts.length
  | .mpiScatterv _ _ commSize sendcounts _ _ _ _ _ => commSize.toInt.toNat ≤ sendcounts.length
  | .mpiAlltoallv _ _ commSize sendcounts _ recvcounts _ _ =>
    commSize.toInt.toNat ≤ sendcounts.length ∧ commSize.toInt.toNat ≤ recvcounts.length
  | .mpiReduceScatter _ _ _ recvcounts type comm =>
    0 ≤ (w.commRankOfCall comm).toInt ∧ (w.commRankOfCall comm).toInt < recvcounts.length ∧
      (w.typeSizes type).isSome
  | _ => True

/-!
## 64-bit volumes
-/

theorem toU64_eq_ofInt (x : CInt) : x.toU64 = BitVec.ofInt 64 x.toInt := rfl

/-- `count_bytes(type, count)` is `b(type, count)` modulo `2^64`. -/
theorem countBytes_eq_ofInt (w : OTF2Writer) (type : MpiTypeT) (count : CInt) :
    w.countBytes type count.toU64 = BitVec.ofInt 64 (bytesOf w.byteSize type count.toInt) := by
  unfold bytesOf OTF2Writer.byteSize
  cases known : w.typeSizes type with
  | none =>
    rw [OTF2Writer.countBytes_of_none known, OTF2Writer.sizes, known]
    simp only [Option.map_none', Option.getD_none, BitVec.ofInt_mul, toU64_eq_ofInt]
    rfl
  | some size =>
    rw [OTF2Writer.countBytes_of_some known, OTF2Writer.sizes_of_some known, Option.getD_some,
      BitVec.ofInt_mul, toU64_eq_ofInt, toU64_eq_ofInt]

theorem toCInt_ofInt (value : Int) : U64.toCInt (BitVec.ofInt 64 value) = BitVec.ofInt 32 value := by
  apply BitVec.eq_of_toNat_eq
  simp only [U64.toCInt, BitVec.truncate_eq_setWidth, BitVec.toNat_setWidth, BitVec.toNat_ofInt]
  omega

theorem toU64_ofInt {value : Int} (fits : InInt value) :
    CInt.toU64 (BitVec.ofInt 32 value) = BitVec.ofInt 64 value := by
  rw [toU64_eq_ofInt, toInt_ofInt_of_inInt fits]

theorem intMul_eq {a b : CInt} (fits : InInt (a.toInt * b.toInt)) :
    intMul a b = pure (BitVec.ofInt 32 (a.toInt * b.toInt)) := by
  rw [intMul, if_pos (show -2 ^ 31 ≤ a.toInt * b.toInt ∧ a.toInt * b.toInt < 2 ^ 31 from fits),
    BitVec.ofInt_mul, ofInt_toInt_cint, ofInt_toInt_cint]

theorem intSub_eq {a b : CInt} (fits : InInt (a.toInt - b.toInt)) :
    intSub a b = pure (BitVec.ofInt 32 (a.toInt - b.toInt)) := by
  rw [intSub, if_pos (show -2 ^ 31 ≤ a.toInt - b.toInt ∧ a.toInt - b.toInt < 2 ^ 31 from fits)]
  congr 1
  apply BitVec.eq_of_toInt_eq
  rw [BitVec.toInt_sub, BitVec.toInt_ofInt]

theorem intAdd_eq {a b : CInt} (fits : InInt (a.toInt + b.toInt)) :
    intAdd a b = pure (BitVec.ofInt 32 (a.toInt + b.toInt)) := by
  rw [intAdd, if_pos (show -2 ^ 31 ≤ a.toInt + b.toInt ∧ a.toInt + b.toInt < 2 ^ 31 from fits),
    BitVec.ofInt_add, ofInt_toInt_cint, ofInt_toInt_cint]

theorem ofInt_mul_toU64 (a : Int) (b : CInt) :
    BitVec.ofInt 64 a * b.toU64 = BitVec.ofInt 64 (a * b.toInt) := by
  rw [toU64_eq_ofInt, BitVec.ofInt_mul]

theorem toU64_mul_ofInt (b : CInt) (a : Int) :
    b.toU64 * BitVec.ofInt 64 a = BitVec.ofInt 64 (b.toInt * a) := by
  rw [toU64_eq_ofInt, BitVec.ofInt_mul]

/-!
## The handlers
-/

/-- The records a collective handler appends: its region around the collective, whose
`MpiCollectiveEnd` carries the two volumes of the table. -/
def CollectiveCall.records (c : CollectiveCall) (w : OTF2Writer) : List Event :=
  [.enter c.start (w.otf2RegionsTable.insert c.name).2, .mpiCollectiveBegin c.start,
    .mpiCollectiveEnd c.stop c.op c.comm c.root
      (BitVec.ofInt 64 (c.collective.volume w.byteSize c.view).1)
      (BitVec.ofInt 64 (c.collective.volume w.byteSize c.view).2),
    .leave c.stop (w.otf2RegionsTable.insert c.name).2]

/-- The fields the volumes of a collective read. -/
structure OTF2Writer.SameView (u w : OTF2Writer) : Prop where
  typeSizes : u.typeSizes = w.typeSizes
  queries : u.queries = w.queries
  world : u.world = w.world
  header : u.header = w.header

namespace OTF2Writer.SameView

variable {u w : OTF2Writer}

theorem countBytes (same : u.SameView w) : u.countBytes = w.countBytes := by
  funext type count
  simp only [OTF2Writer.countBytes, same.typeSizes]

theorem byteSize (same : u.SameView w) : u.byteSize = w.byteSize := by
  funext type
  simp only [OTF2Writer.byteSize, OTF2Writer.sizes, same.typeSizes]

theorem isRoot (same : u.SameView w) : u.isRoot = w.isRoot := by
  funext root comm
  simp only [OTF2Writer.isRoot, same.queries, same.world]

theorem commSize (same : u.SameView w) : u.commSize = w.commSize := by
  funext comm
  simp only [OTF2Writer.commSize, same.queries]

theorem commRankOfCall (same : u.SameView w) : u.commRankOfCall = w.commRankOfCall := by
  funext comm
  simp only [OTF2Writer.commRankOfCall, same.queries, same.world]

end OTF2Writer.SameView

theorem enter_run (start stop : Otf2TimeT) (name : String) (w : OTF2Writer) :
    ∃ w1, enter start stop name w = .ok (w.otf2RegionsTable.insert name).2 w1 ∧ w1.SameView w ∧
      w1.evtWriter = w.evtWriter ++ [.enter start (w.otf2RegionsTable.insert name).2] :=
  ⟨_, rfl, ⟨rfl, rfl, rfl, rfl⟩, rfl⟩

theorem traced_collective_run {name : String} {start stop : Otf2TimeT}
    {rest : OTF2Writer → Nat → WriterM Otf2WriterResult} {w : OTF2Writer} {records : List Event}
    (runs : ∀ w1, w1.SameView w → ∃ w2,
      rest w1 (w.otf2RegionsTable.insert name).2 w1 = .ok .success w2 ∧
        w2.evtWriter = w1.evtWriter ++ records) :
    ∃ w', (enter start stop name >>= fun thisRegion => get >>= fun u => rest u thisRegion) w =
      .ok .success w' ∧
        w'.evtWriter = w.evtWriter ++ (.enter start (w.otf2RegionsTable.insert name).2 :: records) := by
  obtain ⟨w1, entered, same, recorded⟩ := enter_run start stop name w
  obtain ⟨w2, ran, appended⟩ := runs w1 same
  refine ⟨w2, by rw [run_bind, entered]; exact ran, ?_⟩
  rw [appended, recorded, List.append_assoc, List.singleton_append]

/-- A volume computation that neither fails nor changes the writer, and gives `value` modulo
`2^64`. -/
def Yields (volume : WriterM U64) (value : Int) : Prop :=
  ∀ u, volume u = .ok (BitVec.ofInt 64 value) u

theorem collective_leave_run {start stop : Otf2TimeT} {op : CollectiveOp} {comm : CommT}
    {root : CInt} {sent received : WriterM U64} {sentValue receivedValue : Int}
    (sends : Yields sent sentValue) (receives : Yields received receivedValue) (region : Nat)
    (w : OTF2Writer) :
    ∃ w', (collectiveWrapper start stop op comm root sent received >>= fun _ => leave stop region) w =
      .ok .success w' ∧ w'.evtWriter = w.evtWriter ++
        [.mpiCollectiveBegin start, .mpiCollectiveEnd stop op comm root
          (BitVec.ofInt 64 sentValue) (BitVec.ofInt 64 receivedValue), .leave stop region] := by
  unfold Yields at sends receives
  refine ⟨_, by simp only [collectiveWrapper, leave, run_bind, emit, countEvents, run_modify, sends,
    receives, run_pure]; rfl, ?_⟩
  simp only [List.append_assoc, List.cons_append, List.singleton_append, List.nil_append]

namespace Yields

theorem pure_of_eq {x : U64} {value : Int} (same : x = BitVec.ofInt 64 value) :
    Yields (pure x) value := fun _ => by rw [same]; rfl

theorem zero : Yields (pure 0) 0 := pure_of_eq rfl

theorem ite {condition : Bool} {volume : WriterM U64} {value : Int}
    (yields : condition = true → Yields volume value) :
    Yields (if condition then volume else pure 0) (if condition then value else 0) := by
  cases condition
  · exact zero
  · exact yields rfl

theorem pure_ite {condition : Bool} {x : U64} {value : Int} (same : x = BitVec.ofInt 64 value) :
    Yields (pure (if condition then x else 0)) (if condition then value else 0) := by
  cases condition
  · exact zero
  · exact pure_of_eq same

theorem toU64_intMul {a : Int} {b : CInt} (fits : InInt (a * b.toInt)) (left : InInt a) :
    Yields (CInt.toU64 <$> intMul (BitVec.ofInt 32 a) b) (a * b.toInt) := by
  have product : intMul (BitVec.ofInt 32 a) b = pure (BitVec.ofInt 32 (a * b.toInt)) := by
    rw [intMul_eq (by rwa [toInt_ofInt_of_inInt left]), toInt_ofInt_of_inInt left]
  rw [product]
  exact pure_of_eq (toU64_ofInt fits)

theorem toU64_intMul_ofInt {a b : Int} (fits : InInt (a * b)) (left : InInt a) (right : InInt b) :
    Yields (CInt.toU64 <$> intMul (BitVec.ofInt 32 a) (BitVec.ofInt 32 b)) (a * b) := by
  have product := @toU64_intMul a (BitVec.ofInt 32 b)
  rw [toInt_ofInt_of_inInt right] at product
  exact product fits left

theorem countBytes_arraySum (w : OTF2Writer) (type : MpiTypeT) {counts : List CInt} {n : CInt}
    (inside : n.toInt.toNat ≤ counts.length) (sums : SumsInInt (firstCounts counts n)) :
    Yields ((fun total => w.countBytes type total.toU64) <$> arraySum counts n)
      (bytesOf w.byteSize type (firstCounts counts n).sum) := by
  intro u
  have whole : InInt ((counts.map BitVec.toInt).take n.toInt.toNat).sum :=
    sums _ ((List.mem_inits _ _).mpr (List.prefix_refl _))
  simp only [Functor.map, EStateM.map, arraySum_run inside (sums_of_inits sums) u,
    countBytes_eq_ofInt, toInt_ofInt_of_inInt whole]
  rfl

end Yields

theorem collective_records_follow_volume_table {call : Call} {w : OTF2Writer}
    {c : CollectiveCall} (mapped : call.collective w = some c) (holds : call.CountsHold w)
    (fits : c.collective.IntsFit w.byteSize c.view) :
    ∃ w', callMethod call w = .ok () w' ∧ w'.evtWriter = w.evtWriter ++ c.records w := by
  cases call <;> cases mapped
  case mpiBarrier start stop comm =>
    refine discard_of_ok ⟨_, traced_collective_run fun w1 same => ?_⟩
    rw [same.header]
    exact collective_leave_run Yields.zero Yields.zero _ w1
  case mpiBcast start stop count type root comm =>
    obtain ⟨bytesFit, rootFits⟩ := fits
    refine discard_of_ok ⟨_, traced_collective_run fun w1 same => ?_⟩
    rw [same.countBytes, same.isRoot, same.commSize, countBytes_eq_ofInt, toCInt_ofInt]
    exact collective_leave_run (Yields.ite fun root => Yields.toU64_intMul (rootFits root) bytesFit)
      (Yields.pure_of_eq (toU64_ofInt bytesFit)) _ w1
  case mpiGather start stop sendcount sendtype recvcount recvtype root comm =>
    refine discard_of_ok ⟨_, traced_collective_run fun w1 same => ?_⟩
    rw [same.countBytes, same.isRoot, same.commSize, countBytes_eq_ofInt, countBytes_eq_ofInt]
    exact collective_leave_run (Yields.pure_of_eq rfl) (Yields.pure_ite (ofInt_mul_toU64 _ _)) _ w1
  case mpiGatherv start stop commSize sendcount sendtype recvcounts recvtype root comm =>
    refine discard_of_ok ⟨_, traced_collective_run fun w1 same => ?_⟩
    rw [same.countBytes, same.isRoot, countBytes_eq_ofInt]
    exact collective_leave_run (Yields.pure_of_eq rfl)
      (Yields.ite fun root => Yields.countBytes_arraySum w recvtype holds (fits root)) _ w1
  case mpiScatter start stop sendcount sendtype recvcount recvtype root comm =>
    refine discard_of_ok ⟨_, traced_collective_run fun w1 same => ?_⟩
    rw [same.countBytes, same.isRoot, same.commSize, countBytes_eq_ofInt, countBytes_eq_ofInt]
    exact collective_leave_run (Yields.pure_ite (ofInt_mul_toU64 _ _)) (Yields.pure_of_eq rfl) _ w1
  case mpiScatterv start stop commSize sendcounts sendtype recvcount recvtype root comm =>
    refine discard_of_ok ⟨_, traced_collective_run fun w1 same => ?_⟩
    rw [same.countBytes, same.isRoot, countBytes_eq_ofInt]
    exact collective_leave_run
      (Yields.ite fun root => Yields.countBytes_arraySum w sendtype holds (fits root))
      (Yields.pure_of_eq rfl) _ w1
  case mpiReduce start stop count type root comm =>
    obtain ⟨bytesFit, rootFits⟩ := fits
    refine discard_of_ok ⟨_, traced_collective_run fun w1 same => ?_⟩
    rw [same.countBytes, same.isRoot, same.commSize, countBytes_eq_ofInt, toCInt_ofInt]
    exact collective_leave_run (Yields.pure_of_eq (toU64_ofInt bytesFit))
      (Yields.ite fun root => Yields.toU64_intMul (rootFits root) bytesFit) _ w1
  case mpiAllgather start stop sendcount sendtype recvcount recvtype comm =>
    refine discard_of_ok ⟨_, traced_collective_run fun w1 same => ?_⟩
    rw [same.header, same.countBytes, same.commSize, countBytes_eq_ofInt, countBytes_eq_ofInt]
    exact collective_leave_run (Yields.pure_of_eq (toU64_mul_ofInt _ _))
      (Yields.pure_of_eq (toU64_mul_ofInt _ _)) _ w1
  case mpiAllgatherv start stop commSize sendcount sendtype recvcounts recvtype comm =>
    refine discard_of_ok ⟨_, traced_collective_run fun w1 same => ?_⟩
    rw [same.header, same.countBytes, countBytes_eq_ofInt]
    exact collective_leave_run (Yields.pure_of_eq (toU64_mul_ofInt _ _))
      (Yields.countBytes_arraySum w recvtype holds fits) _ w1
  case mpiAlltoall start stop sendcount sendtype recvcount recvtype comm =>
    refine discard_of_ok ⟨_, traced_collective_run fun w1 same => ?_⟩
    rw [same.header, same.countBytes, same.commSize, countBytes_eq_ofInt, toU64_mul_ofInt,
      toCInt_ofInt, toU64_ofInt fits]
    exact collective_leave_run (Yields.pure_of_eq rfl) (Yields.pure_of_eq rfl) _ w1
  case mpiAlltoallv start stop commSize sendcounts sendtype recvcounts recvtype comm =>
    refine discard_of_ok ⟨_, traced_collective_run fun w1 same => ?_⟩
    rw [same.header, same.countBytes]
    exact collective_leave_run (Yields.countBytes_arraySum w sendtype holds.1 fits.1)
      (Yields.countBytes_arraySum w recvtype holds.2 fits.2) _ w1
  case mpiAllreduce start stop count type comm =>
    refine discard_of_ok ⟨_, traced_collective_run fun w1 same => ?_⟩
    rw [same.header, same.countBytes, same.commSize, countBytes_eq_ofInt, ofInt_mul_toU64,
      toCInt_ofInt, toU64_ofInt fits]
    exact collective_leave_run (Yields.pure_of_eq rfl) (Yields.pure_of_eq rfl) _ w1
  case mpiScan start stop count datatype comm =>
    obtain ⟨bytesFit, aboveFit, belowFit, sentFit, rankFit, receivedFit⟩ := fits
    refine discard_of_ok ⟨_, traced_collective_run fun w1 same => ?_⟩
    dsimp only at aboveFit belowFit sentFit rankFit receivedFit
    rw [same.header, same.countBytes, same.commSize, same.commRankOfCall, countBytes_eq_ofInt,
      toCInt_ofInt]
    have one : (1 : CInt).toInt = 1 := rfl
    have above := intSub_eq aboveFit
    have below : intSub (BitVec.ofInt 32 ((w.commSize comm).toInt - (w.commRankOfCall comm).toInt))
        1 = pure (BitVec.ofInt 32 ((w.commSize comm).toInt - (w.commRankOfCall comm).toInt - 1)) := by
      rw [intSub_eq (by rwa [toInt_ofInt_of_inInt aboveFit, one]), toInt_ofInt_of_inInt aboveFit,
        one]
    have next : intAdd (w.commRankOfCall comm) 1 =
        pure (BitVec.ofInt 32 ((w.commRankOfCall comm).toInt + 1)) := intAdd_eq rankFit
    refine collective_leave_run (fun u => ?_) (fun u => ?_) _ w1
    · rw [above, pure_bind, below, pure_bind]
      exact Yields.toU64_intMul_ofInt sentFit belowFit bytesFit u
    · rw [next, pure_bind]
      exact Yields.toU64_intMul_ofInt receivedFit rankFit bytesFit u
  case mpiReduceScatter start stop commSize recvcounts type comm =>
    obtain ⟨sentFit, partFit, receivedFit⟩ := fits
    obtain ⟨nonneg, inside, known⟩ := holds
    refine discard_of_ok ⟨_, traced_collective_run fun w1 same => ?_⟩
    dsimp only at partFit receivedFit
    obtain ⟨size, sized⟩ := Option.isSome_iff_exists.mp known
    have position : (w.commRankOfCall comm).toInt.toNat < recvcounts.length := by omega
    have entry : (recvcounts.map BitVec.toInt).getD (w.commRankOfCall comm).toInt.toNat 0 =
        recvcounts[(w.commRankOfCall comm).toInt.toNat].toInt := by
      rw [List.getD_eq_getElem _ _ (by simpa using position), List.getElem_map]
    have bytes : w.byteSize type = size.toInt := by
      rw [OTF2Writer.byteSize, OTF2Writer.sizes_of_some sized, Option.getD_some]
    rw [entry] at partFit receivedFit
    rw [bytes] at receivedFit
    have read : readAt recvcounts (w.commRankOfCall comm).toInt w1 =
        .ok recvcounts[(w.commRankOfCall comm).toInt.toNat] w1 := by
      rw [readAt, dif_pos ⟨nonneg, position⟩]
      rfl
    have looked : typeSizeAt type w1 = .ok size w1 := by
      simp only [typeSizeAt, run_modifyGet, same.typeSizes, sized]
    have product : intMul (BitVec.ofInt 32 (commSize.toInt *
        recvcounts[(w.commRankOfCall comm).toInt.toNat].toInt)) size = pure (BitVec.ofInt 32
          (commSize.toInt * recvcounts[(w.commRankOfCall comm).toInt.toNat].toInt * size.toInt)) := by
      rw [intMul_eq (by rwa [toInt_ofInt_of_inInt partFit]), toInt_ofInt_of_inInt partFit]
    rw [same.header, same.countBytes, same.commRankOfCall, countBytes_eq_ofInt, toCInt_ofInt,
      run_bind, read]
    dsimp only
    rw [run_bind, looked]
    dsimp only
    rw [intMul_eq partFit, pure_bind, product, pure_bind]
    exact collective_leave_run (Yields.pure_of_eq (toU64_ofInt sentFit))
      (Yields.pure_of_eq (by simp only [Collective.volume, entry, bytes]; exact toU64_ofInt receivedFit))
      _ w1

/-- The scenario of the design (§8): the root of a 4-rank communicator broadcasting 10
elements of an 8-byte type reports 320 bytes sent and 80 received. -/
theorem bcast_volume_at_root :
    let start : OTF2Writer := { OTF2Writer.new ⟨0, 1, 1, 2, 0, -1⟩ ⟨4, 0⟩ 0 with
      queries := ⟨fun _ _ => 0, fun _ _ => 0, fun _ => 4⟩ }
    let w := (run start [.registerType 7 8]).getD start
    let call := Call.mpiBcast 1 2 10 7 0 0
    let c : CollectiveCall := ⟨"MPI_Bcast", 1, 2, .bcast, 0, 0, ⟨true, 4, 0⟩, .bcast 10 7⟩
    call.collective w = some c ∧ call.CountsHold w ∧ c.collective.IntsFit w.byteSize c.view ∧
      c.collective.volume w.byteSize c.view = (320, 80) ∧
      ∃ w', callMethod call w = .ok () w' ∧ w'.evtWriter = w.evtWriter ++ c.records w := by
  intro start w call c
  have mapped : call.collective w = some c := rfl
  have holds : call.CountsHold w := trivial
  have fits : c.collective.IntsFit w.byteSize c.view := by decide
  exact ⟨mapped, holds, fits, by decide, collective_records_follow_volume_table mapped holds fits⟩

end Otf2Dump
