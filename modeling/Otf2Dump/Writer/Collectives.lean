import Otf2Dump.Writer.TypeSizes

/-!
# Collective calls

The fourteen collective handlers, with the C types of their volume expressions kept: an `int`
overflow is undefined, and `int x = count_bytes(...)` keeps the low 32 bits.
-/

set_option autoImplicit false
set_option linter.unusedVariables false

namespace Otf2Dump

/-- The `COLLECTIVE_WRAPPER(collective, sent, received)` macro. The volume expressions are
arguments of the second record, so they are evaluated after the first is written. -/
def collectiveWrapper (start stop : Otf2TimeT) (collective : CollectiveOp) (comm : CommT)
    (root : CInt) (sent received : WriterM U64) : WriterM Unit := do
  emit (.mpiCollectiveBegin start)
  let sizeSent ← sent
  let sizeReceived ← received
  emit (.mpiCollectiveEnd stop collective comm root sizeSent sizeReceived)
  countEvents 2

def OTF2Writer.isRoot (w : OTF2Writer) (root : CInt) (comm : CommT) : Bool :=
  w.queries.getWorldRank root (BitVec.ofInt 32 comm) == w.world.rank

def OTF2Writer.commSize (w : OTF2Writer) (comm : CommT) : CInt := w.queries.getCommSize comm

/-- `get_comm_rank(comm, world_.rank)`: the arguments are passed in the order of the call,
which is the reverse of the parameter list `(int world_rank, comm_t comm)`. -/
def OTF2Writer.commRankOfCall (w : OTF2Writer) (comm : CommT) : CInt :=
  w.queries.getCommRank (BitVec.ofInt 32 comm) w.world.rank.toInt

def mpiBarrier (start stop : Otf2TimeT) (comm : CommT) : WriterM Otf2WriterResult := do
  let thisRegion ← enter start stop "MPI_Barrier"
  let root := (← get).header.undefinedRoot
  collectiveWrapper start stop .barrier comm root (pure 0) (pure 0)
  leave stop thisRegion

def mpiBcast (start stop : Otf2TimeT) (count : CInt) (type : MpiTypeT) (root : CInt)
    (comm : CommT) : WriterM Otf2WriterResult := do
  let thisRegion ← enter start stop "MPI_Bcast"
  let w ← get
  let bytes := (w.countBytes type count.toU64).toCInt
  collectiveWrapper start stop .bcast comm root
    (if w.isRoot root comm then CInt.toU64 <$> intMul bytes (w.commSize comm) else pure 0)
    (pure bytes.toU64)
  leave stop thisRegion

def mpiGather (start stop : Otf2TimeT) (sendcount : CInt) (sendtype : MpiTypeT)
    (recvcount : CInt) (recvtype : MpiTypeT) (root : CInt) (comm : CommT) :
    WriterM Otf2WriterResult := do
  let thisRegion ← enter start stop "MPI_Gather"
  let w ← get
  collectiveWrapper start stop .gather comm root
    (pure (w.countBytes sendtype sendcount.toU64))
    (pure (if w.isRoot root comm then
      w.countBytes recvtype recvcount.toU64 * (w.commSize comm).toU64 else 0))
  leave stop thisRegion

def mpiGatherv (start stop : Otf2TimeT) (commSize sendcount : CInt) (sendtype : MpiTypeT)
    (recvcounts : List CInt) (recvtype : MpiTypeT) (root : CInt) (comm : CommT) :
    WriterM Otf2WriterResult := do
  let thisRegion ← enter start stop "MPI_Gatherv"
  let w ← get
  collectiveWrapper start stop .gatherv comm root
    (pure (w.countBytes sendtype sendcount.toU64))
    (if w.isRoot root comm then
      (fun total => w.countBytes recvtype total.toU64) <$> arraySum recvcounts commSize
     else pure 0)
  leave stop thisRegion

def mpiScatter (start stop : Otf2TimeT) (sendcount : CInt) (sendtype : MpiTypeT)
    (recvcount : CInt) (recvtype : MpiTypeT) (root : CInt) (comm : CommT) :
    WriterM Otf2WriterResult := do
  let thisRegion ← enter start stop "MPI_Scatter"
  let w ← get
  collectiveWrapper start stop .scatter comm root
    (pure (if w.isRoot root comm then
      w.countBytes sendtype sendcount.toU64 * (w.commSize comm).toU64 else 0))
    (pure (w.countBytes recvtype recvcount.toU64))
  leave stop thisRegion

def mpiScatterv (start stop : Otf2TimeT) (commSize : CInt) (sendcounts : List CInt)
    (sendtype : MpiTypeT) (recvcount : CInt) (recvtype : MpiTypeT) (root : CInt)
    (comm : CommT) : WriterM Otf2WriterResult := do
  let thisRegion ← enter start stop "MPI_Scatterv"
  let w ← get
  collectiveWrapper start stop .scatterv comm root
    (if w.isRoot root comm then
      (fun total => w.countBytes sendtype total.toU64) <$> arraySum sendcounts commSize
     else pure 0)
    (pure (w.countBytes recvtype recvcount.toU64))
  leave stop thisRegion

def mpiReduce (start stop : Otf2TimeT) (count : CInt) (type : MpiTypeT) (root : CInt)
    (comm : CommT) : WriterM Otf2WriterResult := do
  let thisRegion ← enter start stop "MPI_Reduce"
  let w ← get
  let sent := (w.countBytes type count.toU64).toCInt
  collectiveWrapper start stop .reduce comm root
    (pure sent.toU64)
    (if w.isRoot root comm then CInt.toU64 <$> intMul sent (w.commSize comm) else pure 0)
  leave stop thisRegion

def mpiScan (start stop : Otf2TimeT) (count : CInt) (datatype : MpiTypeT) (comm : CommT) :
    WriterM Otf2WriterResult := do
  let thisRegion ← enter start stop "MPI_Scan"
  let w ← get
  let commRank := w.commRankOfCall comm
  let bytes := (w.countBytes datatype count.toU64).toCInt
  collectiveWrapper start stop .scan comm w.header.undefinedRoot
    (do
      let above ← intSub (w.commSize comm) commRank
      CInt.toU64 <$> intMul (← intSub above 1) bytes)
    (do CInt.toU64 <$> intMul (← intAdd commRank 1) bytes)
  leave stop thisRegion

def mpiAllgather (start stop : Otf2TimeT) (sendcount : CInt) (sendtype : MpiTypeT)
    (recvcount : CInt) (recvtype : MpiTypeT) (comm : CommT) : WriterM Otf2WriterResult := do
  let thisRegion ← enter start stop "MPI_Allgather"
  let w ← get
  let commSize := w.commSize comm
  collectiveWrapper start stop .allgather comm w.header.undefinedRoot
    (pure (commSize.toU64 * w.countBytes sendtype sendcount.toU64))
    (pure (commSize.toU64 * w.countBytes recvtype recvcount.toU64))
  leave stop thisRegion

def mpiAllgatherv (start stop : Otf2TimeT) (commSize sendcount : CInt) (sendtype : MpiTypeT)
    (recvcounts : List CInt) (recvtype : MpiTypeT) (comm : CommT) :
    WriterM Otf2WriterResult := do
  let thisRegion ← enter start stop "MPI_Allgatherv"
  let w ← get
  collectiveWrapper start stop .allgatherv comm w.header.undefinedRoot
    (pure (commSize.toU64 * w.countBytes sendtype sendcount.toU64))
    ((fun total => w.countBytes recvtype total.toU64) <$> arraySum recvcounts commSize)
  leave stop thisRegion

/-- `mpi_alltoall`: both volumes use the receive type and count. -/
def mpiAlltoall (start stop : Otf2TimeT) (sendcount : CInt) (sendtype : MpiTypeT)
    (recvcount : CInt) (recvtype : MpiTypeT) (comm : CommT) : WriterM Otf2WriterResult := do
  let thisRegion ← enter start stop "MPI_Alltoall"
  let w ← get
  let transmitted := ((w.commSize comm).toU64 * w.countBytes recvtype recvcount.toU64).toCInt
  collectiveWrapper start stop .alltoall comm w.header.undefinedRoot
    (pure transmitted.toU64) (pure transmitted.toU64)
  leave stop thisRegion

def mpiAlltoallv (start stop : Otf2TimeT) (commSize : CInt) (sendcounts : List CInt)
    (sendtype : MpiTypeT) (recvcounts : List CInt) (recvtype : MpiTypeT) (comm : CommT) :
    WriterM Otf2WriterResult := do
  let thisRegion ← enter start stop "MPI_Alltoallv"
  let w ← get
  collectiveWrapper start stop .alltoallv comm w.header.undefinedRoot
    ((fun total => w.countBytes sendtype total.toU64) <$> arraySum sendcounts commSize)
    ((fun total => w.countBytes recvtype total.toU64) <$> arraySum recvcounts commSize)
  leave stop thisRegion

def mpiAllreduce (start stop : Otf2TimeT) (count : CInt) (type : MpiTypeT) (comm : CommT) :
    WriterM Otf2WriterResult := do
  let thisRegion ← enter start stop "MPI_Allreduce"
  let w ← get
  let bytes := (w.countBytes type count.toU64 * (w.commSize comm).toU64).toCInt
  collectiveWrapper start stop .allreduce comm w.header.undefinedRoot
    (pure bytes.toU64) (pure bytes.toU64)
  leave stop thisRegion

/-- `mpi_reduce_scatter`: the sent volume counts `comm_size` elements, and the received one
reads the size with `type_sizes_[type]`. -/
def mpiReduceScatter (start stop : Otf2TimeT) (commSize : CInt) (recvcounts : List CInt)
    (type : MpiTypeT) (comm : CommT) : WriterM Otf2WriterResult := do
  let thisRegion ← enter start stop "MPI_Reduce_scatter"
  let w ← get
  let sent := (w.countBytes type commSize.toU64).toCInt
  let mine ← readAt recvcounts (w.commRankOfCall comm).toInt
  let size ← typeSizeAt type
  let recv ← intMul (← intMul commSize mine) size
  collectiveWrapper start stop .reduceScatter comm w.header.undefinedRoot
    (pure sent.toU64) (pure recv.toU64)
  leave stop thisRegion

end Otf2Dump
