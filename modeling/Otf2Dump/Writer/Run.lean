import Otf2Dump.Writer.Collectives
import Otf2Dump.Writer.Registry
import Otf2Dump.Writer.Definitions

/-!
# Runs of the writer

One constructor per public method a replay driver calls on one rank, and runs: a thrown
exception leaves the writer as it stands and the run goes on (spec §7), `abort()` or undefined
behaviour ends it.
-/

set_option autoImplicit false

namespace Otf2Dump

/-- A call of a public method, with its arguments. -/
inductive Call where
  | openArchive (path : String) (size rank : CInt)
  | closeArchive
  | writeDefFiles (eventCounts : List CInt)
  | registerCommWorld (id : CommT)
  | registerCommSelf (id : CommT)
  | registerCommError (id : CommT)
  | registerCommNull (id : CommT)
  | registerNullRequest (request : RequestT)
  | setClockResolution (ticksPerSecond : U64)
  | registerType (type : MpiTypeT) (size : CInt)
  | mpiSend (start stop : Otf2TimeT) (type : MpiTypeT) (count : U64) (dest : U32) (comm : CommT)
      (tag : U32)
  | mpiBsend (start stop : Otf2TimeT) (type : MpiTypeT) (count : U64) (dest : U32) (comm : CommT)
      (tag : U32)
  | mpiSsend (start stop : Otf2TimeT) (type : MpiTypeT) (count : U64) (dest : U32) (comm : CommT)
      (tag : U32)
  | mpiRsend (start stop : Otf2TimeT) (type : MpiTypeT) (count : U64) (dest : U32) (comm : CommT)
      (tag : U32)
  | mpiRecv (start stop : Otf2TimeT) (type : MpiTypeT) (count : U64) (source : U32)
      (comm : CommT) (tag : U32)
  | mpiIsend (start stop : Otf2TimeT) (type : MpiTypeT) (count : U64) (dest : U32)
      (comm : CommT) (tag : U32) (request : RequestT)
  | mpiIbsend (start stop : Otf2TimeT) (type : MpiTypeT) (count : U64) (dest : U32)
      (comm : CommT) (tag : U32) (request : RequestT)
  | mpiIssend (start stop : Otf2TimeT) (type : MpiTypeT) (count : U64) (dest : U32)
      (comm : CommT) (tag : U32) (request : RequestT)
  | mpiIrsend (start stop : Otf2TimeT) (type : MpiTypeT) (count : U64) (dest : U32)
      (comm : CommT) (tag : U32) (request : RequestT)
  | mpiIrecv (start stop : Otf2TimeT) (type : MpiTypeT) (count : U64) (source : U32)
      (comm : CommT) (tag : U32) (request : RequestT)
  | genericCall (start stop : Otf2TimeT) (name : String)
  | mpiWait (start stop : Otf2TimeT) (request : RequestT)
  | mpiWaitany (start stop : Otf2TimeT) (request : RequestT)
  | mpiWaitall (start stop : Otf2TimeT) (count : CInt) (requests : List RequestT)
  | mpiWaitsome (start stop : Otf2TimeT) (requests : List RequestT) (outcount : CInt)
      (indices : List CInt)
  | mpiTest (start stop : Otf2TimeT) (request : RequestT) (flag : CInt)
  | mpiTestany (start stop : Otf2TimeT) (requests : List RequestT) (index flag : CInt)
  | mpiTestall (start stop : Otf2TimeT) (count : CInt) (requests : List RequestT) (flag : CInt)
  | mpiTestsome (start stop : Otf2TimeT) (requests : List RequestT) (outcount : CInt)
      (indices : List CInt)
  | mpiBarrier (start stop : Otf2TimeT) (comm : CommT)
  | mpiBcast (start stop : Otf2TimeT) (count : CInt) (type : MpiTypeT) (root : CInt) (comm : CommT)
  | mpiGather (start stop : Otf2TimeT) (sendcount : CInt) (sendtype : MpiTypeT) (recvcount : CInt)
      (recvtype : MpiTypeT) (root : CInt) (comm : CommT)
  | mpiGatherv (start stop : Otf2TimeT) (commSize sendcount : CInt) (sendtype : MpiTypeT)
      (recvcounts : List CInt) (recvtype : MpiTypeT) (root : CInt) (comm : CommT)
  | mpiScatter (start stop : Otf2TimeT) (sendcount : CInt) (sendtype : MpiTypeT)
      (recvcount : CInt) (recvtype : MpiTypeT) (root : CInt) (comm : CommT)
  | mpiScatterv (start stop : Otf2TimeT) (commSize : CInt) (sendcounts : List CInt)
      (sendtype : MpiTypeT) (recvcount : CInt) (recvtype : MpiTypeT) (root : CInt) (comm : CommT)
  | mpiReduce (start stop : Otf2TimeT) (count : CInt) (type : MpiTypeT) (root : CInt)
      (comm : CommT)
  | mpiScan (start stop : Otf2TimeT) (count : CInt) (datatype : MpiTypeT) (comm : CommT)
  | mpiAllgather (start stop : Otf2TimeT) (sendcount : CInt) (sendtype : MpiTypeT)
      (recvcount : CInt) (recvtype : MpiTypeT) (comm : CommT)
  | mpiAllgatherv (start stop : Otf2TimeT) (commSize sendcount : CInt) (sendtype : MpiTypeT)
      (recvcounts : List CInt) (recvtype : MpiTypeT) (comm : CommT)
  | mpiAlltoall (start stop : Otf2TimeT) (sendcount : CInt) (sendtype : MpiTypeT)
      (recvcount : CInt) (recvtype : MpiTypeT) (comm : CommT)
  | mpiAlltoallv (start stop : Otf2TimeT) (commSize : CInt) (sendcounts : List CInt)
      (sendtype : MpiTypeT) (recvcounts : List CInt) (recvtype : MpiTypeT) (comm : CommT)
  | mpiAllreduce (start stop : Otf2TimeT) (count : CInt) (type : MpiTypeT) (comm : CommT)
  | mpiReduceScatter (start stop : Otf2TimeT) (commSize : CInt) (recvcounts : List CInt)
      (type : MpiTypeT) (comm : CommT)
  | mpiGroupUnionFirstPass (group1 group2 newgroup : Int)
  | mpiGroupUnion (start stop : Otf2TimeT) (group1 group2 newgroup : Int)
  | mpiGroupDifferenceFirstPass (group1 group2 newgroup : Int)
  | mpiGroupDifference (start stop : Otf2TimeT) (group1 group2 newgroup : Int)
  | mpiGroupIntersectionFirstPass (group1 group2 newgroup : Int)
  | mpiGroupIntersection (start stop : Otf2TimeT) (group1 group2 newgroup : Int)
  | mpiGroupInclFirstPass (group : Int) (count : CInt) (ranks : List CInt) (newgroup : Int)
  | mpiGroupIncl (start stop : Otf2TimeT) (group : Int) (count : CInt) (ranks : List CInt)
      (newgroup : Int)
  | mpiGroupExclFirstPass (group : Int) (count : CInt) (ranks : List CInt) (newgroup : Int)
  | mpiGroupExcl (start stop : Otf2TimeT) (group : Int) (count : CInt) (ranks : List CInt)
      (newgroup : Int)
  | mpiGroupRangeInclFirstPass (group : Int) (count : CInt) (ranges : List (List CInt))
      (newgroup : Int)
  | mpiGroupRangeIncl (start stop : Otf2TimeT) (group : Int) (count : CInt)
      (ranges : List (List CInt)) (newgroup : Int)
  | mpiCommDupFirstPass (comm newcomm : CommT)
  | mpiCommDup (start stop : Otf2TimeT) (comm newcomm : CommT)
  | mpiCommGroup (start stop : Otf2TimeT) (comm : CommT) (group : Int)
  | mpiCommCreateFirstPass (comm : CommT) (group : Int) (newcomm : CommT)
  | mpiCommCreate (start stop : Otf2TimeT) (comm : CommT) (group : Int) (newcomm : CommT)
  | mpiCommSplitFirstPass (oldcomm : CommT) (key color : CInt) (newcomm : CommT)
  | mpiCommSplit (start stop : Otf2TimeT) (oldcomm : CommT) (key color : CInt) (newcomm : CommT)
  | mpiTypeContiguous (start stop : Otf2TimeT) (count : CInt) (oldtype newtype : MpiTypeT)
  | mpiTypeHvector (start stop : Otf2TimeT) (count blocklength : CInt) (oldtype newtype : MpiTypeT)
  | mpiTypeVector (start stop : Otf2TimeT) (count blocklength : CInt) (oldtype newtype : MpiTypeT)
  | mpiTypeCreateHvector (start stop : Otf2TimeT) (count blocklength : CInt)
      (oldtype newtype : MpiTypeT)
  | mpiTypeIndexed (start stop : Otf2TimeT) (count : CInt) (lengths : List CInt)
      (oldtype newtype : MpiTypeT)
  | mpiTypeHindexed (start stop : Otf2TimeT) (count : CInt) (lengths : List CInt)
      (oldtype newtype : MpiTypeT)
  | mpiTypeCreateHindexed (start stop : Otf2TimeT) (count : CInt) (lengths : List CInt)
      (oldtype newtype : MpiTypeT)
  | mpiTypeStruct (start stop : Otf2TimeT) (count : CInt) (blocklengths : List CInt)
      (oldtypes : List MpiTypeT) (newtype : MpiTypeT)
  | mpiTypeCreateStruct (start stop : Otf2TimeT) (count : CInt) (blocklengths : List CInt)
      (oldtypes : List MpiTypeT) (newtype : MpiTypeT)
  | mpiTypeCreateSubarray (start stop : Otf2TimeT) (ndims : CInt) (subsizes : List CInt)
      (oldtype newtype : MpiTypeT)

/-- The method a call runs; its `OTF2_WRITER_RESULT` is dropped. -/
def callMethod : Call → WriterM Unit
  | .openArchive path size rank => discard (openArchive path size rank)
  | .closeArchive => discard closeArchive
  | .writeDefFiles eventCounts => writeDefFiles eventCounts
  | .registerCommWorld id => registerCommWorld id
  | .registerCommSelf id => registerCommSelf id
  | .registerCommError id => registerCommError id
  | .registerCommNull id => registerCommNull id
  | .registerNullRequest request => registerNullRequest request
  | .setClockResolution ticks => setClockResolution ticks
  | .registerType type size => registerType type size
  | .mpiSend a b c d e f g => discard (mpiSend a b c d e f g)
  | .mpiBsend a b c d e f g => discard (mpiBsend a b c d e f g)
  | .mpiSsend a b c d e f g => discard (mpiSsend a b c d e f g)
  | .mpiRsend a b c d e f g => discard (mpiRsend a b c d e f g)
  | .mpiRecv a b c d e f g => discard (mpiRecv a b c d e f g)
  | .mpiIsend a b c d e f g h => discard (mpiIsend a b c d e f g h)
  | .mpiIbsend a b c d e f g h => discard (mpiIbsend a b c d e f g h)
  | .mpiIssend a b c d e f g h => discard (mpiIssend a b c d e f g h)
  | .mpiIrsend a b c d e f g h => discard (mpiIrsend a b c d e f g h)
  | .mpiIrecv a b c d e f g h => discard (mpiIrecv a b c d e f g h)
  | .genericCall a b name => discard (genericCall a b name)
  | .mpiWait a b request => discard (mpiWait a b request)
  | .mpiWaitany a b request => discard (mpiWaitany a b request)
  | .mpiWaitall a b count requests => discard (mpiWaitall a b count requests)
  | .mpiWaitsome a b requests outcount indices => discard (mpiWaitsome a b requests outcount indices)
  | .mpiTest a b request flag => discard (mpiTest a b request flag)
  | .mpiTestany a b requests index flag => discard (mpiTestany a b requests index flag)
  | .mpiTestall a b count requests flag => discard (mpiTestall a b count requests flag)
  | .mpiTestsome a b requests outcount indices => discard (mpiTestsome a b requests outcount indices)
  | .mpiBarrier a b comm => discard (mpiBarrier a b comm)
  | .mpiBcast a b c d e f => discard (mpiBcast a b c d e f)
  | .mpiGather a b c d e f g h => discard (mpiGather a b c d e f g h)
  | .mpiGatherv a b c d e f g h i => discard (mpiGatherv a b c d e f g h i)
  | .mpiScatter a b c d e f g h => discard (mpiScatter a b c d e f g h)
  | .mpiScatterv a b c d e f g h i => discard (mpiScatterv a b c d e f g h i)
  | .mpiReduce a b c d e f => discard (mpiReduce a b c d e f)
  | .mpiScan a b c d e => discard (mpiScan a b c d e)
  | .mpiAllgather a b c d e f g => discard (mpiAllgather a b c d e f g)
  | .mpiAllgatherv a b c d e f g h => discard (mpiAllgatherv a b c d e f g h)
  | .mpiAlltoall a b c d e f g => discard (mpiAlltoall a b c d e f g)
  | .mpiAlltoallv a b c d e f g h => discard (mpiAlltoallv a b c d e f g h)
  | .mpiAllreduce a b c d e => discard (mpiAllreduce a b c d e)
  | .mpiReduceScatter a b c d e f => discard (mpiReduceScatter a b c d e f)
  | .mpiGroupUnionFirstPass g1 g2 ng => discard (mpiGroupUnionFirstPass g1 g2 ng)
  | .mpiGroupUnion a b g1 g2 ng => discard (mpiGroupUnion a b g1 g2 ng)
  | .mpiGroupDifferenceFirstPass g1 g2 ng => discard (mpiGroupDifferenceFirstPass g1 g2 ng)
  | .mpiGroupDifference a b g1 g2 ng => discard (mpiGroupDifference a b g1 g2 ng)
  | .mpiGroupIntersectionFirstPass g1 g2 ng => discard (mpiGroupIntersectionFirstPass g1 g2 ng)
  | .mpiGroupIntersection a b g1 g2 ng => discard (mpiGroupIntersection a b g1 g2 ng)
  | .mpiGroupInclFirstPass g c r ng => discard (mpiGroupInclFirstPass g c r ng)
  | .mpiGroupIncl a b g c r ng => discard (mpiGroupIncl a b g c r ng)
  | .mpiGroupExclFirstPass g c r ng => discard (mpiGroupExclFirstPass g c r ng)
  | .mpiGroupExcl a b g c r ng => discard (mpiGroupExcl a b g c r ng)
  | .mpiGroupRangeInclFirstPass g c r ng => discard (mpiGroupRangeInclFirstPass g c r ng)
  | .mpiGroupRangeIncl a b g c r ng => discard (mpiGroupRangeIncl a b g c r ng)
  | .mpiCommDupFirstPass comm newcomm => discard (mpiCommDupFirstPass comm newcomm)
  | .mpiCommDup a b comm newcomm => discard (mpiCommDup a b comm newcomm)
  | .mpiCommGroup a b comm group => discard (mpiCommGroup a b comm group)
  | .mpiCommCreateFirstPass comm group newcomm => discard (mpiCommCreateFirstPass comm group newcomm)
  | .mpiCommCreate a b comm group newcomm => discard (mpiCommCreate a b comm group newcomm)
  | .mpiCommSplitFirstPass c k l n => discard (mpiCommSplitFirstPass c k l n)
  | .mpiCommSplit a b c k l n => discard (mpiCommSplit a b c k l n)
  | .mpiTypeContiguous a b c d e => discard (mpiTypeContiguous a b c d e)
  | .mpiTypeHvector a b c d e f => discard (mpiTypeHvector a b c d e f)
  | .mpiTypeVector a b c d e f => discard (mpiTypeVector a b c d e f)
  | .mpiTypeCreateHvector a b c d e f => discard (mpiTypeCreateHvector a b c d e f)
  | .mpiTypeIndexed a b c d e f => discard (mpiTypeIndexed a b c d e f)
  | .mpiTypeHindexed a b c d e f => discard (mpiTypeHindexed a b c d e f)
  | .mpiTypeCreateHindexed a b c d e f => discard (mpiTypeCreateHindexed a b c d e f)
  | .mpiTypeStruct a b c d e f => discard (mpiTypeStruct a b c d e f)
  | .mpiTypeCreateStruct a b c d e f => discard (mpiTypeCreateStruct a b c d e f)
  | .mpiTypeCreateSubarray a b c d e f => discard (mpiTypeCreateSubarray a b c d e f)

/-- One call of a run: the writer after it, or `none` when it aborted or reached undefined
behaviour. A thrown exception is caught by the driver. -/
def Call.step (call : Call) (w : OTF2Writer) : Option OTF2Writer := afterCall (callMethod call w)

/-- A run of calls on one rank. -/
def run (w : OTF2Writer) (calls : List Call) : Option OTF2Writer :=
  calls.foldlM (fun w call => call.step w) w

@[simp] theorem run_nil (w : OTF2Writer) : run w [] = some w := rfl

theorem run_append (w : OTF2Writer) (calls more : List Call) :
    run w (calls ++ more) = (run w calls).bind fun w' => run w' more := by
  simp [run, List.foldlM_append]

theorem run_snoc (w : OTF2Writer) (calls : List Call) (call : Call) :
    run w (calls ++ [call]) = (run w calls).bind call.step := by
  rw [run_append]
  cases run w calls <;> simp [run]

/-- What every method guarantees holds across every run. -/
theorem run_guarantees {relation : OTF2Writer → OTF2Writer → Prop}
    (reflexive : ∀ w, relation w w)
    (transitive : ∀ u v w, relation u v → relation v w → relation u w)
    (each : ∀ call, Guarantees relation (callMethod call)) :
    ∀ {w w' : OTF2Writer} {calls : List Call}, run w calls = some w' → relation w w'
  | w, _, [], rfl => reflexive w
  | _, _, call :: _, ran => by
    obtain ⟨next, stepped, ran⟩ := Option.bind_eq_some.mp ran
    exact transitive _ _ _ (each call _ next stepped) (run_guarantees reflexive transitive each ran)

/-- A writer some run reaches from the constructor. -/
def Reachable (w : OTF2Writer) : Prop :=
  ∃ header world nullRequest calls, run (OTF2Writer.new header world nullRequest) calls = some w

end Otf2Dump
