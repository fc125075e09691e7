import Otf2Dump.Writer.Requests

/-!
# Registrations, groups and communicators

The registration and archive calls and the group and communicator handlers of both phases; the
file I/O of `open_archive` and `close_archive` is not modelled.
-/

set_option autoImplicit false
set_option linter.unusedVariables false

namespace Otf2Dump

/-- Update a group record through `groups_[group]`, which first inserts it when absent. -/
def modifyGroup (group : Int) (change : OTF2MpiGroup → OTF2MpiGroup) : WriterM Unit :=
  modify fun w =>
    { w with groups := Function.update w.groups group (some (change ((w.groups group).getD {}))) }

/-!
## Registration
-/

/-- `open_archive`: sets `world_` on the first call. -/
def openArchive (path : String) (size rank : CInt) : WriterM Otf2WriterResult := do
  if (← get).archive then return .errorArchiveAlreadyOpen
  modify fun w => { w with world := ⟨size, rank⟩, archive := true }
  pure .success

def closeArchive : WriterM Otf2WriterResult := do
  modify fun w => { w with archive := false }
  pure .success

/-- `register_comm_world`: its argument is ignored, and `comm_world_id_` is not set. -/
def registerCommWorld (id : CommT) : WriterM Unit := do
  let header := (← get).header
  modifyGroup header.commWorldGroupId fun grp =>
    { grp with isCommWorld := true, localId := header.commWorldGroupId }
  modifyComm header.mpiCommWorldId fun comm =>
    { comm with localId := header.mpiCommWorldId, globalId := header.mpiCommWorldId,
                localGroupId := header.commWorldGroupId, name := "MPI_COMM_WORLD" }

def registerCommSelf (id : CommT) : WriterM Unit := do
  modify fun w => { w with commSelfId := id }
  let header := (← get).header
  modifyComm header.mpiCommSelfId fun comm =>
    { comm with localId := header.mpiCommSelfId, globalId := header.mpiCommSelfId,
                localGroupId := header.commSelfGroupId, name := "MPI_COMM_SELF" }

def registerCommError (id : CommT) : WriterM Unit := modify fun w => { w with commErrorId := id }

def registerCommNull (id : CommT) : WriterM Unit := modify fun w => { w with commNullId := id }

def registerNullRequest (request : RequestT) : WriterM Unit :=
  modify fun w => { w with nullRequest := request }

def setClockResolution (ticksPerSecond : U64) : WriterM Unit :=
  modify fun w => { w with clockResolution := ticksPerSecond }

/-!
## Groups, first pass
-/

/-- The unimplemented group constructors: both operands and the new group are looked up
with `operator[]`, which inserts them, and then the exception is thrown. -/
def groupAlgebraFirstPass (message : String) (group1 group2 newgroup : Int) :
    WriterM Otf2WriterResult := do
  let _ ← groupAt group1
  let _ ← groupAt group2
  let _ ← groupAt newgroup
  throw (.exception message)

def mpiGroupUnionFirstPass (group1 group2 newgroup : Int) : WriterM Otf2WriterResult :=
  groupAlgebraFirstPass "Unimplemented: mpi_group_union" group1 group2 newgroup

def mpiGroupDifferenceFirstPass (group1 group2 newgroup : Int) : WriterM Otf2WriterResult :=
  groupAlgebraFirstPass "Unimplemented: mpi_group_difference" group1 group2 newgroup

def mpiGroupIntersectionFirstPass (group1 group2 newgroup : Int) : WriterM Otf2WriterResult :=
  groupAlgebraFirstPass "Unimplemented: mpi_group_intersection" group1 group2 newgroup

def mpiGroupRangeInclFirstPass (group : Int) (count : CInt) (ranges : List (List CInt))
    (newgroup : Int) :
    WriterM Otf2WriterResult := do
  let _ ← groupAt group
  let _ ← groupAt newgroup
  throw (.exception "Unimplemented: mpi_group_range_incl")

/-- The group table after `groups_[group]`: the record is inserted value-initialised when
absent, and left as it is otherwise. -/
def touchGroup (groups : Int → Option OTF2MpiGroup) (group : Int) : Int → Option OTF2MpiGroup :=
  Function.update groups group (some ((groups group).getD {}))

theorem groupAt_run (group : Int) (w : OTF2Writer) :
    groupAt group w = .ok ((w.groups group).getD {}) { w with groups := touchGroup w.groups group } := by
  cases found : w.groups group with
  | none => simp [groupAt, touchGroup, found]
  | some record =>
    have same : touchGroup w.groups group = w.groups := by
      rw [touchGroup, found, Option.getD_some, ← found, Function.update_eq_self]
    simp [groupAt, found, same]

/-- The unimplemented group constructors throw their exception after `operator[]` has
inserted every handle they name. -/
theorem groupAlgebraFirstPass_run (message : String) (group1 group2 newgroup : Int)
    (w : OTF2Writer) :
    groupAlgebraFirstPass message group1 group2 newgroup w = .error (.exception message)
      { w with groups := touchGroup (touchGroup (touchGroup w.groups group1) group2) newgroup } := by
  simp only [groupAlgebraFirstPass, run_bind, groupAt_run, run_throw]

theorem mpiGroupRangeInclFirstPass_run (group : Int) (count : CInt) (ranges : List (List CInt))
    (newgroup : Int) (w : OTF2Writer) :
    mpiGroupRangeInclFirstPass group count ranges newgroup w =
      .error (.exception "Unimplemented: mpi_group_range_incl")
        { w with groups := touchGroup (touchGroup w.groups group) newgroup } := by
  simp only [mpiGroupRangeInclFirstPass, run_bind, groupAt_run, run_throw]

/-- Each unimplemented group constructor throws its `Unimplemented` exception with a group
table in which every handle it names has an entry, so a writer that did not know one of them
comes out changed: on a writer that knows no group, `groups_[5]` is absent before
`mpi_group_union_first_pass(3, 4, 5)` and a value-initialised record after it. -/
theorem unimplemented_group_passes_insert_groups :
    (∀ (group1 group2 newgroup : Int) (w : OTF2Writer),
      let groups := touchGroup (touchGroup (touchGroup w.groups group1) group2) newgroup
      mpiGroupUnionFirstPass group1 group2 newgroup w =
          .error (.exception "Unimplemented: mpi_group_union") { w with groups := groups } ∧
        mpiGroupDifferenceFirstPass group1 group2 newgroup w =
          .error (.exception "Unimplemented: mpi_group_difference") { w with groups := groups } ∧
        mpiGroupIntersectionFirstPass group1 group2 newgroup w =
          .error (.exception "Unimplemented: mpi_group_intersection") { w with groups := groups }) ∧
    (∀ (group : Int) (count : CInt) (ranges : List (List CInt)) (newgroup : Int) (w : OTF2Writer),
      mpiGroupRangeInclFirstPass group count ranges newgroup w =
        .error (.exception "Unimplemented: mpi_group_range_incl")
          { w with groups := touchGroup (touchGroup w.groups group) newgroup }) ∧
    let start := OTF2Writer.new ⟨0, 1, 1, 2, 0, -1⟩ ⟨1, 0⟩ 0
    start.groups 5 = none ∧
      touchGroup (touchGroup (touchGroup start.groups 3) 4) 5 5 = some {} :=
  ⟨fun group1 group2 newgroup w => ⟨groupAlgebraFirstPass_run _ group1 group2 newgroup w,
      groupAlgebraFirstPass_run _ group1 group2 newgroup w,
      groupAlgebraFirstPass_run _ group1 group2 newgroup w⟩,
    mpiGroupRangeInclFirstPass_run, rfl, rfl⟩

/-- The `global_ranks` of a group as they stand. -/
def OTF2Writer.globalRanksOf (w : OTF2Writer) (group : Int) : List CInt :=
  ((w.groups group).getD {}).globalRanks

/-- `std::vector<int>::resize(n)` with `n` an `int`: a negative `n` is a huge `size_t`, and
the call throws `std::length_error`. -/
def resizeGlobalRanks (group : Int) (n : CInt) : WriterM Unit := do
  if n.toInt < 0 then throw (.exception "vector::_M_default_append")
  modifyGroup group fun grp =>
    { grp with globalRanks := grp.globalRanks.take n.toInt.toNat ++
        List.replicate (n.toInt.toNat - grp.globalRanks.length) 0 }

/-- `global_ranks[index] = value` through a reference: undefined out of range. -/
def setGlobalRank (group : Int) (index : Nat) (value : CInt) : WriterM Unit := do
  if index < ((← get).globalRanksOf group).length then
    modifyGroup group fun grp => { grp with globalRanks := grp.globalRanks.set index value }
  else undefined "vector index out of range"

/-- `mpi_group_incl_first_pass`: the new membership is the parent's at the given indices. -/
def mpiGroupInclFirstPass (group : Int) (count : CInt) (ranks : List CInt) (newgroup : Int) :
    WriterM Otf2WriterResult := do
  let _ ← groupAt group
  let _ ← groupAt newgroup
  resizeGlobalRanks newgroup count
  forCount count fun i => do
    let rank ← readAt ranks i
    setGlobalRank newgroup i (← readAt ((← get).globalRanksOf group) rank.toInt)
  pure .success

/-- `register_comm_world` flags the `WORLD` group but leaves its `global_ranks` empty, so
`mpi_group_incl_first_pass` on it reads `global_ranks[0]` out of range. -/
theorem world_group_incl_reads_empty_global_ranks :
    ∃ w, (do let _ ← openArchive "trace" 2 0; registerCommWorld 0)
        (OTF2Writer.new ⟨0, 1, 1, 2, 0, -1⟩ ⟨0, 0⟩ 0) = .ok () w ∧
      w.globalRanksOf 1 = [] ∧
      ∃ w', mpiGroupInclFirstPass 1 1 [0] 3 w = .error (.undefined "array index out of range") w' :=
  ⟨_, rfl, rfl, _, rfl⟩

/-- `std::set<int>::insert`, the set as its ascending list. -/
def setInsert (value : Int) : List Int → List Int
  | [] => [value]
  | head :: tail =>
    if value < head then value :: head :: tail
    else if value = head then head :: tail
    else head :: setInsert value tail

/-- The sweep of `mpi_group_excl_first_pass` over the parent indices left: `iter` is the
part of `sortedRanks` not yet passed, and `*iter` is read on every index. -/
def exclSweep (group newgroup : Int) : List Nat → List Int → Nat → WriterM Unit
  | [], _, _ => pure ()
  | _ :: _, [], _ => undefined "sortedRanks.end() dereferenced"
  | i :: rest, nextToAvoid :: iter, nextInsertIndex => do
    let nextRank ← readAt ((← get).globalRanksOf group) i
    if nextToAvoid = i then exclSweep group newgroup rest iter nextInsertIndex
    else
      setGlobalRank newgroup nextInsertIndex nextRank
      exclSweep group newgroup rest (nextToAvoid :: iter) (nextInsertIndex + 1)

theorem Guarantees.exclSweep {relation : OTF2Writer → OTF2Writer → Prop}
    (reflexive : ∀ w, relation w w)
    (transitive : ∀ u v w, relation u v → relation v w → relation u w)
    (sets : ∀ group index value, Guarantees relation (setGlobalRank group index value))
    (group newgroup : Int) (indices : List Nat) (iter : List Int) (nextInsertIndex : Nat) :
    Guarantees relation (exclSweep group newgroup indices iter nextInsertIndex) := by
  induction indices generalizing iter nextInsertIndex with
  | nil => exact Guarantees.pure reflexive _
  | cons i rest ih =>
    cases iter with
    | nil => exact Guarantees.undefined reflexive _
    | cons nextToAvoid iter =>
      exact Guarantees.bind transitive (Guarantees.get reflexive) fun _ =>
        Guarantees.bind transitive (Guarantees.readAt reflexive _ _) fun _ =>
          Guarantees.ite (ih _ _) (Guarantees.bind transitive (sets _ _ _) fun _ => ih _ _)

def mpiGroupExclFirstPass (group : Int) (count : CInt) (ranks : List CInt) (newgroup : Int) :
    WriterM Otf2WriterResult := do
  let _ ← groupAt group
  let _ ← groupAt newgroup
  let sortedRanks ← (List.range count.toInt.toNat).foldlM
    (fun set i => do pure (setInsert (← readAt ranks i).toInt set)) []
  let numParentRanks : CInt := BitVec.ofNat 32 ((← get).globalRanksOf group).length
  resizeGlobalRanks newgroup (← intSub numParentRanks count)
  exclSweep group newgroup (List.range numParentRanks.toInt.toNat) sortedRanks 0
  pure .success

/-- `group_exclude([0, 1, 2, 3, 4], [1, 3])`: once `iter` has passed the last excluded index 3
it equals `sortedRanks.end()`, and the sweep still reads `*iter` for index 4. With no index
excluded it reads `*iter` at index 0 already. -/
theorem group_excl_dereferences_end :
    let w : OTF2Writer := { OTF2Writer.new ⟨0, 1, 1, 2, 0, -1⟩ ⟨5, 0⟩ 0 with
      groups := Function.update (fun _ => none) 3 (some { globalRanks := [0, 1, 2, 3, 4] }) }
    (∃ w', mpiGroupExclFirstPass 3 2 [1, 3] 4 w =
      .error (.undefined "sortedRanks.end() dereferenced") w') ∧
    ∃ w', mpiGroupExclFirstPass 3 0 [] 4 w = .error (.undefined "sortedRanks.end() dereferenced") w' :=
  ⟨⟨_, rfl⟩, _, rfl⟩

/-!
## Communicators, first pass
-/

/-- `mpi_comm_dup_first_pass`: the new record copies the parent's global id, group and
root flag, and is appended to the parent's `sub_comms`. -/
def mpiCommDupFirstPass (comm newcomm : CommT) : WriterM Otf2WriterResult := do
  modifyComm newcomm fun dup => { dup with localId := newcomm }
  let globalId := ((← get).comms comm).globalId
  modifyComm newcomm fun dup => { dup with globalId := globalId }
  let localGroupId := ((← get).comms comm).localGroupId
  modifyComm newcomm fun dup => { dup with localGroupId := localGroupId }
  let isRoot := ((← get).comms comm).isRoot
  modifyComm newcomm fun dup => { dup with isRoot := isRoot }
  modifyComm comm fun parent => { parent with subComms := parent.subComms ++ [newcomm] }
  pure .success

/-- `mpi_comm_create_first_pass`: this rank is flagged root of the new communicator when
its world rank is the first of the group, and the new record is appended to the parent's
`sub_comms`. -/
def mpiCommCreateFirstPass (comm : CommT) (group : Int) (newcomm : CommT) :
    WriterM Otf2WriterResult := do
  let subgrp ← groupAt group
  if (← get).world.rank = (← readAt subgrp.globalRanks 0) then
    modifyComm newcomm fun sub => { sub with isRoot := true }
  modifyComm comm fun parent => { parent with subComms := parent.subComms ++ [newcomm] }
  pure .success

/-- `mpi_comm_split_first_pass`: a `TODO` that returns success. -/
def mpiCommSplitFirstPass (oldcomm : CommT) (key color : CInt) (newcomm : CommT) :
    WriterM Otf2WriterResult :=
  pure .success

/-!
## Trace phase
-/

def mpiGroupUnion (start stop : Otf2TimeT) (group1 group2 newgroup : Int) :
    WriterM Otf2WriterResult :=
  genericCall start stop "MPI_Group_union"

def mpiGroupDifference (start stop : Otf2TimeT) (group1 group2 newgroup : Int) :
    WriterM Otf2WriterResult :=
  genericCall start stop "MPI_Group_difference"

def mpiGroupIntersection (start stop : Otf2TimeT) (group1 group2 newgroup : Int) :
    WriterM Otf2WriterResult :=
  genericCall start stop "MPI_Group_intersection"

def mpiGroupIncl (start stop : Otf2TimeT) (group : Int) (count : CInt) (ranks : List CInt)
    (newgroup : Int) : WriterM Otf2WriterResult :=
  genericCall start stop "MPI_Group_incl"

def mpiGroupExcl (start stop : Otf2TimeT) (group : Int) (count : CInt) (ranks : List CInt)
    (newgroup : Int) : WriterM Otf2WriterResult :=
  genericCall start stop "MPI_Group_excl"

def mpiGroupRangeIncl (start stop : Otf2TimeT) (group : Int) (count : CInt)
    (ranges : List (List CInt)) (newgroup : Int) : WriterM Otf2WriterResult :=
  genericCall start stop "MPI_Group_range_incl"

def mpiCommDup (start stop : Otf2TimeT) (comm newcomm : CommT) : WriterM Otf2WriterResult :=
  genericCall start stop "MPI_Comm_dup"

/-- `mpi_comm_group`. `_LEAVE()` returns, so the group check written after it, which would
throw `mismatched commmunicator group in call to MPI_Comm_group`, is never reached. -/
def mpiCommGroup (start stop : Otf2TimeT) (comm : CommT) (group : Int) :
    WriterM Otf2WriterResult :=
  genericCall start stop "MPI_Comm_group"

/-- `mpi_comm_group` never raises the group check: after `register_comm_world`, whose record
holds `COMM_WORLD_GROUP_ID` (1), asking for the group of `MPI_COMM_WORLD` with group 7
returns success. And `mpi_comm_create_first_pass` does not record its group argument: the new
communicator keeps the value-initialised `local_group_id` 0. -/
theorem comm_group_check_never_raised :
    let start : OTF2Writer := OTF2Writer.new ⟨0, 1, 1, 2, 0, -1⟩ ⟨1, 0⟩ 0
    (∃ w w', registerCommWorld 0 start = .ok () w ∧ (w.comms 0).localGroupId = 1 ∧
      mpiCommGroup 1 2 0 7 w = .ok .success w') ∧
    ∃ w, mpiCommCreateFirstPass 0 7 5
        { start with groups := Function.update start.groups 7 (some { globalRanks := [0] }) } =
        .ok .success w ∧ (w.comms 5).localGroupId = 0 :=
  ⟨⟨_, _, rfl, rfl, rfl⟩, _, rfl, rfl⟩

def mpiCommCreate (start stop : Otf2TimeT) (comm : CommT) (group : Int) (newcomm : CommT) :
    WriterM Otf2WriterResult :=
  genericCall start stop "MPI_Comm_create"

def mpiCommSplit (start stop : Otf2TimeT) (oldcomm : CommT) (key color : CInt)
    (newcomm : CommT) : WriterM Otf2WriterResult :=
  genericCall start stop "MPI_Comm_split"

end Otf2Dump
