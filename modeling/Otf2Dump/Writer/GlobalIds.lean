import Otf2Dump.Writer.Basic

/-!
# Global communicator ids

The agree and assign passes that number the communicator forest, with fuel for their recursion
through `sub_comms`; `tree_id` and `global_id_assigner`, declared in the absent header, are
modelled from the spec (§4.3).
-/

set_option autoImplicit false

namespace Otf2Dump

/-- Modelled from the spec: `tree_id`, the "path-of-child-indices" of the node visited, one
counter per level, innermost first. A level opens before its first child (`add_level`), and
`advance` moves to the next child, so the counters are 1-based child positions. -/
structure TreeId where
  stack : List Nat := []
  deriving DecidableEq, Repr

/-- Modelled from the spec: `tree_id::add_level`. -/
def TreeId.addLevel (t : TreeId) : TreeId := ⟨0 :: t.stack⟩

/-- Modelled from the spec: `tree_id::advance`. -/
def TreeId.advance (t : TreeId) : TreeId :=
  ⟨match t.stack with
    | [] => []
    | position :: outer => (position + 1) :: outer⟩

/-- Modelled from the spec: `tree_id::remove_level`. -/
def TreeId.removeLevel (t : TreeId) : TreeId := ⟨t.stack.tail⟩

/-- Modelled from the spec: `global_id_assigner`, the shared counter and the ids it gave
out, by tree coordinate. -/
structure GlobalIdAssigner where
  current : TreeId := {}
  ids : TreeId → Option Int := fun _ => none
  nextId : Int

/-- Modelled from the spec: `global_id_assigner::add_level`. -/
def GlobalIdAssigner.addLevel (a : GlobalIdAssigner) : GlobalIdAssigner :=
  { a with current := a.current.addLevel }

/-- Modelled from the spec: `global_id_assigner::advance_sub_comm`. -/
def GlobalIdAssigner.advanceSubComm (a : GlobalIdAssigner) : GlobalIdAssigner :=
  { a with current := a.current.advance }

/-- Modelled from the spec: `global_id_assigner::remove_level`. -/
def GlobalIdAssigner.removeLevel (a : GlobalIdAssigner) : GlobalIdAssigner :=
  { a with current := a.current.removeLevel }

/-- Modelled from the spec: `global_id_assigner::assign_current`, the next id of the
counter for the current coordinate. -/
def GlobalIdAssigner.assignCurrent (a : GlobalIdAssigner) : GlobalIdAssigner :=
  { a with ids := Function.update a.ids a.current (some a.nextId), nextId := a.nextId + 1 }

/-- Modelled from the spec: `global_id_assigner::get_id`; `none` at a coordinate no rank
asked an id for. -/
def GlobalIdAssigner.getId (a : GlobalIdAssigner) (t : TreeId) : Option Int := a.ids t

/-!
## The agree pass
-/

mutual

def agreeGlobalIdsList (comms : CommT → OTF2MpiComm) :
    Nat → List CommT → GlobalIdAssigner → Option GlobalIdAssigner
  | 0, _, _ => none
  | fuel + 1, subs, assigner => do
    let assigner ← subs.foldlM
      (fun assigner sub => agreeGlobalIdsComm comms fuel sub assigner.advanceSubComm)
      assigner.addLevel
    pure assigner.removeLevel

def agreeGlobalIdsComm (comms : CommT → OTF2MpiComm) :
    Nat → CommT → GlobalIdAssigner → Option GlobalIdAssigner
  | 0, _, _ => none
  | fuel + 1, comm, assigner =>
    let assigner := if (comms comm).isRoot then assigner.assignCurrent else assigner
    if (comms comm).subComms.isEmpty then some assigner
    else agreeGlobalIdsList comms fuel (comms comm).subComms assigner

end

/-- `agree_global_ids(global_id_assigner&)`: from the children of `MPI_COMM_WORLD`. -/
def OTF2Writer.agreeGlobalIds (w : OTF2Writer) (fuel : Nat) (assigner : GlobalIdAssigner) :
    Option GlobalIdAssigner :=
  agreeGlobalIdsList w.comms fuel (w.comms w.header.mpiCommWorldId).subComms assigner

/-!
## The assign pass
-/

/-- The assign pass rewrites communicator records through their pointers; it stops on a
fault or when the fuel runs out. -/
abbrev AssignM := StateT (CommT → OTF2MpiComm) (ExceptT Fault Option)

/-- The recursion had not finished when the fuel ran out. -/
def outOfFuel {α : Type} : AssignM α := fun _ => ExceptT.lift none

mutual

/-- `assign_global_ids(const std::list<OTF2_MPI_Comm*>& subs, const global_id_assigner&,
tree_id&)`: it returns `local_ids` as the call leaves it. -/
def assignGlobalIdsList (globalIds : GlobalIdAssigner) :
    Nat → List CommT → TreeId → AssignM TreeId
  | 0, _, _ => outOfFuel
  | fuel + 1, subs, localIds => do
    let localIds ← subs.foldlM
      (fun localIds sub => assignGlobalIdsComm globalIds fuel sub localIds.advance)
      localIds.addLevel
    pure localIds.removeLevel

def assignGlobalIdsComm (globalIds : GlobalIdAssigner) :
    Nat → CommT → TreeId → AssignM TreeId
  | 0, _, _ => outOfFuel
  | fuel + 1, comm, localIds => do
    let some id := globalIds.getId localIds
      | throw (.undefined "no global id at this tree coordinate")
    modify fun comms => Function.update comms comm { comms comm with globalId := id }
    let subs := ((← get) comm).subComms
    if subs.isEmpty then pure localIds
    else assignGlobalIdsList globalIds fuel subs localIds

end

/-- `assign_global_ids(const global_id_assigner&)`: from the children of `MPI_COMM_WORLD`,
with a fresh `tree_id`. -/
def OTF2Writer.assignGlobalIds (w : OTF2Writer) (fuel : Nat) (globalIds : GlobalIdAssigner) :
    Option (Except Fault OTF2Writer) :=
  ((assignGlobalIdsList globalIds fuel (w.comms w.header.mpiCommWorldId).subComms {}).run
    w.comms).run.map (·.map fun result => { w with comms := result.2 })

end Otf2Dump
