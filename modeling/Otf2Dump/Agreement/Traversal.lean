import Otf2Dump.Agreement.Termination

/-!
# One traversal behind both passes

The agree and assign passes follow one depth-first walk of the forest that pairs each node with
its child-index path.
-/

set_option autoImplicit false

namespace Otf2Dump

mutual

/-- The nodes of the tree at `comm`, depth first, each with its child-index path: `comm` at
`path`, then the trees of its `sub_comms`. The fuel is spent as the passes spend it. -/
def visitsComm (comms : CommT → OTF2MpiComm) :
    Nat → CommT → TreeId → Option (List (CommT × TreeId))
  | 0, _, _ => none
  | fuel + 1, comm, path =>
    if (comms comm).subComms.isEmpty then some [(comm, path)]
    else ((comm, path) :: ·) <$> visitsList comms fuel (comms comm).subComms path

/-- The nodes of the trees at `subs`, in creation order: the `k`-th of `subs`, counted from
one, is at `k :: path`. -/
def visitsList (comms : CommT → OTF2MpiComm) :
    Nat → List CommT → TreeId → Option (List (CommT × TreeId))
  | 0, _, _ => none
  | fuel + 1, subs, path =>
    List.flatten <$> subs.enum.mapM fun child =>
      visitsComm comms fuel child.2 ⟨(child.1 + 1) :: path.stack⟩

end

/-- The nodes under `MPI_COMM_WORLD`, with their child-index paths from it. -/
def OTF2Writer.visits (w : OTF2Writer) (fuel : Nat) : Option (List (CommT × TreeId)) :=
  visitsList w.comms fuel (w.comms w.header.mpiCommWorldId).subComms {}

/-!
## The agree pass
-/

/-- The assigner `a` standing at `path`. -/
def GlobalIdAssigner.moveTo (a : GlobalIdAssigner) (path : TreeId) : GlobalIdAssigner :=
  { a with current := path }

namespace GlobalIdAssigner

@[simp] theorem moveTo_current (a : GlobalIdAssigner) : a.moveTo a.current = a := rfl

@[simp] theorem moveTo_moveTo (a : GlobalIdAssigner) (path path' : TreeId) :
    (a.moveTo path).moveTo path' = a.moveTo path' := rfl

@[simp] theorem current_moveTo (a : GlobalIdAssigner) (path : TreeId) :
    (a.moveTo path).current = path := rfl

theorem advanceSubComm_eq (a : GlobalIdAssigner) : a.advanceSubComm = a.moveTo a.current.advance :=
  rfl

theorem addLevel_eq (a : GlobalIdAssigner) : a.addLevel = a.moveTo a.current.addLevel := rfl

theorem removeLevel_eq (a : GlobalIdAssigner) :
    a.removeLevel = a.moveTo a.current.removeLevel := rfl

/-- `assign_current` with the assigner at `path`. -/
def assignAt (a : GlobalIdAssigner) (path : TreeId) : GlobalIdAssigner :=
  { a with ids := Function.update a.ids path (some a.nextId), nextId := a.nextId + 1 }

theorem assignCurrent_eq (a : GlobalIdAssigner) : a.assignCurrent = a.assignAt a.current := rfl

end GlobalIdAssigner

/-- What the agree pass does at a visited node: an id for the node's path, if this rank is
root of the node. -/
def agreeVisit (comms : CommT → OTF2MpiComm) (a : GlobalIdAssigner) (visit : CommT × TreeId) :
    GlobalIdAssigner :=
  if (comms visit.1).isRoot then a.assignAt visit.2 else a

section Agree

variable (comms : CommT → OTF2MpiComm)

@[simp] theorem agreeVisit_current (a : GlobalIdAssigner) (visit : CommT × TreeId) :
    (agreeVisit comms a visit).current = a.current := by
  unfold agreeVisit; split <;> rfl

theorem foldl_agreeVisit_current (visits : List (CommT × TreeId)) :
    ∀ a : GlobalIdAssigner, (visits.foldl (agreeVisit comms) a).current = a.current := by
  induction visits with
  | nil => intro a; rfl
  | cons visit visits more => intro a; rw [List.foldl_cons, more, agreeVisit_current]

theorem foldl_agreeVisit_moveTo (visits : List (CommT × TreeId)) (path : TreeId) :
    ∀ a : GlobalIdAssigner, visits.foldl (agreeVisit comms) (a.moveTo path) =
      (visits.foldl (agreeVisit comms) a).moveTo path := by
  induction visits with
  | nil => intro a; rfl
  | cons visit visits more =>
    intro a
    have step : agreeVisit comms (a.moveTo path) visit = (agreeVisit comms a visit).moveTo path := by
      unfold agreeVisit; split <;> rfl
    rw [List.foldl_cons, step, more, List.foldl_cons]

theorem agree_children {fuel : Nat}
    (node : ∀ comm a, agreeGlobalIdsComm comms fuel comm a =
      (visitsComm comms fuel comm a.current).map fun visits => visits.foldl (agreeVisit comms) a)
    (outer : List Nat) :
    ∀ (subs : List CommT) (index : Nat) (a : GlobalIdAssigner), a.current = ⟨index :: outer⟩ →
      subs.foldlM (fun a sub => agreeGlobalIdsComm comms fuel sub a.advanceSubComm) a =
        ((subs.enumFrom index).mapM fun child =>
            visitsComm comms fuel child.2 ⟨(child.1 + 1) :: outer⟩).map fun trees =>
          (trees.flatten.foldl (agreeVisit comms) a).moveTo ⟨(index + subs.length) :: outer⟩
  | [], index, a, here => by
    show some a = some (a.moveTo ⟨(index + 0) :: outer⟩)
    rw [Nat.add_zero, ← here, GlobalIdAssigner.moveTo_current]
  | sub :: subs, index, a, here => by
    have advanced : a.advanceSubComm = a.moveTo ⟨(index + 1) :: outer⟩ := by
      rw [GlobalIdAssigner.advanceSubComm_eq, here]; rfl
    rw [List.foldlM_cons, node, advanced, GlobalIdAssigner.current_moveTo, List.enumFrom_cons,
      List.mapM_cons]
    cases visitsComm comms fuel sub ⟨(index + 1) :: outer⟩ with
    | none => rfl
    | some visits =>
      simp only [Option.map_some', Option.bind_eq_bind, Option.some_bind]
      rw [agree_children node outer subs (index + 1) _
        (by rw [foldl_agreeVisit_current, GlobalIdAssigner.current_moveTo])]
      generalize (subs.enumFrom (index + 1)).mapM (fun child =>
        visitsComm comms fuel child.2 ⟨(child.1 + 1) :: outer⟩) = children
      cases children with
      | none => rfl
      | some trees =>
        show some _ = some _
        beta_reduce
        rw [foldl_agreeVisit_moveTo, foldl_agreeVisit_moveTo, GlobalIdAssigner.moveTo_moveTo,
          List.flatten_cons,
          List.foldl_append, List.length_cons, Nat.add_right_comm index 1, Nat.add_assoc]

/-- The agree pass is a fold of `agreeVisit` over the visits, from the assigner's position. -/
theorem agree_follows_visits : ∀ fuel,
    (∀ comm a, agreeGlobalIdsComm comms fuel comm a =
      (visitsComm comms fuel comm a.current).map fun visits => visits.foldl (agreeVisit comms) a) ∧
    (∀ subs a, agreeGlobalIdsList comms fuel subs a =
      (visitsList comms fuel subs a.current).map fun visits => visits.foldl (agreeVisit comms) a)
  | 0 => ⟨fun _ _ => rfl, fun _ _ => rfl⟩
  | fuel + 1 => by
    have shorter := agree_follows_visits fuel
    refine ⟨fun comm a => ?_, fun subs a => ?_⟩
    · have visited : (if (comms comm).isRoot then a.assignCurrent else a) =
          agreeVisit comms a (comm, a.current) := rfl
      rw [agreeGlobalIdsComm, visitsComm, visited]
      split
      · rfl
      · rw [shorter.2, agreeVisit_current]
        cases visitsList comms fuel (comms comm).subComms a.current <;> rfl
    · rw [agreeGlobalIdsList, visitsList, GlobalIdAssigner.addLevel_eq,
        show subs.enum = subs.enumFrom 0 from rfl,
        agree_children comms shorter.1 a.current.stack subs 0 _ rfl]
      generalize (subs.enumFrom 0).mapM (fun child =>
        visitsComm comms fuel child.2 ⟨(child.1 + 1) :: a.current.stack⟩) = children
      cases children with
      | none => rfl
      | some trees =>
        show some _ = some _
        beta_reduce
        rw [GlobalIdAssigner.removeLevel_eq, foldl_agreeVisit_moveTo, GlobalIdAssigner.moveTo_moveTo,
          GlobalIdAssigner.current_moveTo]
        conv_rhs => rw [← GlobalIdAssigner.moveTo_current (trees.flatten.foldl (agreeVisit comms) a),
          foldl_agreeVisit_current]
        rfl

end Agree

/-!
## The assign pass
-/

/-- What the assign pass does at a visited node: `comm->global_id` is the id stored at the
node's path. -/
def assignVisit (globalIds : GlobalIdAssigner) (visit : CommT × TreeId) : AssignM Unit := do
  let some id := globalIds.getId visit.2
    | throw (.undefined "no global id at this tree coordinate")
  modify fun comms => Function.update comms visit.1 { comms visit.1 with globalId := id }

section Assign

open AssignM

variable {comms : CommT → OTF2MpiComm} (globalIds : GlobalIdAssigner)

theorem finishes_assignVisit (visit : CommT × TreeId) :
    Finishes comms (assignVisit globalIds visit) := by
  unfold assignVisit
  cases globalIds.getId visit.2 with
  | none => exact Finishes.throw _
  | some id => exact Finishes.setGlobalId _ _

theorem finishes_forM_assignVisit :
    ∀ visits : List (CommT × TreeId), Finishes comms (visits.forM (assignVisit globalIds))
  | [] => Finishes.pure _
  | visit :: visits => by
    rw [List.forM_cons']
    exact Finishes.bind (finishes_assignVisit globalIds visit) fun _ =>
      finishes_forM_assignVisit visits

theorem assignGlobalIdsComm_succ (fuel : Nat) (comm : CommT) (localIds : TreeId) :
    assignGlobalIdsComm globalIds (fuel + 1) comm localIds =
      assignVisit globalIds (comm, localIds) >>= fun _ => get >>= fun records =>
        if (records comm).subComms.isEmpty then pure localIds
        else assignGlobalIdsList globalIds fuel (records comm).subComms localIds := by
  rw [assignGlobalIdsComm]
  unfold assignVisit
  cases globalIds.getId localIds <;> rfl

theorem assign_children {fuel : Nat}
    (node : ∀ comm localIds visits, visitsComm comms fuel comm localIds = some visits →
      ∀ records, SameEdges comms records →
        assignGlobalIdsComm globalIds fuel comm localIds records =
          (visits.forM (assignVisit globalIds) >>= fun _ => pure localIds) records)
    (outer : List Nat) :
    ∀ (subs : List CommT) (index : Nat) (trees : List (List (CommT × TreeId))),
      (subs.enumFrom index).mapM (fun child =>
          visitsComm comms fuel child.2 ⟨(child.1 + 1) :: outer⟩) = some trees →
      ∀ records, SameEdges comms records →
        subs.foldlM (fun localIds sub => assignGlobalIdsComm globalIds fuel sub localIds.advance)
            ⟨index :: outer⟩ records =
          (trees.flatten.forM (assignVisit globalIds) >>= fun _ =>
            pure (⟨(index + subs.length) :: outer⟩ : TreeId)) records
  | [], index, trees, visited, records, _ => by
    cases visited
    rfl
  | sub :: subs, index, trees, visited, records, same => by
    simp only [List.enumFrom_cons, List.mapM_cons, Option.bind_eq_bind, Option.bind_eq_some] at visited
    obtain ⟨visits, here, rest, below, found⟩ := visited
    cases found
    rw [List.foldlM_cons, AssignM.run_bind,
      show TreeId.advance ⟨index :: outer⟩ = ⟨(index + 1) :: outer⟩ from rfl,
      node sub _ visits here records same, List.flatten_cons,
      List.forM_append, bind_assoc, AssignM.run_bind, AssignM.run_bind]
    obtain ⟨result, ran, keeps⟩ := finishes_forM_assignVisit globalIds visits records same
    rw [ran]
    rcases result with fault | ⟨⟨⟩, records'⟩
    · rfl
    · show subs.foldlM (fun localIds sub => assignGlobalIdsComm globalIds fuel sub localIds.advance)
          (⟨(index + 1) :: outer⟩ : TreeId) records' = _
      rw [assign_children node outer subs (index + 1) rest below records' (keeps () records' rfl),
        List.length_cons, Nat.add_right_comm index 1, Nat.add_assoc]

/-- Where the visits of the tree at `comm` (of the trees at `subs`) exist, the assign pass sets
the ids along them in order and gives `local_ids` back as it found it. -/
theorem assign_follows_visits : ∀ fuel,
    (∀ comm localIds visits, visitsComm comms fuel comm localIds = some visits →
      ∀ records, SameEdges comms records →
        assignGlobalIdsComm globalIds fuel comm localIds records =
          (visits.forM (assignVisit globalIds) >>= fun _ => pure localIds) records) ∧
    (∀ subs localIds visits, visitsList comms fuel subs localIds = some visits →
      ∀ records, SameEdges comms records →
        assignGlobalIdsList globalIds fuel subs localIds records =
          (visits.forM (assignVisit globalIds) >>= fun _ => pure localIds) records)
  | 0 => ⟨fun _ _ _ stuck => (nomatch stuck), fun _ _ _ stuck => (nomatch stuck)⟩
  | fuel + 1 => by
    have shorter := assign_follows_visits fuel
    refine ⟨fun comm localIds visits visited records same => ?_,
      fun subs localIds visits visited records same => ?_⟩
    · obtain ⟨result, ran, keeps⟩ := finishes_assignVisit globalIds (comm, localIds) records same
      rw [visitsComm] at visited
      rw [assignGlobalIdsComm_succ, AssignM.run_bind, ran]
      split at visited
      · cases visited
        rw [List.forM_cons', bind_assoc, AssignM.run_bind, ran]
        rcases result with fault | ⟨⟨⟩, records'⟩
        · rfl
        · show (if (records' comm).subComms.isEmpty then (pure localIds : AssignM TreeId)
            else assignGlobalIdsList globalIds fuel (records' comm).subComms localIds) records' = _
          rw [keeps () records' rfl comm, if_pos ‹_›]
          rfl
      · obtain ⟨rest, below, rfl⟩ := Option.map_eq_some'.mp visited
        rw [List.forM_cons', bind_assoc, AssignM.run_bind, ran]
        rcases result with fault | ⟨⟨⟩, records'⟩
        · rfl
        · show (if (records' comm).subComms.isEmpty then (pure localIds : AssignM TreeId)
            else assignGlobalIdsList globalIds fuel (records' comm).subComms localIds) records' = _
          rw [keeps () records' rfl comm, if_neg ‹_›]
          exact shorter.2 _ _ rest below records' (keeps () records' rfl)
    · rw [visitsList] at visited
      obtain ⟨trees, below, rfl⟩ := Option.map_eq_some'.mp visited
      rw [assignGlobalIdsList, AssignM.run_bind,
        show localIds.addLevel = ⟨0 :: localIds.stack⟩ from rfl,
        assign_children globalIds shorter.1 localIds.stack subs 0 trees below records same,
        AssignM.run_bind, AssignM.run_bind]
      obtain ⟨result, ran, -⟩ := finishes_forM_assignVisit globalIds trees.flatten records same
      rw [ran]
      rcases result with fault | ⟨⟨⟩, records'⟩ <;> rfl

end Assign

/-!
## Both passes
-/

/-- For every communicator forest, the agree pass and the assign pass follow the same
depth-first walk, in creation order, of the trees under `MPI_COMM_WORLD`, `w.visits`: the
agree pass of an assigner at the root coordinate asks for an id at the child-index path of
each node this rank is root of, and the assign pass sets the `global_id` of each node from the
id stored at its path. Each pass gives its stack back at the root coordinate. On a ranked
forest the walk exists with fuel twice the rank bound plus two. -/
theorem agree_and_assign_follow_one_walk (w : OTF2Writer) (fuel : Nat) :
    (∀ assigner : GlobalIdAssigner, w.agreeGlobalIds fuel (assigner.moveTo {}) =
      (w.visits fuel).map fun visits => (visits.foldl (agreeVisit w.comms) assigner).moveTo {}) ∧
    (∀ (globalIds : GlobalIdAssigner) visits, w.visits fuel = some visits →
      assignGlobalIdsList globalIds fuel (w.comms w.header.mpiCommWorldId).subComms {} w.comms =
        (visits.forM (assignVisit globalIds) >>= fun _ => pure {}) w.comms) ∧
    (∀ bound, Ranking w.comms bound → (w.visits (2 * bound + 2)).isSome) := by
  refine ⟨fun assigner => ?_, fun globalIds visits visited => ?_, fun bound ranking => ?_⟩
  · rw [OTF2Writer.agreeGlobalIds, (agree_follows_visits w.comms fuel).2,
      GlobalIdAssigner.current_moveTo]
    simp only [foldl_agreeVisit_moveTo]
    rfl
  · exact (assign_follows_visits globalIds fuel).2 _ _ visits visited w.comms fun _ => rfl
  · have returns := OTF2Writer.agreeGlobalIds_isSome ranking ({ nextId := 0 } : GlobalIdAssigner)
    rw [OTF2Writer.agreeGlobalIds, (agree_follows_visits w.comms _).2] at returns
    simpa using returns

/-- Duplicates 5 and 7 of `MPI_COMM_WORLD` and 6 of 5 on one rank: the walk visits them in
creation order at the paths `[1]`, `[1, 1]` and `[2]`, and the agree pass is the fold along it. -/
theorem agree_follows_walk_of_three_dups :
    let start := OTF2Writer.new ⟨0, 1, 1, 2, 0, -1⟩ ⟨1, 0⟩ 0
    let w := (run start [.mpiCommDupFirstPass 0 5, .mpiCommDupFirstPass 5 6,
      .mpiCommDupFirstPass 0 7]).getD start
    w.visits 8 = some [(5, ⟨[1]⟩), (6, ⟨[1, 1]⟩), (7, ⟨[2]⟩)] ∧
      ∀ assigner : GlobalIdAssigner, w.agreeGlobalIds 8 (assigner.moveTo {}) =
        some (([(5, ⟨[1]⟩), (6, ⟨[1, 1]⟩), (7, ⟨[2]⟩)].foldl (agreeVisit w.comms)
          assigner).moveTo {}) := by
  intro start w
  have walk : w.visits 8 = some [(5, ⟨[1]⟩), (6, ⟨[1, 1]⟩), (7, ⟨[2]⟩)] := rfl
  refine ⟨walk, fun assigner => ?_⟩
  rw [(agree_and_assign_follow_one_walk w 8).1 assigner, walk]
  rfl

end Otf2Dump
