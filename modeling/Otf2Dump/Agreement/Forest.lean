import Otf2Dump.Writer.Run
import Otf2Dump.Writer.GlobalIds

/-!
# The communicator forest

The first pass links communicator records through `sub_comms`; a ranking that grows along every
edge rules out cycles and bounds the depth of the agreement passes.
-/

set_option autoImplicit false

namespace Otf2Dump

/-- The `sub_comms` edge a first-pass construction adds: `(comm, newcomm)`. -/
def Call.subCommEdge : Call → Option (CommT × CommT)
  | .mpiCommDupFirstPass comm newcomm => some (comm, newcomm)
  | .mpiCommCreateFirstPass comm _ newcomm => some (comm, newcomm)
  | _ => none

/-- A path of one or more `sub_comms` edges. -/
def SubCommPath (comms : CommT → OTF2MpiComm) : CommT → CommT → Prop :=
  Relation.TransGen fun c d => d ∈ (comms c).subComms

/-!
## Edges added by a construction
-/

/-- The `sub_comms` of `w'` are those of `w` with edges `comm → newcomm` appended. -/
def EdgesAdded (comm newcomm : CommT) (w w' : OTF2Writer) : Prop :=
  ∀ c, ∃ added, (w'.comms c).subComms = (w.comms c).subComms ++ added ∧
    ∀ d ∈ added, c = comm ∧ d = newcomm

namespace EdgesAdded

variable {comm newcomm : CommT}

theorem refl (w : OTF2Writer) : EdgesAdded comm newcomm w w := fun _ => ⟨[], by simp, by simp⟩

theorem trans (u v w : OTF2Writer) (first : EdgesAdded comm newcomm u v)
    (second : EdgesAdded comm newcomm v w) : EdgesAdded comm newcomm u w := by
  intro c
  obtain ⟨added, grown, onlyNew⟩ := first c
  obtain ⟨more, grown', onlyNew'⟩ := second c
  refine ⟨added ++ more, by rw [grown', grown, List.append_assoc], fun d mem => ?_⟩
  rcases List.mem_append.mp mem with mem | mem
  · exact onlyNew d mem
  · exact onlyNew' d mem

theorem of_subComms {w w' : OTF2Writer} (same : ∀ c, (w'.comms c).subComms = (w.comms c).subComms) :
    EdgesAdded comm newcomm w w' := fun c => ⟨[], by simp [same c], by simp⟩

end EdgesAdded

theorem subComms_update (comms : CommT → OTF2MpiComm) (a : CommT) (v : OTF2MpiComm) (c : CommT) :
    (Function.update comms a v c).subComms = if c = a then v.subComms else (comms c).subComms := by
  rw [Function.update_apply]
  split <;> rfl

theorem edgesAdded_modifyComm_keeps {comm newcomm target : CommT}
    {change : OTF2MpiComm → OTF2MpiComm} (keeps : ∀ record, (change record).subComms = record.subComms) :
    Guarantees (EdgesAdded comm newcomm) (modifyComm target change) := by
  rintro w w' ⟨⟩
  refine EdgesAdded.of_subComms fun c => ?_
  simp only [subComms_update, keeps]
  split <;> simp_all

theorem edgesAdded_modifyComm_append (comm newcomm : CommT) :
    Guarantees (EdgesAdded comm newcomm)
      (modifyComm comm fun parent => { parent with subComms := parent.subComms ++ [newcomm] }) := by
  rintro w w' ⟨⟩ c
  by_cases same : c = comm
  · subst same
    exact ⟨[newcomm], by simp [subComms_update], by simp⟩
  · exact ⟨[], by simp [subComms_update, same], by simp⟩

theorem edgesAdded_mpiCommDupFirstPass (comm newcomm : CommT) :
    Guarantees (EdgesAdded comm newcomm) (mpiCommDupFirstPass comm newcomm) :=
  Guarantees.bind EdgesAdded.trans (edgesAdded_modifyComm_keeps fun _ => rfl) fun _ =>
  Guarantees.bind EdgesAdded.trans (Guarantees.get EdgesAdded.refl) fun _ =>
  Guarantees.bind EdgesAdded.trans (edgesAdded_modifyComm_keeps fun _ => rfl) fun _ =>
  Guarantees.bind EdgesAdded.trans (Guarantees.get EdgesAdded.refl) fun _ =>
  Guarantees.bind EdgesAdded.trans (edgesAdded_modifyComm_keeps fun _ => rfl) fun _ =>
  Guarantees.bind EdgesAdded.trans (Guarantees.get EdgesAdded.refl) fun _ =>
  Guarantees.bind EdgesAdded.trans (edgesAdded_modifyComm_keeps fun _ => rfl) fun _ =>
  Guarantees.bind EdgesAdded.trans (edgesAdded_modifyComm_append comm newcomm) fun _ =>
  Guarantees.pure EdgesAdded.refl _

theorem edgesAdded_groupAt {comm newcomm : CommT} (group : Int) :
    Guarantees (EdgesAdded comm newcomm) (groupAt group) :=
  Guarantees.modifyGet fun w => EdgesAdded.of_subComms fun _ => by split <;> rfl

theorem edgesAdded_mpiCommCreateFirstPass (comm : CommT) (group : Int) (newcomm : CommT) :
    Guarantees (EdgesAdded comm newcomm) (mpiCommCreateFirstPass comm group newcomm) := by
  have link : Guarantees (EdgesAdded comm newcomm) (do
      modifyComm comm fun parent => { parent with subComms := parent.subComms ++ [newcomm] }
      pure Otf2WriterResult.success) :=
    Guarantees.bind EdgesAdded.trans (edgesAdded_modifyComm_append comm newcomm) fun _ =>
      Guarantees.pure EdgesAdded.refl _
  exact Guarantees.bind EdgesAdded.trans (edgesAdded_groupAt group) fun _ =>
    Guarantees.bind EdgesAdded.trans (Guarantees.get EdgesAdded.refl) fun _ =>
    Guarantees.bind EdgesAdded.trans (Guarantees.readAt EdgesAdded.refl _ _) fun _ =>
    Guarantees.ite
      (Guarantees.bind EdgesAdded.trans (edgesAdded_modifyComm_keeps fun _ => rfl) fun _ => link)
      (Guarantees.bind EdgesAdded.trans (Guarantees.pure EdgesAdded.refl _) fun _ => link)

theorem Call.step_edgesAdded {call : Call} {comm newcomm : CommT}
    (edge : call.subCommEdge = some (comm, newcomm)) {w w' : OTF2Writer}
    (stepped : call.step w = some w') : EdgesAdded comm newcomm w w' := by
  cases call <;> simp only [Call.subCommEdge, Option.some.injEq, Prod.mk.injEq,
    reduceCtorEq] at edge
  all_goals obtain ⟨rfl, rfl⟩ := edge
  · exact Guarantees.discard EdgesAdded.refl EdgesAdded.trans
      (edgesAdded_mpiCommDupFirstPass _ _) w w' stepped
  · exact Guarantees.discard EdgesAdded.refl EdgesAdded.trans
      (edgesAdded_mpiCommCreateFirstPass _ _ _) w w' stepped

/-!
## Rankings
-/

/-- A rank for every communicator that grows along each `sub_comms` edge and stays within
`bound`. -/
structure Ranking (comms : CommT → OTF2MpiComm) (bound : Nat) where
  rank : CommT → Nat
  bounded : ∀ c, rank c ≤ bound
  increasing : ∀ c, ∀ d ∈ (comms c).subComms, rank c < rank d

namespace Ranking

variable {comms : CommT → OTF2MpiComm} {bound : Nat}

/-- With no edges every communicator has rank zero. -/
def bare (noEdges : ∀ c, (comms c).subComms = []) : Ranking comms 0 where
  rank _ := 0
  bounded _ := le_rfl
  increasing c d mem := by simp [noEdges c] at mem

theorem rank_lt_of_path (ranking : Ranking comms bound) {c d : CommT}
    (path : SubCommPath comms c d) : ranking.rank c < ranking.rank d := by
  induction path with
  | single edge => exact ranking.increasing _ _ edge
  | tail _ edge below => exact below.trans (ranking.increasing _ _ edge)

theorem acyclic (ranking : Ranking comms bound) (c : CommT) : ¬ SubCommPath comms c c :=
  fun path => (ranking.rank_lt_of_path path).false

/-- New edges `comm → newcomm` into a communicator with no edges of its own: `newcomm` moves
above `comm`, and the bound grows by one. -/
def extend (ranking : Ranking comms bound) {comm newcomm : CommT} {comms' : CommT → OTF2MpiComm}
    (distinct : newcomm ≠ comm) (leaf : (comms newcomm).subComms = [])
    (added : ∀ c, ∃ added, (comms' c).subComms = (comms c).subComms ++ added ∧
      ∀ d ∈ added, c = comm ∧ d = newcomm) :
    Ranking comms' (bound + 1) where
  rank c := if c = newcomm then max (ranking.rank newcomm) (ranking.rank comm + 1) else ranking.rank c
  bounded c := by
    dsimp only
    split
    · exact max_le (Nat.le_succ_of_le (ranking.bounded _)) (Nat.succ_le_succ (ranking.bounded _))
    · exact Nat.le_succ_of_le (ranking.bounded _)
  increasing c d mem := by
    obtain ⟨more, grown, onlyNew⟩ := added c
    rw [grown, List.mem_append] at mem
    dsimp only
    rcases mem with old | new
    · have below := ranking.increasing c d old
      have source : c ≠ newcomm := by rintro rfl; simp [leaf] at old
      rw [if_neg source]
      split
      · subst d; exact below.trans_le (le_max_left _ _)
      · exact below
    · obtain ⟨rfl, rfl⟩ := onlyNew d new
      rw [if_neg distinct.symm, if_pos rfl]
      exact (Nat.lt_succ_self _).trans_le (le_max_right _ _)

end Ranking

/-!
## Runs of constructions

A run of constructions stays ranked when no `newcomm` is the `comm` of its own or of an
earlier construction: a communicator then gets its first edge only after its last arrival
as a `newcomm`.
-/

/-- Each call is a first-pass construction whose `newcomm` differs from its `comm`. -/
def Constructions (calls : List Call) : Prop :=
  ∀ call ∈ calls, ∃ edge ∈ call.subCommEdge, edge.2 ≠ edge.1

instance (calls : List Call) : Decidable (Constructions calls) := by
  unfold Constructions; infer_instance

/-- No `newcomm` is the `comm` of an earlier construction. -/
def ParentsNotReused (calls : List Call) : Prop :=
  calls.Pairwise fun earlier later =>
    ∀ e ∈ earlier.subCommEdge, ∀ l ∈ later.subCommEdge, l.2 ≠ e.1

instance (calls : List Call) : Decidable (ParentsNotReused calls) := by
  unfold ParentsNotReused; infer_instance

/-- No communicator that has edges arrives later as a `newcomm`. -/
def ParentsStay (comms : CommT → OTF2MpiComm) (calls : List Call) : Prop :=
  ∀ c, (comms c).subComms ≠ [] → ∀ call ∈ calls, ∀ e ∈ call.subCommEdge, e.2 ≠ c

theorem ParentsStay.step {call : Call} {calls : List Call} {w w' : OTF2Writer}
    {comm newcomm : CommT} (stay : ParentsStay w.comms (call :: calls))
    (notReused : ParentsNotReused (call :: calls)) (edge : call.subCommEdge = some (comm, newcomm))
    (added : EdgesAdded comm newcomm w w') : ParentsStay w'.comms calls := by
  intro c hasEdges later mem e laterEdge
  obtain ⟨more, grown, onlyNew⟩ := added c
  by_cases old : (w.comms c).subComms = []
  · obtain ⟨d, new⟩ := List.exists_mem_of_ne_nil more (by simpa [grown, old] using hasEdges)
    obtain ⟨rfl, -⟩ := onlyNew d new
    exact (List.pairwise_cons.mp notReused).1 later mem _ edge e laterEdge
  · exact stay c old later (List.mem_cons_of_mem _ mem) e laterEdge

theorem run_ranked {calls : List Call} (constructions : Constructions calls)
    (notReused : ParentsNotReused calls) :
    ∀ {w w' : OTF2Writer} {bound : Nat}, Ranking w.comms bound → ParentsStay w.comms calls →
      run w calls = some w' → Nonempty (Ranking w'.comms (bound + calls.length)) := by
  induction calls with
  | nil => rintro w w' bound ranking - ⟨⟩; exact ⟨ranking⟩
  | cons call calls more =>
    intro w w' bound ranking stay ran
    obtain ⟨⟨comm, newcomm⟩, edge, distinct⟩ := constructions call (List.mem_cons_self _ _)
    obtain ⟨w1, stepped, rest⟩ := Option.bind_eq_some.mp ran
    have added := call.step_edgesAdded edge stepped
    have leaf : (w.comms newcomm).subComms = [] := by
      by_contra hasEdges
      exact stay newcomm hasEdges call (List.mem_cons_self _ _) _ edge rfl
    have ranked := more (fun c mem => constructions c (List.mem_cons_of_mem _ mem))
      (List.pairwise_cons.mp notReused).2 (ranking.extend distinct leaf added)
      (stay.step notReused edge added) rest
    simpa [Nat.add_assoc, Nat.add_comm 1] using ranked

end Otf2Dump
