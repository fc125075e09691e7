import Otf2Dump.Writer.Registry

/-!
# Group constructors of the first pass

`mpi_group_incl_first_pass` and `mpi_group_excl_first_pass` return exactly when the indices they
read are in range (and, for the exclusion, include the parent's last index), and the new group
then holds the parent's members at the included indices.
-/

set_option autoImplicit false

namespace Otf2Dump

/-!
## Writes through a group reference
-/

/-- `w` with the `global_ranks` of `group` replaced, the rest of its record kept. -/
def OTF2Writer.setGlobalRanks (w : OTF2Writer) (group : Int) (members : List CInt) :
    OTF2Writer :=
  let record := (w.groups group).getD {}
  { w with groups := Function.update w.groups group (some { record with globalRanks := members }) }

namespace OTF2Writer

theorem globalRanksOf_setGlobalRanks (w : OTF2Writer) (group g : Int) (members : List CInt) :
    (w.setGlobalRanks group members).globalRanksOf g =
      if g = group then members else w.globalRanksOf g := by
  simp only [setGlobalRanks, globalRanksOf, Function.update_apply]
  split <;> rfl

@[simp] theorem globalRanksOf_setGlobalRanks_same (w : OTF2Writer) (group : Int)
    (members : List CInt) : (w.setGlobalRanks group members).globalRanksOf group = members := by
  rw [globalRanksOf_setGlobalRanks, if_pos rfl]

theorem globalRanksOf_setGlobalRanks_other (w : OTF2Writer) {group g : Int} (other : g ≠ group)
    (members : List CInt) : (w.setGlobalRanks group members).globalRanksOf g = w.globalRanksOf g := by
  rw [globalRanksOf_setGlobalRanks, if_neg other]

@[simp] theorem setGlobalRanks_setGlobalRanks (w : OTF2Writer) (group : Int)
    (members members' : List CInt) :
    (w.setGlobalRanks group members).setGlobalRanks group members' =
      w.setGlobalRanks group members' := by
  simp only [setGlobalRanks, Function.update_same, Option.getD_some, Function.update_idem]

end OTF2Writer

theorem globalRanks_touchGroup (groups : Int → Option OTF2MpiGroup) (group g : Int) :
    ((touchGroup groups group g).getD {}).globalRanks = ((groups g).getD {}).globalRanks := by
  simp only [touchGroup, Function.update_apply]
  split <;> simp_all

theorem setGlobalRank_run (group : Int) (index : Nat) (value : CInt) (w : OTF2Writer) :
    setGlobalRank group index value w =
      if index < (w.globalRanksOf group).length then
        .ok () (w.setGlobalRanks group ((w.globalRanksOf group).set index value))
      else .error (.undefined "vector index out of range") w := by
  unfold setGlobalRank
  simp only [run_bind, run_get]
  split <;> rfl

/-- The size the resize leaves: the first `n` members, then value-initialised ones. -/
def resized (members : List CInt) (n : Nat) : List CInt :=
  members.take n ++ List.replicate (n - members.length) 0

@[simp] theorem length_resized (members : List CInt) (n : Nat) : (resized members n).length = n := by
  simp only [resized, List.length_append, List.length_take, List.length_replicate]
  omega

theorem set_after_front {α : Type} (front : List α) (value : α) (members : List α)
    (room : front.length < members.length) :
    (front ++ members.drop front.length).set front.length value =
      (front ++ [value]) ++ members.drop (front.length + 1) := by
  rw [List.set_append_right _ _ (Nat.le_refl _), Nat.sub_self, List.drop_eq_getElem_cons room,
    List.set_cons_zero, List.append_assoc]
  rfl

theorem readAt_ok {α : Type} {array : List α} {index : Int} {value : α} {w w' : OTF2Writer}
    (ran : readAt array index w = .ok value w') :
    ∃ inside : 0 ≤ index ∧ index.toNat < array.length, array[index.toNat] = value ∧ w' = w := by
  unfold readAt at ran
  split at ran
  · cases ran
    exact ⟨‹_›, rfl, rfl⟩
  · cases ran

theorem readAt_of_le {α : Type} (array : List α) {index : Nat} (outside : array.length ≤ index) :
    readAt array index = undefined "array index out of range" := by
  unfold readAt
  rw [dif_neg (by simp only [Int.toNat_ofNat]; omega)]

theorem readAt_of_inside {α : Type} (array : List α) {index : Int}
    (inside : 0 ≤ index ∧ index.toNat < array.length) :
    readAt array index = pure array[index.toNat] := by
  unfold readAt
  rw [dif_pos inside]
  rfl

theorem resizeGlobalRanks_run (group : Int) (n : CInt) (w : OTF2Writer) :
    resizeGlobalRanks group n w =
      if n.toInt < 0 then .error (.exception "vector::_M_default_append") w
      else .ok () (w.setGlobalRanks group (resized (w.globalRanksOf group) n.toInt.toNat)) := by
  unfold resizeGlobalRanks
  split <;> rfl

/-!
## Signed arithmetic on the sizes
-/

theorem bmod_two_pow_32 {x : Int} (low : -2 ^ 31 ≤ x) (high : x < 2 ^ 31) :
    x.bmod (2 ^ 32) = x := by
  rw [Int.bmod_def]
  split <;> omega

theorem intSub_run {a b : CInt} (low : -2 ^ 31 ≤ a.toInt - b.toInt) (high : a.toInt - b.toInt < 2 ^ 31)
    (w : OTF2Writer) : ∃ c : CInt, intSub a b w = .ok c w ∧ c.toInt = a.toInt - b.toInt :=
  ⟨a - b, by simp only [intSub, if_pos (And.intro low high)]; rfl,
    by rw [BitVec.toInt_sub]; exact bmod_two_pow_32 low high⟩

theorem toInt_lt_two_pow_31 (x : CInt) : x.toInt < 2 ^ 31 := by
  have := x.isLt
  rw [BitVec.toInt_eq_toNat_cond]
  split <;> omega

theorem toInt_ofNat_of_lt {n : Nat} (small : n < 2 ^ 31) : (BitVec.ofNat 32 n).toInt = n := by
  rw [BitVec.toInt_ofNat]
  exact bmod_two_pow_32 (by omega) (by omega)

/-!
## The inclusion
-/

section Incl

variable {group newgroup : Int} (ranks : List CInt)

/-- One turn of the loop of `mpi_group_incl_first_pass`:
`subGrp.global_ranks[i] = parent.global_ranks[ranks[i]]`. -/
def inclCopy (group newgroup : Int) (ranks : List CInt) (i : Nat) : WriterM Unit := do
  let rank ← readAt ranks i
  setGlobalRank newgroup i (← readAt ((← get).globalRanksOf group) rank.toInt)

/-- The member the inclusion copies for the index `rank` of `parent`. -/
def inclMember (parent : List CInt) (rank : CInt) : CInt := parent.getD rank.toInt.toNat 0

/-- The indices `ranks.take j` are all read within `ranks` and within `parent`. -/
def InclReads (parent : List CInt) (j : Nat) : Prop :=
  j ≤ ranks.length ∧ ∀ rank ∈ ranks.take j, 0 ≤ rank.toInt ∧ rank.toInt < parent.length

theorem inclCopy_run (apart : group ≠ newgroup) (base : OTF2Writer) (members : List CInt) (j : Nat)
    (inside : j < ranks.length)
    (within : 0 ≤ ranks[j].toInt ∧ ranks[j].toInt.toNat < (base.globalRanksOf group).length)
    (room : j < members.length) :
    inclCopy group newgroup ranks j (base.setGlobalRanks newgroup members) =
      .ok () (base.setGlobalRanks newgroup
        (members.set j (inclMember (base.globalRanksOf group) ranks[j]))) := by
  unfold inclCopy
  rw [readAt_of_lt ranks inside]
  simp only [run_bind, run_pure, run_get, base.globalRanksOf_setGlobalRanks_other apart,
    readAt_of_inside _ within, setGlobalRank_run, OTF2Writer.globalRanksOf_setGlobalRanks_same,
    if_pos room, OTF2Writer.setGlobalRanks_setGlobalRanks, inclMember, List.getD_eq_getElem?_getD, List.getElem?_eq_getElem within.2, Option.getD_some]

/-- The loop of `mpi_group_incl_first_pass` over its first `j` indices returns exactly when
they are all read in range, and then has written their members in front. -/
theorem inclLoop_run (apart : group ≠ newgroup) (base : OTF2Writer) (members : List CInt) :
    ∀ j, j ≤ members.length →
      (∀ w', (List.range j).forM (inclCopy group newgroup ranks)
          (base.setGlobalRanks newgroup members) = .ok () w' →
        InclReads ranks (base.globalRanksOf group) j) ∧
      (InclReads ranks (base.globalRanksOf group) j →
        (List.range j).forM (inclCopy group newgroup ranks) (base.setGlobalRanks newgroup members) =
          .ok () (base.setGlobalRanks newgroup
            ((ranks.take j).map (inclMember (base.globalRanksOf group)) ++ members.drop j)))
  | 0, _ => ⟨fun _ _ => ⟨Nat.zero_le _, by simp⟩, fun _ => by simp⟩
  | j + 1, room => by
    obtain ⟨stops, runs⟩ := inclLoop_run apart base members j (by omega)
    have parent : ∀ members', (base.setGlobalRanks newgroup members').globalRanksOf group =
        base.globalRanksOf group := fun _ => base.globalRanksOf_setGlobalRanks_other apart _
    rw [List.range_succ, List.forM_append, List.forM_cons', List.forM_nil']
    constructor
    · intro w' ran
      obtain ⟨⟨⟩, w₁, first, ran⟩ := run_bind_ok ran
      obtain ⟨reads, front⟩ := stops w₁ first
      obtain ⟨⟨⟩, w₂, copied, -⟩ := run_bind_ok ran
      rw [runs ⟨reads, front⟩] at first
      cases first
      obtain ⟨rank, w₃, readRank, copied⟩ := run_bind_ok copied
      obtain ⟨inside, rfl, rfl⟩ := readAt_ok readRank
      obtain ⟨_, _, ⟨⟩, copied⟩ := run_bind_ok copied
      obtain ⟨member, w₄, readMember, -⟩ := run_bind_ok copied
      obtain ⟨within, -, -⟩ := readAt_ok readMember
      have same : ranks[(j : Int).toNat] = ranks[j] := by simp only [Int.toNat_ofNat]
      rw [parent, same] at within
      refine ⟨by simpa using inside.2, fun rank mem => ?_⟩
      rw [List.take_succ, List.getElem?_eq_getElem (by simpa using inside.2)] at mem
      rcases List.mem_append.mp mem with old | new
      · exact front rank old
      · rw [Option.toList_some, List.mem_singleton] at new
        subst new
        exact ⟨within.1, by have := within.2; omega⟩
    · rintro ⟨enough, inParent⟩
      have inside : j < ranks.length := by omega
      have grown : ranks.take (j + 1) = ranks.take j ++ [ranks[j]] := by
        rw [List.take_succ, List.getElem?_eq_getElem inside]; rfl
      have within := inParent ranks[j] (by rw [grown]; exact List.mem_append_right _ (List.mem_singleton_self _))
      have front : InclReads ranks (base.globalRanksOf group) j :=
        ⟨by omega, fun rank mem => inParent rank (by rw [grown]; exact List.mem_append_left _ mem)⟩
      have len : ((ranks.take j).map (inclMember (base.globalRanksOf group))).length = j := by
        simp only [List.length_map, List.length_take]; omega
      have moved := set_after_front ((ranks.take j).map (inclMember (base.globalRanksOf group)))
        (inclMember (base.globalRanksOf group) ranks[j]) members (by omega)
      rw [len] at moved
      rw [run_bind, runs front]
      dsimp only
      rw [run_bind, inclCopy_run ranks apart base _ j inside ⟨within.1, by omega⟩ (by simp; omega), moved,
        grown, List.map_append]
      rfl

theorem mpiGroupInclFirstPass_eq {count : CInt} (nonneg : 0 ≤ count.toInt) (w : OTF2Writer) :
    ∃ touched : OTF2Writer, (∀ g, touched.globalRanksOf g = w.globalRanksOf g) ∧
      mpiGroupInclFirstPass group count ranks newgroup w =
        ((List.range count.toInt.toNat).forM (inclCopy group newgroup ranks) >>= fun _ =>
          pure Otf2WriterResult.success) (touched.setGlobalRanks newgroup
            (resized (w.globalRanksOf newgroup) count.toInt.toNat)) := by
  refine ⟨{ w with groups := touchGroup (touchGroup w.groups group) newgroup }, fun g => ?_, ?_⟩
  · simp only [OTF2Writer.globalRanksOf, globalRanks_touchGroup]
  · simp only [mpiGroupInclFirstPass, run_bind, groupAt_run, resizeGlobalRanks_run,
      if_neg (Int.not_lt.mpr nonneg)]
    simp only [OTF2Writer.globalRanksOf, globalRanks_touchGroup]
    rfl

/-- Whatever the members of the parent and the indices given, `mpi_group_incl_first_pass`
returns exactly when `ranks` holds `count` indices and each is an index of the parent; the new
group then holds the parent's members at those indices, in their order, and no other group's
members change. -/
theorem group_incl_returns_iff_within_parent (apart : group ≠ newgroup) {count : CInt}
    (nonneg : 0 ≤ count.toInt) (w : OTF2Writer) :
    let parent := w.globalRanksOf group
    let included := ranks.take count.toInt.toNat
    ((∃ result w', mpiGroupInclFirstPass group count ranks newgroup w = .ok result w') ↔
        count.toInt.toNat ≤ ranks.length ∧
          ∀ rank ∈ included, 0 ≤ rank.toInt ∧ rank.toInt < parent.length) ∧
      ∀ result w', mpiGroupInclFirstPass group count ranks newgroup w = .ok result w' →
        w'.globalRanksOf newgroup = included.map (inclMember parent) ∧
        ∀ g ≠ newgroup, w'.globalRanksOf g = w.globalRanksOf g := by
  intro parent included
  obtain ⟨touched, same, unfolded⟩ := mpiGroupInclFirstPass_eq ranks nonneg w
  have sized := length_resized (w.globalRanksOf newgroup) count.toInt.toNat
  obtain ⟨stops, runs⟩ := inclLoop_run ranks apart touched _ _ sized.ge
  rw [same group] at stops runs
  have whole : ∀ result w', mpiGroupInclFirstPass group count ranks newgroup w = .ok result w' →
      InclReads ranks parent count.toInt.toNat ∧
        w' = touched.setGlobalRanks newgroup (included.map (inclMember parent)) := by
    intro result w' ran
    rw [unfolded] at ran
    obtain ⟨⟨⟩, w₁, looped, done⟩ := run_bind_ok ran
    cases done
    have reads := stops _ looped
    rw [runs reads, List.drop_eq_nil_of_le sized.le, List.append_nil] at looped
    exact ⟨reads, (EStateM.Result.ok.inj looped).2.symm⟩
  refine ⟨⟨fun ⟨result, w', ran⟩ => (whole result w' ran).1, fun reads => ?_⟩,
    fun result w' ran => ?_⟩
  · exact ⟨_, _, by rw [unfolded, run_bind, runs reads]; rfl⟩
  · obtain ⟨-, rfl⟩ := whole result w' ran
    refine ⟨OTF2Writer.globalRanksOf_setGlobalRanks_same _ _ _, fun g other => ?_⟩
    rw [touched.globalRanksOf_setGlobalRanks_other other, same]

/-- The parent `[10, 11, 12]` and the indices `[2, 0]`: the inclusion returns, and the new
group is `[12, 10]`. -/
theorem group_incl_on_two_indices :
    let w : OTF2Writer := { OTF2Writer.new ⟨0, 1, 1, 2, 0, -1⟩ ⟨3, 0⟩ 0 with
      groups := Function.update (fun _ => none) 3 (some { globalRanks := [10, 11, 12] }) }
    (3 : Int) ≠ 4 ∧ 0 ≤ (2 : CInt).toInt ∧
      ∃ result w', mpiGroupInclFirstPass 3 2 [2, 0] 4 w = .ok result w' ∧
        w'.globalRanksOf 4 = [12, 10] := by
  intro w
  have parent : w.globalRanksOf 3 = [10, 11, 12] := rfl
  obtain ⟨returns, result⟩ := @group_incl_returns_iff_within_parent 3 4 [2, 0] (by decide) 2 (by decide) w
  rw [parent] at returns result
  obtain ⟨value, w', ran⟩ := returns.mpr ⟨by decide, by simp⟩
  exact ⟨by decide, by decide, value, w', ran, (result value w' ran).1⟩

end Incl

/-!
## The excluded set
-/

/-- The `std::set` the first loop of `mpi_group_excl_first_pass` builds from `values`, as the
ascending list it iterates. -/
def excludedSet (values : List Int) : List Int :=
  values.foldl (fun set value => setInsert value set) []

theorem mem_setInsert (value x : Int) :
    ∀ set : List Int, x ∈ setInsert value set ↔ x = value ∨ x ∈ set
  | [] => by simp [setInsert]
  | head :: tail => by
    unfold setInsert
    split_ifs with below same
    · exact List.mem_cons
    · subst same; simp
    · simp only [List.mem_cons, mem_setInsert value x tail]
      tauto

theorem setInsert_ascending (value : Int) :
    ∀ {set : List Int}, set.Pairwise (· < ·) → (setInsert value set).Pairwise (· < ·)
  | [], _ => List.pairwise_singleton _ _
  | head :: tail, ascending => by
    rw [List.pairwise_cons] at ascending
    unfold setInsert
    split_ifs with below same
    · refine List.pairwise_cons.mpr ⟨fun x mem => ?_, List.pairwise_cons.mpr ascending⟩
      rcases List.mem_cons.mp mem with rfl | later
      · exact below
      · exact Int.lt_trans below (ascending.1 x later)
    · exact List.pairwise_cons.mpr ascending
    · refine List.pairwise_cons.mpr ⟨fun x mem => ?_, setInsert_ascending value ascending.2⟩
      rcases (mem_setInsert value x tail).mp mem with rfl | old
      · omega
      · exact ascending.1 x old

theorem mem_foldl_setInsert (x : Int) :
    ∀ (values set : List Int),
      x ∈ values.foldl (fun set value => setInsert value set) set ↔ x ∈ set ∨ x ∈ values
  | [], set => by simp
  | value :: values, set => by
    rw [List.foldl_cons, mem_foldl_setInsert x values, mem_setInsert, List.mem_cons]
    tauto

theorem mem_excludedSet {x : Int} {values : List Int} : x ∈ excludedSet values ↔ x ∈ values := by
  rw [excludedSet, mem_foldl_setInsert]
  simp

theorem excludedSet_ascending (values : List Int) : (excludedSet values).Pairwise (· < ·) := by
  suffices ∀ (values set : List Int), set.Pairwise (· < ·) →
      (values.foldl (fun set value => setInsert value set) set).Pairwise (· < ·) from
    this values [] List.Pairwise.nil
  intro values
  induction values with
  | nil => exact fun _ ascending => ascending
  | cons value values more => exact fun _ ascending => more _ (setInsert_ascending value ascending)

theorem excludedSet_nodup (values : List Int) : (excludedSet values).Nodup :=
  (excludedSet_ascending values).imp Int.ne_of_lt

theorem excludedSet_length_eq_iff (values : List Int) :
    (excludedSet values).length = values.length ↔ values.Nodup := by
  have within : List.Subperm (excludedSet values) values :=
    List.subperm_of_subset (excludedSet_nodup values) fun _ mem => mem_excludedSet.mp mem
  constructor
  · intro full
    exact (within.perm_of_length_le full.ge).nodup_iff.mp (excludedSet_nodup values)
  · intro distinct
    exact ((List.perm_ext_iff_of_nodup (excludedSet_nodup values) distinct).mpr
      fun _ => mem_excludedSet).length_eq

theorem excludedSet_length_le (values : List Int) : (excludedSet values).length ≤ values.length :=
  (List.subperm_of_subset (excludedSet_nodup values) fun _ mem => mem_excludedSet.mp mem).length_le

theorem range_cast (m : Nat) :
    (do let a ← List.range m; pure (a : Int) : List Int) = (List.range m).map Nat.cast := by
  rw [List.bind_eq_flatMap]
  exact List.flatMap_pure_eq_map _ _

/-- The first loop of `mpi_group_excl_first_pass` reads `ranks[i]` for each `i < m`: it
returns the set of the first `m` values, or stops at the first index past the array. -/
theorem sortedRanks_run (ranks : List CInt) (w : OTF2Writer) : ∀ m,
    (((List.range m).map Nat.cast).foldlM
        (fun set (i : Int) => do pure (setInsert (← readAt ranks i).toInt set)) [] :
        WriterM (List Int)) w =
      if m ≤ ranks.length then .ok (excludedSet ((ranks.take m).map BitVec.toInt)) w
      else .error (.undefined "array index out of range") w
  | 0 => by simp [excludedSet]
  | m + 1 => by
    rw [List.range_succ, List.map_append, List.foldlM_append, run_bind, sortedRanks_run ranks w m]
    by_cases shorter : m < ranks.length
    · rw [if_pos shorter.le, if_pos (Nat.succ_le_of_lt shorter)]
      simp only [List.map_cons, List.map_nil, List.foldlM_cons, List.foldlM_nil, run_bind,
        readAt_of_lt ranks shorter, run_pure, excludedSet, List.take_succ,
        List.getElem?_eq_getElem shorter, Option.toList_some, List.map_append, List.foldl_append,
        List.foldl_cons, List.foldl_nil]
    · rw [if_neg (show ¬ m + 1 ≤ ranks.length by omega)]
      by_cases reached : m ≤ ranks.length
      · rw [if_pos reached]
        simp only [List.map_cons, List.map_nil, List.foldlM_cons, run_bind,
          readAt_of_le ranks (show ranks.length ≤ m by omega)]
        rfl
      · rw [if_neg reached]

/-!
## The sweep
-/

/-- The indices the sweep of `mpi_group_excl_first_pass` copies, in order: at each index it
reads `*iter`, skips the index and advances `iter` where they match, and copies the index
otherwise; `none` where it reads `*iter` with `iter` at `end()`. -/
def exclCopies : List Nat → List Int → Option (List Nat)
  | [], _ => some []
  | _ :: _, [] => none
  | i :: rest, nextToAvoid :: iter =>
    if nextToAvoid = i then exclCopies rest iter
    else (exclCopies rest (nextToAvoid :: iter)).map (i :: ·)

theorem exclCopies_length_ge : ∀ (m i : Nat) (iter : List Int) (copies : List Nat),
    exclCopies (List.range' i m) iter = some copies →
      m ≤ copies.length + iter.countP fun a => (i : Int) ≤ a ∧ a < ↑(i + m)
  | 0, _, _, _, _ => Nat.zero_le _
  | m + 1, i, [], _, decided => by rw [List.range'_succ] at decided; cases decided
  | m + 1, i, a :: iter, copies, decided => by
    rw [List.range'_succ, exclCopies] at decided
    have wider : ∀ rest : List Int, (rest.countP fun b => (↑(i + 1) : Int) ≤ b ∧ b < ↑(i + 1 + m)) ≤
        rest.countP fun b => (i : Int) ≤ b ∧ b < ↑(i + (m + 1)) :=
      fun rest => List.countP_mono_left fun b _ within => by simp only [decide_eq_true_eq] at within ⊢; omega
    by_cases skip : a = i
    · rw [if_pos skip] at decided
      have counted := exclCopies_length_ge m (i + 1) iter copies decided
      rw [List.countP_cons_of_pos _ _ (by simp only [decide_eq_true_eq]; omega)]
      have := wider iter
      omega
    · rw [if_neg skip] at decided
      obtain ⟨copies', decided', rfl⟩ := Option.map_eq_some'.mp decided
      have counted := exclCopies_length_ge m (i + 1) (a :: iter) copies' decided'
      have := wider (a :: iter)
      rw [List.length_cons]
      omega

theorem exclCopies_last : ∀ (m i : Nat) (iter : List Int) (copies : List Nat),
    exclCopies (List.range' i (m + 1)) iter = some copies → iter.Pairwise (· < ·) →
      (∀ a ∈ iter, (i : Int) ≤ a ∧ a < ↑(i + m + 1)) → ((i + m : Nat) : Int) ∈ iter
  | _, i, [], _, decided, _, _ => by rw [List.range'_succ] at decided; cases decided
  | m, i, a :: iter, copies, decided, ascending, within => by
    rw [List.range'_succ, exclCopies] at decided
    rw [List.pairwise_cons] at ascending
    have first := within a (List.mem_cons_self _ _)
    by_cases skip : a = i
    · rw [if_pos skip] at decided
      cases m with
      | zero => exact skip ▸ List.mem_cons_self _ _
      | succ m =>
        have deeper := exclCopies_last m (i + 1) iter copies decided ascending.2 fun b mem => by
          have := ascending.1 b mem
          have := within b (List.mem_cons_of_mem _ mem)
          omega
        exact List.mem_cons_of_mem _ (by rwa [show i + 1 + m = i + (m + 1) by omega] at deeper)
    · rw [if_neg skip] at decided
      obtain ⟨copies', decided', -⟩ := Option.map_eq_some'.mp decided
      cases m with
      | zero => omega
      | succ m =>
        have deeper := exclCopies_last m (i + 1) (a :: iter) copies' decided'
          (List.pairwise_cons.mpr ascending) fun b mem => by
            rcases List.mem_cons.mp mem with rfl | mem
            · omega
            · have := ascending.1 b mem
              have := within b (List.mem_cons_of_mem _ mem)
              omega
        rwa [show i + 1 + m = i + (m + 1) by omega] at deeper

theorem exclCopies_of_within : ∀ (m i : Nat) (iter : List Int), iter.Pairwise (· < ·) →
    (∀ a ∈ iter, (i : Int) ≤ a ∧ a < ↑(i + m)) → (m = 0 ∨ ((i + m - 1 : Nat) : Int) ∈ iter) →
      exclCopies (List.range' i m) iter =
          some ((List.range' i m).filter fun (j : Nat) => (j : Int) ∉ iter) ∧
        ((List.range' i m).filter fun (j : Nat) => (j : Int) ∉ iter).length + iter.length = m
  | 0, i, [], _, _, _ => ⟨rfl, rfl⟩
  | 0, i, a :: _, _, within, _ => absurd (within a (List.mem_cons_self _ _)) (by omega)
  | m + 1, i, [], _, _, last => by
    rcases last with stop | mem
    · omega
    · cases mem
  | m + 1, i, a :: iter, ascending, within, last => by
    rw [List.pairwise_cons] at ascending
    have first := within a (List.mem_cons_self _ _)
    rw [List.range'_succ, exclCopies, List.filter_cons]
    by_cases skip : a = i
    · have inner := exclCopies_of_within m (i + 1) iter ascending.2 (fun b mem => by
          have := ascending.1 b mem
          have := within b (List.mem_cons_of_mem _ mem)
          omega) (by
          rcases last with stop | mem
          · omega
          · rcases List.mem_cons.mp mem with same | mem
            · left; omega
            · right; rwa [show i + 1 + m - 1 = i + (m + 1) - 1 by omega])
      have kept : ∀ j ∈ List.range' (i + 1) m, ((j : Int) ∉ a :: iter ↔ (j : Int) ∉ iter) := by
        intro j mem
        rw [List.mem_range'_1] at mem
        simp only [List.mem_cons, not_or]
        exact ⟨fun absent => absent.2, fun absent => ⟨by omega, absent⟩⟩
      rw [if_pos skip, if_neg (by simp [skip]),
        List.filter_congr fun j mem => decide_eq_decide.mpr (kept j mem), List.length_cons]
      exact ⟨inner.1, by omega⟩
    · have inner := exclCopies_of_within m (i + 1) (a :: iter) (List.pairwise_cons.mpr ascending)
        (fun b mem => by
          rcases List.mem_cons.mp mem with rfl | mem
          · omega
          · have := ascending.1 b mem
            have := within b (List.mem_cons_of_mem _ mem)
            omega) (by
          rcases last with stop | mem
          · omega
          · right; rwa [show i + 1 + m - 1 = i + (m + 1) - 1 by omega])
      have absent : (i : Int) ∉ a :: iter := by
        intro mem
        rcases List.mem_cons.mp mem with same | mem
        · omega
        · have := ascending.1 i mem; omega
      rw [if_neg skip, if_pos (by simpa using absent), inner.1]
      exact ⟨rfl, by simp only [List.length_cons] at inner ⊢; omega⟩

theorem exclCopies_range_of_conditions {n : Nat} {excluded : List Int} (distinct : excluded.Nodup)
    (within : ∀ index ∈ excluded, 0 ≤ index ∧ index < n) (last : n = 0 ∨ (n - 1 : Int) ∈ excluded) :
    exclCopies (List.range n) (excludedSet excluded) =
        some ((List.range n).filter fun (j : Nat) => (j : Int) ∉ excluded) ∧
      ((List.range n).filter fun (j : Nat) => (j : Int) ∉ excluded).length + excluded.length = n := by
  have full := (excludedSet_length_eq_iff excluded).mpr distinct
  have inner := exclCopies_of_within n 0 (excludedSet excluded) (excludedSet_ascending excluded)
    (fun a mem => by
      have := within a (mem_excludedSet.mp mem)
      simp only [Nat.zero_add, Nat.cast_zero]; omega)
    (by
      rcases last with empty | mem
      · exact .inl empty
      · right
        rw [mem_excludedSet]
        have := (within _ mem).1
        convert mem using 1
        omega)
  have kept : ((List.range n).filter fun (j : Nat) => (j : Int) ∉ excludedSet excluded) =
      (List.range n).filter fun (j : Nat) => (j : Int) ∉ excluded :=
    List.filter_congr fun _ _ => decide_eq_decide.mpr (not_congr mem_excludedSet)
  rw [← List.range_eq_range', kept] at inner
  exact ⟨inner.1, by omega⟩

theorem conditions_of_exclCopies_range {n : Nat} {excluded : List Int} {copies : List Nat}
    (decided : exclCopies (List.range n) (excludedSet excluded) = some copies)
    (fits : copies.length + excluded.length ≤ n) :
    excluded.Nodup ∧ (∀ index ∈ excluded, 0 ≤ index ∧ index < n) ∧
      (n = 0 ∨ (n - 1 : Int) ∈ excluded) := by
  rw [List.range_eq_range'] at decided
  have counting := exclCopies_length_ge n 0 (excludedSet excluded) copies decided
  have setLength := excludedSet_length_le excluded
  have bounded : ((excludedSet excluded).countP fun a => (↑(0 : Nat) : Int) ≤ a ∧ a < ↑(0 + n)) ≤
      (excludedSet excluded).length := List.countP_le_length _
  have allIn := List.countP_eq_length.mp (show ((excludedSet excluded).countP fun a =>
      (↑(0 : Nat) : Int) ≤ a ∧ a < ↑(0 + n)) = (excludedSet excluded).length by omega)
  have inRange : ∀ a ∈ excludedSet excluded, 0 ≤ a ∧ a < n := fun a mem => by
    simpa only [Nat.cast_zero, Nat.zero_add, decide_eq_true_eq] using allIn a mem
  refine ⟨(excludedSet_length_eq_iff excluded).mp (by omega),
    fun index mem => inRange index (mem_excludedSet.mpr mem), ?_⟩
  rcases Nat.eq_zero_or_pos n with empty | positive
  · exact .inl empty
  · obtain ⟨k, longer⟩ : ∃ k, n = k + 1 := ⟨n - 1, by omega⟩
    rw [longer] at decided
    have last := exclCopies_last k 0 (excludedSet excluded) copies decided
      (excludedSet_ascending excluded) fun a mem => by
        have := inRange a mem
        omega
    right
    rw [mem_excludedSet] at last
    convert last using 1
    omega

section Sweep

variable {group newgroup : Int} (apart : group ≠ newgroup) (base : OTF2Writer)

include apart in
/-- The stateful sweep, from the new group's members `front ++ members.drop front.length`:
it returns exactly when `exclCopies` gives the copied indices and they fit after `front`,
and it then has written the parent's members at those indices after `front`. -/
theorem exclSweep_run (members : List CInt) :
    ∀ (indices : List Nat) (iter : List Int) (front : List CInt),
      (∀ i ∈ indices, i < (base.globalRanksOf group).length) → front.length ≤ members.length →
      (∀ w', exclSweep group newgroup indices iter front.length
          (base.setGlobalRanks newgroup (front ++ members.drop front.length)) = .ok () w' →
        ∃ copies, exclCopies indices iter = some copies ∧
          front.length + copies.length ≤ members.length) ∧
      (∀ copies, exclCopies indices iter = some copies →
        front.length + copies.length ≤ members.length →
        exclSweep group newgroup indices iter front.length
            (base.setGlobalRanks newgroup (front ++ members.drop front.length)) =
          .ok () (base.setGlobalRanks newgroup (front ++
            copies.map (fun i => (base.globalRanksOf group).getD i 0) ++
              members.drop (front.length + copies.length))))
  | [], _, front, _, room => by
    refine ⟨fun _ _ => ⟨[], rfl, by simpa using room⟩, fun copies decided _ => ?_⟩
    cases decided
    simp only [exclSweep, List.map_nil, List.append_nil, List.length_nil, Nat.add_zero]
    rfl
  | i :: rest, [], front, _, _ =>
    ⟨fun _ stopped => (nomatch stopped), fun _ decided => (nomatch decided)⟩
  | i :: rest, nextToAvoid :: iter, front, inParent, room => by
    have parent : (base.setGlobalRanks newgroup (front ++ members.drop front.length)).globalRanksOf
        group = base.globalRanksOf group := base.globalRanksOf_setGlobalRanks_other apart _
    have read := inParent i (List.mem_cons_self _ _)
    have later : ∀ j ∈ rest, j < (base.globalRanksOf group).length :=
      fun j mem => inParent j (List.mem_cons_of_mem _ mem)
    rw [exclSweep, run_bind, run_get]
    dsimp only
    rw [parent, readAt_of_lt _ read, run_bind, run_pure]
    dsimp only
    by_cases skip : nextToAvoid = i
    · rw [if_pos skip]
      simp only [exclCopies, if_pos skip]
      exact exclSweep_run members rest iter front later room
    · rw [if_neg skip]
      simp only [exclCopies, if_neg skip]
      rw [run_bind, setGlobalRank_run, OTF2Writer.globalRanksOf_setGlobalRanks_same,
        List.length_append, List.length_drop]
      by_cases fits : front.length < members.length
      · rw [if_pos (by omega)]
        dsimp only
        rw [OTF2Writer.setGlobalRanks_setGlobalRanks,
          set_after_front _ _ _ fits]
        have longer : (front ++ [(base.globalRanksOf group)[i]]).length = front.length + 1 := by simp
        obtain ⟨stops, runs⟩ := exclSweep_run members rest (nextToAvoid :: iter)
          (front ++ [(base.globalRanksOf group)[i]]) later (by omega)
        rw [longer] at stops runs
        refine ⟨fun w' ran => ?_, fun copies decided fitsAll => ?_⟩
        · obtain ⟨copies, decided, fitsAll⟩ := stops w' ran
          exact ⟨i :: copies, by rw [decided]; rfl, by simp only [List.length_cons]; omega⟩
        · obtain ⟨copies', decided', rfl⟩ := Option.map_eq_some'.mp decided
          rw [List.length_cons] at fitsAll
          rw [runs copies' decided' (by omega)]
          simp [List.getD_eq_getElem?_getD, List.getElem?_eq_getElem read, Nat.add_assoc,
            Nat.add_comm 1]
      · rw [if_neg (by omega)]
        refine ⟨fun _ stopped => (nomatch stopped), fun copies decided fitsAll => ?_⟩
        obtain ⟨copies', -, rfl⟩ := Option.map_eq_some'.mp decided
        rw [List.length_cons] at fitsAll
        omega

end Sweep

theorem mpiGroupExclFirstPass_eq {group newgroup : Int} {count : CInt} (nonneg : 0 ≤ count.toInt)
    (ranks : List CInt) (w : OTF2Writer) (small : (w.globalRanksOf group).length < 2 ^ 31) :
    ∃ touched : OTF2Writer, (∀ g, touched.globalRanksOf g = w.globalRanksOf g) ∧
      mpiGroupExclFirstPass group count ranks newgroup w =
        if count.toInt.toNat ≤ ranks.length then
          if ((w.globalRanksOf group).length : Int) < count.toInt then
            .error (.exception "vector::_M_default_append") touched
          else (exclSweep group newgroup (List.range (w.globalRanksOf group).length)
              (excludedSet ((ranks.take count.toInt.toNat).map BitVec.toInt)) 0 >>= fun _ =>
                pure Otf2WriterResult.success)
            (touched.setGlobalRanks newgroup (resized (w.globalRanksOf newgroup)
              ((w.globalRanksOf group).length - count.toInt.toNat)))
        else .error (.undefined "array index out of range") touched := by
  refine ⟨{ w with groups := touchGroup (touchGroup w.groups group) newgroup }, fun g => ?_, ?_⟩
  · simp only [OTF2Writer.globalRanksOf, globalRanks_touchGroup]
  · have same : ∀ g, ({ w with groups := touchGroup (touchGroup w.groups group) newgroup } :
        OTF2Writer).globalRanksOf g = w.globalRanksOf g := fun g => by
      simp only [OTF2Writer.globalRanksOf, globalRanks_touchGroup]
    simp only [mpiGroupExclFirstPass, run_bind, groupAt_run]
    rw [range_cast, sortedRanks_run]
    by_cases enough : count.toInt.toNat ≤ ranks.length
    · rw [if_pos enough, if_pos enough]
      dsimp only
      rw [run_get]
      dsimp only
      rw [same group]
      have numParent := toInt_ofNat_of_lt small
      have below := toInt_lt_two_pow_31 count
      obtain ⟨c, subbed, value⟩ := @intSub_run (BitVec.ofNat 32 (w.globalRanksOf group).length) count
        (by omega) (by omega) { w with groups := touchGroup (touchGroup w.groups group) newgroup }
      rw [subbed]
      dsimp only
      rw [resizeGlobalRanks_run, value, numParent, same newgroup]
      by_cases short : ((w.globalRanksOf group).length : Int) < count.toInt
      · rw [if_pos (by omega), if_pos short]
      · rw [if_neg (by omega), if_neg short]
        dsimp only
        rw [Int.toNat_ofNat, show (((w.globalRanksOf group).length : Int) - count.toInt).toNat =
          (w.globalRanksOf group).length - count.toInt.toNat by omega]
    · rw [if_neg enough, if_neg enough]

/-- Whatever the members of the parent and the excluded indices given, `mpi_group_excl_first_pass`
returns exactly when `ranks` holds `count` distinct indices of the parent among which is its
last index (or the parent is empty); the new group then holds the parent's members at the
other indices, in their order, and no other group's members change. -/
theorem group_excl_returns_iff_last_excluded {group newgroup : Int} (apart : group ≠ newgroup)
    {count : CInt} (nonneg : 0 ≤ count.toInt) (ranks : List CInt) (w : OTF2Writer)
    (small : (w.globalRanksOf group).length < 2 ^ 31) :
    let parent := w.globalRanksOf group
    let excluded := (ranks.take count.toInt.toNat).map BitVec.toInt
    ((∃ result w', mpiGroupExclFirstPass group count ranks newgroup w = .ok result w') ↔
        count.toInt.toNat ≤ ranks.length ∧ excluded.Nodup ∧
          (∀ index ∈ excluded, 0 ≤ index ∧ index < parent.length) ∧
          (parent = [] ∨ (parent.length - 1 : Int) ∈ excluded)) ∧
      ∀ result w', mpiGroupExclFirstPass group count ranks newgroup w = .ok result w' →
        w'.globalRanksOf newgroup =
          ((List.range parent.length).filter fun (j : Nat) => (j : Int) ∉ excluded).map
            (parent.getD · 0) ∧
        ∀ g ≠ newgroup, w'.globalRanksOf g = w.globalRanksOf g := by
  intro parent excluded
  obtain ⟨touched, same, unfolded⟩ := @mpiGroupExclFirstPass_eq group newgroup count nonneg ranks w small
  by_cases enough : count.toInt.toNat ≤ ranks.length
  swap
  · rw [unfolded, if_neg enough]
    exact ⟨⟨fun ⟨_, _, ran⟩ => (nomatch ran), fun conditions => absurd conditions.1 enough⟩,
      fun _ _ ran => (nomatch ran)⟩
  have counted : excluded.length = count.toInt.toNat := by
    simp only [excluded, List.length_map, List.length_take]; omega
  have sized := length_resized (w.globalRanksOf newgroup) (parent.length - count.toInt.toNat)
  obtain ⟨stops, runs⟩ := exclSweep_run apart touched
    (resized (w.globalRanksOf newgroup) (parent.length - count.toInt.toNat))
    (List.range parent.length) (excludedSet excluded) []
    (fun i mem => by rw [same]; exact List.mem_range.mp mem) (Nat.zero_le _)
  simp only [List.length_nil, List.nil_append, List.drop_zero, Nat.zero_add, same group] at stops runs
  rw [unfolded, if_pos enough, ← List.length_eq_zero]
  by_cases short : (parent.length : Int) < count.toInt
  · rw [if_pos short]
    exact ⟨⟨fun ⟨_, _, ran⟩ => (nomatch ran), fun ⟨_, distinct, within, last⟩ =>
      absurd (exclCopies_range_of_conditions distinct within last).2 (by omega)⟩,
      fun _ _ ran => (nomatch ran)⟩
  rw [if_neg short]
  -- A sweep that returns met the conditions, and wrote the kept members.
  have whole : ∀ result w', (exclSweep group newgroup (List.range parent.length)
      (excludedSet excluded) 0 >>= fun _ => pure Otf2WriterResult.success)
        (touched.setGlobalRanks newgroup
          (resized (w.globalRanksOf newgroup) (parent.length - count.toInt.toNat))) = .ok result w' →
      (excluded.Nodup ∧ (∀ index ∈ excluded, 0 ≤ index ∧ index < parent.length) ∧
        (parent.length = 0 ∨ (parent.length - 1 : Int) ∈ excluded)) ∧
      w' = touched.setGlobalRanks newgroup
        (((List.range parent.length).filter fun (j : Nat) => (j : Int) ∉ excluded).map
          (parent.getD · 0)) := by
    intro result w' ran
    obtain ⟨⟨⟩, w₁, swept, done⟩ := run_bind_ok ran
    cases done
    obtain ⟨copies, decided, fits⟩ := stops _ swept
    have conditions := conditions_of_exclCopies_range decided (by omega)
    obtain ⟨exact, length⟩ :=
      exclCopies_range_of_conditions conditions.1 conditions.2.1 conditions.2.2
    rw [runs _ exact (by omega), List.drop_eq_nil_of_le (by omega), List.append_nil] at swept
    exact ⟨conditions, (EStateM.Result.ok.inj swept).2.symm⟩
  refine ⟨⟨fun ⟨result, w', ran⟩ => ⟨enough, (whole result w' ran).1⟩,
    fun ⟨_, distinct, within, last⟩ => ?_⟩, fun result w' ran => ?_⟩
  · obtain ⟨exact, length⟩ := exclCopies_range_of_conditions distinct within last
    exact ⟨_, _, by rw [run_bind, runs _ exact (by omega)]; rfl⟩
  · obtain ⟨-, rfl⟩ := whole result w' ran
    refine ⟨OTF2Writer.globalRanksOf_setGlobalRanks_same _ _ _, fun g other => ?_⟩
    rw [touched.globalRanksOf_setGlobalRanks_other other, same]

/-- The parent `[10, 11, 12, 13]` without its indices `[3, 1]`, the last index among them: the
exclusion returns, and the new group is `[10, 12]`. -/
theorem group_excl_on_last_index :
    let w : OTF2Writer := { OTF2Writer.new ⟨0, 1, 1, 2, 0, -1⟩ ⟨4, 0⟩ 0 with
      groups := Function.update (fun _ => none) 3 (some { globalRanks := [10, 11, 12, 13] }) }
    (3 : Int) ≠ 4 ∧ 0 ≤ (2 : CInt).toInt ∧ (w.globalRanksOf 3).length < 2 ^ 31 ∧
      ∃ result w', mpiGroupExclFirstPass 3 2 [3, 1] 4 w = .ok result w' ∧
        w'.globalRanksOf 4 = [10, 12] := by
  intro w
  have parent : w.globalRanksOf 3 = [10, 11, 12, 13] := rfl
  obtain ⟨returns, result⟩ :=
    @group_excl_returns_iff_last_excluded 3 4 (by decide) 2 (by decide) [3, 1] w (by rw [parent]; decide)
  have excluded : ((List.take (BitVec.toInt (2 : CInt)).toNat [(3 : CInt), 1]).map BitVec.toInt) =
      [3, 1] := rfl
  rw [parent, excluded] at returns result
  obtain ⟨value, w', ran⟩ := returns.mpr ⟨by decide, by decide, by decide, by decide⟩
  exact ⟨by decide, by decide, by rw [parent]; decide, value, w', ran, (result value w' ran).1⟩

end Otf2Dump
