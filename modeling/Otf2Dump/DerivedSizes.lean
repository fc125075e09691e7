import Mathlib.Algebra.BigOperators.Group.List
import Mathlib.Algebra.Ring.Int.Defs
import Mathlib.Data.List.GetD
import Mathlib.Data.List.Infix
import Otf2Dump.Writer.Run

/-!
# Sizes of derived types

After the contiguous, vector, indexed and struct constructors `type_sizes_[newtype]` is the size
MPI gives the new type whenever that size is an `int`.
-/

set_option autoImplicit false

namespace Otf2Dump

/-- The known type sizes, as integers. -/
def OTF2Writer.sizes (w : OTF2Writer) (type : MpiTypeT) : Option Int :=
  (w.typeSizes type).map BitVec.toInt

/-- A derived datatype, with the arguments its MPI size depends on. -/
inductive DerivedType where
  /-- `MPI_Type_contiguous`: `count` copies of `oldtype`. -/
  | contiguous (count : Int) (oldtype : MpiTypeT)
  /-- `MPI_Type_vector`, `MPI_Type_hvector`: `count` blocks of `blocklength` copies. -/
  | vector (count blocklength : Int) (oldtype : MpiTypeT)
  /-- `MPI_Type_indexed`, `MPI_Type_hindexed`: one block of copies per length. -/
  | indexed (blocklengths : List Int) (oldtype : MpiTypeT)
  /-- `MPI_Type_struct`: one block per length, each of its own type. -/
  | struct (blocks : List (Int × MpiTypeT))
  deriving Repr, DecidableEq

/-- The MPI size of a derived type from the sizes of the types it is built of: the
displacements and strides move the blocks, not the number of bytes. `none` when one of
those sizes is unknown. -/
def DerivedType.size (sizes : MpiTypeT → Option Int) : DerivedType → Option Int
  | .contiguous count oldtype => (sizes oldtype).map (count * ·)
  | .vector count blocklength oldtype => (sizes oldtype).map (count * blocklength * ·)
  | .indexed blocklengths oldtype => (sizes oldtype).map (blocklengths.sum * ·)
  | .struct blocks =>
    (blocks.mapM fun block => (sizes block.2).map (block.1 * ·)).map List.sum

/-- `value` is an `int`. -/
def InInt (value : Int) : Prop := -2 ^ 31 ≤ value ∧ value < 2 ^ 31

instance (value : Int) : Decidable (InInt value) := inferInstanceAs (Decidable (_ ∧ _))

/-- The running sums of `array_sum` are `int`s: for the indexed family, once its old type
is known, every prefix of the block lengths sums to an `int`. -/
def DerivedType.SumsFit (sizes : MpiTypeT → Option Int) : DerivedType → Prop
  | .indexed blocklengths oldtype =>
    (sizes oldtype).isSome → ∀ lengths ∈ blocklengths.inits, InInt lengths.sum
  | _ => True

instance (sizes : MpiTypeT → Option Int) (derived : DerivedType) :
    Decidable (derived.SumsFit sizes) := by
  cases derived <;> unfold DerivedType.SumsFit <;> infer_instance

/-- The size, and the sums on the way to it, are `int`s. -/
def DerivedType.Fits (sizes : MpiTypeT → Option Int) (derived : DerivedType) : Prop :=
  (∀ size ∈ derived.size sizes, InInt size) ∧ derived.SumsFit sizes

instance (sizes : MpiTypeT → Option Int) (derived : DerivedType) :
    Decidable (derived.Fits sizes) := inferInstanceAs (Decidable (_ ∧ _))

/-- The derived type a call of a constructor makes and the handle of the new type: the first
`count` entries of its arrays. `mpi_type_create_subarray` is left out. -/
def Call.derives : Call → Option (MpiTypeT × DerivedType)
  | .mpiTypeContiguous _ _ count oldtype newtype => some (newtype, .contiguous count.toInt oldtype)
  | .mpiTypeHvector _ _ count blocklength oldtype newtype
  | .mpiTypeVector _ _ count blocklength oldtype newtype
  | .mpiTypeCreateHvector _ _ count blocklength oldtype newtype =>
    some (newtype, .vector count.toInt blocklength.toInt oldtype)
  | .mpiTypeIndexed _ _ count lengths oldtype newtype
  | .mpiTypeHindexed _ _ count lengths oldtype newtype
  | .mpiTypeCreateHindexed _ _ count lengths oldtype newtype =>
    some (newtype, .indexed ((lengths.map BitVec.toInt).take count.toInt.toNat) oldtype)
  | .mpiTypeStruct _ _ count blocklengths oldtypes newtype
  | .mpiTypeCreateStruct _ _ count blocklengths oldtypes newtype =>
    some (newtype, .struct ((List.range count.toInt.toNat).map fun i =>
      ((blocklengths.getD i 0).toInt, oldtypes.getD i 0)))
  | _ => none

/-- The arrays a constructor reads hold `count` entries. -/
def Call.ArraysHold : Call → Prop
  | .mpiTypeIndexed _ _ count lengths _ _
  | .mpiTypeHindexed _ _ count lengths _ _
  | .mpiTypeCreateHindexed _ _ count lengths _ _ => count.toInt.toNat ≤ lengths.length
  | .mpiTypeStruct _ _ count blocklengths oldtypes _
  | .mpiTypeCreateStruct _ _ count blocklengths oldtypes _ =>
    count.toInt.toNat ≤ blocklengths.length ∧ count.toInt.toNat ≤ oldtypes.length
  | _ => True

instance : DecidablePred Call.ArraysHold := fun call => by
  cases call <;> unfold Call.ArraysHold <;> infer_instance

/-!
## The arithmetic of `count_bytes`

Sign extension to `uint64_t` and truncation back to `int` keep the low 32 bits, so the
sizes the constructors store are computed modulo `2^32`.
-/

theorem OTF2Writer.sizes_of_some {w : OTF2Writer} {type : MpiTypeT} {size : CInt}
    (known : w.typeSizes type = some size) : w.sizes type = some size.toInt := by
  rw [OTF2Writer.sizes, known, Option.map_some']

theorem ofInt_toInt_cint (x : CInt) : BitVec.ofInt 32 x.toInt = x := by
  apply BitVec.eq_of_toInt_eq
  rw [BitVec.toInt_ofInt, Int.bmod_def, BitVec.toInt_eq_toNat_cond]
  have := x.isLt
  split <;> split <;> omega

@[simp] theorem toCInt_toU64 (x : CInt) : x.toU64.toCInt = x := by
  ext i
  simp [U64.toCInt, CInt.toU64, BitVec.getLsbD_signExtend]
  omega

@[simp] theorem toCInt_mul (x y : U64) : (x * y).toCInt = x.toCInt * y.toCInt := by
  apply BitVec.eq_of_toNat_eq
  simp only [U64.toCInt, BitVec.truncate_eq_setWidth, BitVec.toNat_setWidth, BitVec.toNat_mul]
  rw [Nat.mod_mod_of_dvd _ (by decide), Nat.mul_mod]

@[simp] theorem toCInt_add (x y : U64) : (x + y).toCInt = x.toCInt + y.toCInt :=
  BitVec.setWidth_add x y (by decide)

theorem toInt_ofInt_of_inInt {value : Int} (fits : InInt value) :
    (BitVec.ofInt 32 value).toInt = value := by
  rw [BitVec.toInt_ofInt, Int.bmod_def]
  obtain ⟨low, high⟩ := fits
  split <;> omega

theorem countBytes_toCInt {w : OTF2Writer} {type : MpiTypeT} {size : CInt}
    (known : w.typeSizes type = some size) (count : CInt) :
    (w.countBytes type count.toU64).toCInt = BitVec.ofInt 32 (count.toInt * size.toInt) := by
  rw [OTF2Writer.countBytes_of_some known, toCInt_mul, toCInt_toU64, toCInt_toU64,
    BitVec.ofInt_mul, ofInt_toInt_cint, ofInt_toInt_cint, BitVec.mul_comm]

/-!
## The writer after a constructor
-/

/-- The type sizes after storing `size` as the size of `newtype`, if there is one. -/
def storeSize (typeSizes : MpiTypeT → Option CInt) (newtype : MpiTypeT) :
    Option Int → MpiTypeT → Option CInt
  | none => typeSizes
  | some size => Function.update typeSizes newtype (some (BitVec.ofInt 32 size))

theorem sizes_storeSize {w w' : OTF2Writer} {newtype : MpiTypeT} {size : Option Int}
    (stored : w'.typeSizes = storeSize w.typeSizes newtype size)
    (fits : ∀ value ∈ size, InInt value) :
    w'.sizes = size.elim w.sizes fun size => Function.update w.sizes newtype (some size) := by
  funext type
  cases size with
  | none => simp only [OTF2Writer.sizes, stored, storeSize, Option.elim]
  | some value =>
    by_cases same : type = newtype
    · subst same
      simp [OTF2Writer.sizes, stored, storeSize, toInt_ofInt_of_inInt (fits value rfl)]
    · simp [OTF2Writer.sizes, stored, storeSize, same]

theorem discard_of_ok {α : Type} {method : WriterM α} {w : OTF2Writer}
    {holds : OTF2Writer → Prop} (ran : ∃ value w', method w = .ok value w' ∧ holds w') :
    ∃ w', discard method w = .ok () w' ∧ holds w' := by
  obtain ⟨value, w', ran, held⟩ := ran
  exact ⟨w', by simp only [discard, Functor.mapConst, Function.comp_apply, EStateM.map, ran], held⟩

theorem OTF2Writer.sizes_congr {w w' : OTF2Writer} (same : w'.typeSizes = w.typeSizes) :
    w'.sizes = w.sizes := by
  funext type
  rw [OTF2Writer.sizes, OTF2Writer.sizes, same]

theorem enter_typeSizes (start stop : Otf2TimeT) (name : String) (w : OTF2Writer) :
    ∃ thisRegion w1, enter start stop name w = .ok thisRegion w1 ∧ w1.typeSizes = w.typeSizes :=
  ⟨_, _, rfl, rfl⟩

theorem traced_typeSizes {name : String} {start stop : Otf2TimeT} {inner : WriterM Unit}
    {w : OTF2Writer} {typeSizes : MpiTypeT → Option CInt}
    (body : ∀ w1 : OTF2Writer, w1.typeSizes = w.typeSizes →
      ∃ w2, inner w1 = .ok () w2 ∧ w2.typeSizes = typeSizes) :
    ∃ w', (do let thisRegion ← enter start stop name; inner; leave stop thisRegion) w =
      .ok .success w' ∧ w'.typeSizes = typeSizes := by
  obtain ⟨thisRegion, w1, entered, same⟩ := enter_typeSizes start stop name w
  obtain ⟨w2, ran, stored⟩ := body w1 same
  rw [run_bind, entered]
  dsimp only
  rw [run_bind, ran]
  exact ⟨_, rfl, stored⟩

/-!
## The bodies of the constructors
-/

theorem mpiTVectorInner_run (count blocklength : CInt) (oldtype newtype : MpiTypeT)
    (w : OTF2Writer) :
    ∃ w', mpiTVectorInner count blocklength oldtype newtype w = .ok () w' ∧
      w'.typeSizes = storeSize w.typeSizes newtype
        ((w.sizes oldtype).map (count.toInt * blocklength.toInt * ·)) := by
  cases known : w.typeSizes oldtype with
  | none =>
    exact ⟨w, by simp [mpiTVectorInner, run_bind, OTF2Writer.typeIsKnown, known],
      by simp [OTF2Writer.sizes, known, storeSize]⟩
  | some size =>
    refine ⟨_, by simp [mpiTVectorInner, run_bind, OTF2Writer.typeIsKnown, known, setTypeSize]; rfl, ?_⟩
    simp only [OTF2Writer.sizes, known, storeSize, Option.map_some', BitVec.ofInt_mul, ofInt_toInt_cint]
    ac_rfl

theorem arraySum_loop (t : List CInt) (w : OTF2Writer) :
    ∀ n ≤ t.length, (∀ k ≤ n, InInt ((t.map BitVec.toInt).take k).sum) →
      (((List.range n).map fun i : Nat => (i : Int)).foldlM
        (fun sum i => do intAdd sum (← readAt t i)) 0 : WriterM CInt) w =
        .ok (BitVec.ofInt 32 ((t.map BitVec.toInt).take n).sum) w
  | 0, _, _ => rfl
  | n + 1, inside, sums => by
    have grown : ((t.map BitVec.toInt).take (n + 1)).sum =
        ((t.map BitVec.toInt).take n).sum + t[n].toInt := by
      rw [List.sum_take_succ _ _ (by simpa using inside), List.getElem_map]
    have fits : -2 ^ 31 ≤ ((t.map BitVec.toInt).take n).sum + t[n].toInt ∧
        ((t.map BitVec.toInt).take n).sum + t[n].toInt < 2 ^ 31 :=
      grown ▸ sums (n + 1) le_rfl
    rw [List.range_succ, List.map_append, List.foldlM_append, run_bind,
      arraySum_loop t w n (by omega) fun k below => sums k (by omega)]
    simp only [List.map_cons, List.map_nil, List.foldlM_cons, List.foldlM_nil, bind_pure, run_bind,
      readAt_of_lt t (show n < t.length by omega), run_pure, intAdd,
      toInt_ofInt_of_inInt (sums n (by omega)), if_pos fits]
    rw [grown, BitVec.ofInt_add, ofInt_toInt_cint]

theorem arraySum_run {t : List CInt} {n : CInt} (inside : n.toInt.toNat ≤ t.length)
    (sums : ∀ k ≤ n.toInt.toNat, InInt ((t.map BitVec.toInt).take k).sum) (w : OTF2Writer) :
    arraySum t n w = .ok (BitVec.ofInt 32 ((t.map BitVec.toInt).take n.toInt.toNat).sum) w := by
  have listed : (do let i ← List.range n.toInt.toNat; pure (i : Int) : List Int) =
      (List.range n.toInt.toNat).map fun i : Nat => (i : Int) :=
    (List.map_eq_flatMap _ _).symm
  unfold arraySum
  rw [listed]
  exact arraySum_loop t w _ inside sums

theorem mpiTIndexedInner_run {count : CInt} {lengths : List CInt} (oldtype newtype : MpiTypeT)
    (w : OTF2Writer) (inside : count.toInt.toNat ≤ lengths.length)
    (sums : (w.sizes oldtype).isSome →
      ∀ k ≤ count.toInt.toNat, InInt ((lengths.map BitVec.toInt).take k).sum) :
    ∃ w', mpiTIndexedInner count lengths oldtype newtype w = .ok () w' ∧
      w'.typeSizes = storeSize w.typeSizes newtype ((w.sizes oldtype).map
        (((lengths.map BitVec.toInt).take count.toInt.toNat).sum * ·)) := by
  cases known : w.typeSizes oldtype with
  | none =>
    exact ⟨w, by simp [mpiTIndexedInner, run_bind, OTF2Writer.typeIsKnown, known],
      by simp [OTF2Writer.sizes, known, storeSize]⟩
  | some size =>
    have summed := arraySum_run inside (sums (by simp [OTF2Writer.sizes, known])) w
    refine ⟨_, by simp [mpiTIndexedInner, run_bind, OTF2Writer.typeIsKnown, known, summed,
      setTypeSize]; rfl, ?_⟩
    simp only [OTF2Writer.sizes, known, storeSize, Option.map_some', BitVec.ofInt_mul,
      ofInt_toInt_cint, BitVec.mul_comm]

/-- The loop of `mpi_t_struct_inner` sums, modulo `2^32`, the sizes of the blocks at
`indices`, and gives `none` at the first block of unknown type. -/
theorem mpiTStructLoop_run (blocklengths : List CInt) (oldtypes : List MpiTypeT)
    (w : OTF2Writer) :
    ∀ (indices : List Nat) (sum : CInt),
      (∀ i ∈ indices, i < blocklengths.length ∧ i < oldtypes.length) →
      mpiTStructLoop blocklengths oldtypes indices sum w =
        .ok (((indices.map fun i => ((blocklengths.getD i 0).toInt, oldtypes.getD i 0)).mapM
          fun block => (w.sizes block.2).map (block.1 * ·)).map
            fun terms => sum + BitVec.ofInt 32 terms.sum) w
  | [], sum, _ => by
    simp only [mpiTStructLoop, List.map_nil, List.mapM_nil, run_pure]
    simp
  | i :: rest, sum, inside => by
    obtain ⟨short, few⟩ := inside i (.head _)
    simp only [mpiTStructLoop, run_bind, readAt_of_lt _ few, readAt_of_lt _ short, run_pure,
      run_get, List.map_cons, List.mapM_cons, List.getD_eq_getElem _ _ short,
      List.getD_eq_getElem _ _ few, OTF2Writer.typeIsKnown]
    cases known : w.typeSizes oldtypes[i] with
    | none => simp only [OTF2Writer.sizes, known]; rfl
    | some size =>
      simp only [Option.isSome_some, Bool.not_true, Bool.false_eq_true, if_false, run_bind,
        run_pure, run_get, OTF2Writer.sizes_of_some known, Option.map_some',
        mpiTStructLoop_run blocklengths oldtypes w rest _ fun j mem => inside j (.tail _ mem)]
      generalize (rest.map fun i => ((blocklengths.getD i 0).toInt, oldtypes.getD i 0)).mapM
        (fun block => (w.sizes block.2).map (block.1 * ·)) = later
      cases later with
      | none => rfl
      | some terms =>
        simp [countBytes_toCInt known, BitVec.ofInt_add, BitVec.add_assoc]

theorem mpiTStructInner_run {count : CInt} {blocklengths : List CInt} {oldtypes : List MpiTypeT}
    (newtype : MpiTypeT) (w : OTF2Writer)
    (inside : count.toInt.toNat ≤ blocklengths.length ∧ count.toInt.toNat ≤ oldtypes.length) :
    ∃ w', mpiTStructInner count blocklengths oldtypes newtype w = .ok () w' ∧
      w'.typeSizes = storeSize w.typeSizes newtype
        ((DerivedType.struct ((List.range count.toInt.toNat).map fun i =>
          ((blocklengths.getD i 0).toInt, oldtypes.getD i 0))).size w.sizes) := by
  have looped := mpiTStructLoop_run blocklengths oldtypes w (List.range count.toInt.toNat) 0
    fun i mem => ⟨by have := List.mem_range.mp mem; omega, by have := List.mem_range.mp mem; omega⟩
  unfold mpiTStructInner
  rw [run_bind, looped, DerivedType.size]
  generalize ((List.range count.toInt.toNat).map fun i =>
    ((blocklengths.getD i 0).toInt, oldtypes.getD i 0)).mapM
      (fun block => (w.sizes block.2).map (block.1 * ·)) = later
  cases later with
  | none => exact ⟨w, rfl, rfl⟩
  | some terms => exact ⟨_, rfl, by simp [setTypeSize, storeSize]⟩

/-!
## The constructors
-/

theorem mpiTypeContiguous_stores (start stop : Otf2TimeT) (count : CInt)
    (oldtype newtype : MpiTypeT) (w : OTF2Writer) :
    ∃ result w', mpiTypeContiguous start stop count oldtype newtype w = .ok result w' ∧
      w'.typeSizes = storeSize w.typeSizes newtype ((w.sizes oldtype).map (count.toInt * ·)) := by
  obtain ⟨thisRegion, w1, entered, same⟩ := enter_typeSizes start stop "MPI_Type_contiguous" w
  unfold mpiTypeContiguous
  rw [run_bind, entered]
  cases known : w.typeSizes oldtype with
  | none =>
    refine ⟨.errorUknownMpiType, w1, by simp [run_bind, OTF2Writer.typeIsKnown, same, known], ?_⟩
    simp [same, storeSize, OTF2Writer.sizes, known]
  | some size =>
    refine ⟨_, _, by simp [run_bind, OTF2Writer.typeIsKnown, same, known, setTypeSize]; rfl, ?_⟩
    simp only [same, storeSize, OTF2Writer.sizes_of_some known, Option.map_some',
      BitVec.ofInt_mul, ofInt_toInt_cint, BitVec.mul_comm]

theorem vectorCall_stores (name : String) (start stop : Otf2TimeT) (count blocklength : CInt)
    (oldtype newtype : MpiTypeT) (w : OTF2Writer) :
    ∃ w', vectorCall name start stop count blocklength oldtype newtype w = .ok .success w' ∧
      w'.typeSizes = storeSize w.typeSizes newtype
        ((w.sizes oldtype).map (count.toInt * blocklength.toInt * ·)) :=
  traced_typeSizes fun w1 same => by
    obtain ⟨w2, ran, stored⟩ := mpiTVectorInner_run count blocklength oldtype newtype w1
    exact ⟨w2, ran, by rw [stored, same, OTF2Writer.sizes_congr same]⟩

theorem indexedCall_stores (name : String) (start stop : Otf2TimeT) {count : CInt}
    {lengths : List CInt} (oldtype newtype : MpiTypeT) (w : OTF2Writer)
    (inside : count.toInt.toNat ≤ lengths.length)
    (sums : (w.sizes oldtype).isSome →
      ∀ k ≤ count.toInt.toNat, InInt ((lengths.map BitVec.toInt).take k).sum) :
    ∃ w', indexedCall name start stop count lengths oldtype newtype w = .ok .success w' ∧
      w'.typeSizes = storeSize w.typeSizes newtype ((w.sizes oldtype).map
        (((lengths.map BitVec.toInt).take count.toInt.toNat).sum * ·)) :=
  traced_typeSizes fun w1 same => by
    obtain ⟨w2, ran, stored⟩ := mpiTIndexedInner_run oldtype newtype w1 inside
      (OTF2Writer.sizes_congr same ▸ sums)
    exact ⟨w2, ran, by rw [stored, same, OTF2Writer.sizes_congr same]⟩

theorem structCall_stores (name : String) (start stop : Otf2TimeT) {count : CInt}
    {blocklengths : List CInt} {oldtypes : List MpiTypeT} (newtype : MpiTypeT) (w : OTF2Writer)
    (inside : count.toInt.toNat ≤ blocklengths.length ∧ count.toInt.toNat ≤ oldtypes.length) :
    ∃ w', structCall name start stop count blocklengths oldtypes newtype w = .ok .success w' ∧
      w'.typeSizes = storeSize w.typeSizes newtype
        ((DerivedType.struct ((List.range count.toInt.toNat).map fun i =>
          ((blocklengths.getD i 0).toInt, oldtypes.getD i 0))).size w.sizes) :=
  traced_typeSizes fun w1 same => by
    obtain ⟨w2, ran, stored⟩ := mpiTStructInner_run newtype w1 inside
    exact ⟨w2, ran, by rw [stored, same, OTF2Writer.sizes_congr same]⟩

theorem sums_of_inits {lengths : List Int} {n : Nat}
    (sums : ∀ part ∈ (lengths.take n).inits, InInt part.sum) :
    ∀ k ≤ n, InInt (lengths.take k).sum := by
  intro k below
  have fits := sums _ ((List.mem_inits _ _).mpr (List.take_prefix k _))
  rwa [List.take_take, min_eq_left below] at fits

/-- Every constructor of a derived type but `mpi_type_create_subarray` stores the MPI size
of the new type modulo `2^32`, once its arrays hold `count` entries and `array_sum` does not
overflow. -/
theorem callMethod_stores {call : Call} {newtype : MpiTypeT} {derived : DerivedType}
    (defines : call.derives = some (newtype, derived)) (holds : call.ArraysHold)
    {w : OTF2Writer} (sums : derived.SumsFit w.sizes) :
    ∃ w', callMethod call w = .ok () w' ∧
      w'.typeSizes = storeSize w.typeSizes newtype (derived.size w.sizes) := by
  cases call <;> cases defines
  case mpiTypeContiguous => exact discard_of_ok (mpiTypeContiguous_stores _ _ _ _ _ w)
  case mpiTypeHvector | mpiTypeVector | mpiTypeCreateHvector =>
    exact discard_of_ok ⟨_, vectorCall_stores _ _ _ _ _ _ _ w⟩
  case mpiTypeIndexed | mpiTypeHindexed | mpiTypeCreateHindexed =>
    exact discard_of_ok ⟨_, indexedCall_stores _ _ _ _ _ w holds
      fun known => sums_of_inits (sums known)⟩
  case mpiTypeStruct | mpiTypeCreateStruct =>
    exact discard_of_ok ⟨_, structCall_stores _ _ _ _ w holds⟩

theorem derived_type_sizes_match_mpi {call : Call} {newtype : MpiTypeT} {derived : DerivedType}
    {w : OTF2Writer} (defines : call.derives = some (newtype, derived)) (holds : call.ArraysHold)
    (fits : derived.Fits w.sizes) :
    ∃ w', callMethod call w = .ok () w' ∧
      w'.sizes = (derived.size w.sizes).elim w.sizes fun size =>
        Function.update w.sizes newtype (some size) := by
  obtain ⟨w', ran, stored⟩ := callMethod_stores defines holds fits.2
  exact ⟨w', ran, sizes_storeSize stored fits.1⟩

/-- `MPI_Type_struct` of two and three copies of a registered 4-byte type is 20 bytes. -/
theorem derived_sizes_of_struct_call :
    let start := OTF2Writer.new ⟨0, 1, 1, 2, 0, -1⟩ ⟨1, 0⟩ 0
    let w := (run start [.registerType 7 4]).getD start
    let call := Call.mpiTypeStruct 1 2 2 [2, 3] [7, 7] 8
    let derived := DerivedType.struct [(2, 7), (3, 7)]
    call.derives = some (8, derived) ∧ call.ArraysHold ∧ derived.Fits w.sizes ∧
      derived.size w.sizes = some 20 ∧
      ∃ w', callMethod call w = .ok () w' ∧
        w'.sizes = (derived.size w.sizes).elim w.sizes fun size =>
          Function.update w.sizes 8 (some size) := by
  intro start w call derived
  have defines : call.derives = some (8, derived) := rfl
  have holds : call.ArraysHold := by decide
  have fits : derived.Fits w.sizes := by decide
  exact ⟨defines, holds, fits, by decide, derived_type_sizes_match_mpi defines holds fits⟩

end Otf2Dump
