import Otf2Dump.Writer.Basic

/-!
# Type sizes

`register_type`, `count_bytes` and the derived-type constructors; `type_sizes_` holds C `int`s,
so a stored `uint64_t` keeps its low 32 bits.
-/

set_option autoImplicit false

namespace Otf2Dump

def OTF2Writer.typeIsKnown (w : OTF2Writer) (type : MpiTypeT) : Bool := (w.typeSizes type).isSome

/-- `count_bytes`: an unknown type is assumed to be 4 bytes. -/
def OTF2Writer.countBytes (w : OTF2Writer) (type : MpiTypeT) (count : U64) : U64 :=
  match w.typeSizes type with
  | none => 4 * count
  | some size => size.toU64 * count

def setTypeSize (type : MpiTypeT) (size : CInt) : WriterM Unit :=
  modify fun w => { w with typeSizes := Function.update w.typeSizes type (some size) }

/-- `type_sizes_[type]` read as an rvalue: `operator[]` inserts 0 for an absent type. -/
def typeSizeAt (type : MpiTypeT) : WriterM CInt :=
  modifyGet fun w =>
    match w.typeSizes type with
    | some size => (size, w)
    | none => (0, { w with typeSizes := Function.update w.typeSizes type (some 0) })

def registerType (type : MpiTypeT) (size : CInt) : WriterM Unit := setTypeSize type size

/-- `array_sum(t, n)`, an `int` sum. -/
def arraySum (t : List CInt) (n : CInt) : WriterM CInt :=
  (List.range n.toInt.toNat).foldlM (fun sum i => do intAdd sum (← readAt t i)) 0

@[simp] theorem OTF2Writer.countBytes_of_none {w : OTF2Writer} {type : MpiTypeT}
    (unknown : w.typeSizes type = none) (count : U64) : w.countBytes type count = 4 * count := by
  simp [OTF2Writer.countBytes, unknown]

@[simp] theorem OTF2Writer.countBytes_of_some {w : OTF2Writer} {type : MpiTypeT} {size : CInt}
    (known : w.typeSizes type = some size) (count : U64) :
    w.countBytes type count = size.toU64 * count := by
  simp [OTF2Writer.countBytes, known]

/-!
## Derived types
-/

def mpiTVectorInner (count blocklength : CInt) (oldtype newtype : MpiTypeT) : WriterM Unit := do
  if !(← get).typeIsKnown oldtype then return
  let size := (← get).countBytes oldtype blocklength.toU64 * count.toU64
  setTypeSize newtype size.toCInt

def mpiTIndexedInner (count : CInt) (lengths : List CInt) (oldtype newtype : MpiTypeT) :
    WriterM Unit := do
  if !(← get).typeIsKnown oldtype then return
  let total ← arraySum lengths count
  setTypeSize newtype ((← get).countBytes oldtype total.toU64).toCInt

/-- The loop of `mpi_t_struct_inner` over the indices left: `none` where it returns at an
unknown type, else the `int` sum (`sum += count_bytes(...)` keeps the low 32 bits). -/
def mpiTStructLoop (blocklengths : List CInt) (oldtypes : List MpiTypeT) :
    List Nat → CInt → WriterM (Option CInt)
  | [], sum => pure (some sum)
  | i :: rest, sum => do
    let oldtype ← readAt oldtypes i
    if !(← get).typeIsKnown oldtype then return none
    let blocklength ← readAt blocklengths i
    let bytes := (← get).countBytes oldtype blocklength.toU64
    mpiTStructLoop blocklengths oldtypes rest (sum.toU64 + bytes).toCInt

def mpiTStructInner (count : CInt) (blocklengths : List CInt) (oldtypes : List MpiTypeT)
    (newtype : MpiTypeT) : WriterM Unit := do
  match ← mpiTStructLoop blocklengths oldtypes (List.range count.toInt.toNat) 0 with
  | none => pure ()
  | some sum => setTypeSize newtype sum

/-- `mpi_type_contiguous`: on an unknown type it returns before `_LEAVE`. -/
def mpiTypeContiguous (start stop : Otf2TimeT) (count : CInt) (oldtype newtype : MpiTypeT) :
    WriterM Otf2WriterResult := do
  let thisRegion ← enter start stop "MPI_Type_contiguous"
  if !(← get).typeIsKnown oldtype then return .errorUknownMpiType
  setTypeSize newtype ((← get).countBytes oldtype count.toU64).toCInt
  leave stop thisRegion

/-- The vector family: `_ENTER(name)`, `mpi_t_vector_inner`, `_LEAVE()`. -/
def vectorCall (name : String) (start stop : Otf2TimeT) (count blocklength : CInt)
    (oldtype newtype : MpiTypeT) : WriterM Otf2WriterResult := do
  let thisRegion ← enter start stop name
  mpiTVectorInner count blocklength oldtype newtype
  leave stop thisRegion

def mpiTypeHvector (start stop : Otf2TimeT) (count blocklength : CInt)
    (oldtype newtype : MpiTypeT) : WriterM Otf2WriterResult :=
  vectorCall "MPI_Type_hvector" start stop count blocklength oldtype newtype

def mpiTypeVector (start stop : Otf2TimeT) (count blocklength : CInt)
    (oldtype newtype : MpiTypeT) : WriterM Otf2WriterResult :=
  vectorCall "MPI_Type_vector" start stop count blocklength oldtype newtype

def mpiTypeCreateHvector (start stop : Otf2TimeT) (count blocklength : CInt)
    (oldtype newtype : MpiTypeT) : WriterM Otf2WriterResult :=
  vectorCall "MPI_Type_create_hvector" start stop count blocklength oldtype newtype

/-- The indexed family: `_ENTER(name)`, `mpi_t_indexed_inner`, `_LEAVE()`. -/
def indexedCall (name : String) (start stop : Otf2TimeT) (count : CInt) (lengths : List CInt)
    (oldtype newtype : MpiTypeT) : WriterM Otf2WriterResult := do
  let thisRegion ← enter start stop name
  mpiTIndexedInner count lengths oldtype newtype
  leave stop thisRegion

def mpiTypeIndexed (start stop : Otf2TimeT) (count : CInt) (lengths : List CInt)
    (oldtype newtype : MpiTypeT) : WriterM Otf2WriterResult :=
  indexedCall "MPI_Type_indexed" start stop count lengths oldtype newtype

def mpiTypeHindexed (start stop : Otf2TimeT) (count : CInt) (lengths : List CInt)
    (oldtype newtype : MpiTypeT) : WriterM Otf2WriterResult :=
  indexedCall "MPI_Type_hindexed" start stop count lengths oldtype newtype

/-- `mpi_type_create_hindexed`, which enters the region of `MPI_Type_hindexed`. -/
def mpiTypeCreateHindexed (start stop : Otf2TimeT) (count : CInt) (lengths : List CInt)
    (oldtype newtype : MpiTypeT) : WriterM Otf2WriterResult :=
  indexedCall "MPI_Type_hindexed" start stop count lengths oldtype newtype

/-- The struct family: `_ENTER(name)`, `mpi_t_struct_inner`, `_LEAVE()`. -/
def structCall (name : String) (start stop : Otf2TimeT) (count : CInt)
    (blocklengths : List CInt) (oldtypes : List MpiTypeT) (newtype : MpiTypeT) :
    WriterM Otf2WriterResult := do
  let thisRegion ← enter start stop name
  mpiTStructInner count blocklengths oldtypes newtype
  leave stop thisRegion

def mpiTypeStruct (start stop : Otf2TimeT) (count : CInt) (blocklengths : List CInt)
    (oldtypes : List MpiTypeT) (newtype : MpiTypeT) : WriterM Otf2WriterResult :=
  structCall "MPI_Type_struct" start stop count blocklengths oldtypes newtype

def mpiTypeCreateStruct (start stop : Otf2TimeT) (count : CInt) (blocklengths : List CInt)
    (oldtypes : List MpiTypeT) (newtype : MpiTypeT) : WriterM Otf2WriterResult :=
  structCall "MPI_Type_create_struct" start stop count blocklengths oldtypes newtype

/-- `mpi_type_create_subarray`: on an unknown type it returns before `_LEAVE`. -/
def mpiTypeCreateSubarray (start stop : Otf2TimeT) (ndims : CInt) (subsizes : List CInt)
    (oldtype newtype : MpiTypeT) : WriterM Otf2WriterResult := do
  let thisRegion ← enter start stop "MPI_Type_create_subarray"
  if !(← get).typeIsKnown oldtype then return .errorUknownMpiType
  let total ← arraySum subsizes ndims
  setTypeSize newtype ((← get).countBytes oldtype total.toU64).toCInt
  leave stop thisRegion

/-- `mpi_type_create_subarray` sizes the new type by `array_sum` of the subsizes: with a
4-byte old type and subsizes `[2, 3]` it stores 20 bytes, where the subarray holds
`2 · 3 · 4 = 24`. -/
theorem subarray_sums_subsizes :
    let start : OTF2Writer := OTF2Writer.new ⟨0, 1, 1, 2, 0, -1⟩ ⟨1, 0⟩ 0
    ∃ w w', registerType 7 4 start = .ok () w ∧
      mpiTypeCreateSubarray 1 2 2 [2, 3] 7 8 w = .ok .success w' ∧
      w'.typeSizes 8 = some 20 ∧ w'.countBytes 8 1 = 20 :=
  ⟨_, _, rfl, rfl, rfl, rfl⟩

/-- On an unknown old type `mpi_type_contiguous` and `mpi_type_create_subarray` return
after `_ENTER`: the `Enter` record is left without its `Leave`. -/
theorem unknown_oldtype_leaves_region_open :
    let start : OTF2Writer := OTF2Writer.new ⟨0, 1, 1, 2, 0, -1⟩ ⟨1, 0⟩ 0
    (∃ w, mpiTypeContiguous 1 2 1 7 8 start = .ok .errorUknownMpiType w ∧
      w.evtWriter = [.enter 1 0]) ∧
    ∃ w, mpiTypeCreateSubarray 1 2 1 [4] 7 8 start = .ok .errorUknownMpiType w ∧
      w.evtWriter = [.enter 1 0] :=
  ⟨⟨_, rfl, rfl⟩, _, rfl, rfl⟩

theorem ReadsOnly.arraySum (t : List CInt) (n : CInt) : ReadsOnly (arraySum t n) := by
  unfold Otf2Dump.arraySum
  generalize (0 : CInt) = init
  induction List.range n.toInt.toNat generalizing init with
  | nil => exact ReadsOnly.pure _
  | cons i rest ih =>
    exact ReadsOnly.bind ((ReadsOnly.readAt t i).bind fun _ => ReadsOnly.intAdd _ _) fun _ => ih _

theorem ReadsOnly.mpiTStructLoop (blocklengths : List CInt) (oldtypes : List MpiTypeT)
    (indices : List Nat) (sum : CInt) :
    ReadsOnly (mpiTStructLoop blocklengths oldtypes indices sum) := by
  induction indices generalizing sum with
  | nil => exact ReadsOnly.pure _
  | cons i rest ih =>
    dsimp only [Otf2Dump.mpiTStructLoop]
    repeat
      first
      | apply ih
      | apply ReadsOnly.readAt
      | apply ReadsOnly.get
      | apply ReadsOnly.pure
      | apply ReadsOnly.ite
      | apply ReadsOnly.bind
      | intro _

theorem Guarantees.mpiTStructInner {relation : OTF2Writer → OTF2Writer → Prop}
    (reflexive : ∀ w, relation w w)
    (transitive : ∀ u v w, relation u v → relation v w → relation u w)
    (sets : ∀ type size, Guarantees relation (setTypeSize type size))
    (count : CInt) (blocklengths : List CInt) (oldtypes : List MpiTypeT) (newtype : MpiTypeT) :
    Guarantees relation (mpiTStructInner count blocklengths oldtypes newtype) :=
  Guarantees.bind transitive
    (Guarantees.of_readsOnly reflexive (ReadsOnly.mpiTStructLoop _ _ _ _)) fun
    | none => Guarantees.pure reflexive _
    | some _ => sets _ _

end Otf2Dump
