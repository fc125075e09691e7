import Otf2Dump.Tracker.Runs
import Otf2Dump.Tracker.Waitall

/-!
# The completion loops of `mpi_testall`, `mpi_waitsome` and `mpi_testsome`

In a writer whose tracker is valid these loops return exactly when their reads lie within their
arrays and the non-null requests they read are distinct and tracked, and abort where the reads lie
within the arrays but the requests are not such.
-/

set_option autoImplicit false

namespace Otf2Dump

/-- What `complete_call` needs of the tracker: the null request is never tracked, and each
tracked `Irecv` has its capture. A valid tracker is such. -/
structure OTF2Writer.Completable (w : OTF2Writer) : Prop where
  nullUntracked : w.requestType w.nullRequest = none
  irecvCaptured : ∀ request, w.requestType request = some .irecv →
    (w.irecvRequests request).isSome

/-- The requests `ids` can be completed one after the other from `w`: the non-null ones are
distinct, and each is tracked in `request_type`. -/
def OTF2Writer.CanComplete (w : OTF2Writer) (ids : List RequestT) : Prop :=
  (ids.filter fun request => request ≠ w.nullRequest).Nodup ∧
    ∀ request ∈ ids, request ≠ w.nullRequest → (w.requestType request).isSome

/-- The element `readAt array index` reads, where it reads one. -/
def lookupAt {α : Type} (array : List α) (index : Int) : Option α :=
  if 0 ≤ index then array[index.toNat]? else none

@[simp] theorem lookupAt_natCast {α : Type} (array : List α) (index : Nat) :
    lookupAt array index = array[index]? := by
  rw [lookupAt, if_pos (by omega), Int.toNat_ofNat]

theorem lookupAt_isSome {α : Type} (array : List α) (index : Int) :
    (lookupAt array index).isSome ↔ 0 ≤ index ∧ index < array.length := by
  unfold lookupAt
  by_cases nonneg : 0 ≤ index
  · rw [if_pos nonneg]
    by_cases inside : index.toNat < array.length
    · simp [List.getElem?_eq_getElem inside]
      omega
    · simp [List.getElem?_eq_none (Nat.le_of_not_lt inside)]
      omega
  · simp [nonneg]

theorem readAt_run {α : Type} (array : List α) (index : Int) (w : OTF2Writer) :
    readAt array index w = match lookupAt array index with
      | some value => .ok value w
      | none => .error (.undefined "array index out of range") w := by
  unfold readAt lookupAt
  by_cases nonneg : 0 ≤ index
  · by_cases inside : index.toNat < array.length
    · simp [nonneg, inside]
    · simp [nonneg, inside, List.getElem?_eq_none (Nat.le_of_not_lt inside)]
      rfl
  · simp [nonneg]
    rfl

/-!
## One completion
-/

section Completion

variable (timestamp : Otf2TimeT) {w : OTF2Writer}

theorem OTF2Writer.Completable.congr {w' : OTF2Writer} (ready : w.Completable)
    (null : w'.nullRequest = w.nullRequest) (types : w'.requestType = w.requestType)
    (captures : w'.irecvRequests = w.irecvRequests) : w'.Completable := by
  exact ⟨by rw [null, types]; exact ready.nullUntracked,
    by rw [types, captures]; exact ready.irecvCaptured⟩

theorem OTF2Writer.canComplete_congr {w' : OTF2Writer} (null : w'.nullRequest = w.nullRequest)
    (types : w'.requestType = w.requestType) (ids : List RequestT) :
    w'.CanComplete ids ↔ w.CanComplete ids := by
  rw [OTF2Writer.CanComplete, OTF2Writer.CanComplete, null, types]

theorem completeCall_null (ready : w.Completable) :
    completeCall w.nullRequest timestamp w = .ok () w := by
  simp only [completeCall, run_bind, run_get, ready.nullUntracked, ne_eq, not_true_eq_false,
    if_false]
  rfl

theorem completeCall_untracked {request : RequestT} (live : request ≠ w.nullRequest)
    (untracked : w.requestType request = none) :
    ∃ message, completeCall request timestamp w = .error (.abort message) w := by
  simp only [completeCall, run_bind, run_get, untracked, if_pos live]
  exact ⟨_, rfl⟩

theorem completeCall_tracked (ready : w.Completable) {request : RequestT}
    (live : request ≠ w.nullRequest) (tracked : (w.requestType request).isSome) :
    ∃ w', completeCall request timestamp w = .ok () w' ∧ w'.Completable ∧
      w'.nullRequest = w.nullRequest ∧
      w'.requestType = Function.update w.requestType request none := by
  obtain ⟨kind, typed⟩ := Option.isSome_iff_exists.mp tracked
  obtain ⟨w', completed, -, null, untracked, kept⟩ := completeCall_pending timestamp
    ⟨kind, typed, fun irecv => ready.irecvCaptured request (irecv ▸ typed)⟩
  refine ⟨w', completed, ⟨?_, fun other typed' => ?_⟩, null, untracked⟩
  · rw [untracked, null, Function.update_noteq (Ne.symm live)]
    exact ready.nullUntracked
  · have other_ne : other ≠ request := by
      rintro rfl
      simp [untracked] at typed'
    rw [kept other other_ne]
    exact ready.irecvCaptured other (by rwa [untracked, Function.update_noteq other_ne] at typed')

theorem OTF2Writer.canComplete_null_cons (ids : List RequestT) :
    w.CanComplete (w.nullRequest :: ids) ↔ w.CanComplete ids := by
  simp [OTF2Writer.CanComplete]

theorem canComplete_cons_of_tracked {w' : OTF2Writer} {request : RequestT} {ids : List RequestT}
    (live : request ≠ w.nullRequest) (tracked : (w.requestType request).isSome)
    (null : w'.nullRequest = w.nullRequest)
    (untracked : w'.requestType = Function.update w.requestType request none) :
    w.CanComplete (request :: ids) ↔ w'.CanComplete ids := by
  have keep := @List.filter_cons_of_pos _ (fun other => decide (other ≠ w.nullRequest)) request ids
    (by simpa using live)
  simp only [OTF2Writer.CanComplete, null, untracked, keep,
    List.nodup_cons, List.mem_filter, List.forall_mem_cons, Function.update_apply]
  constructor
  · rintro ⟨⟨fresh, distinct⟩, -, all⟩
    refine ⟨distinct, fun other mem live' => ?_⟩
    by_cases same : other = request
    · exact absurd ⟨same ▸ mem, by simpa using live⟩ fresh
    · simpa [same] using all other mem live'
  · rintro ⟨distinct, all⟩
    refine ⟨⟨fun ⟨mem, _⟩ => by simpa using all request mem live, distinct⟩, fun _ => tracked,
      fun other mem live' => ?_⟩
    by_cases same : other = request
    · exact same ▸ tracked
    · simpa [same] using all other mem live'

/-- Completing requests one after the other returns when they can be completed, and aborts
otherwise. -/
theorem forM_completeCall_outcome : ∀ (ids : List RequestT) (w : OTF2Writer), w.Completable →
    (w.CanComplete ids →
      ∃ w', (ids.forM fun request => completeCall request timestamp) w = .ok () w') ∧
    (¬ w.CanComplete ids → ∃ message w',
      (ids.forM fun request => completeCall request timestamp) w = .error (.abort message) w')
  | [], w, _ => ⟨fun _ => ⟨w, rfl⟩, fun stuck => absurd ⟨List.nodup_nil, by simp⟩ stuck⟩
  | request :: ids, w, ready => by
    rw [List.forM_cons', run_bind]
    by_cases isNull : request = w.nullRequest
    · subst isNull
      simpa only [completeCall_null timestamp ready, w.canComplete_null_cons] using
        forM_completeCall_outcome ids w ready
    cases tracked : (w.requestType request).isSome with
    | true =>
      obtain ⟨w1, completed, ready1, null, untracked⟩ :=
        completeCall_tracked timestamp ready isNull tracked
      simpa only [completed, canComplete_cons_of_tracked isNull tracked null untracked] using
        forM_completeCall_outcome ids w1 ready1
    | false =>
      obtain ⟨message, aborted⟩ :=
        completeCall_untracked timestamp isNull (Option.not_isSome_iff_eq_none.mp (by simp [tracked]))
      rw [aborted]
      exact ⟨fun can => absurd (can.2 request (.head _) isNull) (by simp [tracked]),
        fun _ => ⟨message, w, rfl⟩⟩

end Completion

/-- What a completion loop or handler does from `w`: it returns `value` exactly when its reads
lie within their arrays and the requests read can be completed, and it aborts where the reads lie
within their arrays but the requests cannot be completed. -/
structure CompletionOutcome {α : Type} (method : WriterM α) (value : α) (w : OTF2Writer)
    (reads completes : Prop) : Prop where
  returns_iff : (∃ w', method w = .ok value w') ↔ reads ∧ completes
  aborts : reads → ¬ completes → ∃ message w', method w = .error (.abort message) w'

theorem CompletionOutcome.of_iff {α : Type} {method : WriterM α} {value : α} {w : OTF2Writer}
    {reads completes reads' completes' : Prop}
    (outcome : CompletionOutcome method value w reads completes) (reads_iff : reads ↔ reads')
    (completes_iff : reads → (completes ↔ completes')) :
    CompletionOutcome method value w reads' completes' where
  returns_iff := outcome.returns_iff.trans
    ⟨fun ⟨r, c⟩ => ⟨reads_iff.1 r, (completes_iff r).1 c⟩,
      fun ⟨r, c⟩ => ⟨reads_iff.2 r, (completes_iff (reads_iff.2 r)).2 c⟩⟩
  aborts r stuck := outcome.aborts (reads_iff.2 r) fun c => stuck ((completes_iff (reads_iff.2 r)).1 c)

/-!
## Loops that read their requests
-/

/-- `fetch` reads values out of arrays as `found` gives them: it returns the value with the
writer unchanged, and reaches undefined behaviour where `found` has none. -/
def Fetches {α β : Type} (fetch : α → WriterM β) (found : α → Option β) : Prop :=
  ∀ item w, fetch item w = match found item with
    | some value => .ok value w
    | none => .error (.undefined "array index out of range") w

theorem Fetches.bind {α β γ : Type} {fetch : α → WriterM β} {found : α → Option β}
    {next : β → WriterM γ} {found' : β → Option γ} (first : Fetches fetch found)
    (second : Fetches next found') :
    Fetches (fun item => fetch item >>= next) (fun item => found item >>= found') := by
  intro item w
  dsimp only
  rw [run_bind, first]
  cases found item with
  | none => rfl
  | some value => exact second value w

section Loop

variable {α : Type} (timestamp : Otf2TimeT) {fetch : α → WriterM RequestT}
  {found : α → Option RequestT} (fetches : Fetches fetch found)
include fetches

theorem fetchLoop_eq : ∀ (items : List α), (∀ item ∈ items, (found item).isSome) →
    (items.forM fun item => fetch item >>= fun request => completeCall request timestamp) =
      (items.filterMap found).forM fun request => completeCall request timestamp
  | [], _ => rfl
  | item :: items, all => by
    obtain ⟨request, read⟩ := Option.isSome_iff_exists.mp (all item (.head _))
    have reads : fetch item = pure request := funext fun w => by rw [fetches, read]; rfl
    rw [List.forM_cons', List.filterMap_cons_some read, List.forM_cons', reads, pure_bind,
      fetchLoop_eq items fun item mem => all item (.tail _ mem)]

theorem found_of_fetchLoop_ok : ∀ (items : List α) (w w' : OTF2Writer),
    (items.forM fun item => fetch item >>= fun request => completeCall request timestamp) w =
      .ok () w' → ∀ item ∈ items, (found item).isSome
  | [], _, _, _ => by simp
  | item :: items, w, w', ran => by
    rw [List.forM_cons'] at ran
    obtain ⟨_, w1, first, rest⟩ := run_bind_ok ran
    obtain ⟨_, _, read, -⟩ := run_bind_ok first
    intro other mem
    rcases List.mem_cons.mp mem with rfl | mem
    · rw [fetches] at read
      cases lookup : found other with
      | none => rw [lookup] at read; cases read
      | some _ => rfl
    · exact found_of_fetchLoop_ok items w1 w' rest other mem

/-- A loop that reads each request out of arrays and completes it returns exactly when every
read lies within its array and the requests read can be completed one after the other. -/
theorem fetchLoop_outcome (items : List α) {w : OTF2Writer} (ready : w.Completable) :
    CompletionOutcome (items.forM fun item => fetch item >>= fun request => completeCall request timestamp)
      () w (∀ item ∈ items, (found item).isSome) (w.CanComplete (items.filterMap found)) := by
  have aborts : ∀ all : ∀ item ∈ items, (found item).isSome, ¬ w.CanComplete (items.filterMap found) →
      ∃ message w', (items.forM fun item => fetch item >>= fun request => completeCall request timestamp) w =
        .error (.abort message) w' := fun all stuck => by
    rw [fetchLoop_eq timestamp fetches items all]
    exact (forM_completeCall_outcome timestamp _ w ready).2 stuck
  refine ⟨⟨fun ⟨w', ran⟩ => ?_, fun ⟨all, can⟩ => ?_⟩, aborts⟩
  · have all := found_of_fetchLoop_ok timestamp fetches items w w' ran
    refine ⟨all, Classical.byContradiction fun stuck => ?_⟩
    obtain ⟨message, w'', aborted⟩ := aborts all stuck
    rw [ran] at aborted
    cases aborted
  · rw [fetchLoop_eq timestamp fetches items all]
    exact (forM_completeCall_outcome timestamp _ w ready).1 can

end Loop

/-!
## Reads over a range of indices
-/

section Range

variable {β γ : Type} (array : List β) (f : β → Option γ)

theorem range_filterMap_getElem? (n : Nat) :
    (List.range n).filterMap (fun i => array[i]? >>= f) = (array.take n).filterMap f := by
  induction n with
  | zero => simp
  | succ n ih =>
    rw [List.range_succ, List.filterMap_append, ih, List.take_succ, List.filterMap_append]
    cases h : array[n]? <;> simp [List.filterMap_cons, h]

theorem range_isSome_getElem? (n : Nat) :
    (∀ i ∈ List.range n, (array[i]? >>= f).isSome) ↔
      n ≤ array.length ∧ ∀ value ∈ array.take n, (f value).isSome := by
  induction n with
  | zero => simp
  | succ n ih =>
    rw [List.range_succ, List.forall_mem_append, ih, List.take_succ, List.forall_mem_append,
      List.forall_mem_singleton]
    by_cases inside : n < array.length
    · simp [List.getElem?_eq_getElem inside, inside, Nat.succ_le_of_lt inside, inside.le, and_assoc]
    · simp [List.getElem?_eq_none (Nat.le_of_not_lt inside)]
      omega

end Range

theorem filterMap_lookupAt_eq_map (requests : List RequestT) :
    ∀ indices : List CInt, (∀ index ∈ indices, 0 ≤ index.toInt ∧ index.toInt < requests.length) →
      indices.filterMap (fun index => lookupAt requests index.toInt) =
        indices.map fun index => requests.getD index.toInt.toNat 0
  | [], _ => rfl
  | index :: indices, inside => by
    obtain ⟨nonneg, below⟩ := inside index (.head _)
    have read : lookupAt requests index.toInt = some (requests.getD index.toInt.toNat 0) := by
      simp [lookupAt, nonneg, List.getD_eq_getElem?_getD, List.getElem?_eq_getElem (by omega : index.toInt.toNat < requests.length)]
    simp only [List.filterMap_cons, read, List.map_cons,
      filterMap_lookupAt_eq_map requests indices fun index mem => inside index (.tail _ mem)]

/-!
## The handlers
-/

theorem CompletionOutcome.traced {start stop : Otf2TimeT} {name : String} {body : WriterM Unit}
    {w w1 : OTF2Writer} {region : Nat} {reads completes : Prop}
    (entered : enter start stop name w = .ok region w1)
    (outcome : CompletionOutcome body () w1 reads completes) :
    CompletionOutcome (enter start stop name >>= fun region => body >>= fun _ => leave stop region)
      .success w reads completes := by
  refine ⟨Iff.trans ⟨?_, ?_⟩ outcome.returns_iff, fun within stuck => ?_⟩
  · rintro ⟨w', ran⟩
    rw [run_bind, entered] at ran
    obtain ⟨⟨⟩, w2, ran, -⟩ := run_bind_ok ran
    exact ⟨w2, ran⟩
  · rintro ⟨w2, ran⟩
    obtain ⟨w', left, -⟩ := leave_ok stop region w2
    exact ⟨w', by rw [run_bind, entered]; dsimp only; rw [run_bind, ran]; exact left⟩
  · obtain ⟨message, w', aborted⟩ := outcome.aborts within stuck
    exact ⟨message, w', by rw [run_bind, entered]; dsimp only; rw [run_bind, aborted]⟩

section Handlers

variable (start stop : Otf2TimeT) (requests : List RequestT) {w : OTF2Writer}

theorem mpiTestall_outcome (ready : w.Completable) (count : CInt) {flag : CInt} (raised : flag ≠ 0) :
    CompletionOutcome (mpiTestall start stop count requests flag) .success w
      (count.toInt.toNat ≤ requests.length) (w.CanComplete (requests.take count.toInt.toNat)) := by
  obtain ⟨w1, entered, -, null, types, captures⟩ := enter_ok start stop "MPI_Testall" w
  have fetches : Fetches (fun i : Nat => readAt requests i) fun i => requests[i]? >>= some :=
    fun i w => by
      dsimp only
      rw [readAt_run, lookupAt_natCast]
      cases requests[i]? <;> rfl
  have program : mpiTestall start stop count requests flag =
      enter start stop "MPI_Testall" >>= fun region =>
        forCount count (fun i => readAt requests i >>= fun request => completeCall request start) >>=
          fun _ => leave stop region := by
    simp only [mpiTestall, if_pos raised]
  rw [program, forCount]
  refine (CompletionOutcome.traced entered
    (fetchLoop_outcome start fetches _ (ready.congr null types captures))).of_iff ?_ fun _ => ?_
  · rw [range_isSome_getElem?]
    simp
  · rw [range_filterMap_getElem?, List.filterMap_some, OTF2Writer.canComplete_congr null types]

theorem someCall_outcome (ready : w.Completable) (name : String) (outcount : CInt)
    (indices : List CInt) :
    let picked := indices.take outcount.toInt.toNat
    CompletionOutcome (someCall name start stop requests outcount indices) .success w
      (outcount.toInt.toNat ≤ indices.length ∧
        ∀ index ∈ picked, 0 ≤ index.toInt ∧ index.toInt < requests.length)
      (w.CanComplete (picked.map fun index => requests.getD index.toInt.toNat 0)) := by
  intro picked
  obtain ⟨w1, entered, -, null, types, captures⟩ := enter_ok start stop name w
  have fetches : Fetches (fun i : Nat => readAt indices i >>= fun index => readAt requests index.toInt)
      fun i => indices[i]? >>= fun index => lookupAt requests index.toInt := by
    have reads := Fetches.bind (fun i w => readAt_run indices (i : Nat) w)
      (fun index w => readAt_run requests (BitVec.toInt index) w)
    simpa only [lookupAt_natCast] using reads
  have program : someCall name start stop requests outcount indices =
      enter start stop name >>= fun region =>
        forCount outcount (fun i => (readAt indices i >>= fun index => readAt requests index.toInt) >>=
          fun request => completeCall request start) >>= fun _ => leave stop region := by
    simp only [someCall, bind_assoc]
  rw [program, forCount]
  refine (CompletionOutcome.traced entered
    (fetchLoop_outcome start fetches _ (ready.congr null types captures))).of_iff ?_ fun within => ?_
  · simp only [range_isSome_getElem?, lookupAt_isSome]
  · have inside := ((range_isSome_getElem? _ _ _).1 within).2
    rw [range_filterMap_getElem?, OTF2Writer.canComplete_congr null types,
      filterMap_lookupAt_eq_map requests _ fun index mem => (lookupAt_isSome _ _).1 (inside index mem)]

end Handlers

/-- In every state a run reaches after registering the null request once, `mpi_testall` with a
raised flag, `mpi_waitsome` and `mpi_testsome` return normally exactly when each of their reads
lies within its array and the non-null requests they complete are distinct and tracked in
`request_type`, and abort where the reads lie within the arrays but the requests are not such:
a request read twice makes them abort, where `mpi_waitall` completes it once. -/
theorem completion_loops_return_iff_distinct_tracked {header : Header} {world : WorldConfig}
    {initial null : RequestT} {calls : List Call} {w : OTF2Writer}
    (ran : run (OTF2Writer.new header world initial) (.registerNullRequest null :: calls) = some w)
    (once : ∀ call ∈ calls, ∀ request, call ≠ .registerNullRequest request)
    (start stop : Otf2TimeT) (requests : List RequestT) :
    (∀ count flag : CInt, flag ≠ 0 →
      CompletionOutcome (mpiTestall start stop count requests flag) .success w
        (count.toInt.toNat ≤ requests.length) (w.CanComplete (requests.take count.toInt.toNat))) ∧
    ∀ (outcount : CInt) (indices : List CInt),
      let picked := indices.take outcount.toInt.toNat
      let reads := outcount.toInt.toNat ≤ indices.length ∧
        ∀ index ∈ picked, 0 ≤ index.toInt ∧ index.toInt < requests.length
      let completes := w.CanComplete (picked.map fun index => requests.getD index.toInt.toNat 0)
      CompletionOutcome (mpiWaitsome start stop requests outcount indices) .success w reads completes ∧
        CompletionOutcome (mpiTestsome start stop requests outcount indices) .success w reads completes := by
  obtain ⟨valid, -⟩ := tracker_valid_of_run ran once
  have ready : w.Completable := ⟨valid.nullUntracked, valid.irecvCaptured⟩
  exact ⟨fun count _ raised => mpiTestall_outcome start stop requests ready count raised,
    fun outcount indices => ⟨someCall_outcome start stop requests ready _ outcount indices,
      someCall_outcome start stop requests ready _ outcount indices⟩⟩

/-- After an `mpi_isend` of request 9, the request array `[9, 9]` cannot be completed, and
`mpi_testall` over both entries aborts: the second 9 is no longer tracked. -/
theorem completion_loops_on_repeated_request :
    let start := OTF2Writer.new ⟨0, 1, 1, 2, 0, -1⟩ ⟨1, 0⟩ 0
    let calls : List Call := [.registerType 7 4, .mpiIsend 1 2 7 1 0 5 0 9]
    let w := (run start (.registerNullRequest 0 :: calls)).getD start
    run start (.registerNullRequest 0 :: calls) = some w ∧
      (∀ call ∈ calls, ∀ request, call ≠ .registerNullRequest request) ∧ ¬ w.CanComplete [9, 9] ∧
      ∃ message w', mpiTestall 3 4 2 [9, 9] 1 w = .error (.abort message) w' := by
  intro start calls w
  have ran : run start (.registerNullRequest 0 :: calls) = some w := rfl
  have once : ∀ call ∈ calls, ∀ request, call ≠ .registerNullRequest request := by simp [calls]
  have null : w.nullRequest = 0 := rfl
  have stuck : ¬ w.CanComplete [9, 9] := fun ⟨distinct, _⟩ => by simp [null] at distinct
  exact ⟨ran, once, stuck, ((completion_loops_return_iff_distinct_tracked ran once 3 4 [9, 9]).1 2 1
    (by decide)).aborts (by decide) stuck⟩

end Otf2Dump
