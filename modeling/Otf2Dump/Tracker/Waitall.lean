import Mathlib.Data.List.Nodup
import Otf2Dump.Writer.Run

/-!
# `mpi_waitall`

`mpi_waitall` completes the distinct non-null requests of its array once each, in the order of
their first occurrence.
-/

set_option autoImplicit false

namespace Otf2Dump

/-- The requests `mpi_waitall` completes: the distinct non-null requests of the array, in
the order of their first occurrence. -/
def waitallIds (null : RequestT) (requests : List RequestT) : List RequestT :=
  (requests.filter fun request => request ≠ null).eraseDups

/-- `request` is pending: `request_type` holds its kind, and an `Irecv` has its capture. -/
def OTF2Writer.Pending (w : OTF2Writer) (request : RequestT) : Prop :=
  ∃ kind, w.requestType request = some kind ∧ (kind = .irecv → (w.irecvRequests request).isSome)

/-!
## The loop of `List.eraseDups`
-/

section EraseDups

variable {α : Type} [DecidableEq α]

theorem eraseDups_loop_eq_append :
    ∀ (items kept : List α), ∃ fresh, List.eraseDups.loop items kept = kept.reverse ++ fresh
  | [], kept => ⟨[], by simp [List.eraseDups.loop]⟩
  | item :: items, kept => by
    unfold List.eraseDups.loop
    split
    · exact eraseDups_loop_eq_append items kept
    · obtain ⟨fresh, loop⟩ := eraseDups_loop_eq_append items (item :: kept)
      exact ⟨item :: fresh, by simp [loop]⟩

theorem eraseDups_loop_drop (items kept : List α) :
    List.eraseDups.loop items kept =
      kept.reverse ++ (List.eraseDups.loop items kept).drop kept.length := by
  obtain ⟨fresh, loop⟩ := eraseDups_loop_eq_append items kept
  rw [loop, List.drop_left' (List.length_reverse kept)]

theorem eraseDups_loop_nodup :
    ∀ (items kept : List α), kept.Nodup → (List.eraseDups.loop items kept).Nodup
  | [], _, distinct => by simpa [List.eraseDups.loop, List.nodup_reverse] using distinct
  | item :: items, kept, distinct => by
    unfold List.eraseDups.loop
    split
    · exact eraseDups_loop_nodup items kept distinct
    · rename_i fresh
      exact eraseDups_loop_nodup items (item :: kept)
        (List.nodup_cons.mpr ⟨by simpa using fresh, distinct⟩)

theorem mem_eraseDups_loop :
    ∀ {items kept : List α} {x : α}, x ∈ List.eraseDups.loop items kept → x ∈ items ∨ x ∈ kept
  | [], _, _, mem => .inr (by simpa [List.eraseDups.loop] using mem)
  | item :: items, kept, x, mem => by
    unfold List.eraseDups.loop at mem
    split at mem
    · exact (mem_eraseDups_loop mem).imp (List.mem_cons_of_mem _) id
    · rcases mem_eraseDups_loop mem with mem | mem
      · exact .inl (List.mem_cons_of_mem _ mem)
      · rcases List.mem_cons.mp mem with rfl | mem
        · exact .inl (List.mem_cons_self _ _)
        · exact .inr mem

theorem mem_eraseDups_loop_of_mem :
    ∀ {items kept : List α} {x : α}, x ∈ items ∨ x ∈ kept → x ∈ List.eraseDups.loop items kept
  | [], _, _, mem => by simpa [List.eraseDups.loop] using mem
  | item :: items, kept, x, mem => by
    unfold List.eraseDups.loop
    split
    · rename_i held
      refine mem_eraseDups_loop_of_mem (mem.elim (fun mem => ?_) .inr)
      rcases List.mem_cons.mp mem with rfl | mem
      · exact .inr (by simpa using held)
      · exact .inl mem
    · refine mem_eraseDups_loop_of_mem (mem.elim (fun mem => ?_) fun mem => .inr (.tail _ mem))
      rcases List.mem_cons.mp mem with rfl | mem
      · exact .inr (.head _)
      · exact .inl mem

end EraseDups

theorem waitallIds_nodup (null : RequestT) (requests : List RequestT) :
    (waitallIds null requests).Nodup :=
  eraseDups_loop_nodup _ [] List.nodup_nil

theorem waitallIds_of_mem {null : RequestT} {requests : List RequestT} {request : RequestT}
    (mem : request ∈ requests) (live : request ≠ null) : request ∈ waitallIds null requests :=
  mem_eraseDups_loop_of_mem (.inl (List.mem_filter.mpr ⟨mem, by simpa using live⟩))

theorem mem_waitallIds {null : RequestT} {requests : List RequestT} {request : RequestT}
    (mem : request ∈ waitallIds null requests) : request ∈ requests ∧ request ≠ null := by
  rcases mem_eraseDups_loop mem with mem | mem
  · simpa using mem
  · cases mem

/-!
## The loop of `mpi_waitall`
-/

theorem enter_ok (start stop : Otf2TimeT) (name : String) (w : OTF2Writer) :
    ∃ w', enter start stop name w = .ok (w.otf2RegionsTable.insert name).2 w' ∧
      w'.eventCount = w.eventCount + 1 ∧ w'.nullRequest = w.nullRequest ∧
      w'.requestType = w.requestType ∧ w'.irecvRequests = w.irecvRequests :=
  ⟨_, rfl, rfl, rfl, rfl, rfl⟩

theorem leave_ok (stop : Otf2TimeT) (thisRegion : Nat) (w : OTF2Writer) :
    ∃ w', leave stop thisRegion w = .ok .success w' ∧ w'.eventCount = w.eventCount + 1 ∧
      w'.requestType = w.requestType :=
  ⟨_, rfl, rfl, rfl⟩

theorem completeCall_nullRequest {request : RequestT} {timestamp : Otf2TimeT} {w w' : OTF2Writer}
    (completed : completeCall request timestamp w = .ok () w') : w'.nullRequest = w.nullRequest := by
  unfold completeCall at completed
  rw [run_bind, run_get] at completed
  cases kind : w.requestType request with
  | none =>
    simp only [kind] at completed
    by_cases live : request ≠ w.nullRequest
    · rw [if_pos live] at completed
      cases completed
    · rw [if_neg live] at completed
      cases completed; rfl
  | some type =>
    cases type with
    | isend =>
      simp only [kind, emit, countEvents, eraseRequestType, run_bind, run_modify] at completed
      cases completed; rfl
    | irecv =>
      cases capture : w.irecvRequests request with
      | none => simp only [kind, capture, undefined, run_throw] at completed; cases completed
      | some irecv =>
        simp only [kind, capture, emit, countEvents, eraseRequestType, eraseIrecvRequest, run_bind,
          run_modify] at completed
        cases completed; rfl

/-- `complete_call` on a pending request returns: it counts one record, erases the request,
and leaves every other request as it was. -/
theorem completeCall_pending {request : RequestT} (timestamp : Otf2TimeT) {w : OTF2Writer}
    (pending : w.Pending request) :
    ∃ w', completeCall request timestamp w = .ok () w' ∧ w'.eventCount = w.eventCount + 1 ∧
      w'.nullRequest = w.nullRequest ∧
      w'.requestType = Function.update w.requestType request none ∧
      ∀ other ≠ request, w'.irecvRequests other = w.irecvRequests other := by
  obtain ⟨kind, typed, captured⟩ := pending
  cases kind with
  | isend =>
    simp only [completeCall, typed, emit, countEvents, eraseRequestType, run_bind, run_get,
      run_modify]
    exact ⟨_, rfl, rfl, rfl, rfl, fun _ _ => rfl⟩
  | irecv =>
    obtain ⟨irecv, capture⟩ := Option.isSome_iff_exists.mp (captured rfl)
    simp only [completeCall, typed, capture, emit, countEvents, eraseRequestType,
      eraseIrecvRequest, run_bind, run_get, run_modify]
    exact ⟨_, rfl, rfl, rfl, rfl, fun other distinct => Function.update_noteq distinct _ _⟩

theorem forM_completeCall_pending (timestamp : Otf2TimeT) :
    ∀ (ids : List RequestT) (w : OTF2Writer), ids.Nodup → (∀ request ∈ ids, w.Pending request) →
      ∃ w', (ids.forM fun request => completeCall request timestamp) w = .ok () w' ∧
        w'.eventCount = w.eventCount + ids.length ∧
        ∀ request, request ∈ ids ∨ w.requestType request = none → w'.requestType request = none
  | [], w, _, _ => ⟨w, rfl, rfl, fun _ untracked => by simpa using untracked⟩
  | request :: ids, w, distinct, pending => by
    obtain ⟨fresh, distinct⟩ := List.nodup_cons.mp distinct
    obtain ⟨w1, completed, counted, -, untracked, kept⟩ :=
      completeCall_pending timestamp (pending request (.head _))
    have pending' : ∀ other ∈ ids, w1.Pending other := by
      intro other mem
      have other_ne : other ≠ request := fun same => fresh (same ▸ mem)
      obtain ⟨kind, typed, captured⟩ := pending other (.tail _ mem)
      exact ⟨kind, by rw [untracked, Function.update_noteq other_ne, typed],
        by rw [kept other other_ne]; exact captured⟩
    obtain ⟨w', rest, counted', cleared⟩ := forM_completeCall_pending timestamp ids w1 distinct pending'
    refine ⟨w', by rw [List.forM_cons', run_bind, completed]; exact rest,
      by rw [counted', counted, List.length_cons]; omega, fun other picked => cleared other ?_⟩
    by_cases same : other = request
    · exact .inr (by rw [untracked, same, Function.update_same])
    · rcases picked with mem | untracked'
      · exact .inl ((List.mem_cons.mp mem).resolve_left same)
      · exact .inr (by rw [untracked, Function.update_noteq same, untracked'])

/-- The loop of `mpi_waitall` over indices of the array completes the requests that the loop
of `List.eraseDups` keeps past `called`. -/
theorem mpiWaitallLoop_eq (start : Otf2TimeT) (requests : List RequestT) :
    ∀ (indices : List Nat) (called : List RequestT) (w : OTF2Writer),
      (∀ index ∈ indices, index < requests.length) →
      mpiWaitallLoop start requests indices called w =
        (((List.eraseDups.loop ((indices.map fun index => requests.getD index 0).filter
            fun request => request ≠ w.nullRequest) called).drop called.length).forM
          fun request => completeCall request start) w
  | [], called, w, _ => by
    rw [List.map_nil, List.filter_nil, List.eraseDups.loop, List.drop_eq_nil_of_le (by simp)]
    rfl
  | index :: indices, called, w, inside => by
    have lt := inside index (List.mem_cons_self _ _)
    have head : requests.getD index 0 = requests[index] := by simp [lt]
    have rest := fun called w => mpiWaitallLoop_eq start requests indices called w
      fun index mem => inside index (List.mem_cons_of_mem _ mem)
    simp only [mpiWaitallLoop, run_bind, readAt_of_lt requests lt, run_pure, run_get,
      List.map_cons, head]
    by_cases skipped : requests[index] = w.nullRequest
    · rw [if_neg (fun fresh => fresh.1 skipped), List.filter_cons_of_neg (by simpa using skipped)]
      exact rest called w
    by_cases repeated : requests[index] ∈ called
    · rw [if_neg (fun fresh => fresh.2 repeated), List.filter_cons_of_pos (by simpa using skipped)]
      simp only [List.eraseDups.loop, List.elem_eq_mem, repeated, decide_True]
      exact rest called w
    · rw [if_pos ⟨skipped, repeated⟩, List.filter_cons_of_pos (by simpa using skipped)]
      simp only [List.eraseDups.loop, List.elem_eq_mem, repeated, decide_False]
      rw [eraseDups_loop_drop _ (requests[index] :: called)]
      simp only [List.reverse_cons, List.append_assoc, List.singleton_append,
        List.drop_left' (List.length_reverse called), List.length_cons]
      simp only [List.forM_cons', run_bind]
      cases completed : completeCall requests[index] start w with
      | ok _ w1 => dsimp only; rw [rest, completeCall_nullRequest completed]; rfl
      | error fault w1 => rfl

/-- `mpi_waitall` over an array of `count` requests completes each distinct non-null request of
the array once, in the order of its first occurrence. When each of them is pending the call
returns, none of them is left in `request_type`, and `event_count_` grows by two plus their
number. -/
theorem mpiWaitall_completes_each_once {start stop : Otf2TimeT} {count : CInt}
    {requests : List RequestT} {w : OTF2Writer} (counted : count.toInt = requests.length)
    (pending : ∀ request ∈ requests, request ≠ w.nullRequest → w.Pending request) :
    let ids := waitallIds w.nullRequest requests
    ids.Nodup ∧ (∀ request, request ∈ ids ↔ request ∈ requests ∧ request ≠ w.nullRequest) ∧
    mpiWaitall start stop count requests w =
        (do
          let thisRegion ← enter start stop "MPI_Waitall"
          ids.forM fun request => completeCall request start
          leave stop thisRegion) w ∧
      ∃ w', mpiWaitall start stop count requests w = .ok .success w' ∧
        w'.eventCount = w.eventCount + 2 + ids.length ∧
        ∀ request ∈ requests, request ≠ w.nullRequest → w'.requestType request = none := by
  intro ids
  have length : count.toInt.toNat = requests.length := by omega
  have indices : (List.range count.toInt.toNat).map (fun index => requests.getD index 0) =
      requests := by
    rw [length]
    exact List.ext_getElem (by simp) fun index _ inside => by simp [inside]
  have loop : ∀ w1 : OTF2Writer, w1.nullRequest = w.nullRequest →
      mpiWaitallLoop start requests (List.range count.toInt.toNat) [] w1 =
        (ids.forM fun request => completeCall request start) w1 := fun w1 null => by
    rw [mpiWaitallLoop_eq start requests _ [] w1 fun index mem => length ▸ List.mem_range.mp mem,
      indices, null]
    rfl
  obtain ⟨w1, entered, counted1, null, types, captures⟩ := enter_ok start stop "MPI_Waitall" w
  have program : mpiWaitall start stop count requests w =
      (do
        let thisRegion ← enter start stop "MPI_Waitall"
        ids.forM fun request => completeCall request start
        leave stop thisRegion) w := by
    simp only [mpiWaitall, run_bind, entered]
    rw [loop w1 null]
  refine ⟨waitallIds_nodup _ _,
    fun request => ⟨mem_waitallIds, fun ⟨mem, live⟩ => waitallIds_of_mem mem live⟩, program, ?_⟩
  obtain ⟨w2, completed, counted2, cleared⟩ :=
    forM_completeCall_pending start ids w1 (waitallIds_nodup _ _) fun request mem => by
      rw [OTF2Writer.Pending, types, captures]
      exact pending request (mem_waitallIds mem).1 (mem_waitallIds mem).2
  obtain ⟨w3, left, counted3, types3⟩ := leave_ok stop (w.otf2RegionsTable.insert "MPI_Waitall").2 w2
  refine ⟨w3, by simp only [program, run_bind, entered, completed, left], by omega,
    fun request mem live => ?_⟩
  rw [types3]
  exact cleared request (.inl (waitallIds_of_mem mem live))

theorem mpiWaitall_completes_each_once_on_send_and_receive :
    let start := OTF2Writer.new ⟨0, 1, 1, 2, 0, -1⟩ ⟨1, 0⟩ 0
    let w := (run start [.registerNullRequest 0, .registerType 7 4, .mpiIsend 1 2 7 1 0 5 0 9,
      .mpiIrecv 3 4 7 1 0 5 0 4]).getD start
    (4 : CInt).toInt = [9, 0, 4, 9].length ∧
      (∀ request ∈ [9, 0, 4, 9], request ≠ w.nullRequest → w.Pending request) ∧
      let ids := waitallIds w.nullRequest [9, 0, 4, 9]
      ids.Nodup ∧ (∀ request, request ∈ ids ↔ request ∈ [9, 0, 4, 9] ∧ request ≠ w.nullRequest) ∧
      mpiWaitall 5 6 4 [9, 0, 4, 9] w =
          (do
            let thisRegion ← enter 5 6 "MPI_Waitall"
            ids.forM fun request => completeCall request 5
            leave 6 thisRegion) w ∧
        ∃ w', mpiWaitall 5 6 4 [9, 0, 4, 9] w = .ok .success w' ∧
          w'.eventCount = w.eventCount + 2 + ids.length ∧
          ∀ request ∈ [9, 0, 4, 9], request ≠ w.nullRequest → w'.requestType request = none := by
  intro start w
  have pending : ∀ request ∈ [9, 0, 4, 9], request ≠ w.nullRequest → w.Pending request := by
    intro request mem live
    simp only [List.mem_cons, List.mem_singleton, List.not_mem_nil, or_false] at mem
    rcases mem with rfl | rfl | rfl | rfl
    · exact ⟨.isend, rfl, nofun⟩
    · exact absurd rfl live
    · exact ⟨.irecv, rfl, fun _ => rfl⟩
    · exact ⟨.isend, rfl, nofun⟩
  exact ⟨by decide, pending, mpiWaitall_completes_each_once (by decide) pending⟩

end Otf2Dump
