import HookRelay.Stream.Sink

/-!
# What is taken by writes

Byte strings that are written one after the other, each whole, may need any number of writes.  A
write is made for one of them and never goes beyond its end; an interrupted write is made again; the
first write that takes nothing, or fails in another way, ends the writing.

* `written_writeEach`: what a sink has taken is an initial segment of the concatenation, and all of
  it if no write failed.
* `Sink.remaining`: what the writes that meet some events leave of the byte strings.
* `Sink.Stopped`: a script stops the writing behind the events `passed`, while something remains.
  `writeEach_of_stopped` and `writeEach_of_not_stopped` say what becomes of the writing if it is
  stopped and if nothing stops it, and `writeEach_eq_ok_iff` that it succeeds exactly if all is
  taken.
* `Sink.Willing`: every write that the script speaks of takes something or is tried again.
  `writeEach_of_willing` says that nothing that is written to such a sink fails.
-/

namespace HookRelay

namespace WriteEvent

/-- A write that meets the event takes something, or is tried again. -/
def isWilling : WriteEvent → Bool
  | .accept limit => 0 < limit
  | .failure error => error.isInterrupted

/-- The number of bytes that a write takes at most. -/
def limit : WriteEvent → Nat
  | .accept limit => limit
  | .failure _ => 0

/-- Why a write that meets the event is the last one, if it is. -/
def obstacle? : WriteEvent → Option IoError
  | .accept limit => if limit = 0 then some IoError.nothingWritten else none
  | .failure error => if error.isInterrupted then none else some error

theorem obstacle?_eq_none_iff (event : WriteEvent) :
    event.obstacle? = none ↔ event.isWilling = true := by
  cases event with
  | accept limit =>
      simp [obstacle?, isWilling, Nat.pos_iff_ne_zero]
  | failure error =>
      simp [obstacle?, isWilling]

end WriteEvent

namespace Sink

/-- Every write takes something or is tried again. -/
def Willing (sink : Sink) : Prop :=
  ∀ event ∈ sink.script, event.isWilling = true

instance (sink : Sink) : Decidable sink.Willing :=
  inferInstanceAs (Decidable (∀ event ∈ sink.script, event.isWilling = true))

/-- What a write of at most `limit` bytes leaves of byte strings that are written in turn.  It is
made for the first that is not empty. -/
def leave (limit : Nat) : List Bytes → List Bytes
  | [] => []
  | bytes :: pieces =>
      if bytes = [] then
        leave limit pieces
      else
        bytes.drop limit :: pieces

/-- What the writes that meet some events leave of byte strings that are written in turn. -/
def remaining (pieces : List Bytes) (events : List WriteEvent) : List Bytes :=
  events.foldl (fun left event => leave event.limit left) pieces

/-- The writes that meet `passed` take something or are made again, and the next one is stopped
although something remains to be written. -/
structure Stopped
    (pieces : List Bytes)
    (script passed : List WriteEvent)
    (error : IoError) : Prop where
  willing : ∀ event ∈ passed, event.isWilling = true
  unfinished : (remaining pieces passed).flatten ≠ []
  obstacle : ∃ event later, script = passed ++ event :: later ∧ event.obstacle? = some error

/-- The sink after one write. -/
def took (bytes : Bytes) (later : List WriteEvent) (sink : Sink) : Sink :=
  { sink with script := later, written := sink.written ++ bytes, calls := sink.calls + 1 }

/-! ## All writes together -/

/-- What is taken of several byte strings is an initial segment of their concatenation, and all of
it unless there is a failure. -/
theorem written_writeEach (pieces : List Bytes) (sink : Sink) :
    ∃ taken,
      (sink.writeEach pieces).2.written = sink.written ++ taken ∧
        taken <+: pieces.flatten ∧
        ((sink.writeEach pieces).1 = .ok () → taken = pieces.flatten) := by
  induction pieces generalizing sink with
  | nil =>
      exact ⟨[], by simp [writeEach], List.nil_prefix, fun _ => rfl⟩
  | cons bytes later ih =>
      obtain ⟨front, whole⟩ := taken_deliver bytes sink.script
      cases failed : (deliver bytes sink.script).error with
      | some error =>
          refine ⟨(deliver bytes sink.script).taken, ?_, ?_, ?_⟩
          · simp [writeEach, writeAll, failed]
          · exact front.trans (List.prefix_append bytes later.flatten)
          · simp [writeEach, writeAll, failed]
      | none =>
          let next := (sink.writeAll bytes).2
          have first : sink.writeAll bytes = (.ok (), next) := by
            simp [next, writeAll, failed]
          have begun : next.written = sink.written ++ bytes := written_writeAll first
          obtain ⟨taken, written, initial, all⟩ := ih next
          refine ⟨bytes ++ taken, ?_, ?_, ?_⟩
          · simp [writeEach, first, written, begun]
          · simpa using initial
          · intro fine
            have complete : taken = later.flatten := all (by simpa [writeEach, first] using fine)
            simp [complete]

theorem written_of_writeEach_ok
    {pieces : List Bytes} {sink : Sink} (fine : (sink.writeEach pieces).1 = .ok ()) :
    (sink.writeEach pieces).2.written = sink.written ++ pieces.flatten := by
  obtain ⟨taken, written, -, all⟩ := written_writeEach pieces sink
  rw [written, all fine]

/-- Writing never asks for delivery. -/
theorem flushes_writeEach (pieces : List Bytes) (sink : Sink) :
    (sink.writeEach pieces).2.flushes = sink.flushes := by
  induction pieces generalizing sink with
  | nil =>
      rfl
  | cons bytes pieces ih =>
      have same : (sink.writeAll bytes).2.flushes = sink.flushes := rfl
      cases outcome : (sink.writeAll bytes).1 with
      | ok =>
          have first : sink.writeAll bytes = (.ok (), (sink.writeAll bytes).2) :=
            Prod.ext outcome rfl
          rw [writeEach, first]
          exact (ih _).trans same
      | error error =>
          have first : sink.writeAll bytes = (.error error, (sink.writeAll bytes).2) :=
            Prod.ext outcome rfl
          rw [writeEach, first]
          exact same

/-! ## One write at a time -/

section Leave

theorem remaining_cons (pieces : List Bytes) (event : WriteEvent) (later : List WriteEvent) :
    remaining pieces (event :: later) = remaining (leave event.limit pieces) later :=
  rfl

theorem flatten_leave_of_flatten_eq_nil
    {pieces : List Bytes}
    (none : pieces.flatten = [])
    (limit : Nat) :
    (leave limit pieces).flatten = [] := by
  induction pieces with
  | nil =>
      rfl
  | cons bytes pieces ih =>
      obtain ⟨empty, rest⟩ := List.append_eq_nil_iff.mp none
      rw [leave, if_pos empty]
      exact ih rest

theorem flatten_remaining_of_flatten_eq_nil
    {pieces : List Bytes}
    (none : pieces.flatten = [])
    (events : List WriteEvent) :
    (remaining pieces events).flatten = [] := by
  induction events generalizing pieces with
  | nil =>
      exact none
  | cons event later ih =>
      exact ih (flatten_leave_of_flatten_eq_nil none event.limit)

theorem leave_append
    {front : List Bytes}
    (some : front.flatten ≠ [])
    (limit : Nat) (back : List Bytes) :
    leave limit (front ++ back) = leave limit front ++ back := by
  induction front with
  | nil =>
      exact absurd rfl some
  | cons bytes front ih =>
      by_cases empty : bytes = []
      · rw [List.cons_append, leave, if_pos empty, leave, if_pos empty]
        exact ih (by simpa [empty] using some)
      · rw [List.cons_append, leave, if_neg empty, leave, if_neg empty, List.cons_append]

/-- As long as something remains of the first byte strings, no write is made for those behind. -/
theorem remaining_append
    {front : List Bytes} {events : List WriteEvent}
    (unfinished : (remaining front events).flatten ≠ [])
    (back : List Bytes) :
    remaining (front ++ back) events = remaining front events ++ back := by
  induction events generalizing front with
  | nil =>
      rfl
  | cons event later ih =>
      have some : front.flatten ≠ [] :=
        fun none => unfinished (flatten_remaining_of_flatten_eq_nil none (event :: later))
      rw [remaining_cons, leave_append some, ih unfinished, remaining_cons]

/-- What stops the writing of some byte strings stops it also if others are to follow. -/
theorem Stopped.append
    {front : List Bytes} {script passed : List WriteEvent} {error : IoError}
    (stopped : Stopped front script passed error)
    (back : List Bytes) :
    Stopped (front ++ back) script passed error where
  willing := stopped.willing
  unfinished := by
    rw [remaining_append stopped.unfinished, List.flatten_append]
    exact List.append_ne_nil_of_left_ne_nil stopped.unfinished _
  obstacle := stopped.obstacle

end Leave

section Step

variable {pieces : List Bytes} {sink : Sink} {event : WriteEvent} {later : List WriteEvent}

theorem writeAll_nil (sink : Sink) : sink.writeAll [] = (.ok (), sink) := by
  have nothing : deliver [] sink.script = ⟨[], sink.script, 0, none⟩ := by
    cases sink.script <;> simp [deliver]
  simp [writeAll, nothing]

theorem writeEach_nil_cons (pieces : List Bytes) (sink : Sink) :
    sink.writeEach ([] :: pieces) = sink.writeEach pieces := by
  rw [writeEach, writeAll_nil]

theorem writeEach_of_flatten_eq_nil (none : pieces.flatten = []) :
    sink.writeEach pieces = (.ok (), sink) := by
  induction pieces with
  | nil =>
      rfl
  | cons bytes pieces ih =>
      obtain ⟨rfl, rest⟩ := List.append_eq_nil_iff.mp none
      rw [writeEach_nil_cons]
      exact ih rest

/-- Behind the script nothing fails. -/
theorem writeEach_of_script_eq_nil (pieces : List Bytes) (ended : sink.script = []) :
    (sink.writeEach pieces).1 = .ok () := by
  induction pieces generalizing sink with
  | nil =>
      rfl
  | cons bytes pieces ih =>
      have whole : (deliver bytes []).error = none ∧ (deliver bytes []).script = [] := by
        by_cases empty : bytes = [] <;> simp [deliver, empty]
      have first : sink.writeAll bytes = (.ok (), (sink.writeAll bytes).2) := by
        simp [writeAll, ended, whole.1]
      rw [writeEach, first]
      refine ih ?_
      simp [writeAll, ended, whole.2]

theorem deliver_of_isWilling
    {bytes : Bytes}
    (some : bytes ≠ [])
    (willing : event.isWilling = true) :
    deliver bytes (event :: later) =
      (deliver (bytes.drop event.limit) later).after (bytes.take event.limit) := by
  cases event with
  | accept limit =>
      have positive : limit ≠ 0 := by
        simpa [WriteEvent.isWilling, Nat.pos_iff_ne_zero] using willing
      simp [deliver, some, positive, WriteEvent.limit]
  | failure error =>
      have again : error.isInterrupted = true := willing
      simp [deliver, some, again, WriteEvent.limit]

theorem deliver_of_obstacle
    {bytes : Bytes} {error : IoError}
    (some : bytes ≠ [])
    (stops : event.obstacle? = .some error) :
    deliver bytes (event :: later) = ⟨[], later, 1, .some error⟩ := by
  cases event with
  | accept limit =>
      obtain ⟨zero, rfl⟩ : limit = 0 ∧ IoError.nothingWritten = error := by
        simpa [WriteEvent.obstacle?] using stops
      simp [deliver, some, zero]
  | failure met =>
      obtain ⟨final, rfl⟩ : met.isInterrupted = false ∧ met = error := by
        simpa [WriteEvent.obstacle?] using stops
      simp [deliver, some, final]

/-- A write that is not stopped takes what comes first, and the writing goes on with the rest. -/
theorem writeEach_of_step
    (some : pieces.flatten ≠ [])
    (script : sink.script = event :: later)
    (willing : event.isWilling = true) :
    ∃ taken,
      taken ++ (leave event.limit pieces).flatten = pieces.flatten ∧
        sink.writeEach pieces = (sink.took taken later).writeEach (leave event.limit pieces) := by
  induction pieces with
  | nil =>
      exact absurd rfl some
  | cons bytes pieces ih =>
      by_cases empty : bytes = []
      · obtain ⟨taken, whole, goes⟩ := ih (by simpa [empty] using some)
        refine ⟨taken, by simpa [leave, empty] using whole, ?_⟩
        rw [empty, writeEach_nil_cons, goes, leave, if_pos rfl]
      · have same :
            sink.writeAll bytes =
              (sink.took (bytes.take event.limit) later).writeAll (bytes.drop event.limit) := by
          simp [writeAll, took, script, deliver_of_isWilling empty willing, Delivery.after]
          omega
        refine ⟨bytes.take event.limit, ?_, ?_⟩
        · simp [leave, empty, ← List.append_assoc]
        · rw [leave, if_neg empty, writeEach, writeEach, same]

/-- A write that is stopped ends the writing with its error. -/
theorem writeEach_of_obstacle
    {error : IoError}
    (some : pieces.flatten ≠ [])
    (script : sink.script = event :: later)
    (stops : event.obstacle? = .some error) :
    sink.writeEach pieces = (.error error, sink.took [] later) := by
  induction pieces with
  | nil =>
      exact absurd rfl some
  | cons bytes pieces ih =>
      by_cases empty : bytes = []
      · rw [empty, writeEach_nil_cons]
        exact ih (by simpa [empty] using some)
      · simp [writeEach, writeAll, took, script, deliver_of_obstacle empty stops]

end Step

/-! ## Whether something stops the writing -/

/-- Writing that is stopped ends with the write that was stopped, and what was taken is what the
writes before it took. -/
theorem exists_writeEach_of_stopped
    {pieces : List Bytes} {sink : Sink} {passed : List WriteEvent} {error : IoError}
    (stopped : Stopped pieces sink.script passed error) :
    ∃ taken left,
      sink.writeEach pieces =
          (.error error,
            { sink with
              script := left
              written := sink.written ++ taken
              calls := sink.calls + (passed.length + 1) }) ∧
        taken ++ (remaining pieces passed).flatten = pieces.flatten := by
  obtain ⟨willing, unfinished, event, later, script, stops⟩ := stopped
  have some : pieces.flatten ≠ [] :=
    fun none => unfinished (flatten_remaining_of_flatten_eq_nil none passed)
  induction passed generalizing pieces sink with
  | nil =>
      refine ⟨[], later, ?_, rfl⟩
      rw [writeEach_of_obstacle some script stops]
      rfl
  | cons first passed ih =>
      rw [remaining_cons] at unfinished ⊢
      obtain ⟨begun, whole, goes⟩ :
          ∃ begun,
            begun ++ (leave first.limit pieces).flatten = pieces.flatten ∧
              sink.writeEach pieces =
                (sink.took begun (passed ++ event :: later)).writeEach (leave first.limit pieces) :=
        writeEach_of_step some script (willing first List.mem_cons_self)
      have rest : ∀ event ∈ passed, event.isWilling = true :=
        fun event mem => willing event (List.mem_cons_of_mem first mem)
      have more : (leave first.limit pieces).flatten ≠ [] :=
        fun none => unfinished (flatten_remaining_of_flatten_eq_nil none passed)
      have next :
          (sink.took begun (passed ++ event :: later)).script = passed ++ event :: later :=
        rfl
      obtain ⟨taken, left, ended, kept⟩ := ih rest unfinished next more
      refine ⟨begun ++ taken, left, ?_, ?_⟩
      · rw [goes, ended]
        simp only [took, List.append_assoc, List.length_cons, Nat.add_assoc, Nat.add_comm 1]
      · rw [List.append_assoc, kept, whole]

/-- Writing that is stopped fails with the error that stopped it, and what was taken is what the
writes before it took. -/
theorem writeEach_of_stopped
    {pieces : List Bytes} {sink : Sink} {passed : List WriteEvent} {error : IoError}
    (stopped : Stopped pieces sink.script passed error) :
    (sink.writeEach pieces).1 = .error error ∧
      ∃ taken,
        (sink.writeEach pieces).2.written = sink.written ++ taken ∧
          taken ++ (remaining pieces passed).flatten = pieces.flatten := by
  obtain ⟨taken, left, ended, kept⟩ := exists_writeEach_of_stopped stopped
  rw [ended]
  exact ⟨rfl, taken, rfl, kept⟩

/-- Writing that nothing stops succeeds. -/
theorem writeEach_of_not_stopped
    {pieces : List Bytes} {sink : Sink}
    (free : ∀ passed error, ¬ Stopped pieces sink.script passed error) :
    (sink.writeEach pieces).1 = .ok () := by
  -- The induction is on the events that the writes meet, so it follows the writes, not the pieces.
  generalize script : sink.script = events at free
  induction events generalizing pieces sink with
  | nil =>
      exact writeEach_of_script_eq_nil pieces script
  | cons event later ih =>
      by_cases none : pieces.flatten = []
      · rw [writeEach_of_flatten_eq_nil none]
      · cases stops : event.obstacle? with
        | some error =>
            exact absurd ⟨List.forall_mem_nil _, none, event, later, rfl, stops⟩ (free [] error)
        | none =>
            have willing := (WriteEvent.obstacle?_eq_none_iff event).mp stops
            obtain ⟨taken, -, goes⟩ := writeEach_of_step none script willing
            rw [goes]
            refine ih rfl ?_
            rintro passed error ⟨others, unfinished, last, rest, rfl, ends⟩
            refine free (event :: passed) error ⟨?_, unfinished, last, rest, rfl, ends⟩
            exact List.forall_mem_cons.mpr ⟨willing, others⟩

/-- No write fails exactly if all is taken. -/
theorem writeEach_eq_ok_iff {pieces : List Bytes} {sink : Sink} :
    (sink.writeEach pieces).1 = .ok () ↔
      (sink.writeEach pieces).2.written = sink.written ++ pieces.flatten := by
  constructor
  · exact written_of_writeEach_ok
  · intro all
    refine writeEach_of_not_stopped fun passed error stopped => ?_
    obtain ⟨-, taken, written, kept⟩ := writeEach_of_stopped stopped
    rw [written, ← kept] at all
    have nothing := List.append_cancel_left all
    exact stopped.unfinished (List.self_eq_append_right.mp nothing)

section Willing

theorem not_stopped_of_willing
    {script : List WriteEvent}
    (willing : ∀ event ∈ script, event.isWilling = true)
    (pieces : List Bytes) (passed : List WriteEvent) (error : IoError) :
    ¬ Stopped pieces script passed error := by
  rintro ⟨-, -, event, later, rfl, stops⟩
  have takes := willing event (List.mem_append_right passed List.mem_cons_self)
  rw [(WriteEvent.obstacle?_eq_none_iff event).mpr takes] at stops
  contradiction

theorem writeEach_of_willing (pieces : List Bytes) {sink : Sink} (willing : sink.Willing) :
    (sink.writeEach pieces).1 = .ok () :=
  writeEach_of_not_stopped (not_stopped_of_willing willing pieces)

theorem written_of_willing (pieces : List Bytes) {sink : Sink} (willing : sink.Willing) :
    (sink.writeEach pieces).2.written = sink.written ++ pieces.flatten :=
  written_of_writeEach_ok (writeEach_of_willing pieces willing)

end Willing

end Sink

end HookRelay
