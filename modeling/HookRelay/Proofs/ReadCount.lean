import HookRelay.Proofs.SendThenReceive

/-!
# One read for each event

A read loop ends because every read but the last uses up one event of the script.  An interruption
is met once and leaves the room as it was; data that fits is taken whole; and data that does not fit
stays in front of the script, but it uses up the room, so that no other read is made.  The reads of
a loop therefore meet the events one by one, and only the read at the end of the script meets none.

* `Source.exists_event_of_goes_on`: a read behind which another is made uses up one event.
* `Source.OnePerEvent`: the reads of a loop, each with the event that it meets.
* `Source.onePerEvent_of_firstFinished`: the reads up to the first with which a loop may end are
  such reads.
* `Source.reads_bounded`: the capture of standard input and the receiving of a response.
-/

namespace HookRelay
namespace Source

/-! ## Reads by their number -/

section Reads

variable {room count index : Nat} {source : Source}

/-- The room that a read is offered, by the reads before it. -/
def offered (room : Nat) (passed : List (Except IoError Bytes)) : Nat :=
  room - (gathered passed).length

theorem reads_succ (index room : Nat) (source : Source) :
    source.reads (index + 1) room =
      let passed := source.reads index room
      let next := passed.2.read (offered room passed.1)
      (passed.1 ++ [next.1], next.2) := by
  induction index generalizing room source with
  | zero =>
      simp [reads, offered, gathered]
  | succ index ih =>
      rw [reads, ih, reads]
      simp [offered, gathered, Nat.sub_sub]

theorem length_fst_reads (count room : Nat) (source : Source) :
    (source.reads count room).1.length = count := by
  induction count with
  | zero =>
      rfl
  | succ count ih =>
      rw [reads_succ]
      simp [ih]

theorem calls_reads (count room : Nat) (source : Source) :
    (source.reads count room).2.calls = source.calls + count := by
  induction count with
  | zero =>
      rfl
  | succ count ih =>
      rw [reads_succ]
      exact congrArg (· + 1) ih

/-- The first of some reads are made in the same way, whatever follows them. -/
theorem fst_reads_of_le (before : index ≤ count) :
    (source.reads index room).1 = (source.reads count room).1.take index := by
  induction count with
  | zero =>
      rw [Nat.le_zero.mp before]
      rfl
  | succ count ih =>
      rcases Nat.lt_or_eq_of_le before with earlier | rfl
      · have within : index ≤ count := Nat.le_of_lt_succ earlier
        rw [ih within, reads_succ]
        refine (List.take_append_of_le_length ?_).symm
        rw [length_fst_reads]
        exact within
      · exact (List.take_of_length_le (length_fst_reads _ room source).le).symm

end Reads

/-! ## One read -/

/-- A read that leaves room, and behind which another is made, uses up one event. -/
theorem exists_event_of_goes_on
    (stop : Bytes → Bool) {room : Nat} {script : List ReadEvent}
    (free : (taken (meet room script).1).length < room)
    (more : ¬ IsLast stop (meet room script).1) :
    ∃ event, script = event :: (meet room script).2 := by
  cases script with
  | nil =>
      exact absurd (Or.inl rfl) more
  | cons event later =>
      cases event with
      | failure error =>
          exact ⟨_, rfl⟩
      | data bytes =>
          by_cases fits : bytes.length ≤ room
          · exact ⟨.data bytes, by simp [meet, fits]⟩
          · simp only [meet, fits, if_false, taken, List.length_take] at free
            omega

/-! ## All reads of a loop -/

/-- The reads that a loop makes up to the first with which it may end, and the event that each of
them meets. -/
structure OnePerEvent
    (stop : Bytes → Bool)
    (room : Nat)
    (source left : Source)
    (outcomes : List (Except IoError Bytes)) : Prop where
  reads : source.reads outcomes.length room = (outcomes, left)
  firstFinished : FirstFinished stop room outcomes
  calls : left.calls = source.calls + outcomes.length
  /-- There is at most one read for each event, and one at the end. -/
  length_le : outcomes.length ≤ source.script.length + 1
  /-- A read is offered at least one byte. -/
  free : ∀ index < outcomes.length, 0 < offered room (outcomes.take index)
  /-- A read meets the event with its own number. -/
  meets : ∀ index < outcomes.length,
    outcomes[index]? =
      some (meet (offered room (outcomes.take index)) (source.script.drop index)).1
  /-- A read of some data returns some of it. -/
  some_of_data : ∀ index < outcomes.length, ∀ bytes,
    source.script[index]? = some (.data bytes) → bytes ≠ [] → outcomes[index]? ≠ some (.ok [])
  /-- A read of more data than it is offered room for is the last one. -/
  last_of_long : ∀ index < outcomes.length, ∀ bytes,
    source.script[index]? = some (.data bytes) →
    offered room (outcomes.take index) < bytes.length →
    index + 1 = outcomes.length
  /-- An interruption is returned by one read, and the next read meets the next event with the same
  room. -/
  again_of_interrupted : ∀ index < outcomes.length, ∀ error,
    source.script[index]? = some (.failure error) → error.isInterrupted = true →
    outcomes[index]? = some (.error error) ∧
      index + 1 < outcomes.length ∧
      offered room (outcomes.take (index + 1)) = offered room (outcomes.take index)

section Loop

variable {stop : Bytes → Bool} {room index : Nat} {source left : Source}
  {outcomes : List (Except IoError Bytes)}

/-- The data of the reads up to one of them. -/
theorem gathered_take_succ {outcome : Except IoError Bytes}
    (read : outcomes[index]? = some outcome) :
    gathered (outcomes.take (index + 1)) = gathered (outcomes.take index) ++ taken outcome := by
  rw [List.take_add_one, read, gathered, List.flatMap_append]
  simp [gathered]

theorem FirstFinished.not_finished_take
    (reading : FirstFinished stop room outcomes) (within : index < outcomes.length) :
    ¬ Finished stop room (outcomes.take index) := by
  refine reading.first _ (List.take_prefix index outcomes) ?_
  intro same
  have length := congrArg List.length same
  rw [List.length_take] at length
  omega

theorem FirstFinished.free
    (reading : FirstFinished stop room outcomes) (within : index < outcomes.length) :
    0 < offered room (outcomes.take index) := by
  have notFull := (not_or.mp (reading.not_finished_take within)).1
  rw [offered]
  omega

section Made

variable (made : source.reads outcomes.length room = (outcomes, left))
include made

/-- A read is made from the script that the reads before it leave. -/
theorem getElem?_of_reads (within : index < outcomes.length) :
    outcomes[index]? =
        some (meet (offered room (outcomes.take index)) (source.reads index room).2.script).1 ∧
      (source.reads (index + 1) room).2.script =
        (meet (offered room (outcomes.take index)) (source.reads index room).2.script).2 := by
  have passed : (source.reads index room).1 = outcomes.take index := by
    rw [fst_reads_of_le (Nat.le_of_lt within), made]
  have here : (source.reads (index + 1) room).1 = outcomes.take (index + 1) := by
    rw [fst_reads_of_le within, made]
  have length : (outcomes.take index).length = index :=
    List.length_take_of_le (Nat.le_of_lt within)
  rw [reads_succ] at here ⊢
  dsimp only at here ⊢
  rw [passed] at here ⊢
  refine ⟨?_, rfl⟩
  have last := congrArg (fun row : List (Except IoError Bytes) => row[index]?) here
  rw [List.getElem?_append_right length.le, length, Nat.sub_self,
    List.getElem?_take_of_lt (Nat.lt_succ_self index)] at last
  exact last.symm

/-- Behind a read that is followed by another, one event less is in front. -/
theorem exists_event_of_reads
    (reading : FirstFinished stop room outcomes) (followed : index + 1 < outcomes.length) :
    ∃ event,
      (source.reads index room).2.script = event :: (source.reads (index + 1) room).2.script := by
  have within : index < outcomes.length := Nat.lt_of_succ_lt followed
  obtain ⟨read, rest⟩ := getElem?_of_reads made within
  obtain ⟨notFull, goesOn⟩ := not_or.mp (reading.not_finished_take followed)
  rw [gathered_take_succ read, List.length_append] at notFull
  rw [rest]
  refine exists_event_of_goes_on stop ?_ ?_
  · exact Nat.lt_sub_iff_add_lt'.mpr (Nat.lt_of_not_le notFull)
  · intro last
    refine goesOn ⟨_, ?_, last⟩
    rw [List.take_add_one, read]
    simp

/-- In front of each read are the events from the one with its number on. -/
theorem script_reads
    (reading : FirstFinished stop room outcomes) (within : index < outcomes.length) :
    (source.reads index room).2.script = source.script.drop index := by
  induction index with
  | zero =>
      rfl
  | succ index ih =>
      obtain ⟨event, script⟩ := exists_event_of_reads made reading within
      rw [ih (Nat.lt_of_succ_lt within)] at script
      rw [← List.tail_drop, script, List.tail_cons]

theorem length_reads_le (reading : FirstFinished stop room outcomes) :
    outcomes.length ≤ source.script.length + 1 := by
  by_contra more
  have followed : source.script.length + 1 < outcomes.length := Nat.lt_of_not_le more
  obtain ⟨event, script⟩ := exists_event_of_reads made reading followed
  rw [script_reads made reading (Nat.lt_of_succ_lt followed), List.drop_length] at script
  exact absurd script (List.cons_ne_nil _ _).symm

end Made

section Event

variable (made : source.reads outcomes.length room = (outcomes, left))
  (reading : FirstFinished stop room outcomes)
  (within : index < outcomes.length)
include made reading within

theorem getElem?_eq_meet :
    outcomes[index]? =
      some (meet (offered room (outcomes.take index)) (source.script.drop index)).1 := by
  rw [← script_reads made reading within]
  exact (getElem?_of_reads made within).1

theorem getElem?_eq_meet_event {event : ReadEvent} (met : source.script[index]? = some event) :
    ∃ later,
      outcomes[index]? = some (meet (offered room (outcomes.take index)) (event :: later)).1 := by
  obtain ⟨inside, rfl⟩ := List.getElem?_eq_some_iff.mp met
  refine ⟨source.script.drop (index + 1), ?_⟩
  rw [getElem?_eq_meet made reading within, List.drop_eq_getElem_cons inside]

/-- Data is returned as far as there is room for it. -/
theorem getElem?_of_data {bytes : Bytes} (met : source.script[index]? = some (.data bytes)) :
    outcomes[index]? = some (.ok (bytes.take (offered room (outcomes.take index)))) := by
  obtain ⟨later, read⟩ := getElem?_eq_meet_event made reading within met
  rw [read, meet]
  split
  · rename_i fits
    rw [List.take_of_length_le fits]
  · rfl

theorem length_eq_of_long {bytes : Bytes}
    (met : source.script[index]? = some (.data bytes))
    (long : offered room (outcomes.take index) < bytes.length) :
    index + 1 = outcomes.length := by
  by_contra other
  have followed : index + 1 < outcomes.length := by
    omega
  have left := reading.free followed
  rw [offered, gathered_take_succ (getElem?_of_data made reading within met), taken,
    List.length_append, List.length_take] at left
  rw [offered] at long left
  omega

theorem getElem?_of_failure {error : IoError}
    (met : source.script[index]? = some (.failure error)) :
    outcomes[index]? = some (.error error) := by
  obtain ⟨later, read⟩ := getElem?_eq_meet_event made reading within met
  exact read

/-- An interruption leaves the room as it was. -/
theorem offered_succ_of_failure {error : IoError}
    (met : source.script[index]? = some (.failure error)) :
    offered room (outcomes.take (index + 1)) = offered room (outcomes.take index) := by
  have read := getElem?_of_failure made reading within met
  rw [offered, gathered_take_succ read, taken, List.append_nil, offered]

theorem followed_of_interrupted {error : IoError}
    (met : source.script[index]? = some (.failure error)) (again : error.isInterrupted = true) :
    index + 1 < outcomes.length := by
  by_contra ended
  have all : outcomes.take (index + 1) = outcomes :=
    List.take_of_length_le (Nat.le_of_not_lt ended)
  have free := reading.free within
  rw [← offered_succ_of_failure made reading within met, all, offered] at free
  rcases reading.finished with full | ⟨latest, last, ends⟩
  · omega
  · rw [← all, List.take_add_one, getElem?_of_failure made reading within met,
      Option.toList_some, List.getLast?_concat, Option.mem_some_iff] at last
    rw [← last, IsLast, again] at ends
    contradiction

end Event

/-- The reads up to the first with which a loop may end meet the events of the script one by one. -/
theorem onePerEvent_of_firstFinished
    (made : source.reads outcomes.length room = (outcomes, left))
    (reading : FirstFinished stop room outcomes) :
    OnePerEvent stop room source left outcomes where
  reads := made
  firstFinished := reading
  calls := by
    rw [← calls_reads outcomes.length room source, made]
  length_le := length_reads_le made reading
  free := fun _ within => reading.free within
  meets := fun _ within => getElem?_eq_meet made reading within
  some_of_data := by
    intro index within bytes met some
    have free := reading.free within
    rw [getElem?_of_data made reading within met]
    simp [some, Nat.ne_of_gt free]
  last_of_long := fun _ within _ met long => length_eq_of_long made reading within met long
  again_of_interrupted := fun _ within _ met again =>
    ⟨getElem?_of_failure made reading within met,
      followed_of_interrupted made reading within met again,
      offered_succ_of_failure made reading within met⟩

end Loop

/-- Both read loops end with at most one read for each event and one more, and the read with some
number is offered at least one byte and meets the event with that number. -/
theorem reads_bounded (buffer : Buffer) :
    (∀ source : Source,
      ∃ outcomes,
        OnePerEvent (fun _ => false) (buffer.capacity - 1) source (source.capture buffer).2
          outcomes) ∧
    ∀ connection : Connection,
      (connection.sink.writeEach [buffer.content, [Bytes.newline]]).1 = .ok () →
      ∃ outcomes,
        OnePerEvent Exchange.endsResponse (buffer.capacity - 1) connection.source
          (Exchange.run connection buffer).connection.source outcomes := by
  refine ⟨?_, ?_⟩
  · intro source
    obtain ⟨outcomes, made, -, reading⟩ :=
      exists_reads_readInto (fun _ => false) buffer.clear source
    rw [Buffer.room_clear] at made reading
    exact ⟨outcomes, onePerEvent_of_firstFinished made reading⟩
  · intro connection sent
    obtain ⟨outcomes, made, reading, -⟩ :=
      Exchange.exists_reads_receive buffer connection.source
    rw [Exchange.run_of_sent connection buffer sent]
    exact ⟨outcomes, onePerEvent_of_firstFinished made reading⟩

/-- There are three bytes of room for a response, and two interruptions before they are filled: four
of the five events are met, of the last of them in part. -/
theorem reads_bounded_cut :
    let interruption : ReadEvent := .failure (.plain .interrupted)
    let script : List ReadEvent :=
      [interruption, .data (Bytes.ofText "a"), interruption, .data (Bytes.ofText "bcde"),
        .failure (.plain .timedOut)]
    let connection : Connection := ⟨ofScript script, Sink.ofScript [.accept 1] none, 50⟩
    let buffer : Buffer := ⟨Bytes.ofText "xy", [0, 0]⟩
    let left := (Exchange.run connection buffer).connection.source
    left.script = [.data (Bytes.ofText "de"), .failure (.plain .timedOut)] ∧
      ∃ outcomes,
        OnePerEvent Exchange.endsResponse 3 connection.source left outcomes ∧
          outcomes.length = 4 := by
  intro interruption script connection buffer left
  obtain ⟨outcomes, reads⟩ := (reads_bounded buffer).2 connection (by decide)
  have calls : left.calls = 4 := by
    rfl
  refine ⟨rfl, outcomes, reads, ?_⟩
  rw [← calls, reads.calls]
  exact (Nat.zero_add _).symm

end Source
end HookRelay
