import HookRelay.Proofs.CheckedCells
import HookRelay.Wire.Exchange
import HookRelay.Wire.Request

/-!
# Reading, splicing and exchanging with every position checked

The loop that reads into a buffer offers each read the spare cells, and for a response it looks at
the slice that the last read has added.  The request of the ambient hook is made from the slice
behind the first brace.  None of these positions is ever out of range, for any number of cells and
whatever the reads bring.

* `Cells.readLoop?`, `Cells.capture?`, `Cells.exchange?`, `Cells.splice?`: the same as for a buffer,
  with every position checked.
* `Buffer.Step`, `Buffer.Reachable`: what is done to a buffer, and the buffers that come of it.
* `Buffer.Reachable.usable`: what holds of all of these buffers, and `Cells.step?_ofBuffer`: every
  step goes through in them.
-/

namespace HookRelay

/-! ## One read -/

namespace Source

variable {room : Nat} {script left : List ReadEvent}

/-- A read returns no more than it is offered.  Unless it returns nothing, it uses up an event, or
it returns as much as it is offered and leaves the rest of the event. -/
theorem length_of_meet_ok {bytes : Bytes} (met : meet room script = (.ok bytes, left)) :
    bytes.length ≤ room ∧
      (bytes = [] ∨ left.length < script.length ∨
        bytes.length = room ∧ 0 < left.length ∧ left.length ≤ script.length) := by
  cases script with
  | nil =>
      obtain ⟨outcome, -⟩ := Prod.mk.inj met
      rw [← Except.ok.inj outcome]
      exact ⟨Nat.zero_le room, Or.inl rfl⟩
  | cons event later =>
      cases event with
      | failure error =>
          cases met
      | data arrived =>
          by_cases fits : arrived.length ≤ room
          · rw [meet, if_pos fits] at met
            cases met
            exact ⟨fits, Or.inr (Or.inl (Nat.lt_succ_self _))⟩
          · rw [meet, if_neg fits] at met
            cases met
            have whole : (arrived.take room).length = room := by
              rw [List.length_take]
              omega
            exact ⟨Nat.le_of_eq whole, Or.inr (Or.inr ⟨whole, Nat.succ_pos _, Nat.le_refl _⟩)⟩

theorem length_of_meet_error {error : IoError} (met : meet room script = (.error error, left)) :
    left.length < script.length := by
  cases script with
  | nil =>
      cases met
  | cons event later =>
      cases event with
      | failure error =>
          cases met
          exact Nat.lt_succ_self _
      | data arrived =>
          by_cases fits : arrived.length ≤ room
          · rw [meet, if_pos fits] at met
            cases met
          · rw [meet, if_neg fits] at met
            cases met

variable {stop : Bytes → Bool} {buffer : Buffer}

theorem readInto_of_isFull (full : buffer.isFull = true) (source : Source) :
    source.readInto stop buffer = (buffer, source) := by
  rw [readInto, Intake.gather_of_isFull stop full]
  rfl

/-- One read is made, and what it returns decides whether the reading goes on. -/
theorem readInto_of_not_isFull (free : buffer.isFull = false) (source : Source) :
    source.readInto stop buffer =
      match source.read buffer.room with
      | (.ok bytes, left) =>
          if bytes = [] ∨ stop bytes = true then
            (buffer.push bytes, left)
          else
            left.readInto stop (buffer.push bytes)
      | (.error error, left) =>
          if error.isInterrupted = true then left.readInto stop buffer else (buffer, left) := by
  rw [readInto, Intake.gather_of_not_isFull stop free, read]
  cases meet buffer.room source.script with
  | mk outcome left =>
      cases outcome with
      | ok bytes =>
          dsimp only
          split
          · rfl
          · simp [readInto, Intake.after, Nat.add_assoc, Nat.add_comm 1]
      | error error =>
          dsimp only
          split
          · simp [readInto, Intake.after, Nat.add_assoc, Nat.add_comm 1]
          · rfl

end Source

theorem Request.afterBrace_eq (input : Bytes) :
    afterBrace input =
      (input.findIdx? (· == openingBrace)).map fun brace => input.drop (brace + 1) := by
  induction input with
  | nil =>
      rfl
  | cons byte later ih =>
      rw [afterBrace, List.findIdx?_cons]
      by_cases brace : byte = openingBrace
      · simp [brace]
      · simp [brace, ih, Function.comp_def]

theorem Buffer.Usable.readInto {buffer : Buffer} (h : buffer.Usable) (stop : Bytes → Bool)
    (source : Source) : (source.readInto stop buffer).1.Usable :=
  h.of_capacity_eq (Intake.reserved_gather stop h.reserved source.script)
    (Intake.capacity_gather stop buffer source.script)

/-! ## The loop -/

namespace Cells

/-- Put into the spare cells what a read has returned, and show it unless it is nothing. -/
def accept? (bytes : Bytes) (cells : Cells) : Option Cells := do
  let written ← cells.writeSpare? bytes
  if bytes = [] then
    return written
  else
    written.advance? bytes.length

/-- Reads into the spare cells, as many as are allowed.  The loop ends when the cells are full, when
a read returns nothing or fails, or when the content from the position before the read is an end. -/
def readLoop? (ends? : Nat → Cells → Option Bool) : Nat → Cells → Source → Option (Cells × Source)
  | 0, _, _ => none
  | passes + 1, cells, source => do
      if ← cells.isFull? then
        return (cells, source)
      else
        match source.read (← cells.spare?).length with
        | (.error error, left) =>
            if error.isInterrupted then
              readLoop? ends? passes cells left
            else
              return (cells, left)
        | (.ok bytes, left) =>
            let shown ← cells.accept? bytes
            if bytes = [] then
              return (shown, left)
            else if ← ends? cells.length shown then
              return (shown, left)
            else
              readLoop? ends? passes shown left

/-- Nothing that is read ends the loop. -/
def goesOn? (_ : Nat) (_ : Cells) : Option Bool :=
  some false

/-- A chunk with a line feed ends the response. -/
def endsResponse? (start : Nat) (cells : Cells) : Option Bool := do
  let content ← cells.content?
  let chunk ← Bytes.slice? start content.length content
  return Exchange.endsResponse chunk

def capture? (source : Source) (cells : Cells) : Option (Cells × Source) := do
  let (filled, left) ←
    readLoop? goesOn? (source.script.length + 1) (← cells.clear?) source
  return (← filled.terminate?, left)

def receive? (source : Source) (cells : Cells) : Option (Cells × Source) := do
  let (filled, left) ←
    readLoop? endsResponse? (source.script.length + 1) (← cells.clear?) source
  return (← filled.trim?, left)

def exchange? (connection : Connection) (cells : Cells) :
    Option (Except RelayError Nat × Cells × Connection) := do
  match connection.sink.writeEach [← cells.content?, [Bytes.newline]] with
  | (.error error, sink) =>
      return (.error (.send error), cells, { connection with sink := sink })
  | (.ok (), sink) =>
      let (response, source) ← cells.receive? connection.source
      return (.ok response.length, response, { connection with sink := sink, source := source })

/-- The outer option is that of the positions, the inner one that of the request. -/
def splice? (opening input : Bytes) (cells : Cells) : Option (Option Cells) := do
  match input.findIdx? (· == Request.openingBrace) with
  | none => return none
  | some brace =>
      let rest ← Bytes.trimEnd? (← Bytes.slice? (brace + 1) input.length input)
      if opening.length + rest.length < cells.row.length then
        let opened ← (← cells.clear?).push? opening
        let request ← (← opened.push? rest).terminate?
        return some request
      else
        return none

section OfBuffer

variable {buffer : Buffer}

theorem accept?_ofBuffer (usable : buffer.Usable) {bytes : Bytes}
    (fits : bytes.length ≤ buffer.room) :
    (ofBuffer buffer).accept? bytes = some (ofBuffer (buffer.push bytes)) := by
  have pushed : buffer.push bytes = (buffer.fill bytes).advance bytes.length := by
    rw [Buffer.push, Buffer.accepted, Nat.min_eq_left fits]
  have room : bytes.length ≤ (buffer.fill bytes).room := by
    rwa [Buffer.room, Buffer.length_fill_rest]
  simp only [accept?, writeSpare?_ofBuffer usable fits, Option.bind_eq_bind, Option.bind_some]
  split
  · rename_i nothing
    rw [pushed, nothing]
    simp [ofBuffer, Buffer.advance, Buffer.length]
  · rw [advance?_ofBuffer_of_le_room (usable.fill bytes) room, pushed]

theorem readLoop?_of_isFull {ends? : Nat → Cells → Option Bool} {passes : Nat}
    (usable : buffer.Usable) (full : buffer.isFull = true) (source : Source) :
    readLoop? ends? (passes + 1) (ofBuffer buffer) source = some (ofBuffer buffer, source) := by
  simp [readLoop?, isFull?_ofBuffer usable, full]

section Pass

variable {stop : Bytes → Bool} {ends? : Nat → Cells → Option Bool}
variable
  (same : ∀ {buffer : Buffer} {bytes : Bytes},
    bytes.length ≤ buffer.room →
      ends? buffer.length (ofBuffer (buffer.push bytes)) = some (stop bytes))
include same

/-- A pass over the cells does what a pass over the buffer does. -/
theorem readLoop?_of_not_isFull {passes : Nat} (usable : buffer.Usable)
    (free : buffer.isFull = false) (source : Source) :
    readLoop? ends? (passes + 1) (ofBuffer buffer) source =
      match source.read buffer.room with
      | (.ok bytes, left) =>
          if bytes = [] ∨ stop bytes = true then
            some (ofBuffer (buffer.push bytes), left)
          else
            readLoop? ends? passes (ofBuffer (buffer.push bytes)) left
      | (.error error, left) =>
          if error.isInterrupted = true then
            readLoop? ends? passes (ofBuffer buffer) left
          else
            some (ofBuffer buffer, left) := by
  simp only [readLoop?, isFull?_ofBuffer usable, free, spare?_ofBuffer usable, length_take_room,
    Option.bind_eq_bind, Option.bind_some, Option.pure_def, Bool.false_eq_true, if_false,
    Source.read]
  cases met : Source.meet buffer.room source.script with
  | mk outcome left =>
      cases outcome with
      | error error =>
          rfl
      | ok bytes =>
          have fits := (Source.length_of_meet_ok met).1
          simp only [accept?_ofBuffer usable fits, Option.bind_some, length_ofBuffer, same fits]
          by_cases nothing : bytes = []
          · rw [if_pos nothing, if_pos (Or.inl nothing)]
          · rw [if_neg nothing]
            simp only [nothing, false_or]

/-- As many passes as there are events, and one more, are enough: a pass uses up an event, or it is
followed by the last one. -/
theorem readLoop?_ofBuffer (passes : Nat) :
    ∀ {buffer : Buffer} {source : Source},
      buffer.Usable →
      source.script.length < passes ∨ buffer.isFull = true ∧ 0 < passes →
        readLoop? ends? passes (ofBuffer buffer) source =
          some (ofBuffer (source.readInto stop buffer).1, (source.readInto stop buffer).2) := by
  induction passes with
  | zero =>
      intro buffer source _ enough
      omega
  | succ passes ih =>
      intro buffer source usable enough
      cases full : buffer.isFull with
      | true =>
          rw [Source.readInto_of_isFull full, readLoop?_of_isFull usable full]
      | false =>
          have more : source.script.length < passes + 1 := by
            simpa [full] using enough
          rw [Source.readInto_of_not_isFull full, readLoop?_of_not_isFull same usable full,
            Source.read]
          cases met : Source.meet buffer.room source.script with
          | mk outcome left =>
              cases outcome with
              | error error =>
                  have fewer := Source.length_of_meet_error met
                  dsimp only
                  split
                  · exact ih usable (Or.inl (by dsimp only; omega))
                  · rfl
              | ok bytes =>
                  obtain ⟨-, progress⟩ := Source.length_of_meet_ok met
                  dsimp only
                  split
                  · rfl
                  · rename_i goesOn
                    refine ih (usable.push bytes) ?_
                    rcases progress with empty | fewer | ⟨whole, rest, kept⟩
                    · exact absurd (Or.inl empty) goesOn
                    · exact Or.inl (by dsimp only; omega)
                    · have isFull : (buffer.push bytes).isFull = true := by
                        rw [Buffer.isFull, Buffer.room_push, whole, Nat.sub_self]
                        rfl
                      exact Or.inr ⟨isFull, by omega⟩

end Pass

theorem capture?_ofBuffer (usable : buffer.Usable) (source : Source) :
    (ofBuffer buffer).capture? source =
      some (ofBuffer (source.capture buffer).1, (source.capture buffer).2) := by
  have goesOn {buffer : Buffer} {bytes : Bytes} (_ : bytes.length ≤ buffer.room) :
      goesOn? buffer.length (ofBuffer (buffer.push bytes)) = some false :=
    rfl
  have read := readLoop?_ofBuffer goesOn (source.script.length + 1) usable.clear
    (Or.inl (Nat.lt_succ_self _))
  have filled := usable.clear.readInto (fun _ => false) source
  simp only [capture?, clear?_ofBuffer usable, Option.bind_eq_bind, Option.bind_some, read,
    terminate?_ofBuffer filled]
  rfl

/-- The chunk that a read has added is the slice from where the content ended before. -/
theorem endsResponse?_ofBuffer {bytes : Bytes} (fits : bytes.length ≤ buffer.room) :
    endsResponse? buffer.length (ofBuffer (buffer.push bytes)) =
      some (Exchange.endsResponse bytes) := by
  have content : (buffer.push bytes).content = buffer.content ++ bytes := by
    rw [Buffer.content_push, List.take_of_length_le fits]
  have chunk :
      Bytes.slice? buffer.length (buffer.content ++ bytes).length (buffer.content ++ bytes) =
        some bytes := by
    rw [Buffer.length, Bytes.slice?_drop (by simp), List.drop_left]
  simp only [endsResponse?, content?_ofBuffer, content, Option.bind_eq_bind, Option.bind_some,
    chunk]
  rfl

theorem receive?_ofBuffer (usable : buffer.Usable) (source : Source) :
    (ofBuffer buffer).receive? source =
      some (ofBuffer (Exchange.receive buffer source).1, (Exchange.receive buffer source).2) := by
  have read := readLoop?_ofBuffer endsResponse?_ofBuffer (source.script.length + 1) usable.clear
    (Or.inl (Nat.lt_succ_self _))
  have filled := usable.clear.readInto Exchange.endsResponse source
  simp only [receive?, clear?_ofBuffer usable, Option.bind_eq_bind, Option.bind_some, read,
    trim?_ofBuffer filled]
  rfl

theorem exchange?_ofBuffer (usable : buffer.Usable) (connection : Connection) :
    (ofBuffer buffer).exchange? connection =
      some ((Exchange.run connection buffer).result,
        ofBuffer (Exchange.run connection buffer).buffer,
        (Exchange.run connection buffer).connection) := by
  simp only [exchange?, content?_ofBuffer, Option.bind_eq_bind, Option.bind_some, Exchange.run,
    receive?_ofBuffer usable]
  cases connection.sink.writeEach [buffer.content, [Bytes.newline]] with
  | mk outcome sink =>
      cases outcome with
      | error error => rfl
      | ok => rfl

theorem splice?_ofBuffer (usable : buffer.Usable) (opening input : Bytes) :
    (ofBuffer buffer).splice? opening input =
      some ((Request.splice opening input buffer).map ofBuffer) := by
  cases brace : input.findIdx? (· == Request.openingBrace) with
  | none =>
      have found : Request.members input = none := by
        rw [Request.members, Request.afterBrace_eq, brace]
        rfl
      simp [splice?, brace, Request.splice, found]
  | some position =>
      have found : Request.members input = some (Bytes.trimEnd (input.drop (position + 1))) := by
        rw [Request.members, Request.afterBrace_eq, brace]
        rfl
      have inside : position + 1 ≤ input.length :=
        (List.findIdx?_eq_some_iff_findIdx_eq.mp brace).1
      have clear := usable.clear
      have opened := clear.push opening
      have request := opened.push (Bytes.trimEnd (input.drop (position + 1)))
      simp only [splice?, brace, Bytes.slice?_drop inside, Bytes.trimEnd?_eq, Option.bind_eq_bind,
        Option.bind_some, Option.pure_def, length_row_ofBuffer, Request.splice, found]
      split
      · simp only [clear?_ofBuffer usable, push?_ofBuffer clear, push?_ofBuffer opened,
          terminate?_ofBuffer request, Option.bind_some, Option.map_some]
      · rfl

end OfBuffer

end Cells

/-! ## All that is done to a buffer -/

namespace Buffer

/-- What is done to a buffer, with what is given to it. -/
inductive Step where
  | push (bytes : Bytes)
  | fill (bytes : Bytes)
  | advance (count : Nat)
  | clear
  | terminate
  | trim
  | capture (source : Source)
  | splice (opening input : Bytes)
  | exchange (connection : Connection)

/-- The length and the number of cells that are shown have a machine word as their sum. -/
def Step.Countable (buffer : Buffer) : Step → Prop
  | .advance count => buffer.length + count < UInt64.size
  | _ => True

def step (buffer : Buffer) : Step → Buffer
  | .push bytes => buffer.push bytes
  | .fill bytes => buffer.fill bytes
  | .advance count => buffer.advance count
  | .clear => buffer.clear
  | .terminate => buffer.terminate
  | .trim => buffer.trim
  | .capture source => (source.capture buffer).1
  | .splice opening input => (Request.splice opening input buffer).getD buffer
  | .exchange connection => (Exchange.run connection buffer).buffer

/-- The buffers that come of a new one. -/
inductive Reachable (capacity : Nat) : Buffer → Prop where
  | new : Reachable capacity (Buffer.new capacity)
  | step {buffer : Buffer} (step : Step) (h : Reachable capacity buffer)
      (countable : step.Countable buffer) : Reachable capacity (buffer.step step)

end Buffer

/-- The same, with every position checked. -/
def Cells.step? (cells : Cells) : Buffer.Step → Option Cells
  | .push bytes => cells.push? bytes
  | .fill bytes => (cells.fill? bytes).map Prod.fst
  | .advance count => cells.advance? count
  | .clear => cells.clear?
  | .terminate => cells.terminate?
  | .trim => cells.trim?
  | .capture source => (cells.capture? source).map Prod.fst
  | .splice opening input => (cells.splice? opening input).map fun request => request.getD cells
  | .exchange connection => (cells.exchange? connection).map fun exchanged => exchanged.2.1

theorem Cells.step?_ofBuffer {buffer : Buffer} (usable : buffer.Usable) (step : Buffer.Step)
    (countable : step.Countable buffer) :
    (ofBuffer buffer).step? step = some (ofBuffer (buffer.step step)) := by
  cases step with
  | push bytes => exact push?_ofBuffer usable bytes
  | fill bytes => exact congrArg (Option.map Prod.fst) (fill?_ofBuffer usable bytes)
  | advance count => exact advance?_ofBuffer usable countable
  | clear => exact clear?_ofBuffer usable
  | terminate => exact terminate?_ofBuffer usable
  | trim => exact trim?_ofBuffer usable
  | capture source => exact congrArg (Option.map Prod.fst) (capture?_ofBuffer usable source)
  | splice opening input =>
      rw [step?, splice?_ofBuffer usable, Option.map_some, Buffer.step]
      cases Request.splice opening input buffer <;> rfl
  | exchange connection =>
      rw [step?, exchange?_ofBuffer usable]
      rfl

namespace Buffer

theorem Usable.of_splice {buffer request : Buffer} (h : buffer.Usable) {opening input : Bytes}
    (made : Request.splice opening input buffer = some request) : request.Usable := by
  unfold Request.splice at made
  split at made
  · cases made
  · split at made
    · cases made
      exact ((h.clear.push opening).push _).terminate
    · cases made

theorem Usable.exchange {buffer : Buffer} (h : buffer.Usable) (connection : Connection) :
    (Exchange.run connection buffer).buffer.Usable := by
  unfold Exchange.run
  split
  · exact h
  · exact (h.clear.readInto _ _).trim

theorem Usable.step {buffer : Buffer} (h : buffer.Usable) (step : Step) :
    (buffer.step step).Usable := by
  cases step with
  | push bytes => exact h.push bytes
  | fill bytes => exact h.fill bytes
  | advance count => exact h.advance count
  | clear => exact h.clear
  | terminate => exact h.terminate
  | trim => exact h.trim
  | capture source => exact (h.clear.readInto _ source).terminate
  | splice opening input =>
      rw [Buffer.step]
      cases made : Request.splice opening input buffer with
      | none => exact h
      | some request => exact h.of_splice made
  | exchange connection => exact h.exchange connection

/-- No step changes the number of cells. -/
theorem capacity_step (buffer : Buffer) (step : Step) :
    (buffer.step step).capacity = buffer.capacity := by
  cases step with
  | push bytes => exact capacity_push buffer bytes
  | fill bytes => exact capacity_fill buffer bytes
  | advance count => exact capacity_advance buffer count
  | clear => exact capacity_clear buffer
  | terminate => exact capacity_terminate buffer
  | trim => exact capacity_trim buffer
  | capture source => simp [Buffer.step, Source.capture, Source.readInto]
  | splice opening input =>
      rw [Buffer.step]
      cases made : Request.splice opening input buffer with
      | none => rfl
      | some request => exact Request.capacity_of_splice made
  | exchange connection =>
      rw [Buffer.step, Exchange.run]
      split
      · rfl
      · simp [Exchange.receive, Source.readInto]

section Reachable

variable {capacity : Nat} {buffer : Buffer}

theorem Reachable.capacity_eq (h : Reachable capacity buffer) : buffer.capacity = capacity := by
  induction h with
  | new => exact capacity_new capacity
  | step step _ _ ih => rw [capacity_step, ih]

theorem Reachable.usable (positive : 0 < capacity) (word : capacity < UInt64.size)
    (h : Reachable capacity buffer) : buffer.Usable := by
  induction h with
  | new => exact .new positive word
  | step step _ _ ih => exact ih.step step

end Reachable

end Buffer
end HookRelay
