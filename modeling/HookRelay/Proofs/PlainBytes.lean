import HookRelay.Proofs.Arrival
import HookRelay.Wire.Request

/-!
# Buffers as plain byte strings

Nothing is ever erased from the cells behind the content of a buffer, and making cells visible shows
whatever they hold.  Seen from outside, a buffer is nevertheless a plain byte string with a limit.

* `Buffer.Operation`: everything that is done to a buffer, to prepare or to use it.
* `Buffer.Observation`: everything that can be seen of a buffer after an operation.
* `Buffer.Plain.perform`: what the operations do to a byte string with a limit.
* `Buffer.Represents`: a buffer has that byte string as its content and that limit.

`Represents.perform` says that an operation gives back the same on both sides and keeps them
together; `observations_eq_plain` is its consequence for all runs.
-/

namespace HookRelay
namespace Buffer

/-- An operation on a buffer, with what is given to it. -/
inductive Operation where
  | push (bytes : Bytes)
  /-- Write into the cells behind the content, then show some of what was written. -/
  | fill (bytes : Bytes) (count : Nat)
  | clear
  | terminate
  | trim
  | capture (source : Source)
  | splice (opening input : Bytes)
  | exchange (connection : Connection)

/-- What an operation gives back. -/
inductive Outcome where
  | nothing
  | count (count : Nat)
  | request (length : Option Nat)
  | response (result : Except RelayError Nat) (sent : Bytes)

/-- What an operation gives back, and what can be seen of the buffer behind it. -/
structure Observation where
  outcome : Outcome
  content : Bytes
  length : Nat
  isEmpty : Bool
  isFull : Bool
  room : Nat

def perform (buffer : Buffer) : Operation → Outcome × Buffer
  | .push bytes => (.count (buffer.accepted bytes), buffer.push bytes)
  | .fill bytes count =>
      (.count (buffer.accepted bytes),
        (buffer.fill bytes).advance (min count (buffer.accepted bytes)))
  | .clear => (.nothing, buffer.clear)
  | .terminate => (.nothing, buffer.terminate)
  | .trim => (.nothing, buffer.trim)
  | .capture source =>
      let captured := (source.capture buffer).1
      (.count captured.length, captured)
  | .splice opening input =>
      match Request.splice opening input buffer with
      | none => (.request none, buffer)
      | some request => (.request (some request.length), request)
  | .exchange connection =>
      let exchange := Exchange.run connection buffer
      (.response exchange.result exchange.connection.sink.written, exchange.buffer)

def observation (outcome : Outcome) (buffer : Buffer) : Observation :=
  ⟨outcome, buffer.content, buffer.length, buffer.isEmpty, buffer.isFull, buffer.room⟩

/-- What is seen of a buffer while operations are performed on it. -/
def observations (buffer : Buffer) : List Operation → List Observation
  | [] => []
  | operation :: later =>
      let performed := buffer.perform operation
      performed.2.observation performed.1 :: performed.2.observations later

namespace Plain

/-- What the operations do to a byte string that may grow up to a limit. -/
def perform (limit : Nat) (bytes : Bytes) : Operation → Outcome × Bytes
  | .push more =>
      let fitting := more.take (limit - bytes.length)
      (.count fitting.length, bytes ++ fitting)
  | .fill more count =>
      let fitting := more.take (limit - bytes.length)
      (.count fitting.length, bytes ++ fitting.take count)
  | .clear => (.nothing, [])
  | .terminate => (.nothing, bytes)
  | .trim => (.nothing, Bytes.trimEnd bytes)
  | .capture source =>
      let arrived := (Source.delivered source.script).take limit
      (.count arrived.length, arrived)
  | .splice opening input =>
      match Request.members input with
      | none => (.request none, bytes)
      | some rest =>
          if (opening ++ rest).length ≤ limit then
            (.request (some (opening ++ rest).length), opening ++ rest)
          else
            (.request none, bytes)
  | .exchange connection =>
      let sending := connection.sink.writeEach [bytes, [Bytes.newline]]
      match sending.1 with
      | .error error => (.response (.error (.send error)) sending.2.written, bytes)
      | .ok () =>
          let arrived := Source.deliveredUntil Exchange.endsResponse connection.source.script
          let response := Bytes.trimEnd (arrived.take limit)
          (.response (.ok response.length) sending.2.written, response)

def observation (limit : Nat) (outcome : Outcome) (bytes : Bytes) : Observation :=
  ⟨outcome, bytes, bytes.length, bytes.isEmpty, decide (limit ≤ bytes.length),
    limit - bytes.length⟩

def observations (limit : Nat) (bytes : Bytes) : List Operation → List Observation
  | [] => []
  | operation :: later =>
      let performed := perform limit bytes operation
      observation limit performed.1 performed.2 :: observations limit performed.2 later

end Plain

/-- The content of a buffer is a byte string within a limit, and one cell is left beyond the
limit. -/
structure Represents (limit : Nat) (buffer : Buffer) (bytes : Bytes) : Prop where
  content : buffer.content = bytes
  capacity : buffer.capacity = limit + 1
  fits : bytes.length ≤ limit

namespace Represents

variable {limit : Nat} {buffer : Buffer} {bytes : Bytes} (h : Represents limit buffer bytes)
include h

theorem room : buffer.room = limit - bytes.length := by
  have cells := h.capacity
  rw [Buffer.capacity, h.content] at cells
  rw [Buffer.room]
  omega

theorem accepted (more : Bytes) :
    buffer.accepted more = (more.take (limit - bytes.length)).length := by
  rw [Buffer.accepted, h.room, List.length_take, Nat.min_comm]

theorem observation (outcome : Outcome) :
    buffer.observation outcome = Plain.observation limit outcome bytes := by
  have full : buffer.isFull = decide (limit ≤ bytes.length) := by
    rw [Buffer.isFull, h.room, Bool.eq_iff_iff, beq_iff_eq, decide_eq_true_iff]
    omega
  rw [Buffer.observation, Plain.observation, Buffer.length, Buffer.isEmpty, full, h.room, h.content]

/-! ### One operation -/

theorem push (more : Bytes) :
    Represents limit (buffer.push more) (bytes ++ more.take (limit - bytes.length)) := by
  have fits := h.fits
  refine ⟨?_, by rw [capacity_push, h.capacity], ?_⟩
  · rw [content_push, h.content, h.room]
  · simp only [List.length_append, List.length_take]
    omega

theorem fill (more : Bytes) (count : Nat) :
    Represents limit ((buffer.fill more).advance (min count (buffer.accepted more)))
      (bytes ++ (more.take (limit - bytes.length)).take count) := by
  have fits := h.fits
  refine ⟨?_, by rw [capacity_advance, capacity_fill, h.capacity], ?_⟩
  · rw [content_advance_fill buffer (Nat.min_le_right _ _), h.content, h.room, h.accepted,
      ← List.take_eq_take_min]
  · simp only [List.length_append, List.length_take]
    omega

theorem trim : Represents limit buffer.trim (Bytes.trimEnd bytes) := by
  refine ⟨?_, by rw [capacity_trim, h.capacity], ?_⟩
  · rw [content_trim, h.content]
  · exact (Bytes.length_trimEnd_le bytes).trans h.fits

theorem capture (source : Source) :
    Represents limit (source.capture buffer).1 ((Source.delivered source.script).take limit) := by
  refine ⟨?_, ?_, List.length_take_le limit _⟩
  · rw [Source.content_capture, h.capacity, Nat.add_sub_cancel]
  · simp [Source.capture, Source.readInto, h.capacity]

theorem splice
    {opening input rest : Bytes}
    (found : Request.members input = some rest)
    (fits : (opening ++ rest).length ≤ limit) :
    ∃ request,
      Request.splice opening input buffer = some request ∧
        Represents limit request (opening ++ rest) := by
  have place : opening.length + rest.length < buffer.capacity := by
    rw [h.capacity, ← List.length_append]
    omega
  obtain ⟨request, made⟩ : ∃ request, Request.splice opening input buffer = some request :=
    ⟨_, by rw [Request.splice, found]; exact if_pos place⟩
  obtain ⟨others, same, content⟩ := Request.content_of_splice made
  rw [found, Option.some.injEq] at same
  refine ⟨request, made, by rw [content, same], ?_, fits⟩
  rw [Request.capacity_of_splice made, h.capacity]

theorem splice_of_too_long
    {opening input rest : Bytes}
    (found : Request.members input = some rest)
    (long : ¬ (opening ++ rest).length ≤ limit) :
    Request.splice opening input buffer = none := by
  have place : ¬ opening.length + rest.length < buffer.capacity := by
    rw [h.capacity, ← List.length_append]
    omega
  rw [Request.splice, found]
  exact if_neg place

theorem receive (source : Source) :
    Represents limit (Exchange.receive buffer source).1
      (Bytes.trimEnd
        ((Source.deliveredUntil Exchange.endsResponse source.script).take limit)) := by
  refine ⟨?_, ?_, (Bytes.length_trimEnd_le _).trans (List.length_take_le limit _)⟩
  · rw [Exchange.content_receive, h.capacity, Nat.add_sub_cancel]
  · simp [Exchange.receive, Source.readInto, h.capacity]

/-- An operation gives back the same for a buffer and for the byte string that it represents, and
the buffer represents the byte string behind it. -/
theorem perform (operation : Operation) :
    (buffer.perform operation).1 = (Plain.perform limit bytes operation).1 ∧
      Represents limit (buffer.perform operation).2 (Plain.perform limit bytes operation).2 := by
  cases operation with
  | push more =>
      exact ⟨congrArg Outcome.count (h.accepted more), h.push more⟩
  | fill more count =>
      exact ⟨congrArg Outcome.count (h.accepted more), h.fill more count⟩
  | clear =>
      exact ⟨rfl, rfl, by rw [← h.capacity]; exact capacity_clear buffer, Nat.zero_le limit⟩
  | terminate =>
      exact ⟨rfl, h.content, by rw [← h.capacity]; exact capacity_terminate buffer, h.fits⟩
  | trim =>
      exact ⟨rfl, h.trim⟩
  | capture source =>
      have captured := h.capture source
      exact ⟨congrArg (Outcome.count ∘ List.length) captured.content, captured⟩
  | splice opening input =>
      cases found : Request.members input with
      | none =>
          have made : Request.splice opening input buffer = none := by
            rw [Request.splice, found]
          simp only [Buffer.perform, Plain.perform, made, found]
          exact ⟨trivial, h⟩
      | some rest =>
          by_cases fits : (opening ++ rest).length ≤ limit
          · obtain ⟨request, made, represents⟩ := h.splice found fits
            simp only [Buffer.perform, Plain.perform, made, found, fits, if_true]
            exact ⟨by rw [Buffer.length, represents.content], represents⟩
          · have made := h.splice_of_too_long found fits
            simp only [Buffer.perform, Plain.perform, made, found, if_neg fits]
            exact ⟨trivial, h⟩
  | exchange connection =>
      cases sent : (connection.sink.writeEach [bytes, [Bytes.newline]]).1 with
      | error error =>
          have refused :
              connection.sink.writeEach [buffer.content, [Bytes.newline]] = (.error error, _) :=
            Prod.ext (by rw [h.content, sent]) rfl
          have ran := Exchange.run_of_not_sent refused
          simp only [Buffer.perform, Plain.perform, ran, sent]
          exact ⟨by rw [h.content], h⟩
      | ok =>
          have ran := Exchange.run_of_sent connection buffer (by rw [h.content, sent])
          have received := h.receive connection.source
          simp only [Buffer.perform, Plain.perform, ran, sent]
          exact ⟨by rw [Buffer.length, received.content, h.content], received⟩

end Represents

/-- A buffer that is in use represents its content. -/
theorem represents_content {buffer : Buffer} (h : buffer.Reserved) :
    Represents (buffer.capacity - 1) buffer buffer.content := by
  have behind := (reserved_iff buffer).mp h
  rw [length] at behind
  exact ⟨rfl, by omega, by omega⟩

/-- What is seen of a buffer is what is seen of the byte string that it represents. -/
theorem Represents.observations
    {limit : Nat} {buffer : Buffer} {bytes : Bytes}
    (h : Represents limit buffer bytes)
    (operations : List Operation) :
    buffer.observations operations = Plain.observations limit bytes operations := by
  induction operations generalizing buffer bytes with
  | nil =>
      rfl
  | cons operation later ih =>
      obtain ⟨same, next⟩ := h.perform operation
      rw [Buffer.observations, Plain.observations, ih next, next.observation, same]

/-- No operation makes the content longer than the limit. -/
theorem Represents.length_content_le
    {limit : Nat} {buffer : Buffer} {bytes : Bytes}
    (h : Represents limit buffer bytes)
    (operations : List Operation) :
    ∀ seen ∈ buffer.observations operations, seen.content.length ≤ limit := by
  induction operations generalizing buffer bytes with
  | nil =>
      exact List.forall_mem_nil _
  | cons operation later ih =>
      obtain ⟨-, next⟩ := h.perform operation
      refine List.forall_mem_cons.mpr ⟨?_, ih next⟩
      rw [Buffer.observation, next.content]
      exact next.fits

/-- All that can be seen of a buffer, whatever is done to it, is what can be seen of a byte string
with a limit; so what is left in the cells behind its content is never seen. -/
theorem observations_eq_plain
    (capacity : Nat)
    (positive : 0 < capacity)
    (operations : List Operation) :
    (new capacity).observations operations =
        Plain.observations (capacity - 1) [] operations ∧
      (∀ seen ∈ (new capacity).observations operations, seen.content.length ≤ capacity - 1) ∧
      ∀ buffer stale : Buffer,
        buffer.Reserved →
        stale.Reserved →
        stale.content = buffer.content →
        stale.capacity = buffer.capacity →
        stale.observations operations = buffer.observations operations := by
  have start : Represents (capacity - 1) (new capacity) [] := by
    refine ⟨rfl, ?_, Nat.zero_le _⟩
    rw [capacity_new]
    omega
  refine ⟨start.observations operations, start.length_content_le operations, ?_⟩
  intro buffer stale inUse inUseToo content cells
  rw [(represents_content inUse).observations, (represents_content inUseToo).observations, content,
    cells]

/-- In a buffer of four cells, `abc` is cut off from a longer text, dropped and overwritten by one
byte; the cells that still hold `bc` are not seen, also where they are filled and trimmed again. -/
theorem observations_eq_plain_overwritten :
    let operations : List Operation :=
      [.push (Bytes.ofText "abcdef"), .clear, .fill (Bytes.ofText "xyz") 1, .terminate,
        .push (Bytes.ofText " \n\n"), .trim]
    ((new 4).observations operations).map (fun seen => (seen.content, seen.room)) =
        [(Bytes.ofText "abc", 0), ([], 3), (Bytes.ofText "x", 2), (Bytes.ofText "x", 2),
          (Bytes.ofText "x \n", 0), (Bytes.ofText "x", 2)] ∧
      (Buffer.mk (Bytes.ofText "x") [0x62, 0x63, 0x64]).observations operations =
        (Buffer.mk (Bytes.ofText "x") [0, 0, 0]).observations operations := by
  intro operations
  obtain ⟨same, -, stale⟩ := observations_eq_plain 4 (by decide) operations
  refine ⟨?_, stale _ _ (List.cons_ne_nil _ _) (List.cons_ne_nil _ _) rfl rfl⟩
  rw [same]
  decide

end Buffer
end HookRelay
