import HookRelay.Bytes
import HookRelay.Failure.IoError

/-!
# Streams that are written

A sink is a finite script of what the coming writes meet: a limit up to which bytes are taken, or
a failure.  Behind the script every write takes all it is offered.

Writing a byte string whole means to write again what was not taken.  An interrupted write is
tried again; a write that takes nothing, or any other failure, ends it.

* `Sink.writeAll`: write one byte string whole.
* `Sink.writeEach`: write several, each only after the one before it was taken whole.
* `Sink.flush`: ask for delivery of what was taken.

`written_writeAll` says that what is taken is an initial segment of what is written, and all of
it unless there is a failure.
-/

namespace HookRelay

inductive WriteEvent where
  | accept (limit : Nat)
  | failure (error : IoError)
deriving DecidableEq, Repr

structure Delivery where
  taken : Bytes
  script : List WriteEvent
  calls : Nat
  error : Option IoError
deriving DecidableEq, Repr

/-- The delivery that goes on as `later` after a write that took `bytes`. -/
def Delivery.after (bytes : Bytes) (later : Delivery) : Delivery :=
  { later with taken := bytes ++ later.taken, calls := later.calls + 1 }

/-- What the coming writes and flushes meet, and what was written so far. -/
structure Sink where
  script : List WriteEvent
  flushError : Option IoError
  written : Bytes
  calls : Nat
  flushes : Nat
deriving DecidableEq, Repr

namespace Sink

def ofScript (script : List WriteEvent) (flushError : Option IoError) : Sink :=
  ⟨script, flushError, [], 0, 0⟩

/-- Write a byte string whole against a script. -/
def deliver (bytes : Bytes) : List WriteEvent → Delivery
  | [] =>
      if bytes = [] then
        ⟨[], [], 0, none⟩
      else
        ⟨bytes, [], 1, none⟩
  | event :: later =>
      if bytes = [] then
        ⟨[], event :: later, 0, none⟩
      else
        match event with
        | .accept limit =>
            if limit = 0 then
              ⟨[], later, 1, some IoError.nothingWritten⟩
            else
              (deliver (bytes.drop limit) later).after (bytes.take limit)
        | .failure error =>
            if error.isInterrupted then
              (deliver bytes later).after []
            else
              ⟨[], later, 1, some error⟩

def writeAll (bytes : Bytes) (sink : Sink) : Except IoError Unit × Sink :=
  let delivery := deliver bytes sink.script
  let outcome :=
    match delivery.error with
    | none => .ok ()
    | some error => .error error
  (outcome,
    { sink with
      script := delivery.script
      written := sink.written ++ delivery.taken
      calls := sink.calls + delivery.calls })

/-- Write byte strings one after the other, up to the first that is not taken whole. -/
def writeEach : List Bytes → Sink → Except IoError Unit × Sink
  | [], sink =>
      (.ok (), sink)
  | bytes :: later, sink =>
      match sink.writeAll bytes with
      | (.ok (), sink) => writeEach later sink
      | (.error error, sink) => (.error error, sink)

def flush (sink : Sink) : Option IoError × Sink :=
  (sink.flushError, { sink with flushes := sink.flushes + 1 })

/-- What is taken is an initial segment, and all of it unless there is a failure. -/
theorem taken_deliver (bytes : Bytes) (script : List WriteEvent) :
    (deliver bytes script).taken <+: bytes ∧
      ((deliver bytes script).error = none → (deliver bytes script).taken = bytes) := by
  induction script generalizing bytes with
  | nil =>
      by_cases empty : bytes = [] <;> simp [deliver, empty]
  | cons event later ih =>
      by_cases empty : bytes = []
      · simp [deliver, empty]
      · cases event with
        | accept limit =>
            by_cases zero : limit = 0
            · simp [deliver, empty, zero]
            · have ⟨front, whole⟩ := ih (bytes.drop limit)
              simp only [deliver, empty, zero, if_false, Delivery.after]
              constructor
              · have := (List.prefix_append_right_inj (bytes.take limit)).mpr front
                rwa [List.take_append_drop] at this
              · intro fine
                rw [whole fine, List.take_append_drop]
        | failure error =>
            by_cases again : error.isInterrupted = true
            · simpa [deliver, empty, again, Delivery.after] using ih bytes
            · simp [deliver, empty, again]

/-- A byte string that is written whole is behind what was written before. -/
theorem written_writeAll
    {bytes : Bytes} {sink after : Sink} (h : sink.writeAll bytes = (.ok (), after)) :
    after.written = sink.written ++ bytes := by
  have whole := (taken_deliver bytes sink.script).2
  simp only [writeAll, Prod.mk.injEq] at h
  obtain ⟨outcome, rfl⟩ := h
  cases error : (deliver bytes sink.script).error with
  | none =>
      simp [whole error]
  | some error =>
      simp [error] at outcome

end Sink

end HookRelay
