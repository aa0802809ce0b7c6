import HookRelay.Bytes

/-!
# Buffers of a fixed capacity

A buffer is a row of cells that never grows.  The cells in front are its content; of the cells
behind them the last one is reserved for a terminating zero, so that a buffer of `n` cells holds
at most `n - 1` bytes.  What does not fit is cut off.

Shortening the content leaves its bytes in the cells behind it, and `advance` makes cells visible
as they are.

**Operations.**

* `Buffer.new`: all cells zero and no content.
* `fill`, `advance`, `push`: write behind the content, make cells visible, and both.
* `clear`, `terminate`, `trim`: drop the content, write the zero behind it, cut blank bytes.

**Results.** `content_push`, `content_clear`, `content_terminate` and `content_trim` give the
content after each operation; `capacity_push` and its companions say that no operation changes the
number of cells, and `reserved_push` and its companions that none uses up the reserved cell.
`push_push` says that it makes no difference in how many pieces bytes are pushed, and
`terminate_push_clear` gives all cells of a buffer that is filled anew.
-/

namespace HookRelay

/-- A row of cells: the content, then the cells behind it. -/
structure Buffer where
  content : Bytes
  rest : Bytes
deriving DecidableEq, Repr

namespace Buffer

/-- The number of cells that hold what is read from standard input. -/
def inputCapacity : Nat := 65536

/-- The number of cells that hold a request, and then its response. -/
def frameCapacity : Nat := 65536

def new (capacity : Nat) : Buffer :=
  ⟨[], List.replicate capacity 0⟩

def input : Buffer :=
  new inputCapacity

def frame : Buffer :=
  new frameCapacity

section Operations

variable (buffer : Buffer)

def capacity : Nat :=
  buffer.content.length + buffer.rest.length

def length : Nat :=
  buffer.content.length

/-- How many more bytes fit in front of the reserved cell. -/
def room : Nat :=
  buffer.rest.length - 1

def isFull : Bool :=
  buffer.room == 0

def isEmpty : Bool :=
  buffer.content.isEmpty

def accepted (bytes : Bytes) : Nat :=
  min bytes.length buffer.room

/-- Write as many bytes as fit into the cells behind the content, without making them visible. -/
def fill (bytes : Bytes) : Buffer :=
  { buffer with rest := bytes.take buffer.room ++ buffer.rest.drop (buffer.accepted bytes) }

/-- Make that many cells behind the content visible, but never the reserved one. -/
def advance (count : Nat) : Buffer :=
  let shown := min count buffer.room
  ⟨buffer.content ++ buffer.rest.take shown, buffer.rest.drop shown⟩

def push (bytes : Bytes) : Buffer :=
  (buffer.fill bytes).advance (buffer.accepted bytes)

def zeroFirst : Bytes → Bytes
  | [] => []
  | _ :: cells => 0 :: cells

/-- Drop the content and put a zero into the first cell. -/
def clear : Buffer :=
  ⟨[], zeroFirst (buffer.content ++ buffer.rest)⟩

def terminate : Buffer :=
  { buffer with rest := zeroFirst buffer.rest }

/-- Drop trailing blank bytes and terminate. -/
def trim : Buffer :=
  let kept := Bytes.trimEnd buffer.content
  terminate ⟨kept, buffer.content.drop kept.length ++ buffer.rest⟩

/-- The reserved cell is still behind the content. -/
def Reserved : Prop :=
  buffer.rest ≠ []

end Operations

section Lemmas

variable (buffer : Buffer)

theorem length_zeroFirst (cells : Bytes) : (zeroFirst cells).length = cells.length := by
  cases cells <;> rfl

theorem length_fill_rest (bytes : Bytes) :
    (buffer.fill bytes).rest.length = buffer.rest.length := by
  simp only [fill, accepted, room, List.length_append, List.length_take, List.length_drop]
  omega

theorem length_take_room (bytes : Bytes) :
    (bytes.take buffer.room).length = buffer.accepted bytes := by
  rw [accepted, List.length_take, Nat.min_comm]

theorem take_fill_rest (bytes : Bytes) :
    (buffer.fill bytes).rest.take (buffer.accepted bytes) = bytes.take buffer.room := by
  simp [fill, ← length_take_room]

theorem drop_fill_rest (bytes : Bytes) :
    (buffer.fill bytes).rest.drop (buffer.accepted bytes) =
      buffer.rest.drop (buffer.accepted bytes) := by
  simp [fill, ← length_take_room]

theorem head?_zeroFirst {cells : Bytes} (some : cells ≠ []) :
    (zeroFirst cells).head? = .some 0 := by
  cases cells with
  | nil =>
      exact absurd rfl some
  | cons cell cells =>
      rfl

/-! ## The content after each operation -/

@[simp] theorem content_new (capacity : Nat) : (new capacity).content = [] :=
  rfl

@[simp] theorem content_fill (bytes : Bytes) : (buffer.fill bytes).content = buffer.content :=
  rfl

/-- Of the bytes that were filled in, as many as are made visible are appended. -/
theorem content_advance_fill {bytes : Bytes} {count : Nat} (filled : count ≤ buffer.accepted bytes) :
    ((buffer.fill bytes).advance count).content =
      buffer.content ++ (bytes.take buffer.room).take count := by
  have shown : min count (buffer.fill bytes).room = count := by
    simp only [room, length_fill_rest, accepted] at *
    omega
  have front : (buffer.fill bytes).rest.take count = (bytes.take buffer.room).take count := by
    rw [← take_fill_rest, List.take_take, Nat.min_eq_left filled]
  simp only [advance, shown, content_fill, front]

/-- What fits is appended, and takes up as many of the cells behind the content. -/
theorem push_eq (bytes : Bytes) :
    buffer.push bytes =
      ⟨buffer.content ++ bytes.take buffer.room, buffer.rest.drop (buffer.accepted bytes)⟩ := by
  have shown : min (buffer.accepted bytes) (buffer.fill bytes).room = buffer.accepted bytes := by
    simp only [room, length_fill_rest, accepted]
    omega
  simp only [push, advance, shown, take_fill_rest, drop_fill_rest, content_fill]

@[simp] theorem content_push (bytes : Bytes) :
    (buffer.push bytes).content = buffer.content ++ bytes.take buffer.room := by
  rw [push_eq]

@[simp] theorem content_clear : buffer.clear.content = [] :=
  rfl

@[simp] theorem content_terminate : buffer.terminate.content = buffer.content :=
  rfl

@[simp] theorem content_trim : buffer.trim.content = Bytes.trimEnd buffer.content :=
  rfl

/-! ## The number of cells -/

@[simp] theorem capacity_new (capacity : Nat) : (new capacity).capacity = capacity := by
  simp [new, Buffer.capacity]

@[simp] theorem capacity_fill (bytes : Bytes) :
    (buffer.fill bytes).capacity = buffer.capacity := by
  simp [capacity, length_fill_rest]

@[simp] theorem capacity_advance (count : Nat) :
    (buffer.advance count).capacity = buffer.capacity := by
  simp only [advance, capacity, room, List.length_append, List.length_take, List.length_drop]
  omega

@[simp] theorem capacity_push (bytes : Bytes) :
    (buffer.push bytes).capacity = buffer.capacity := by
  simp [push]

@[simp] theorem capacity_clear : buffer.clear.capacity = buffer.capacity := by
  simp [clear, capacity, length_zeroFirst]

@[simp] theorem capacity_terminate : buffer.terminate.capacity = buffer.capacity := by
  simp [terminate, capacity, length_zeroFirst]

@[simp] theorem capacity_trim : buffer.trim.capacity = buffer.capacity := by
  have shorter := Bytes.length_trimEnd_le buffer.content
  simp only [trim, terminate, capacity, length_zeroFirst, List.length_append, List.length_drop]
  omega

@[simp] theorem room_new (capacity : Nat) : (new capacity).room = capacity - 1 := by
  simp [new, room]

/-- The room shrinks by what was appended. -/
theorem room_push (bytes : Bytes) :
    (buffer.push bytes).room = buffer.room - bytes.length := by
  have cells := capacity_push buffer bytes
  have content := congrArg List.length (content_push buffer bytes)
  simp only [capacity, room, List.length_append, List.length_take] at *
  omega

theorem room_clear : buffer.clear.room = buffer.capacity - 1 := by
  simp [clear, room, length_zeroFirst, capacity]

/-! ## All cells after pushing -/

theorem push_of_isFull {buffer : Buffer} (full : buffer.isFull = true) (bytes : Bytes) :
    buffer.push bytes = buffer := by
  have none : buffer.room = 0 := by
    simpa [isFull] using full
  simp [push_eq, accepted, none]

/-- Pushing one byte string behind another is pushing both at once. -/
theorem push_push (first second : Bytes) :
    (buffer.push first).push second = buffer.push (first ++ second) := by
  have later :
      (buffer.push first).accepted second = min second.length (buffer.room - first.length) := by
    rw [accepted, room_push]
  have together :
      buffer.accepted (first ++ second) =
        buffer.accepted first + min second.length (buffer.room - first.length) := by
    simp only [accepted, List.length_append]
    omega
  rw [push_eq (buffer.push first), push_eq buffer (first ++ second), later, room_push, together,
    content_push, List.take_append, ← List.append_assoc, push_eq buffer first, List.drop_drop]

/-- Behind a cell that is set to zero, the cells are as they were before the first was. -/
theorem zeroFirst_drop_zeroFirst {cells : Bytes} {count : Nat} (inside : count < cells.length) :
    zeroFirst ((zeroFirst cells).drop count) = 0 :: cells.drop (count + 1) := by
  cases cells with
  | nil =>
      exact absurd inside (Nat.not_lt_zero count)
  | cons cell cells =>
      cases count with
      | zero =>
          rfl
      | succ count =>
          have behind : count < cells.length := Nat.lt_of_succ_lt_succ inside
          rw [zeroFirst, List.drop_succ_cons, List.drop_succ_cons,
            List.drop_eq_getElem_cons behind, zeroFirst]

/-- A buffer that is filled anew and terminated holds what fits, a zero behind it, and then the
cells as they were. -/
theorem terminate_push_clear {buffer : Buffer} (some : 0 < buffer.capacity) (bytes : Bytes) :
    (buffer.clear.push bytes).terminate =
      let fitting := bytes.take (buffer.capacity - 1)
      ⟨fitting, 0 :: (buffer.content ++ buffer.rest).drop (fitting.length + 1)⟩ := by
  have cells : (buffer.content ++ buffer.rest).length = buffer.capacity := by
    rw [capacity, List.length_append]
  have count : buffer.clear.accepted bytes = (bytes.take (buffer.capacity - 1)).length := by
    rw [← length_take_room, room_clear]
  have inside :
      (bytes.take (buffer.capacity - 1)).length < (buffer.content ++ buffer.rest).length := by
    rw [cells, List.length_take]
    omega
  rw [push_eq, count, room_clear, terminate]
  exact congrArg (Buffer.mk _) (zeroFirst_drop_zeroFirst inside)

/-! ## The reserved cell -/

theorem reserved_iff : buffer.Reserved ↔ buffer.length < buffer.capacity := by
  simp only [Reserved, length, capacity, ne_eq, ← List.length_eq_zero_iff]
  omega

theorem reserved_new {capacity : Nat} (h : 0 < capacity) : (new capacity).Reserved := by
  simp [Reserved, new]
  omega

theorem reserved_fill {buffer : Buffer} (h : buffer.Reserved) (bytes : Bytes) :
    (buffer.fill bytes).Reserved := by
  simp only [Reserved, ne_eq, ← List.length_eq_zero_iff, length_fill_rest] at *
  exact h

theorem reserved_advance {buffer : Buffer} (h : buffer.Reserved) (count : Nat) :
    (buffer.advance count).Reserved := by
  simp only [Reserved, advance, room, ne_eq, ← List.length_eq_zero_iff, List.length_drop] at *
  omega

theorem reserved_push {buffer : Buffer} (h : buffer.Reserved) (bytes : Bytes) :
    (buffer.push bytes).Reserved :=
  reserved_advance (reserved_fill h bytes) _

theorem reserved_clear {buffer : Buffer} (h : buffer.Reserved) : buffer.clear.Reserved := by
  rw [reserved_iff] at *
  simp only [capacity_clear]
  simp only [length, content_clear, List.length_nil]
  omega

theorem reserved_terminate {buffer : Buffer} (h : buffer.Reserved) :
    buffer.terminate.Reserved := by
  rw [reserved_iff] at *
  simpa [length] using h

theorem reserved_trim {buffer : Buffer} (h : buffer.Reserved) : buffer.trim.Reserved := by
  have shorter := Bytes.length_trimEnd_le buffer.content
  rw [reserved_iff] at *
  simp only [capacity_trim]
  simp only [length, content_trim] at *
  omega

/-- The cell behind the content holds a zero after trimming. -/
theorem head?_rest_trim {buffer : Buffer} (h : buffer.Reserved) :
    buffer.trim.rest.head? = some 0 := by
  refine head?_zeroFirst ?_
  have kept := reserved_trim h
  rw [Reserved, trim, terminate, ne_eq, ← List.length_eq_zero_iff, length_zeroFirst,
    List.length_eq_zero_iff] at kept
  exact kept

end Lemmas

end Buffer

end HookRelay
