import HookRelay.Buffer
import Mathlib.Data.List.TakeWhile

/-!
# Buffers with every position checked

A buffer is used through positions in a row of cells: a slice has two, a cell that is overwritten
has one, and a sum of two numbers has to be a machine word.  This module does what the buffer does
with such positions and gives up as soon as one of them is out of range.

* `Bytes.slice?`, `Bytes.copyTo?`, `Bytes.put?`: the three kinds of access to a row.
* `Cells`: the row of cells and the number of those in front that are the content.
* `Buffer.Usable`: the reserved cell is left, and the number of cells is a machine word.

For a usable buffer no position is ever out of range: `Cells.push?_ofBuffer` and its companions say
that each operation goes through, and that what it leaves is what the buffer has behind it.
-/

namespace HookRelay
namespace Bytes

/-! ## Access to a row -/

/-- The bytes between two positions, if these lie in the row in this order. -/
def slice? (lower upper : Nat) (row : Bytes) : Option Bytes :=
  if lower ≤ upper ∧ upper ≤ row.length then some ((row.take upper).drop lower) else none

/-- The row with the bytes between two positions overwritten, if the source has as many. -/
def copyTo? (lower upper : Nat) (source row : Bytes) : Option Bytes :=
  if lower ≤ upper ∧ upper ≤ row.length ∧ source.length = upper - lower then
    some (row.take lower ++ source ++ row.drop upper)
  else
    none

def put? (position : Nat) (byte : UInt8) (row : Bytes) : Option Bytes :=
  if position < row.length then some (row.set position byte) else none

/-- The sum of two machine words, if it is one. -/
def add? (left right : Nat) : Option Nat :=
  if left + right < UInt64.size then some (left + right) else none

/-- The difference of two machine words, which are not negative. -/
def sub? (left right : Nat) : Option Nat :=
  if right ≤ left then some (left - right) else none

/-- The position of the last byte that is not blank. -/
def lastShown? (bytes : Bytes) : Option Nat :=
  (bytes.reverse.findIdx? fun byte => !isBlank byte).map fun behind => bytes.length - 1 - behind

/-- The bytes up to the last that is not blank. -/
def trimEnd? (bytes : Bytes) : Option Bytes :=
  slice? 0 ((lastShown? bytes).elim 0 (· + 1)) bytes

section Access

variable {front middle back : Bytes}

theorem slice?_append {lower upper : Nat} (start : lower = front.length)
    (stop : upper = front.length + middle.length) :
    slice? lower upper (front ++ middle ++ back) = some middle := by
  rw [slice?, if_pos (by simp [start, stop]), stop, ← List.length_append, List.take_left, start,
    List.drop_left]

theorem slice?_take {row : Bytes} {upper : Nat} (inside : upper ≤ row.length) :
    slice? 0 upper row = some (row.take upper) := by
  rw [slice?, if_pos ⟨Nat.zero_le upper, inside⟩, List.drop_zero]

theorem slice?_drop {row : Bytes} {lower : Nat} (inside : lower ≤ row.length) :
    slice? lower row.length row = some (row.drop lower) := by
  rw [slice?, if_pos ⟨inside, Nat.le_refl _⟩, List.take_length]

theorem copyTo?_zero {source row : Bytes} (fits : source.length ≤ row.length) :
    copyTo? 0 source.length source row = some (source ++ row.drop source.length) := by
  rw [copyTo?, if_pos ⟨Nat.zero_le _, fits, (Nat.sub_zero _).symm⟩, List.take_zero, List.nil_append]

/-- What a source overwrites is as long as the source. -/
theorem copyTo?_behind {upper : Nat} {source : Bytes} (stop : upper = front.length + source.length)
    (fits : source.length ≤ back.length) :
    copyTo? front.length upper source (front ++ back) =
      some (front ++ source ++ back.drop source.length) := by
  rw [copyTo?, if_pos (by simp [stop, fits]), List.take_left, stop, List.drop_append,
    List.drop_eq_nil_of_le (by omega), List.nil_append, Nat.add_sub_cancel_left]

theorem put?_append (front : Bytes) (more : back ≠ []) :
    put? front.length 0 (front ++ back) = some (front ++ Buffer.zeroFirst back) := by
  obtain ⟨cell, cells, rfl⟩ := List.exists_cons_of_ne_nil more
  rw [put?, if_pos (by simp)]
  simp [Buffer.zeroFirst]

theorem add?_of_lt {left right : Nat} (small : left + right < UInt64.size) :
    add? left right = some (left + right) :=
  if_pos small

/-- The last byte that is not blank is where the trailing run of blanks begins. -/
theorem elim_lastShown? (bytes : Bytes) :
    (lastShown? bytes).elim 0 (· + 1) = (trimEnd bytes).length := by
  have kept : (trimEnd bytes).length =
      bytes.length - bytes.reverse.findIdx fun byte => !isBlank byte := by
    rw [trimEnd, List.length_reverse, List.dropWhile_eq_drop_findIdx_not, List.length_drop,
      List.length_reverse]
  rw [kept, lastShown?]
  cases found : bytes.reverse.findIdx? fun byte => !isBlank byte with
  | none =>
      rw [List.findIdx?_eq_none_iff_findIdx_eq.mp found, List.length_reverse, Nat.sub_self]
      rfl
  | some behind =>
      obtain ⟨inside, place⟩ := List.findIdx?_eq_some_iff_findIdx_eq.mp found
      rw [List.length_reverse] at inside
      rw [place]
      simp only [Option.map_some, Option.elim_some]
      omega

theorem trimEnd?_eq (bytes : Bytes) : trimEnd? bytes = some (trimEnd bytes) := by
  rw [trimEnd?, elim_lastShown?, slice?_take (length_trimEnd_le bytes)]
  obtain ⟨blanks, split, -⟩ := exists_trimEnd_append bytes
  exact congrArg some ((congrArg (List.take _) split).trans List.take_left)

end Access

end Bytes

/-! ## Cells -/

/-- A row of cells, and how many of those in front are the content. -/
structure Cells where
  row : Bytes
  length : Nat

namespace Cells

def new (capacity : Nat) : Cells :=
  ⟨List.replicate capacity 0, 0⟩

def ofBuffer (buffer : Buffer) : Cells :=
  ⟨buffer.content ++ buffer.rest, buffer.length⟩

section Operations

variable (cells : Cells)

/-- The position of the reserved cell. -/
def limit? : Option Nat :=
  Bytes.sub? cells.row.length 1

def isFull? : Option Bool := do
  return decide ((← cells.limit?) ≤ cells.length)

def content? : Option Bytes :=
  Bytes.slice? 0 cells.length cells.row

/-- The cells behind the content, without the reserved one. -/
def spare? : Option Bytes := do
  Bytes.slice? cells.length (← cells.limit?) cells.row

/-- Write into the spare cells from the first on. -/
def writeSpare? (bytes : Bytes) : Option Cells := do
  let filled ← Bytes.copyTo? 0 bytes.length bytes (← cells.spare?)
  let row ← Bytes.copyTo? cells.length (← cells.limit?) filled cells.row
  return ⟨row, cells.length⟩

/-- Write as many bytes as fit into the spare cells. -/
def fill? (bytes : Bytes) : Option (Cells × Nat) := do
  let count := min bytes.length (← cells.spare?).length
  let cells ← cells.writeSpare? (← Bytes.slice? 0 count bytes)
  return (cells, count)

def advance? (count : Nat) : Option Cells := do
  let length ← Bytes.add? cells.length count
  return ⟨cells.row, min length (← cells.limit?)⟩

def push? (bytes : Bytes) : Option Cells := do
  let (cells, count) ← cells.fill? bytes
  cells.advance? count

def clear? : Option Cells := do
  return ⟨← Bytes.put? 0 0 cells.row, 0⟩

def terminate? : Option Cells := do
  return ⟨← Bytes.put? cells.length 0 cells.row, cells.length⟩

def trim? : Option Cells := do
  let kept ← Bytes.trimEnd? (← cells.content?)
  terminate? ⟨cells.row, kept.length⟩

end Operations

end Cells

/-- The reserved cell of the buffer is left, and the number of its cells is a machine word. -/
structure Buffer.Usable (buffer : Buffer) : Prop where
  reserved : buffer.Reserved
  word : buffer.capacity < UInt64.size

namespace Buffer.Usable

variable {buffer : Buffer}

theorem new {capacity : Nat} (positive : 0 < capacity) (word : capacity < UInt64.size) :
    (Buffer.new capacity).Usable :=
  ⟨reserved_new positive, by rwa [capacity_new]⟩

section Operations

variable (h : buffer.Usable)
include h

/-- As long as the number of cells stays the same, only the reserved one has to be kept. -/
theorem of_capacity_eq {other : Buffer} (reserved : other.Reserved)
    (same : other.capacity = buffer.capacity) : other.Usable :=
  ⟨reserved, by rw [same]; exact h.word⟩

theorem fill (bytes : Bytes) : (buffer.fill bytes).Usable :=
  h.of_capacity_eq (reserved_fill h.reserved bytes) (capacity_fill buffer bytes)

theorem advance (count : Nat) : (buffer.advance count).Usable :=
  h.of_capacity_eq (reserved_advance h.reserved count) (capacity_advance buffer count)

theorem push (bytes : Bytes) : (buffer.push bytes).Usable :=
  (h.fill bytes).advance _

theorem clear : buffer.clear.Usable :=
  h.of_capacity_eq (reserved_clear h.reserved) (capacity_clear buffer)

theorem terminate : buffer.terminate.Usable :=
  h.of_capacity_eq (reserved_terminate h.reserved) (capacity_terminate buffer)

theorem trim : buffer.trim.Usable :=
  h.of_capacity_eq (reserved_trim h.reserved) (capacity_trim buffer)

theorem length_le : buffer.length ≤ buffer.capacity - 1 := by
  have behind := (reserved_iff buffer).mp h.reserved
  omega

/-- What is left beyond the content is the room and the reserved cell. -/
theorem length_add_room : buffer.length + buffer.room + 1 = buffer.capacity := by
  have behind := (reserved_iff buffer).mp h.reserved
  simp only [length, capacity, room] at *
  omega

end Operations

end Buffer.Usable

namespace Cells

section OfBuffer

variable {buffer : Buffer}

theorem new_eq_ofBuffer (capacity : Nat) : new capacity = ofBuffer (Buffer.new capacity) :=
  rfl

@[simp] theorem length_ofBuffer : (ofBuffer buffer).length = buffer.length :=
  rfl

theorem row_ofBuffer : (ofBuffer buffer).row = buffer.content ++ buffer.rest :=
  rfl

@[simp] theorem length_row_ofBuffer : (ofBuffer buffer).row.length = buffer.capacity :=
  List.length_append

/-- There are as many spare cells as there is room. -/
theorem length_take_room (buffer : Buffer) : (buffer.rest.take buffer.room).length = buffer.room := by
  rw [List.length_take, Buffer.room]
  omega

theorem content?_ofBuffer : (ofBuffer buffer).content? = some buffer.content := by
  rw [content?, length_ofBuffer, row_ofBuffer, Buffer.length, Bytes.slice?_take (by simp),
    List.take_left]

section Usable

variable (h : buffer.Usable)
include h

theorem limit?_ofBuffer : (ofBuffer buffer).limit? = some (buffer.length + buffer.room) := by
  have cells := h.length_add_room
  rw [limit?, Bytes.sub?, length_row_ofBuffer, if_pos (by omega), ← cells, Nat.add_sub_cancel]

theorem isFull?_ofBuffer : (ofBuffer buffer).isFull? = some buffer.isFull := by
  have full : decide (buffer.length + buffer.room ≤ buffer.length) = buffer.isFull := by
    rw [Buffer.isFull, Bool.eq_iff_iff, decide_eq_true_iff, beq_iff_eq]
    omega
  rw [isFull?, limit?_ofBuffer h]
  exact congrArg some full

theorem spare?_ofBuffer : (ofBuffer buffer).spare? = some (buffer.rest.take buffer.room) := by
  have row : (ofBuffer buffer).row =
      buffer.content ++ buffer.rest.take buffer.room ++ buffer.rest.drop buffer.room := by
    rw [List.append_assoc, List.take_append_drop, row_ofBuffer]
  rw [spare?, limit?_ofBuffer h, Option.bind_eq_bind, Option.bind_some, row]
  exact Bytes.slice?_append rfl (by rw [length_take_room]; rfl)

/-- What fits into the spare cells is written there. -/
theorem writeSpare?_ofBuffer {bytes : Bytes} (fits : bytes.length ≤ buffer.room) :
    (ofBuffer buffer).writeSpare? bytes = some (ofBuffer (buffer.fill bytes)) := by
  have room := length_take_room buffer
  have filled :
      Bytes.copyTo? 0 bytes.length bytes (buffer.rest.take buffer.room) =
        some (bytes ++ (buffer.rest.take buffer.room).drop bytes.length) :=
    Bytes.copyTo?_zero (by omega)
  have length :
      (bytes ++ (buffer.rest.take buffer.room).drop bytes.length).length = buffer.room := by
    rw [List.length_append, List.length_drop, room]
    omega
  have written :
      Bytes.copyTo? buffer.length (buffer.length + buffer.room)
          (bytes ++ (buffer.rest.take buffer.room).drop bytes.length) (ofBuffer buffer).row =
        some (buffer.content ++ (bytes ++ (buffer.rest.take buffer.room).drop bytes.length) ++
          buffer.rest.drop buffer.room) := by
    have stop : buffer.length + buffer.room =
        buffer.content.length +
          (bytes ++ (buffer.rest.take buffer.room).drop bytes.length).length := by
      rw [length]
      rfl
    have inside :
        (bytes ++ (buffer.rest.take buffer.room).drop bytes.length).length ≤
          buffer.rest.length := by
      rw [length]
      exact Nat.sub_le _ _
    have copied := Bytes.copyTo?_behind stop inside
    rw [length] at copied
    exact copied
  have behind :
      (buffer.rest.take buffer.room).drop bytes.length ++ buffer.rest.drop buffer.room =
        buffer.rest.drop bytes.length := by
    rw [← List.drop_append_of_le_length (by omega), List.take_append_drop]
  have rest : (buffer.fill bytes).rest = bytes ++ buffer.rest.drop bytes.length := by
    rw [Buffer.fill, List.take_of_length_le fits, Buffer.accepted, Nat.min_eq_left fits]
  simp only [writeSpare?, spare?_ofBuffer h, limit?_ofBuffer h, Option.bind_eq_bind,
    Option.bind_some, Option.pure_def, length_ofBuffer, filled, written]
  rw [List.append_assoc, List.append_assoc, behind, ofBuffer, rest]
  rfl

theorem fill?_ofBuffer (bytes : Bytes) :
    (ofBuffer buffer).fill? bytes =
      some (ofBuffer (buffer.fill bytes), buffer.accepted bytes) := by
  have count : min bytes.length (buffer.rest.take buffer.room).length = buffer.accepted bytes := by
    rw [Buffer.accepted, List.length_take, Buffer.room]
    omega
  have taken :
      Bytes.slice? 0 (buffer.accepted bytes) bytes = some (bytes.take buffer.room) := by
    have inside : buffer.accepted bytes ≤ bytes.length := Nat.min_le_left _ _
    rw [Bytes.slice?_take inside, Buffer.accepted, Nat.min_comm, ← List.take_eq_take_min]
  have fits : (bytes.take buffer.room).length ≤ buffer.room := List.length_take_le _ _
  have same : buffer.fill (bytes.take buffer.room) = buffer.fill bytes := by
    simp [Buffer.fill, Buffer.accepted, List.take_take, Nat.min_comm]
  simp only [fill?, spare?_ofBuffer h, Option.bind_eq_bind, Option.bind_some, Option.pure_def,
    count, taken, writeSpare?_ofBuffer h fits, same]

/-- A count is added to the length only as long as the sum is a machine word. -/
theorem advance?_ofBuffer {count : Nat} (small : buffer.length + count < UInt64.size) :
    (ofBuffer buffer).advance? count = some (ofBuffer (buffer.advance count)) := by
  have length : min (buffer.length + count) (buffer.length + buffer.room) =
      (buffer.advance count).length := by
    simp only [Buffer.advance, Buffer.length, Buffer.room, List.length_append, List.length_take]
    omega
  have row : (ofBuffer buffer).row = (ofBuffer (buffer.advance count)).row := by
    simp [row_ofBuffer, Buffer.advance]
  simp only [advance?, length_ofBuffer, Bytes.add?_of_lt small, limit?_ofBuffer h,
    Option.bind_eq_bind, Option.bind_some, Option.pure_def, length, row]
  rfl

/-- What fits is no more than a machine word can count. -/
theorem advance?_ofBuffer_of_le_room {count : Nat} (fits : count ≤ buffer.room) :
    (ofBuffer buffer).advance? count = some (ofBuffer (buffer.advance count)) := by
  have cells := h.length_add_room
  have word := h.word
  exact advance?_ofBuffer h (by omega)

theorem push?_ofBuffer (bytes : Bytes) :
    (ofBuffer buffer).push? bytes = some (ofBuffer (buffer.push bytes)) := by
  have fits : buffer.accepted bytes ≤ (buffer.fill bytes).room := by
    rw [Buffer.room, Buffer.length_fill_rest]
    exact Nat.min_le_right _ _
  simp only [push?, fill?_ofBuffer h, Option.bind_eq_bind, Option.bind_some,
    advance?_ofBuffer_of_le_room (h.fill bytes) fits]
  rfl

theorem clear?_ofBuffer : (ofBuffer buffer).clear? = some (ofBuffer buffer.clear) := by
  have some : buffer.content ++ buffer.rest ≠ [] := List.append_ne_nil_of_right_ne_nil _ h.reserved
  have zeroed := Bytes.put?_append [] some
  rw [List.length_nil, List.nil_append, List.nil_append] at zeroed
  rw [clear?, row_ofBuffer, zeroed]
  rfl

theorem terminate?_ofBuffer : (ofBuffer buffer).terminate? = some (ofBuffer buffer.terminate) := by
  have zeroed := Bytes.put?_append buffer.content h.reserved
  rw [terminate?, row_ofBuffer, length_ofBuffer, Buffer.length, zeroed]
  rfl

theorem trim?_ofBuffer : (ofBuffer buffer).trim? = some (ofBuffer buffer.trim) := by
  let kept := Bytes.trimEnd buffer.content
  let shorter : Buffer := ⟨kept, buffer.content.drop kept.length ++ buffer.rest⟩
  have usable : shorter.Usable := by
    refine ⟨List.append_ne_nil_of_right_ne_nil _ h.reserved, ?_⟩
    have fewer := Bytes.length_trimEnd_le buffer.content
    have word := h.word
    simp only [Buffer.capacity, shorter, kept, List.length_append, List.length_drop] at *
    omega
  have row : (ofBuffer buffer).row = (ofBuffer shorter).row := by
    obtain ⟨blanks, split, -⟩ := Bytes.exists_trimEnd_append buffer.content
    have front : buffer.content.take kept.length = kept :=
      (congrArg (List.take _) split).trans List.take_left
    have whole : kept ++ buffer.content.drop kept.length = buffer.content :=
      calc
        kept ++ buffer.content.drop kept.length =
            buffer.content.take kept.length ++ buffer.content.drop kept.length := by rw [front]
        _ = buffer.content := List.take_append_drop kept.length buffer.content
    rw [row_ofBuffer, row_ofBuffer, ← List.append_assoc, whole]
  simp only [trim?, content?_ofBuffer, Bytes.trimEnd?_eq, Option.bind_eq_bind, Option.bind_some,
    row]
  exact terminate?_ofBuffer usable

end Usable

end OfBuffer

end Cells
end HookRelay
