import HookRelay.Proofs.PlainBytes
import HookRelay.Proofs.ReadLoop

/-!
# What is captured of standard input

The capture of standard input ends for one of three reasons: the data ends, a read fails, or the
buffer is full.  Whoever writes to standard input decides into which reads the data is cut and how
often they are interrupted; none of that is seen in what is captured.  The data is what a script
delivers up to its end, an empty read or a failure other than an interruption.  Behind the capture
the buffer holds as much of it as fits in front of one cell; that cell holds a zero, and the cells
behind are as they were.

* `ReadEvent.Passes`: an event behind which the reading goes on.
* `Source.Fills`: events whose data reaches a limit, and does so with the last of them.
* `Source.pushBack`: a script in front of which the rest of some data was left.
* `gather_of_fills`: events that fill the room are taken by one read each, of the last one as much
  as fits, and nothing behind them is touched.
* `capture_first_bytes`: the law of the capture, for every buffer and every script.
-/

namespace HookRelay

/-- The reading goes on behind the event: it is data, or an interruption. -/
def ReadEvent.Passes : ReadEvent → Prop
  | .data bytes => bytes ≠ []
  | .failure error => error.isInterrupted = true

namespace Source

section Events

variable {event : ReadEvent}

theorem delivered_cons_of_passes (passes : event.Passes) (later : List ReadEvent) :
    delivered (event :: later) = event.bytes ++ delivered later := by
  cases event with
  | data bytes =>
      have some : bytes ≠ [] := passes
      simp [delivered, deliveredUntil, ReadEvent.bytes, some]
  | failure error =>
      have again : error.isInterrupted = true := passes
      simp [delivered, deliveredUntil, ReadEvent.bytes, again]

/-- Nothing is delivered from an event on behind which the reading does not go on. -/
theorem delivered_cons_of_not_passes (ends : ¬ event.Passes) (later : List ReadEvent) :
    delivered (event :: later) = [] := by
  cases event with
  | data bytes =>
      have empty : bytes = [] := not_not.mp ends
      simp [delivered, deliveredUntil, empty]
  | failure error =>
      have final : ¬ error.isInterrupted = true := ends
      simp [delivered, deliveredUntil, final]

theorem passes_of_delivered_ne_nil
    {later : List ReadEvent} (some : delivered (event :: later) ≠ []) :
    event.Passes := by
  by_contra ends
  exact some (delivered_cons_of_not_passes ends later)

end Events

/-- The data of the events reaches the limit, and that of fewer of them does not. -/
structure Fills (limit : Nat) (events : List ReadEvent) : Prop where
  enough : limit ≤ (delivered events).length
  first : ∀ fewer, fewer <+: events → fewer ≠ events → (delivered fewer).length < limit

/-- The script in front of which some data was left, if any was. -/
def pushBack (data : Bytes) (later : List ReadEvent) : List ReadEvent :=
  if data = [] then later else .data data :: later

section Fills

variable {limit : Nat} {event : ReadEvent} {events : List ReadEvent}

theorem fills_zero_iff : Fills 0 events ↔ events = [] := by
  constructor
  · intro fills
    by_contra some
    exact Nat.not_lt_zero _ (fills.first [] List.nil_prefix (Ne.symm some))
  · rintro rfl
    refine ⟨Nat.zero_le _, ?_⟩
    intro fewer front other
    exact absurd (List.prefix_nil.mp front) other

/-- The first of the events passes, and the others fill what it leaves of the limit. -/
theorem fills_cons_iff (positive : 0 < limit) :
    Fills limit (event :: events) ↔ event.Passes ∧ Fills (limit - event.bytes.length) events := by
  constructor
  · intro fills
    have enough := fills.enough
    have passes : event.Passes :=
      passes_of_delivered_ne_nil (List.ne_nil_of_length_pos (positive.trans_le enough))
    rw [delivered_cons_of_passes passes, List.length_append] at enough
    refine ⟨passes, by omega, ?_⟩
    intro fewer front other
    have short :=
      fills.first (event :: fewer) (List.cons_prefix_cons.mpr ⟨rfl, front⟩)
        (fun same => other (List.cons.inj same).2)
    rw [delivered_cons_of_passes passes, List.length_append] at short
    omega
  · rintro ⟨passes, later⟩
    have enough := later.enough
    refine ⟨?_, ?_⟩
    · rw [delivered_cons_of_passes passes, List.length_append]
      omega
    · intro fewer front other
      rcases List.prefix_cons_iff.mp front with rfl | ⟨rest, rfl, initial⟩
      · exact positive
      · have short := later.first rest initial (fun same => other (by rw [same]))
        rw [delivered_cons_of_passes passes, List.length_append]
        omega

end Fills

/-- A script with data enough begins with events that fill the limit. -/
theorem exists_fills
    {limit : Nat} {script : List ReadEvent} (enough : limit ≤ (delivered script).length) :
    ∃ events later, script = events ++ later ∧ Fills limit events := by
  induction script generalizing limit with
  | nil =>
      obtain rfl : limit = 0 := Nat.eq_zero_of_le_zero enough
      exact ⟨[], [], rfl, fills_zero_iff.mpr rfl⟩
  | cons event script ih =>
      rcases Nat.eq_zero_or_pos limit with rfl | positive
      · exact ⟨[], event :: script, rfl, fills_zero_iff.mpr rfl⟩
      · have passes : event.Passes :=
          passes_of_delivered_ne_nil (List.ne_nil_of_length_pos (positive.trans_le enough))
        rw [delivered_cons_of_passes passes, List.length_append] at enough
        have more : limit - event.bytes.length ≤ (delivered script).length := by
          omega
        obtain ⟨events, later, parts, fills⟩ := ih more
        exact ⟨event :: events, later, by rw [parts, List.cons_append],
          (fills_cons_iff positive).mpr ⟨passes, fills⟩⟩

end Source

namespace Intake

section Capture

variable {buffer : Buffer} {event : ReadEvent} (free : buffer.isFull = false)
  (passes : event.Passes)
include free passes

theorem gather_cons_of_le_room
    (fits : event.bytes.length ≤ buffer.room) (later : List ReadEvent) :
    gather (fun _ => false) buffer (event :: later) =
      (gather (fun _ => false) (buffer.push event.bytes) later).after := by
  cases event with
  | data bytes =>
      have some : bytes ≠ [] := passes
      have place : bytes.length ≤ buffer.room := fits
      simp [gather, free, ReadEvent.bytes, some, place]
  | failure error =>
      have again : error.isInterrupted = true := passes
      simp [gather, free, ReadEvent.bytes, again, Buffer.push_eq, Buffer.accepted]

theorem gather_cons_of_room_lt
    (long : buffer.room < event.bytes.length) (later : List ReadEvent) :
    gather (fun _ => false) buffer (event :: later) =
      ⟨buffer.push event.bytes, .data (event.bytes.drop buffer.room) :: later, 1⟩ := by
  cases event with
  | data bytes =>
      have place : ¬ bytes.length ≤ buffer.room := Nat.not_le.mpr long
      simp [gather, free, ReadEvent.bytes, place]
  | failure error =>
      exact absurd long (Nat.not_lt_zero _)

end Capture

/-- Events that fill the room are taken by one read each, and of the last one as much as fits.  No
event behind them is taken, whatever it is. -/
theorem gather_of_fills
    {buffer : Buffer} {events : List ReadEvent}
    (fills : Source.Fills buffer.room events)
    (later : List ReadEvent) :
    gather (fun _ => false) buffer (events ++ later) =
      ⟨buffer.push (Source.delivered events),
        Source.pushBack ((Source.delivered events).drop buffer.room) later,
        events.length⟩ := by
  induction events generalizing buffer with
  | nil =>
      have full : buffer.isFull = true := by
        have none := fills.enough
        simpa [Buffer.isFull, Source.delivered, Source.deliveredUntil] using none
      rw [List.nil_append, gather_of_isFull _ full, Buffer.push_of_isFull full]
      simp [Source.pushBack, Source.delivered, Source.deliveredUntil]
  | cons event events ih =>
      have positive : 0 < buffer.room := by
        by_contra none
        rw [Nat.eq_zero_of_not_pos none, Source.fills_zero_iff] at fills
        exact absurd fills (List.cons_ne_nil _ _)
      have free : buffer.isFull = false := by
        simpa [Buffer.isFull, Nat.pos_iff_ne_zero] using positive
      obtain ⟨passes, rest⟩ := (Source.fills_cons_iff positive).mp fills
      rw [List.cons_append, Source.delivered_cons_of_passes passes]
      rcases Nat.lt_or_ge buffer.room event.bytes.length with long | fits
      -- The event is cut at the end of the room, so it is the only one.
      · rw [Nat.sub_eq_zero_of_le (Nat.le_of_lt long), Source.fills_zero_iff] at rest
        subst rest
        have some : event.bytes.drop buffer.room ≠ [] := by
          simpa using long
        rw [gather_cons_of_room_lt free passes long]
        simp [Source.delivered, Source.deliveredUntil, Source.pushBack, some]
      · have room := Buffer.room_push buffer event.bytes
        have cut :
            (event.bytes ++ Source.delivered events).drop buffer.room =
              (Source.delivered events).drop (buffer.room - event.bytes.length) := by
          rw [List.drop_append, List.drop_eq_nil_of_le fits, List.nil_append]
        rw [gather_cons_of_le_room free passes fits, ih (room ▸ rest), after, Buffer.push_push,
          room, cut, List.length_cons]

end Intake

namespace Source

/-- All cells of a buffer behind a capture: what fits of the delivered data, a zero, and the cells
as they were. -/
theorem buffer_capture {buffer : Buffer} (some : 0 < buffer.capacity) (source : Source) :
    (source.capture buffer).1 =
      let captured := (delivered source.script).take (buffer.capacity - 1)
      ⟨captured, 0 :: (buffer.content ++ buffer.rest).drop (captured.length + 1)⟩ := by
  rw [← Buffer.terminate_push_clear some, capture, readInto, Intake.buffer_gather]
  rfl

/-- What is captured is what comes first in the unread data, and the rest is left. -/
theorem content_capture_append_unread (buffer : Buffer) (source : Source) :
    (source.capture buffer).1.content ++ (source.capture buffer).2.unread = source.unread := by
  obtain ⟨outcomes, made, content, -⟩ :=
    exists_reads_readInto (fun _ => false) buffer.clear source
  have whole := gathered_reads_append_unread outcomes.length buffer.clear.room source
  rw [made] at whole
  rw [capture, Buffer.content_terminate, content, Buffer.content_clear, List.nil_append]
  exact whole

/-- What the capture takes from a script that delivers enough to fill the buffer. -/
theorem source_capture_of_fills
    {buffer : Buffer} {source : Source} {events later : List ReadEvent}
    (script : source.script = events ++ later)
    (fills : Fills (buffer.capacity - 1) events) :
    (source.capture buffer).2 =
      ⟨pushBack ((delivered events).drop (buffer.capacity - 1)) later,
        source.calls + events.length⟩ := by
  rw [← Buffer.room_clear] at fills ⊢
  rw [capture, readInto, script, Intake.gather_of_fills fills]

/-- A capture leaves the first bytes of the data in the buffer, however the data is cut into reads,
loses none of it, and meets no event behind the one that fills the buffer. -/
theorem capture_first_bytes
    (buffer : Buffer)
    (cells : 0 < buffer.capacity)
    (source : Source) :
    let limit := buffer.capacity - 1
    let data := delivered source.script
    let captured := data.take limit
    let left := (source.capture buffer).2
    buffer.perform (.capture source) =
        (.count captured.length,
          ⟨captured, 0 :: (buffer.content ++ buffer.rest).drop (captured.length + 1)⟩) ∧
      (∀ other : Source, delivered other.script = data →
        buffer.perform (.capture other) = buffer.perform (.capture source)) ∧
      captured ++ left.unread = source.unread ∧
      (limit ≤ data.length →
        ∃ events later,
          source.script = events ++ later ∧
            Fills limit events ∧
            left = ⟨pushBack ((delivered events).drop limit) later,
              source.calls + events.length⟩) := by
  intro limit data captured left
  have performed (other : Source) (same : delivered other.script = data) :
      buffer.perform (.capture other) =
        (.count captured.length,
          ⟨captured, 0 :: (buffer.content ++ buffer.rest).drop (captured.length + 1)⟩) := by
    have filled := buffer_capture cells other
    rw [same] at filled
    rw [Buffer.perform, filled]
    rfl
  refine ⟨performed source rfl, ?_, ?_, ?_⟩
  · intro other same
    rw [performed other same, performed source rfl]
  · rw [← content_capture_append_unread buffer source, content_capture]
  · intro enough
    obtain ⟨events, later, script, fills⟩ := exists_fills enough
    exact ⟨events, later, script, fills, source_capture_of_fills script fills⟩

/-- Three bytes fit in front of the last of four cells.  The second event with data fills them, and
neither the failure nor the data behind it is met. -/
theorem capture_first_bytes_cut :
    let buffer : Buffer := ⟨Bytes.ofText "xy", Bytes.ofText "zz"⟩
    let source :=
      ofScript
        [.data (Bytes.ofText "a"), .failure (.plain .interrupted), .data (Bytes.ofText "bcde"),
          .failure (.plain .brokenPipe), .data (Bytes.ofText "f")]
    let whole := ofScript [.data (Bytes.ofText "abcde")]
    buffer.perform (.capture source) = (.count 3, ⟨Bytes.ofText "abc", [0]⟩) ∧
      buffer.perform (.capture whole) = buffer.perform (.capture source) ∧
      Bytes.ofText "abc" ++ (source.capture buffer).2.unread = Bytes.ofText "abcdef" ∧
      ∃ events later,
        source.script = events ++ later ∧
          Fills 3 events ∧
          (source.capture buffer).2 =
            ⟨pushBack ((delivered events).drop 3) later, events.length⟩ := by
  intro buffer source whole
  obtain ⟨performed, same, kept, filled⟩ := capture_first_bytes buffer (by decide) source
  obtain ⟨events, later, script, fills, left⟩ := filled (by decide)
  refine ⟨performed, same whole (by decide), kept, events, later, script, fills, ?_⟩
  rw [left, show source.calls = 0 from rfl, Nat.zero_add]
  rfl

/-- In a single cell there is no room, so no read is made. -/
example :
    let source := ofScript [.data (Bytes.ofText "a")]
    source.capture (Buffer.new 1) = (Buffer.new 1, source) :=
  rfl

end Source

end HookRelay
