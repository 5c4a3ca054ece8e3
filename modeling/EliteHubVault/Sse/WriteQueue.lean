import EliteHubVault.Sse.Disposal
import EliteHubVault.Sse.FanOut

/-!
# The write queue of a connection

Frames are accepted at the end of a queue, and a flush takes them from its front and writes
them one at a time. While the connection is open, what was accepted is what was written and
then what is queued, and a flush awaits the one write that is outstanding, or there is no flush
and nothing is queued. A cleanup takes the queue away from the flush, which then writes nothing
more (`Changes.frozen`).

`answered` counts the writes whose callback the response has called. A write that times out is
still outstanding, and its callback comes too late to matter.
-/

set_option autoImplicit false

namespace EliteHubVault

open Library

/-! ## Frames -/

/-- The id of the frame of an event. -/
def eventIdOf (frame : String) : Option ℕ :=
  if "id: ".toList <+: frame.toList then
    some (Nat.ofDigitChars 10 ((frame.toList.drop 4).takeWhile Char.isDigit) 0)
  else none

theorem eventIdOf_createSseEventFrame (eventType : String) (eventId : ℕ) (data : String) :
    eventIdOf (createSseEventFrame eventType eventId data) = some eventId := by
  have frame : (createSseEventFrame eventType eventId data).toList =
      "id: ".toList ++ (Nat.toDigits 10 eventId ++
        '\n' :: ("event: ".toList ++ eventType.toList ++ "\ndata: ".toList ++ data.toList ++
          "\n\n".toList)) := by
    simp [createSseEventFrame]
  have digits : ∀ digit ∈ Nat.toDigits 10 eventId, digit.isDigit = true :=
    fun _ member => Nat.isDigit_of_mem_toDigits (by decide) (by decide) member
  have length : "id: ".toList.length = 4 := by decide
  rw [eventIdOf, frame, if_pos (List.prefix_append _ _), ← length, List.drop_left,
    List.takeWhile_append_of_pos digits, List.takeWhile_cons_of_neg (by decide), List.append_nil,
    Nat.ofDigitChars_ten_toDigits]

theorem createSseEventFrame_ne (eventType : String) (eventId : ℕ) (data : String) :
    createSseEventFrame eventType eventId data ≠ "" := by
  intro blank
  have event := eventIdOf_createSseEventFrame eventType eventId data
  have nothing : eventIdOf "" = none := by decide
  rw [blank, nothing] at event
  cases event

/-- What comes first of consecutive numbers is consecutive. -/
theorem range_of_prefix {ids : List ℕ} {count : ℕ} (first : ids <+: List.range' 1 count) :
    ids = List.range' 1 ids.length := by
  have short : ids.length ≤ count := by simpa using first.length_le
  have taken := List.prefix_iff_eq_take.mp first
  rwa [List.take_range'_of_length_ge short] at taken

namespace SseConnection

/-! ## Order -/

/-- The bytes of the frames that are queued. -/
def bytesOf (frames : List String) : ℤ := (frames.map fun frame => (frame.utf8ByteSize : ℤ)).sum

theorem bytesOf_append (frames : List String) (frame : String) :
    bytesOf (frames ++ [frame]) = bytesOf frames + frame.utf8ByteSize := by
  simp [bytesOf]

/-- An open connection: its queue within the limits, and its flush, if one is running. -/
structure InOrder (answered : ℕ) (connection : SseConnection) : Prop where
  ended : connection.response.writableEnded = false
  bytes : connection.queuedBytes = bytesOf connection.queue
  bounded : connection.queuedBytes ≤ maxQueueBytes
  short : connection.queue.length ≤ maxQueueMessages
  filled : ∀ frame ∈ connection.queue, frame ≠ ""
  accepted : connection.accepted = connection.response.written ++ connection.queue
  flush : (connection.isFlushing = true ∧ connection.awaits = some .written ∧
      connection.response.written.length = answered + 1) ∨
    (connection.isFlushing = false ∧ connection.awaits = none ∧ connection.queue = [] ∧
      connection.response.written.length = answered)
  numbered : ∃ count, connection.nextEventId = count + 1 ∧
    connection.accepted.filterMap eventIdOf = List.range' 1 count

/-- A connection, open or closed. -/
structure Orderly (answered : ℕ) (connection : SseConnection) : Prop where
  inOrder : connection.isClosed = false → connection.InOrder answered
  written : connection.response.written <+: connection.accepted
  numbered : ∃ count, connection.accepted.filterMap eventIdOf = List.range' 1 count
  atLeast : answered ≤ connection.response.written.length
  atMost : connection.response.written.length ≤ answered + 1
  awaited : connection.awaits = some .written →
    connection.response.written.length = answered + 1

section Queue

variable {answered : ℕ} {connection : SseConnection} {frame : String}

/-- What holds of an open connection is enough. -/
theorem InOrder.orderly (order : connection.InOrder answered) : connection.Orderly answered where
  inOrder _ := order
  written := by
    rw [order.accepted]
    exact List.prefix_append _ _
  numbered := by
    obtain ⟨count, -, numbered⟩ := order.numbered
    exact ⟨count, numbered⟩
  atLeast := by
    obtain ⟨-, -, one⟩ | ⟨-, -, -, none⟩ := order.flush <;> omega
  atMost := by
    obtain ⟨-, -, one⟩ | ⟨-, -, -, none⟩ := order.flush <;> omega
  awaited awaits := by
    obtain ⟨-, -, one⟩ | ⟨-, idle, -, -⟩ := order.flush
    · exact one
    · rw [idle] at awaits
      cases awaits

/-- A flush that goes on with an empty queue ends. -/
theorem resumeFlush_nil (isOpen : connection.isClosed = false) (empty : connection.queue = []) :
    connection.resumeFlush =
      { connection with queue := [], awaits := none, isFlushing := false } := by
  simp only [SseConnection.resumeFlush, isOpen, empty, Bool.false_eq_true, if_false, flushLoop]

/-- A flush that goes on writes the first frame of the queue. -/
theorem resumeFlush_cons (isOpen : connection.isClosed = false)
    (ended : connection.response.writableEnded = false) {rest : List String}
    (queued : connection.queue = frame :: rest) (some_frame : frame ≠ "") :
    connection.resumeFlush =
      { connection with
        queue := rest
        queuedBytes := connection.queuedBytes - frame.utf8ByteSize
        awaits := some .written
        response :=
          { connection.response with written := connection.response.written ++ [frame] } } := by
  simp only [SseConnection.resumeFlush, isOpen, queued, Bool.false_eq_true, if_false, flushLoop,
    if_neg some_frame, writeFrame, ended, or_self]

theorem push_busy (busy : connection.isFlushing = true) :
    connection.push frame =
      { connection with
        queue := connection.queue ++ [frame]
        queuedBytes := connection.queuedBytes + frame.utf8ByteSize
        accepted := connection.accepted ++ [frame] } := by
  simp only [SseConnection.push, flushConnectionQueue, busy, or_true, if_true]

/-- A frame that is pushed on an empty queue is written at once. -/
theorem push_idle (idle : connection.isFlushing = false) (isOpen : connection.isClosed = false)
    (ended : connection.response.writableEnded = false) (empty : connection.queue = [])
    (some_frame : frame ≠ "") :
    connection.push frame =
      { connection with
        queue := []
        queuedBytes := connection.queuedBytes + frame.utf8ByteSize - frame.utf8ByteSize
        accepted := connection.accepted ++ [frame]
        isFlushing := true
        awaits := some .written
        response :=
          { connection.response with written := connection.response.written ++ [frame] } } := by
  simp only [SseConnection.push, flushConnectionQueue, isOpen, idle, Bool.false_eq_true, or_self,
    if_false, empty, List.nil_append, flushLoop, if_neg some_frame, writeFrame, ended]

/-- **A flush goes on** when the write that it awaits has been answered. -/
theorem InOrder.resumeFlush (order : connection.InOrder answered)
    (isOpen : connection.isClosed = false) (awaits : connection.awaits = some .written) :
    connection.resumeFlush.InOrder (answered + 1) := by
  obtain ⟨ended, bytes, bounded, short, filled, accepted, flush, numbered⟩ := order
  obtain ⟨flushing, -, one⟩ | ⟨-, idle, -, -⟩ := flush
  swap
  · rw [idle] at awaits
    cases awaits
  cases queued : connection.queue with
  | nil =>
      rw [resumeFlush_nil isOpen queued]
      rw [queued] at bytes accepted
      exact ⟨ended, bytes, bounded, Nat.zero_le _, fun _ member => (nomatch member), accepted,
        .inr ⟨rfl, rfl, rfl, one⟩, numbered⟩
  | cons frame rest =>
      rw [queued] at bytes accepted short filled
      rw [resumeFlush_cons isOpen ended queued (filled frame List.mem_cons_self)]
      have size : connection.queuedBytes = frame.utf8ByteSize + bytesOf rest := by
        simpa [bytesOf] using bytes
      refine ⟨ended, ?_, ?_, Nat.le_of_succ_le short,
        fun other member => filled other (List.mem_cons_of_mem frame member), ?_,
        .inl ⟨flushing, rfl, ?_⟩, numbered⟩
      · show connection.queuedBytes - frame.utf8ByteSize = bytesOf rest
        omega
      · show connection.queuedBytes - frame.utf8ByteSize ≤ maxQueueBytes
        omega
      · rw [accepted, List.append_assoc]
        rfl
      · simp [one]

/-- **A frame is accepted** when the queue takes it. -/
theorem InOrder.push (order : connection.InOrder answered) (isOpen : connection.isClosed = false)
    (fits : ¬ connection.IsSlow frame) (some_frame : frame ≠ "") {nextEventId : ℕ}
    (numbered : ∃ count, nextEventId = count + 1 ∧
      (connection.accepted ++ [frame]).filterMap eventIdOf = List.range' 1 count) :
    (({ connection with nextEventId } : SseConnection).push frame).InOrder answered := by
  obtain ⟨ended, bytes, bounded, short, filled, accepted, flush, -⟩ := order
  obtain ⟨room, space⟩ := not_or.mp fits
  obtain ⟨flushing, awaits, one⟩ | ⟨idle, awaits, empty, none⟩ := flush
  · have busy : ({ connection with nextEventId } : SseConnection).isFlushing = true := flushing
    rw [push_busy busy]
    refine ⟨ended, ?_, not_lt.mp space, ?_, ?_, ?_, .inl ⟨flushing, awaits, one⟩, numbered⟩
    · rw [bytesOf_append, ← bytes]
    · rw [List.length_append]
      exact not_lt.mp room
    · intro other member
      obtain old | rfl := List.mem_append.mp member |>.imp_right List.mem_singleton.mp
      · exact filled other old
      · exact some_frame
    · rw [accepted, List.append_assoc]
  · have isIdle : ({ connection with nextEventId } : SseConnection).isFlushing = false := idle
    rw [push_idle isIdle isOpen ended empty some_frame]
    rw [empty] at bytes accepted
    have nothing : connection.queuedBytes = 0 := bytes
    refine ⟨ended, ?_, ?_, Nat.zero_le _, fun _ member => (nomatch member), ?_,
      .inl ⟨rfl, rfl, ?_⟩, numbered⟩
    · show connection.queuedBytes + frame.utf8ByteSize - frame.utf8ByteSize = 0
      omega
    · show connection.queuedBytes + frame.utf8ByteSize - frame.utf8ByteSize ≤ maxQueueBytes
      omega
    · simp [accepted]
    · simp [none]

/-! ## What happens to a connection -/

/-- A cleanup leaves what was written and accepted. -/
theorem Orderly.closed (orderly : connection.Orderly answered) :
    connection.closed.Orderly answered where
  inOrder isOpen := nomatch isOpen
  written := orderly.written
  numbered := orderly.numbered
  atLeast := orderly.atLeast
  atMost := orderly.atMost
  awaited := orderly.awaited

/-- A connection that is closed is orderly whatever its flush is told. -/
theorem Orderly.of_closed {answered' : ℕ} {awaits : Option PendingWrite} {isFlushing : Bool}
    (orderly : connection.Orderly answered) (isClosed : connection.isClosed = true)
    (atLeast : answered' ≤ connection.response.written.length)
    (atMost : connection.response.written.length ≤ answered' + 1)
    (awaited : awaits = some .written → connection.response.written.length = answered' + 1) :
    ({ connection with awaits, isFlushing } : SseConnection).Orderly answered' where
  inOrder isOpen := by
    rw [isClosed] at isOpen
    cases isOpen
  written := orderly.written
  numbered := orderly.numbered
  atLeast := atLeast
  atMost := atMost
  awaited := awaited

/-- What the broker does to a connection, other than the end of a write. -/
inductive Change : SseConnection → SseConnection → Prop where
  | raw {connection : SseConnection} {frame : String} (isOpen : connection.isClosed = false)
      (plain : eventIdOf frame = none) (some_frame : frame ≠ "") :
      Change connection
        (if connection.IsSlow frame then connection.closed else connection.push frame)
  | event {connection : SseConnection} (isOpen : connection.isClosed = false)
      (eventType data : String) :
      Change connection
        (connection.offer (createSseEventFrame eventType connection.nextEventId data))
  | close {connection : SseConnection} (isOpen : connection.isClosed = false) :
      Change connection connection.closed
  | finish {connection : SseConnection} (isClosed : connection.isClosed = true) :
      Change connection { connection with isFlushing := false }
  | heartbeat {connection : SseConnection} : Change connection { connection with heartbeat := true }

abbrev Changes : SseConnection → SseConnection → Prop := Relation.ReflTransGen Change

theorem Orderly.change {connection' : SseConnection} (orderly : connection.Orderly answered)
    (change : Change connection connection') : connection'.Orderly answered := by
  cases change with
  | raw isOpen plain some_frame =>
      split
      · exact orderly.closed
      · rename_i fits
        have order := orderly.inOrder isOpen
        obtain ⟨count, next, numbered⟩ := order.numbered
        refine (order.push isOpen fits some_frame ⟨count, next, ?_⟩).orderly
        rw [List.filterMap_append, numbered, List.filterMap_cons_none plain]
        exact List.append_nil _
  | event isOpen eventType data =>
      rw [offer]
      split
      · have numbered : ({ connection with nextEventId := connection.nextEventId + 1 } :
            SseConnection).closed.Orderly answered :=
          ⟨fun opened => (nomatch opened), orderly.written, orderly.numbered, orderly.atLeast,
            orderly.atMost, orderly.awaited⟩
        exact numbered
      · rename_i fits
        have order := orderly.inOrder isOpen
        obtain ⟨count, next, numbered⟩ := order.numbered
        refine (order.push isOpen fits (createSseEventFrame_ne _ _ _)
          ⟨count + 1, by rw [next], ?_⟩).orderly
        rw [List.filterMap_append, numbered,
          List.filterMap_cons_some (eventIdOf_createSseEventFrame _ _ _), List.filterMap_nil, next,
          List.range'_1_concat, Nat.add_comm 1 count]
  | close isOpen => exact orderly.closed
  | finish isClosed =>
      exact orderly.of_closed isClosed orderly.atLeast orderly.atMost orderly.awaited
  | heartbeat =>
      refine ⟨fun isOpen => ?_, orderly.written, orderly.numbered, orderly.atLeast, orderly.atMost,
        orderly.awaited⟩
      obtain ⟨ended, bytes, bounded, short, filled, accepted, flush, numbered⟩ :=
        orderly.inOrder isOpen
      exact ⟨ended, bytes, bounded, short, filled, accepted, flush, numbered⟩

theorem Orderly.changes {connection' : SseConnection} (orderly : connection.Orderly answered)
    (changes : Changes connection connection') : connection'.Orderly answered := by
  induction changes with
  | refl => exact orderly
  | tail _ change ih => exact ih.change change

/-- **After a cleanup nothing more is written.** -/
theorem Changes.frozen {connection' : SseConnection} (changes : Changes connection connection')
    (isClosed : connection.isClosed = true) :
    connection'.isClosed = true ∧ connection'.response.written = connection.response.written := by
  induction changes with
  | refl => exact ⟨isClosed, rfl⟩
  | tail _ change ih =>
      obtain ⟨closed, written⟩ := ih
      cases change with
      | raw isOpen | event isOpen | close isOpen =>
          rw [isOpen] at closed
          cases closed
      | finish => exact ⟨closed, written⟩
      | heartbeat => exact ⟨closed, written⟩

/-- A write was answered, and the flush goes on. -/
theorem Orderly.resumed (orderly : connection.Orderly answered)
    (awaits : connection.awaits = some .written) :
    connection.resumeFlush.Orderly (answered + 1) := by
  cases isClosed : connection.isClosed with
  | false => exact ((orderly.inOrder isClosed).resumeFlush isClosed awaits).orderly
  | true =>
      have one := orderly.awaited awaits
      rw [SseConnection.resumeFlush, if_pos isClosed]
      exact orderly.of_closed isClosed one.ge (by omega) nofun

/-- `writeFrame` had nothing to write; this is so for closed connections only. -/
theorem Orderly.skipped (orderly : connection.Orderly answered)
    (awaits : connection.awaits = some .skipped) :
    connection.isClosed = true ∧ connection.resumeFlush.Orderly answered := by
  have isClosed : connection.isClosed = true := by
    by_contra isOpen
    obtain ⟨-, writes, -⟩ | ⟨-, idle, -⟩ := (orderly.inOrder (Bool.eq_false_iff.mpr isOpen)).flush
    · cases writes.symm.trans awaits
    · cases idle.symm.trans awaits
  refine ⟨isClosed, ?_⟩
  rw [SseConnection.resumeFlush, if_pos isClosed]
  exact orderly.of_closed isClosed orderly.atLeast orderly.atMost nofun

/-- A callback that the flush no longer awaits: the connection is closed. -/
theorem Orderly.answeredLate (orderly : connection.Orderly answered)
    (late : connection.awaits ≠ some .written)
    (outstanding : answered < connection.response.written.length) :
    connection.Orderly (answered + 1) := by
  have isClosed : connection.isClosed = true := by
    by_contra isOpen
    obtain ⟨-, writes, -⟩ | ⟨-, -, -, none⟩ := (orderly.inOrder (Bool.eq_false_iff.mpr isOpen)).flush
    · exact late writes
    · omega
  exact orderly.of_closed isClosed outstanding (by have := orderly.atMost; omega)
    fun writes => absurd writes late

end Queue

end SseConnection

end EliteHubVault
