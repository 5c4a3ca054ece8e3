import EliteHubVault.Library.Delimited
import EliteHubVault.Platform.Ascii
import EliteHubVault.Platform.JsonText
import EliteHubVault.Sse.Connections

/-!
# The wire format

The broker ends every frame by an empty line. The client appends the chunks that arrive to a
buffer, cuts it at the empty lines, and reads the fields of each frame. No line that the broker
writes is empty or has a line break in it, as long as `JSON.stringify` prints none, so the
client finds the frames that were sent (`streamSse_eq`), and every event frame is read back
(`event_frames_read_back`).
-/

set_option autoImplicit false

namespace EliteHubVault

open Library

variable {K : Type}

/-! ## The lines of a frame -/

namespace BrokerFrame

/-- The lines of a frame before the empty one. -/
def lines (codec : JsonCodec K) : BrokerFrame K → List (List Char)
  | retry => ["retry: 2000".toList]
  | connected => [": connected".toList]
  | keepalive => [": keepalive".toList]
  | event eventType eventId payload =>
      ["id: ".toList ++ (toString eventId).toList, "event: ".toList ++ eventType.text.toList,
        "data: ".toList ++ (codec.stringify payload).toList]

/-- An empty line, which ends a frame. -/
abbrev delimiter : List Char := ['\n', '\n']

variable {codec : JsonCodec K}

theorem toList_text (frame : BrokerFrame K) :
    (frame.text codec).toList = ['\n'].intercalate (frame.lines codec) ++ delimiter := by
  cases frame with
  | event eventType eventId payload =>
      simp [text, lines, createSseEventFrame, delimiter, List.intercalate_cons_cons]
  | _ => simp [text, lines, delimiter]

theorem lines_ne_nil (frame : BrokerFrame K) : frame.lines codec ≠ [] := by
  cases frame <;> exact List.cons_ne_nil _ _

theorem ne_nil_of_mem_lines {frame : BrokerFrame K} {line : List Char}
    (member : line ∈ frame.lines codec) : line ≠ [] := by
  rintro rfl
  cases frame <;> simp [lines] at member

/-- No line has a line break, because the data has none. -/
theorem lineBreak_not_mem_lines (unbroken : ∀ value, '\n' ∉ (codec.stringify value).toList)
    {frame : BrokerFrame K} {line : List Char} (member : line ∈ frame.lines codec) :
    '\n' ∉ line := by
  cases frame with
  | event eventType eventId payload =>
      have digits : '\n' ∉ (toString eventId).toList := by
        intro member
        have digit : '\n' ∈ Nat.toDigits 10 eventId := by simpa using member
        exact absurd (Nat.isDigit_of_mem_toDigits (by decide) (by decide) digit) (by decide)
      have name : '\n' ∉ eventType.text.toList := by cases eventType <;> decide +kernel
      have data := unbroken payload
      simp only [lines, List.mem_cons, List.not_mem_nil, or_false] at member
      obtain rfl | rfl | rfl := member
      · simpa using digits
      · simpa using name
      · simpa using data
  | _ =>
      obtain rfl := List.mem_singleton.mp member
      decide +kernel

theorem intercalate_lines_ne_nil (frame : BrokerFrame K) :
    ['\n'].intercalate (frame.lines codec) ≠ [] := by
  cases frame <;> simp [lines, List.intercalate_cons_cons]

end BrokerFrame

/-! ## The client -/

structure SseFrame where
  id : Option String
  event : Option String
  data : Option String
  comments : List String

/-- The branches of `parseSseFrame` on the name of a field. -/
def SseFrame.withField (field : List Char) (value : String) (frame : SseFrame) : SseFrame :=
  if field = "id".toList then { frame with id := some value }
  else if field = "event".toList then { frame with event := some value }
  else if field = "data".toList then
    { frame with data := some (match frame.data with
        | none => value
        | some data => if data = "" then value else data ++ "\n" ++ value) }
  else frame

/-- A turn of the loop of `parseSseFrame`. -/
def parseSseLine (trim : String → String) (frame : SseFrame) : List Char → SseFrame
  | [] => frame
  | ':' :: comment =>
      { frame with comments := frame.comments ++ [trim (String.ofList comment)] }
  | line =>
      let separatorIndex := line.idxOf? ':'
      let field := match separatorIndex with
        | none => line
        | some index => line.take index
      let rawValue := match separatorIndex with
        | none => []
        | some index => line.drop (index + 1)
      let value := match rawValue with
        | ' ' :: rest => rest
        | _ => rawValue
      frame.withField field (String.ofList value)

def parseSseFrame (trim : String → String) (rawFrame : List Char) : SseFrame :=
  (rawFrame.splitOn '\n').foldl (parseSseLine trim) ⟨none, none, none, []⟩

/-- The frames that `streamSse` parses when these chunks arrive. -/
def streamSse (trim : String → String) (chunks : List String) : List SseFrame :=
  let received := (chunks.map String.toList).foldl (feed BrokerFrame.delimiter) ([], [])
  (received.1.filter fun rawFrame => rawFrame ≠ []).map (parseSseFrame trim)

section Reading

variable {codec : JsonCodec K} {trim : String → String}

theorem idxOf?_append_cons {letter : Char} {name : List Char} (named : letter ∉ name)
    (rest : List Char) : (name ++ letter :: rest).idxOf? letter = some name.length := by
  induction name with
  | nil => simp [List.idxOf?_cons]
  | cons first name ih =>
      obtain ⟨other, later⟩ := not_or.mp (mt List.mem_cons.mpr named)
      rw [List.cons_append, List.idxOf?_cons, ih later]
      simp [Ne.symm other]

/-- A line with a field, a colon, a space and a value. -/
theorem parseSseLine_field {first : Char} {name : List Char} (named : ':' ∉ first :: name)
    (frame : SseFrame) (value : List Char) :
    parseSseLine trim frame (first :: name ++ ':' :: ' ' :: value) =
      frame.withField (first :: name) (String.ofList value) := by
  have other : first ≠ ':' := fun same => named (same ▸ List.mem_cons_self)
  have index := idxOf?_append_cons named (' ' :: value)
  have before : (first :: name ++ ':' :: ' ' :: value).take (first :: name).length =
      first :: name := List.take_left
  have after : (first :: name ++ ':' :: ' ' :: value).drop ((first :: name).length + 1) =
      ' ' :: value := by
    rw [← List.drop_drop, List.drop_left]
    rfl
  rw [List.cons_append] at index before after ⊢
  rw [parseSseLine.eq_def]
  split
  · rename_i nil
    cases nil
  · rename_i colon
    exact absurd (List.cons.inj colon).1 other
  · simp only [index, before, after]

/-- What the client reads of a frame. -/
def BrokerFrame.parsed (codec : JsonCodec K) (trim : String → String) : BrokerFrame K → SseFrame
  | retry => ⟨none, none, none, []⟩
  | connected => ⟨none, none, none, [trim " connected"]⟩
  | keepalive => ⟨none, none, none, [trim " keepalive"]⟩
  | event eventType eventId payload =>
      ⟨some (toString eventId), some eventType.text, some (codec.stringify payload), []⟩

theorem foldl_parseSseLine (frame : BrokerFrame K) :
    (frame.lines codec).foldl (parseSseLine trim) ⟨none, none, none, []⟩ =
      frame.parsed codec trim := by
  cases frame with
  | retry => rfl
  | connected => rfl
  | keepalive => rfl
  | event eventType eventId payload =>
      have id : parseSseLine trim ⟨none, none, none, []⟩
          ("id: ".toList ++ (toString eventId).toList) = ⟨some (toString eventId), none, none, []⟩ := by
        refine (parseSseLine_field (show ':' ∉ ['i', 'd'] by decide) _
          (toString eventId).toList).trans ?_
        rw [String.ofList_toList]
        rfl
      have name : parseSseLine trim ⟨some (toString eventId), none, none, []⟩
          ("event: ".toList ++ eventType.text.toList) =
            ⟨some (toString eventId), some eventType.text, none, []⟩ := by
        refine (parseSseLine_field (show ':' ∉ ['e', 'v', 'e', 'n', 't'] by decide) _
          eventType.text.toList).trans ?_
        rw [String.ofList_toList]
        rfl
      have data : parseSseLine trim ⟨some (toString eventId), some eventType.text, none, []⟩
          ("data: ".toList ++ (codec.stringify payload).toList) =
            ⟨some (toString eventId), some eventType.text, some (codec.stringify payload), []⟩ := by
        refine (parseSseLine_field (show ':' ∉ ['d', 'a', 't', 'a'] by decide) _
          (codec.stringify payload).toList).trans ?_
        rw [String.ofList_toList]
        rfl
      simp only [BrokerFrame.lines, List.foldl_cons, List.foldl_nil, id, name, data,
        BrokerFrame.parsed]

/-- **The client finds the frames that were sent**, in whatever chunks they arrive. -/
theorem streamSse_eq (unbroken : ∀ value, '\n' ∉ (codec.stringify value).toList)
    (frames : List (BrokerFrame K)) {chunks : List String}
    (arrives : String.join chunks = String.join (frames.map (BrokerFrame.text codec))) :
    streamSse trim chunks = frames.map (BrokerFrame.parsed codec trim) := by
  let body (frame : BrokerFrame K) : List Char := ['\n'].intercalate (frame.lines codec)
  have stream : (chunks.map String.toList).flatten =
      (frames.map body).flatMap fun text => text ++ BrokerFrame.delimiter := by
    rw [← List.flatMap_def, ← String.toList_join, arrives, String.toList_join, List.flatMap_map,
      List.flatMap_map]
    exact List.flatMap_congr fun frame _ => frame.toList_text
  have ends : ∀ text ∈ frames.map body, EndsBefore BrokerFrame.delimiter text := by
    intro text member
    obtain ⟨frame, -, rfl⟩ := List.mem_map.mp member
    exact endsBefore_lines frame.lines_ne_nil (fun _ => BrokerFrame.ne_nil_of_mem_lines)
      fun _ => BrokerFrame.lineBreak_not_mem_lines unbroken
  have filled : ∀ text ∈ frames.map body, text ≠ [] := by
    intro text member
    obtain ⟨frame, -, rfl⟩ := List.mem_map.mp member
    exact frame.intercalate_lines_ne_nil
  rw [streamSse, feedAll_eq (List.cons_ne_nil _ _), stream,
    pieces_flatMap (List.cons_ne_nil _ _) ends]
  dsimp only
  rw [List.filter_eq_self.mpr fun text member => decide_eq_true (filled text member), List.map_map]
  refine List.map_congr_left fun frame _ => ?_
  rw [Function.comp_apply, parseSseFrame, List.splitOn_intercalate '\n'
    (fun _ => BrokerFrame.lineBreak_not_mem_lines unbroken) frame.lines_ne_nil]
  exact foldl_parseSseLine frame

/-- The id, the event type and the payload of an event frame. -/
def BrokerFrame.event? : BrokerFrame K → Option (ℕ × RealtimeEventType × Json K)
  | event eventType eventId payload => some (eventId, eventType, payload)
  | _ => none

/-- **Every event frame is read back**, in order, however the stream is cut into chunks, and no
other frame has data. -/
theorem event_frames_read_back (trim : String → String)
    (unbroken : ∀ value, '\n' ∉ (codec.stringify value).toList) (frames : List (BrokerFrame K))
    (chunks : List String)
    (arrives : String.join chunks = String.join (frames.map (BrokerFrame.text codec))) :
    ((streamSse trim chunks).filter fun frame => frame.data.isSome).map
        (fun frame => (frame.id, frame.event, frame.data.bind codec.parse)) =
      (frames.filterMap BrokerFrame.event?).map fun sent =>
        (some (toString sent.1), some sent.2.1.text, some sent.2.2) := by
  rw [streamSse_eq unbroken frames arrives]
  clear arrives
  induction frames with
  | nil => rfl
  | cons frame frames ih =>
      rw [List.map_cons]
      cases frame with
      | event eventType eventId payload =>
          have sent : (BrokerFrame.event eventType eventId payload).event? =
              some (eventId, eventType, payload) := rfl
          rw [List.filterMap_cons_some sent, List.map_cons, ← ih, BrokerFrame.parsed,
            List.filter_cons_of_pos rfl, List.map_cons, Option.bind_some, codec.parse_stringify]
      | _ => exact ih

end Reading

/-- A stream whose chunks end within a delimiter and within a field. The payload has two line
breaks in a row. -/
theorem event_frames_read_back_sample :
    ((streamSse asciiTrim ["retry: 2000\n", "\n: connected\n\nid: 1\nevent: factionPre",
        "senceChanged\ndata: \"a\\n\\nb\"\n", "\n: keepalive\n\n"]).filter
          fun frame => frame.data.isSome).map
        (fun frame => (frame.id, frame.event, frame.data.bind plainJsonCodec.parse)) =
      [(some "1", some "factionPresenceChanged", some (.string "a\n\nb"))] :=
  event_frames_read_back asciiTrim lineBreak_not_mem_plainJsonCodec
    [.retry, .connected, .event .factionPresenceChanged 1 (.string "a\n\nb"), .keepalive] _
    (by decide +kernel)

end EliteHubVault
