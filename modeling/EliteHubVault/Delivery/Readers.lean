import EliteHubVault.Delivery.Deployment

/-!
# What clients read

What was written to a connection is the beginning of what it has accepted, whether it is open,
closed or ended by somebody else. So a client reads the first of the events that its connection
has accepted, however the stream is cut into chunks (`clients_read_publications`).
-/

set_option autoImplicit false
set_option linter.unusedSectionVars false

namespace EliteHubVault

open Library

section Connections

variable {K : Type} {codec : JsonCodec K}

/-! ## Written frames -/

theorem IsBrokerFrame.ne_empty {text : String} (sent : IsBrokerFrame codec text) : text ≠ "" := by
  obtain ⟨frame, rfl⟩ := sent
  cases frame with
  | event eventType eventId payload => exact createSseEventFrame_ne _ _ _
  | retry | connected | keepalive => simp [BrokerFrame.text]

namespace SseConnection

/-- The frames are written in the order in which they were accepted, and none is left out. -/
structure Writes (connection : SseConnection) : Prop where
  filled : ∀ frame ∈ connection.queue, frame ≠ ""
  whole : connection.isClosed = false → connection.response.writableEnded = false →
    connection.accepted = connection.response.written ++ connection.queue
  written : connection.response.written <+: connection.accepted

theorem Writes.of_whole {connection : SseConnection}
    (filled : ∀ frame ∈ connection.queue, frame ≠ "")
    (whole : connection.accepted = connection.response.written ++ connection.queue) :
    connection.Writes :=
  ⟨filled, fun _ _ => whole, whole ▸ List.prefix_append _ _⟩

/-- A flush writes the first of its frames, or none if the response is ended. -/
theorem writes_flushLoop {frames : List String} {connection : SseConnection}
    (filled : ∀ frame ∈ frames, frame ≠ "")
    (whole : connection.isClosed = false → connection.response.writableEnded = false →
      connection.accepted = connection.response.written ++ frames)
    (written : connection.response.written <+: connection.accepted) :
    (connection.flushLoop frames).Writes := by
  cases frames with
  | nil => exact ⟨fun _ member => absurd member List.not_mem_nil, whole, written⟩
  | cons frame rest =>
      have later : ∀ other ∈ rest, other ≠ "" := fun other member =>
        filled other (List.mem_cons_of_mem frame member)
      rw [flushLoop, if_neg (filled frame List.mem_cons_self), writeFrame]
      split
      · rename_i stopped
        refine ⟨later, fun isOpen running => ?_, written⟩
        obtain closed | ended := stopped
        · exact absurd (isOpen.symm.trans closed) Bool.false_ne_true
        · exact absurd (running.symm.trans ended) Bool.false_ne_true
      · rename_i running
        obtain ⟨isOpen, running⟩ := not_or.mp running
        refine .of_whole later ?_
        rw [List.append_assoc]
        exact whole (Bool.eq_false_of_not_eq_true isOpen) (Bool.eq_false_of_not_eq_true running)

theorem keeps_writes : SseBroker.Keeps codec Writes where
  push connection frame writes isOpen sent := by
    have filled : ∀ other ∈ connection.queue ++ [frame], other ≠ "" := by
      intro other member
      obtain old | new := List.mem_append.mp member
      · exact writes.filled other old
      · rw [List.mem_singleton.mp new]
        exact sent.ne_empty
    have whole : connection.isClosed = false → connection.response.writableEnded = false →
        connection.accepted ++ [frame] =
          connection.response.written ++ (connection.queue ++ [frame]) := by
      intro isOpen running
      rw [writes.whole isOpen running, List.append_assoc]
    have written : connection.response.written <+: connection.accepted ++ [frame] :=
      writes.written.trans (List.prefix_append _ _)
    unfold push flushConnectionQueue
    split
    · exact ⟨filled, whole, written⟩
    · exact writes_flushLoop filled whole written
  number _ writes := ⟨writes.filled, writes.whole, writes.written⟩
  closed _ writes := ⟨fun _ member => absurd member List.not_mem_nil,
    fun isOpen => absurd isOpen.symm Bool.false_ne_true, writes.written⟩
  resumeFlush connection writes := by
    unfold resumeFlush
    split
    · exact ⟨writes.filled, writes.whole, writes.written⟩
    · exact writes_flushLoop writes.filled writes.whole writes.written
  idle _ _ _ writes := ⟨writes.filled, writes.whole, writes.written⟩
  ended _ writes := ⟨writes.filled, fun _ running => absurd running.symm Bool.false_ne_true,
    writes.written⟩

end SseConnection

/-! ## The events of a stream -/

/-- The id, the type and the parsed data of the frames with data that a client reads. -/
def readEvents (codec : JsonCodec K) (trim : String → String) (chunks : List String) :
    List (Option String × Option String × Option (Json K)) :=
  (streamSse trim chunks).filterMap fun frame =>
    frame.data.map fun data => (frame.id, frame.event, codec.parse data)

/-- An event as a client reads it. -/
def asRead (event : ℕ × RealtimeEventType × Json K) :
    Option String × Option String × Option (Json K) :=
  (some (toString event.1), some event.2.1.text, some event.2.2)

/-- **The events of the frames that were sent are read**, and no others. -/
theorem readEvents_eq {trim : String → String}
    (unbroken : ∀ value, '\n' ∉ (codec.stringify value).toList) {frames : List (BrokerFrame K)}
    {chunks : List String}
    (arrives : String.join chunks = String.join (frames.map (BrokerFrame.text codec))) :
    readEvents codec trim chunks = (frames.filterMap BrokerFrame.event?).map asRead := by
  rw [readEvents, streamSse_eq unbroken frames arrives, List.filterMap_map, List.map_filterMap]
  refine List.filterMap_congr fun frame _ => ?_
  cases frame with
  | event eventType eventId payload =>
      simp [BrokerFrame.parsed, BrokerFrame.event?, asRead, codec.parse_stringify]
  | retry => rfl
  | connected => rfl
  | keepalive => rfl

end Connections

/-! ## Runs -/

variable {K : Type} [Field K] [LinearOrder K] {P : Platform K} {codec : JsonCodec K}

namespace Deployment

variable {deployment deployment' : Deployment P}

/-- A client connects with a response that nothing was written to. -/
def FreshResponse (_ : Deployment P) (action : DeploymentAction K) : Prop :=
  ∀ now input, action = .broker (.registerConnection now input) → input.response.written = []

theorem writes_next {action : DeploymentAction K}
    (all : deployment.broker.All SseConnection.Writes) (fresh : deployment.FreshResponse action)
    (taken : deployment.next codec action = some deployment') :
    deployment'.broker.All SseConnection.Writes := by
  have keeps : SseBroker.Keeps codec SseConnection.Writes := SseConnection.keeps_writes
  cases action with
  | site action =>
      obtain ⟨site, -, rfl⟩ := Option.map_eq_some_iff.mp taken
      exact all
  | deliver =>
      unfold next at taken
      dsimp only at taken
      split at taken
      · cases taken
      · cases taken
        exact all.onMessage keeps _ _
  | broker action =>
      obtain ⟨broker, -, stepped, rfl⟩ := exists_broker_of_next taken
      refine all.next keeps (fun now input same => ?_) (fun connectionId _ => ?_) stepped
      · subst same
        have unused : (SseConnection.ofInput input).response.written = [] := fresh now input rfl
        refine .of_whole (fun _ member => absurd member List.not_mem_nil) ?_
        rw [unused]
        rfl
      · exact all.openConnection keeps connectionId fun _ writes =>
          ⟨writes.filled, writes.whole, writes.written⟩

/-- **Clients read what is published.** In every run in which clients connect with fresh
responses, what a client reads of what was written to its connection, in whatever chunks, are the
first of the events that it asked for among the messages that arrived since it was registered;
and these messages are the targets of rows of the outbox. -/
theorem clients_read_publications {db : Db P} {clock : Timestamp} {isUp : Bool}
    (trim : String → String) (unbroken : ∀ value, '\n' ∉ (codec.stringify value).toList)
    (run : Reaches (next codec) FreshResponse (start db clock isUp) deployment)
    {connectionId : ConnectionId} {connection : SseConnection}
    (known : deployment.broker.connections.get connectionId = some connection)
    {chunks : List String}
    (arrives : String.join chunks = String.join connection.response.written) :
    readEvents codec trim chunks <+: (SseConnection.numbered (connection.wanted
        (deployment.heard.drop (deployment.heardBefore connectionId)))).map asRead ∧
      ∀ publication ∈ deployment.heard,
        publication.ComesFrom deployment.site.db.eventOutbox := by
  have delivers := delivers_of_reaches run
  have writes : deployment.broker.All SseConnection.Writes :=
    run.invariant (fun _ _ unknown => absurd unknown (Option.some_ne_none _).symm)
      fun _ _ _ all fresh taken => writes_next all fresh taken
  obtain ⟨frames, accepted, first, -⟩ := delivers.hears connectionId connection known
  refine ⟨?_, fun publication member => ?_⟩
  · have written := (writes connectionId connection known).written
    rw [accepted] at written
    have writtenFrames : connection.response.written =
        (frames.take connection.response.written.length).map (BrokerFrame.text codec) := by
      rw [List.map_take]
      exact List.prefix_iff_eq_take.mp written
    rw [writtenFrames] at arrives
    rw [readEvents_eq unbroken arrives]
    refine List.IsPrefix.map _ (List.IsPrefix.trans ?_ first)
    exact (List.take_prefix _ _).filterMap _
  · exact delivers.traced.published publication
      (delivers.once.subset (List.mem_append_left _ member))

end Deployment

/-! ## Samples -/

/-- The client reads the event of the worker. -/
theorem clients_read_publications_sample :
    ∃ (deployment : Deployment asciiPlatform) (connection : SseConnection),
      connection.response.written.length = 3 ∧
        readEvents rationalJsonCodec asciiTrim connection.response.written <+:
          (SseConnection.numbered (connection.wanted
            (deployment.heard.drop (deployment.heardBefore ⟨0, 1⟩)))).map asRead := by
  obtain ⟨deployment, reached, observed⟩ := exists_reaches_of_execute
    (Deployment.next rationalJsonCodec) Deployment.FreshResponse
    (Deployment.start (Db.empty : Db asciiPlatform) 1 true)
    (sampleDelivery ++ [.broker (.settleWrite ⟨0, 1⟩ false), .broker (.settleWrite ⟨0, 1⟩ false)])
    (fun deployment => (deployment.broker.connections.get ⟨0, 1⟩).any fun connection =>
      connection.response.written.length = 3)
    (by simp [sampleDelivery, sampleClient, sampleInput, Deployment.FreshResponse])
    (by decide +kernel)
  obtain ⟨connection, known, written⟩ := (Option.any_eq_true _ _).mp observed
  exact ⟨deployment, connection, of_decide_eq_true written,
    (Deployment.clients_read_publications asciiTrim lineBreak_not_mem_rationalJsonCodec reached
      known rfl).1⟩

end EliteHubVault
