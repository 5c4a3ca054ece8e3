import EliteHubVault.Library.Alternation

/-!
# The heartbeat monitor of the listener

The monitor measures how long ago a job was enqueued, and reports when this becomes too long and
when it is over. Every tick awaits `pushUptimeKumaHeartbeat` in between, also when there is
nothing to push, and goes on with what it has measured. Another tick may have opened an alert
by then, which the first one closes again, although nothing has been enqueued
(`late_heartbeat_recovers`). Alerts recover for a reason when each tick that opens or closes one
goes on while its measurement still holds (`alerts_recover_for_reason`).
-/

set_option autoImplicit false

namespace EliteHubVault

open Library

/-! ## The monitor -/

def enqueueHeartbeatGapThresholdMs : ℤ := 2 * 60000
def enqueueStatusLogIntervalMs : ℤ := 60000
def uptimeKumaPushIntervalMs : ℤ := 60000

/-- `CreateEnqueueHeartbeatMonitorOptions`, but for the interval of the timer. -/
structure MonitorOptions where
  timeSinceLastJobQueuedThresholdMs : ℤ
  statusLogIntervalMs : ℤ
  kumaPushIntervalMs : ℤ
  kumaPushUrl : Option String

/-- The default options. -/
def MonitorOptions.ofUrl (kumaPushUrl : Option String) : MonitorOptions where
  timeSinceLastJobQueuedThresholdMs := enqueueHeartbeatGapThresholdMs
  statusLogIntervalMs := enqueueStatusLogIntervalMs
  kumaPushIntervalMs := uptimeKumaPushIntervalMs
  kumaPushUrl := kumaPushUrl

/-- The messages that the alternation is about. -/
inductive EnqueueAlert where
  | gap | recovered
deriving DecidableEq

/-- What the monitor sends and logs, and the successes that it is told of. -/
inductive MonitorEntry where
  | enqueued
  | heartbeat (timeSinceLastJobQueuedMs : ℤ) (hasSeenSuccessfulEnqueue : Bool)
  | alert (kind : EnqueueAlert) (timeSinceLastJobQueuedMs : ℤ)
  | pushFailed
deriving DecidableEq

def MonitorEntry.alert? : MonitorEntry → Option EnqueueAlert
  | .alert kind _ => some kind
  | .enqueued | .heartbeat _ _ | .pushFailed => none

/-- A tick that awaits `pushUptimeKumaHeartbeat`: the URL that is being fetched, or none when
it can go on. -/
structure HeartbeatTick where
  now : ℤ
  timeSinceLastJobQueuedMs : ℤ
  pushUrl : Option String
deriving DecidableEq

/-- The variables of the monitor, the ticks that have not gone on yet, the time of the last step,
and what has been sent. -/
structure HeartbeatMonitor where
  lastSuccessfulEnqueueAt : ℤ
  enqueueGapAlertOpen : Bool
  hasSeenSuccessfulEnqueue : Bool
  lastStatusLogAt : ℤ
  lastKumaPushAt : ℤ
  awaiting : List HeartbeatTick
  clock : ℤ
  log : List MonitorEntry

def createEnqueueHeartbeatMonitor (now : ℤ) : HeartbeatMonitor where
  lastSuccessfulEnqueueAt := now
  enqueueGapAlertOpen := false
  hasSeenSuccessfulEnqueue := false
  lastStatusLogAt := 0
  lastKumaPushAt := 0
  awaiting := []
  clock := now
  log := []

def buildKumaPushUrl (options : MonitorOptions) (timeSinceLastJobQueuedMs : ℤ) : Option String :=
  (options.kumaPushUrl.filter fun url => url ≠ "").map fun url =>
    if "ping=".toList <:+ url.toList then url ++ toString timeSinceLastJobQueuedMs else url

namespace HeartbeatMonitor

/-- The URL that `pushUptimeKumaHeartbeat` fetches, unless it returns at once. -/
def pushUrl (options : MonitorOptions) (now timeSinceLastJobQueuedMs : ℤ)
    (monitor : HeartbeatMonitor) : Option String :=
  if monitor.hasSeenSuccessfulEnqueue = false ∨
      options.timeSinceLastJobQueuedThresholdMs ≤ timeSinceLastJobQueuedMs ∨
      now - monitor.lastKumaPushAt < options.kumaPushIntervalMs then none
  else buildKumaPushUrl options timeSinceLastJobQueuedMs

def send (entry : MonitorEntry) (monitor : HeartbeatMonitor) : HeartbeatMonitor :=
  { monitor with log := monitor.log ++ [entry] }

def openAlert (timeSinceLastJobQueuedMs : ℤ) (monitor : HeartbeatMonitor) : HeartbeatMonitor :=
  { monitor with enqueueGapAlertOpen := true }.send (.alert .gap timeSinceLastJobQueuedMs)

def closeAlert (timeSinceLastJobQueuedMs : ℤ) (monitor : HeartbeatMonitor) : HeartbeatMonitor :=
  { monitor with enqueueGapAlertOpen := false }.send (.alert .recovered timeSinceLastJobQueuedMs)

/-- What follows the push in `monitorEnqueueHeartbeat`. -/
def finishTick (options : MonitorOptions) (timeSinceLastJobQueuedMs : ℤ)
    (monitor : HeartbeatMonitor) : HeartbeatMonitor :=
  let monitor :=
    if options.timeSinceLastJobQueuedThresholdMs ≤ timeSinceLastJobQueuedMs ∧
        monitor.enqueueGapAlertOpen = false then
      monitor.openAlert timeSinceLastJobQueuedMs
    else monitor
  if timeSinceLastJobQueuedMs < options.timeSinceLastJobQueuedThresholdMs ∧
      monitor.enqueueGapAlertOpen = true then
    monitor.closeAlert timeSinceLastJobQueuedMs
  else monitor

/-- The status log of `monitorEnqueueHeartbeat`. -/
def logStatus (options : MonitorOptions) (now : ℤ) (monitor : HeartbeatMonitor) :
    HeartbeatMonitor :=
  if options.statusLogIntervalMs ≤ now - monitor.lastStatusLogAt then
    { monitor with lastStatusLogAt := now }.send
      (.heartbeat (now - monitor.lastSuccessfulEnqueueAt) monitor.hasSeenSuccessfulEnqueue)
  else monitor

/-- `monitorEnqueueHeartbeat`, up to the push that it awaits. -/
def monitorEnqueueHeartbeat (options : MonitorOptions) (now : ℤ) (monitor : HeartbeatMonitor) :
    HeartbeatMonitor :=
  let timeSinceLastJobQueuedMs := now - monitor.lastSuccessfulEnqueueAt
  let monitor := monitor.logStatus options now
  { monitor with
    awaiting := monitor.awaiting ++ [⟨now, timeSinceLastJobQueuedMs,
      monitor.pushUrl options now timeSinceLastJobQueuedMs⟩] }

def markEnqueueSuccess (now : ℤ) (monitor : HeartbeatMonitor) : HeartbeatMonitor :=
  { monitor with lastSuccessfulEnqueueAt := now, hasSeenSuccessfulEnqueue := true }.send .enqueued

/-- `start`, with its first tick up to the push. -/
def start (options : MonitorOptions) (now : ℤ) (monitor : HeartbeatMonitor) : HeartbeatMonitor :=
  { monitor with lastStatusLogAt := now, lastKumaPushAt := now }.monitorEnqueueHeartbeat
    options now

/-- A push ends, with a response that is `ok` or with an error; its tick can go on. -/
def fetched (index : ℕ) (ok : Bool) (monitor : HeartbeatMonitor) :
    Option HeartbeatMonitor :=
  (monitor.awaiting[index]?).bind fun tick =>
    if tick.pushUrl.isSome then
      let monitor :=
        if ok then { monitor with lastKumaPushAt := tick.now } else monitor.send .pushFailed
      some { monitor with awaiting := monitor.awaiting.set index { tick with pushUrl := none } }
    else none

/-- A tick goes on after its `await`. -/
def resume (options : MonitorOptions) (index : ℕ) (monitor : HeartbeatMonitor) :
    Option HeartbeatMonitor :=
  (monitor.awaiting[index]?).bind fun tick =>
    if tick.pushUrl.isNone then
      some ({ monitor with awaiting := monitor.awaiting.eraseIdx index }.finishTick options
        tick.timeSinceLastJobQueuedMs)
    else none

/-! ## Runs -/

/-- What happens. -/
inductive Event where
  | start
  | tick
  | markEnqueueSuccess
  | fetched (index : ℕ) (ok : Bool)
  | resume (index : ℕ)

/-- What happens, and the time of the clock. -/
structure Action where
  now : ℤ
  event : Event

def next (options : MonitorOptions) (monitor : HeartbeatMonitor) (a : Action) :
    Option HeartbeatMonitor :=
  let monitor := { monitor with clock := a.now }
  match a.event with
  | .start => some (monitor.start options a.now)
  | .tick => some (monitor.monitorEnqueueHeartbeat options a.now)
  | .markEnqueueSuccess => some (monitor.markEnqueueSuccess a.now)
  | .fetched index ok => monitor.fetched index ok
  | .resume index => monitor.resume options index

/-- The clock does not run backwards. -/
def ClockRuns (monitor : HeartbeatMonitor) (a : Action) : Prop := monitor.clock ≤ a.now

instance (monitor : HeartbeatMonitor) (a : Action) : Decidable (monitor.ClockRuns a) :=
  inferInstanceAs (Decidable (_ ≤ _))

/-- The tick that goes on. -/
def Event.resumed? : Event → Option ℕ
  | .resume index => some index
  | .start | .tick | .markEnqueueSuccess | .fetched _ _ => none

/-- What the tick has measured is on the side of the threshold where the last success is now,
if the tick opens or closes an alert. -/
def StillHolds (options : MonitorOptions) (now : ℤ) (monitor : HeartbeatMonitor)
    (tick : HeartbeatTick) : Prop :=
  (options.timeSinceLastJobQueuedThresholdMs ≤ tick.timeSinceLastJobQueuedMs →
    monitor.enqueueGapAlertOpen = false →
      options.timeSinceLastJobQueuedThresholdMs ≤ now - monitor.lastSuccessfulEnqueueAt) ∧
  (tick.timeSinceLastJobQueuedMs < options.timeSinceLastJobQueuedThresholdMs →
    monitor.enqueueGapAlertOpen = true →
      now - monitor.lastSuccessfulEnqueueAt < options.timeSinceLastJobQueuedThresholdMs)

instance (options : MonitorOptions) (now : ℤ) (monitor : HeartbeatMonitor)
    (tick : HeartbeatTick) : Decidable (monitor.StillHolds options now tick) :=
  inferInstanceAs (Decidable (_ ∧ _))

/-- A tick that opens or closes an alert goes on while its measurement still holds. -/
def ActsInTime (options : MonitorOptions) (monitor : HeartbeatMonitor) (a : Action) : Prop :=
  monitor.ClockRuns a ∧ ∀ index ∈ a.event.resumed?, ∀ tick ∈ monitor.awaiting[index]?,
    monitor.StillHolds options a.now tick

instance (options : MonitorOptions) (monitor : HeartbeatMonitor) (a : Action) :
    Decidable (monitor.ActsInTime options a) := inferInstanceAs (Decidable (_ ∧ _))

end HeartbeatMonitor

/-! ## Messages -/

/-- The gap and recovery messages among what was sent. -/
def alertsOf (log : List MonitorEntry) : List EnqueueAlert := log.filterMap MonitorEntry.alert?

@[simp] theorem alertsOf_append (log later : List MonitorEntry) :
    alertsOf (log ++ later) = alertsOf log ++ alertsOf later := List.filterMap_append

/-- Something was enqueued between each recovery message and the gap message before it. -/
def RecoversForReason (log : List MonitorEntry) : Prop :=
  ∀ before after timeSince, log = before ++ .alert .recovered timeSince :: after →
    ∃ first gapTime last, before = first ++ .alert .gap gapTime :: last ∧ alertsOf last = [] ∧
      .enqueued ∈ last

/-- The last entry is a recovery for a reason, or no recovery. -/
theorem RecoversForReason.append {log : List MonitorEntry} (reasoned : RecoversForReason log)
    {entry : MonitorEntry} (reason : ∀ timeSince, entry = .alert .recovered timeSince →
      ∃ first gapTime last, log = first ++ .alert .gap gapTime :: last ∧ alertsOf last = [] ∧
        .enqueued ∈ last) : RecoversForReason (log ++ [entry]) := by
  intro before after timeSince same
  obtain rfl | ⟨earlier, final, rfl⟩ := List.eq_nil_or_concat after
  · obtain ⟨rfl, last⟩ := List.append_inj' same rfl
    exact reason timeSince (List.cons.inj last).1
  · rw [List.concat_eq_append, ← List.cons_append, ← List.append_assoc] at same
    exact reasoned before earlier timeSince (List.append_inj' same rfl).1

/-- A recovery right after a gap has no reason. -/
theorem not_recoversForReason (first : List MonitorEntry) (gapTime recoveryTime : ℤ) :
    ¬ RecoversForReason (first ++ [.alert .gap gapTime, .alert .recovered recoveryTime]) := by
  intro reasoned
  obtain ⟨first', gapTime', last, same, silent, enqueued⟩ :=
    reasoned (first ++ [.alert .gap gapTime]) [] recoveryTime (by simp)
  obtain rfl | ⟨last, final, rfl⟩ := List.eq_nil_or_concat last
  · cases enqueued
  · rw [List.concat_eq_append, ← List.cons_append, ← List.append_assoc] at same
    have final := (List.cons.inj (List.append_inj' same rfl).2).1
    rw [← final] at silent
    simp [alertsOf, MonitorEntry.alert?] at silent

namespace HeartbeatMonitor

variable {options : MonitorOptions} {monitor monitor' : HeartbeatMonitor} {a : Action}

/-- **What a tick does at its end.** -/
theorem finishTick_cases (options : MonitorOptions) (timeSince : ℤ) (monitor : HeartbeatMonitor) :
    (options.timeSinceLastJobQueuedThresholdMs ≤ timeSince ∧
      monitor.enqueueGapAlertOpen = false ∧
        monitor.finishTick options timeSince = monitor.openAlert timeSince) ∨
    (timeSince < options.timeSinceLastJobQueuedThresholdMs ∧
      monitor.enqueueGapAlertOpen = true ∧
        monitor.finishTick options timeSince = monitor.closeAlert timeSince) ∨
    monitor.finishTick options timeSince = monitor := by
  unfold finishTick
  by_cases late : options.timeSinceLastJobQueuedThresholdMs ≤ timeSince
  · cases isOpen : monitor.enqueueGapAlertOpen with
    | false => exact .inl ⟨late, rfl, by simp [late, not_lt.mpr late]⟩
    | true => exact .inr (.inr (by simp [isOpen, not_lt.mpr late]))
  · cases isOpen : monitor.enqueueGapAlertOpen with
    | false => exact .inr (.inr (by simp [isOpen, late]))
    | true => exact .inr (.inl ⟨not_le.mp late, rfl, by simp [isOpen, late, not_le.mp late]⟩)

/-! ## Alternation -/

/-- The messages alternate, and the last one is a gap exactly while an alert is open. -/
structure Alternating (monitor : HeartbeatMonitor) : Prop where
  alternates : Alternates .gap .recovered (alertsOf monitor.log)
  turn : monitor.enqueueGapAlertOpen = true ↔ (alertsOf monitor.log).getLast? = some .gap

theorem Alternating.congr (alternating : monitor.Alternating)
    (log : alertsOf monitor'.log = alertsOf monitor.log)
    (isOpen : monitor'.enqueueGapAlertOpen = monitor.enqueueGapAlertOpen) :
    monitor'.Alternating :=
  ⟨log ▸ alternating.alternates, by rw [isOpen, log]; exact alternating.turn⟩

theorem Alternating.finishTick (alternating : monitor.Alternating) (timeSince : ℤ) :
    (monitor.finishTick options timeSince).Alternating := by
  obtain ⟨-, closed, same⟩ | ⟨-, opened, same⟩ | same :=
    finishTick_cases options timeSince monitor <;> rw [same]
  · have last : (alertsOf monitor.log).getLast? ≠ some .gap := fun gap => by
      rw [alternating.turn.mpr gap] at closed
      cases closed
    refine ⟨?_, by simp [openAlert, send, alertsOf, MonitorEntry.alert?]⟩
    rw [openAlert, send, alertsOf_append]
    exact alternating.alternates.append (by decide) (.inr ⟨last, rfl⟩)
  · refine ⟨?_, by simp [closeAlert, send, alertsOf, MonitorEntry.alert?]⟩
    rw [closeAlert, send, alertsOf_append]
    exact alternating.alternates.append (by decide) (.inl ⟨alternating.turn.mp opened, rfl⟩)
  · exact alternating

theorem Alternating.monitorEnqueueHeartbeat (alternating : monitor.Alternating) (now : ℤ) :
    (monitor.monitorEnqueueHeartbeat options now).Alternating := by
  have logged : (monitor.logStatus options now).Alternating := by
    unfold logStatus
    split
    · exact alternating.congr (by simp [send, alertsOf, MonitorEntry.alert?]) rfl
    · exact alternating
  exact logged.congr rfl rfl

theorem Alternating.next (alternating : monitor.Alternating)
    (taken : monitor.next options a = some monitor') : monitor'.Alternating := by
  obtain ⟨now, event⟩ := a
  cases event with
  | start =>
      cases taken
      refine Alternating.monitorEnqueueHeartbeat ?_ now
      exact alternating.congr rfl rfl
  | tick =>
      cases taken
      refine Alternating.monitorEnqueueHeartbeat ?_ now
      exact alternating.congr rfl rfl
  | markEnqueueSuccess =>
      cases taken
      exact alternating.congr (by simp [markEnqueueSuccess, send, alertsOf, MonitorEntry.alert?])
        rfl
  | fetched index ok =>
      obtain ⟨tick, -, ended⟩ := Option.bind_eq_some_iff.mp taken
      obtain ⟨-, same⟩ := Option.ite_none_right_eq_some.mp ended
      cases same
      cases ok with
      | true => exact alternating.congr rfl rfl
      | false => exact alternating.congr (by simp [send, alertsOf, MonitorEntry.alert?]) rfl
  | resume index =>
      obtain ⟨tick, -, ended⟩ := Option.bind_eq_some_iff.mp taken
      obtain ⟨-, same⟩ := Option.ite_none_right_eq_some.mp ended
      cases same
      refine Alternating.finishTick ?_ _
      exact alternating.congr rfl rfl

/-- **Gap and recovery messages alternate in every run**, starting with a gap. -/
theorem alternating_of_reaches {guard : HeartbeatMonitor → Action → Prop} {created : ℤ}
    (run : Reaches (next options) guard (createEnqueueHeartbeatMonitor created) monitor) :
    monitor.Alternating :=
  run.invariant ⟨trivial, by simp [createEnqueueHeartbeatMonitor, alertsOf]⟩
    fun _ _ _ alternating _ taken => alternating.next taken

/-! ## Reasons -/

/-- While an alert is open and nothing has been enqueued since, the last success is as far away
as the threshold. -/
structure Reasoned (options : MonitorOptions) (monitor : HeartbeatMonitor) : Prop where
  log : RecoversForReason monitor.log
  opened : monitor.enqueueGapAlertOpen = true → ∃ first gapTime last,
    monitor.log = first ++ .alert .gap gapTime :: last ∧ alertsOf last = [] ∧
      (.enqueued ∈ last ∨ options.timeSinceLastJobQueuedThresholdMs ≤
        monitor.clock - monitor.lastSuccessfulEnqueueAt)

/-- Something is sent that is no alert. -/
theorem Reasoned.send (reasoned : monitor.Reasoned options) {entry : MonitorEntry}
    (silent : entry.alert? = none) : (monitor.send entry).Reasoned options where
  log := reasoned.log.append fun timeSince same => by
    rw [same] at silent
    cases silent
  opened isOpen := by
    obtain ⟨first, gapTime, last, log, quiet, since⟩ := reasoned.opened isOpen
    refine ⟨first, gapTime, last ++ [entry], by simp [HeartbeatMonitor.send, log], ?_, ?_⟩
    · rw [alertsOf_append, quiet]
      simp [alertsOf, silent]
    · exact since.imp_left fun enqueued => List.mem_append_left _ enqueued

/-- A tick ends that opens an alert only when the last success is far away, and closes one only
when it is not. -/
theorem Reasoned.finishTick (reasoned : monitor.Reasoned options) {timeSince : ℤ}
    (opens : options.timeSinceLastJobQueuedThresholdMs ≤ timeSince →
      monitor.enqueueGapAlertOpen = false → options.timeSinceLastJobQueuedThresholdMs ≤
        monitor.clock - monitor.lastSuccessfulEnqueueAt)
    (closes : timeSince < options.timeSinceLastJobQueuedThresholdMs →
      monitor.enqueueGapAlertOpen = true → monitor.clock - monitor.lastSuccessfulEnqueueAt <
        options.timeSinceLastJobQueuedThresholdMs) :
    (monitor.finishTick options timeSince).Reasoned options := by
  obtain ⟨late, closed, same⟩ | ⟨early, isOpen, same⟩ | same :=
    finishTick_cases options timeSince monitor <;> rw [same]
  · refine ⟨reasoned.log.append nofun, fun _ => ?_⟩
    exact ⟨monitor.log, timeSince, [], rfl, rfl, .inr (opens late closed)⟩
  · refine ⟨reasoned.log.append fun _ _ => ?_, nofun⟩
    obtain ⟨first, gapTime, last, log, quiet, enqueued | far⟩ := reasoned.opened isOpen
    · exact ⟨first, gapTime, last, log, quiet, enqueued⟩
    · exact absurd (closes early isOpen) (not_lt.mpr far)
  · exact reasoned

theorem Reasoned.monitorEnqueueHeartbeat (reasoned : monitor.Reasoned options) :
    (monitor.monitorEnqueueHeartbeat options monitor.clock).Reasoned options := by
  have logged : (monitor.logStatus options monitor.clock).Reasoned options := by
    unfold logStatus
    split
    · refine Reasoned.send ?_ rfl
      exact ⟨reasoned.log, reasoned.opened⟩
    · exact reasoned
  exact ⟨logged.log, logged.opened⟩

theorem Reasoned.next (reasoned : monitor.Reasoned options) (inTime : monitor.ActsInTime options a)
    (taken : monitor.next options a = some monitor') : monitor'.Reasoned options := by
  obtain ⟨now, event⟩ := a
  obtain ⟨runs, inTime⟩ := inTime
  have later : ({ monitor with clock := now } : HeartbeatMonitor).Reasoned options := by
    refine ⟨reasoned.log, fun isOpen => ?_⟩
    obtain ⟨first, gapTime, last, log, quiet, since⟩ := reasoned.opened isOpen
    exact ⟨first, gapTime, last, log, quiet, since.imp_right fun far =>
      far.trans (Int.sub_le_sub_right runs _)⟩
  cases event with
  | start =>
      cases taken
      have started : ({ monitor with
          clock := now, lastStatusLogAt := now, lastKumaPushAt := now } :
            HeartbeatMonitor).Reasoned options := ⟨later.log, later.opened⟩
      exact started.monitorEnqueueHeartbeat
  | tick =>
      cases taken
      exact later.monitorEnqueueHeartbeat
  | markEnqueueSuccess =>
      cases taken
      refine ⟨later.log.append nofun, fun isOpen => ?_⟩
      obtain ⟨first, gapTime, last, log, quiet, -⟩ := later.opened isOpen
      refine ⟨first, gapTime, last ++ [.enqueued], ?_, ?_, .inl (by simp)⟩
      · have before : monitor.log = first ++ .alert .gap gapTime :: last := log
        show monitor.log ++ [.enqueued] = _
        rw [before, List.append_assoc, List.cons_append]
      · rw [alertsOf_append, quiet]
        rfl
  | fetched index ok =>
      obtain ⟨tick, -, ended⟩ := Option.bind_eq_some_iff.mp taken
      obtain ⟨-, same⟩ := Option.ite_none_right_eq_some.mp ended
      cases same
      cases ok with
      | true => exact ⟨later.log, later.opened⟩
      | false =>
          have failed := @Reasoned.send _ _ later .pushFailed rfl
          exact ⟨failed.log, failed.opened⟩
  | resume index =>
      obtain ⟨tick, found, ended⟩ := Option.bind_eq_some_iff.mp taken
      obtain ⟨-, same⟩ := Option.ite_none_right_eq_some.mp ended
      cases same
      obtain ⟨opens, closes⟩ := inTime index rfl tick found
      refine Reasoned.finishTick ?_ opens closes
      exact ⟨later.log, later.opened⟩

/-- **An alert recovers for a reason** in every run in which each tick that opens or closes one
goes on while its measurement still holds; and messages alternate in every run. -/
theorem alerts_recover_for_reason {created : ℤ} (run : Reaches (next options)
    (ActsInTime options) (createEnqueueHeartbeatMonitor created) monitor) :
    Alternates .gap .recovered (alertsOf monitor.log) ∧ RecoversForReason monitor.log := by
  refine ⟨(alternating_of_reaches run).alternates, ?_⟩
  have reasoned : monitor.Reasoned options :=
    run.invariant ⟨fun before _ _ same => by simp [createEnqueueHeartbeatMonitor] at same, nofun⟩
      fun _ _ _ reasoned inTime taken => reasoned.next inTime taken
  exact reasoned.log

/-- A tick with nothing to push, which goes on at once. -/
def tickAt (now : ℤ) (index : ℕ) : List Action := [⟨now, .tick⟩, ⟨now, .resume index⟩]

/-- The push of the tick at 60 seconds takes so long that the tick at 150 seconds opens an alert
before it ends. -/
def lateHeartbeat : List Action :=
  [⟨0, .start⟩, ⟨0, .resume 0⟩, ⟨1, .markEnqueueSuccess⟩] ++ tickAt 30000 0 ++
    [⟨60000, .tick⟩, ⟨90000, .tick⟩, ⟨90100, .fetched 1 true⟩, ⟨90100, .resume 1⟩] ++
    tickAt 120000 1 ++ tickAt 150000 1 ++ [⟨150100, .fetched 0 true⟩, ⟨150100, .resume 0⟩]

def lateHeartbeatLog : List MonitorEntry :=
  [.enqueued, .heartbeat 59999 true, .heartbeat 119999 true]

/-- **An alert is closed although nothing has been enqueued** since it was opened. -/
theorem late_heartbeat_recovers : ∃ monitor : HeartbeatMonitor,
    Reaches (next (.ofUrl (some "https://uptime.example/push"))) ClockRuns
      (createEnqueueHeartbeatMonitor 0) monitor ∧
    monitor.log = lateHeartbeatLog ++ [.alert .gap 149999, .alert .recovered 59999] ∧
    ¬ RecoversForReason monitor.log := by
  obtain ⟨monitor, run, observed⟩ := exists_reachable_of_execute
    (admitted (next (.ofUrl (some "https://uptime.example/push"))) ClockRuns)
    (createEnqueueHeartbeatMonitor 0) lateHeartbeat
    (fun monitor => decide (monitor.log =
      lateHeartbeatLog ++ [.alert .gap 149999, .alert .recovered 59999])) (by decide +kernel)
  have log := of_decide_eq_true observed
  refine ⟨monitor, .of_admitted run, log, ?_⟩
  rw [log]
  exact not_recoversForReason lateHeartbeatLog 149999 59999

/-- The outage ends, and the next tick closes the alert. -/
theorem alerts_recover_for_reason_sample : ∃ monitor : HeartbeatMonitor,
    alertsOf monitor.log = [.gap, .recovered] ∧
      Alternates .gap .recovered (alertsOf monitor.log) ∧ RecoversForReason monitor.log := by
  obtain ⟨monitor, run, observed⟩ := exists_reachable_of_execute
    (admitted (next (.ofUrl (some "https://uptime.example/push")))
      (ActsInTime (.ofUrl (some "https://uptime.example/push"))))
    (createEnqueueHeartbeatMonitor 0)
    ([⟨0, .start⟩, ⟨0, .resume 0⟩, ⟨1, .markEnqueueSuccess⟩, ⟨60000, .tick⟩,
      ⟨60100, .fetched 0 true⟩, ⟨60100, .resume 0⟩] ++ tickAt 150000 0 ++
      [⟨170000, .markEnqueueSuccess⟩, ⟨180000, .tick⟩, ⟨180100, .fetched 0 true⟩,
        ⟨180100, .resume 0⟩])
    (fun monitor => decide (alertsOf monitor.log = [.gap, .recovered])) (by decide +kernel)
  exact ⟨monitor, of_decide_eq_true observed, alerts_recover_for_reason (.of_admitted run)⟩

end HeartbeatMonitor

end EliteHubVault
