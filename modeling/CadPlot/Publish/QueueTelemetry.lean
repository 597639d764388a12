import CadPlot.Lib.Json
import CadPlot.Publish.QueueRuns

/-!
# Queue telemetry

The snapshot that `GetTelemetry` takes of a queue, the status response of the
plug-in that carries it, and `_normalize_queue_telemetry`, which checks it again
on the other side of the pipe.
-/

namespace CadPlot.Publish.Queue

section Plugin

structure PublishQueueTelemetry where
  capacity : Nat
  pending : Nat
  running : Nat
  available : Int
  recoveredOnStartup : Nat
  interruptedOnStartup : Nat
  cancelledOnStartup : Nat
  authentication : String
  deriving DecidableEq, Repr

def authenticationScheme : String := "windows-dpapi-current-user+hmac-sha256-v1"

/-- How many jobs are in a state. -/
def PublishJobQueue.count (queue : PublishJobQueue) (state : PublishJobState) : Nat :=
  queue.states.entries.countP fun e => e.2.state = state

def getTelemetry (queue : PublishJobQueue) : PublishQueueTelemetry where
  capacity := queue.capacity
  pending := queue.pending.length
  running := queue.count .running
  available := (queue.capacity : Int) - queue.pending.length
  recoveredOnStartup := queue.recoveredOnStartup
  interruptedOnStartup := queue.interruptedOnStartup
  cancelledOnStartup := queue.cancelledOnStartup
  authentication := authenticationScheme

structure CommandDispatcher where
  adapter : String
  productName : String
  trustedWorkspaceRoot : Option String
  publishQueue : Option PublishJobQueue
  publishEnabled : Bool
  buildCommit : Option String
  pluginSha256 : Option String
  runtimeSeries : Option String
  runtimeSupported : Bool
  publishInitializationError : Option String
  queueAuthentication : Option String

/-- The constructor of the dispatcher takes publishing for enabled only with a queue. -/
def CommandDispatcher.create (d : CommandDispatcher) : CommandDispatcher :=
  { d with publishEnabled := d.runtimeSupported && d.publishEnabled && d.publishQueue.isSome }

structure PluginInfo where
  adapter : String
  productName : String
  workspace : String
  buildCommit : Option String
  pluginSha256 : Option String
  runtimeSeries : Option String

/-- The dispatcher of a runtime that publishing was asked of, once its queue exists. -/
def PluginInfo.dispatcher (info : PluginInfo) (queue : PublishJobQueue) : CommandDispatcher :=
  .create
    { adapter := info.adapter
      productName := info.productName
      trustedWorkspaceRoot := some info.workspace
      publishQueue := some queue
      publishEnabled := true
      buildCommit := info.buildCommit
      pluginSha256 := info.pluginSha256
      runtimeSeries := info.runtimeSeries
      runtimeSupported := true
      publishInitializationError := none
      queueAuthentication := some authenticationScheme }

def protocolVersion : String := "1"

/-- A member that is left out at its default, which `none` stands for. -/
def emit (name : String) (value : Option Json) : List (String × Json) :=
  value.elim [] fun value => [(name, value)]

def telemetryFields (telemetry : PublishQueueTelemetry) : List (String × Json) :=
  [("queueCapacity", .int telemetry.capacity), ("queuePending", .int telemetry.pending),
    ("queueRunning", .int telemetry.running), ("queueAvailable", .int telemetry.available),
    ("queueRecoveredOnStartup", .int telemetry.recoveredOnStartup),
    ("queueInterruptedOnStartup", .int telemetry.interruptedOnStartup),
    ("queueCancelledOnStartup", .int telemetry.cancelledOnStartup),
    ("queueAuthentication", .str telemetry.authentication)]

/-- `Dispatch` of a status request, as the response is read from the pipe -/
def CommandDispatcher.status (d : CommandDispatcher) (id : Option String) : Json :=
  .obj (emit "id" (id.map .str) ++
    [("ok", .bool true), ("version", .str protocolVersion), ("product", .str d.productName),
      ("adapter", .str d.adapter)] ++
    emit "buildCommit" (d.buildCommit.map .str) ++
    emit "pluginSha256" (d.pluginSha256.map .str) ++
    emit "runtimeSeries" (d.runtimeSeries.map .str) ++
    [("runtimeSupported", .bool d.runtimeSupported), ("readOnly", .bool true),
      ("workspaceConfigured", .bool (!d.trustedWorkspaceRoot.elim true isNullOrWhiteSpace)),
      ("publishEnabled", .bool d.publishEnabled)] ++
    emit "publishInitializationError" (d.publishInitializationError.map .str) ++
    match d.publishQueue with
    | some queue => telemetryFields (getTelemetry queue)
    | none => emit "queueAuthentication" (d.queueAuthentication.map .str))

end Plugin

section Client

structure QueueTelemetry where
  capacity : Nat
  pending : Nat
  running : Nat
  available : Nat
  recoveredOnStartup : Nat
  interruptedOnStartup : Nat
  cancelledOnStartup : Nat
  authentication : String
  deriving DecidableEq, Repr

/-- The two messages of a `ValueError`: a fixed one, and what `_bounded_status_error` makes of the
error that the response has, if it has one. -/
inductive StatusError where
  | invalidQueueTelemetry
  | pluginStatus (error : Option Json)

def getField (fields : List (String × Json)) (name : String) : Option Json :=
  (fields.find? fun field => field.1 = name).map Prod.snd

/-- An integer that is no boolean and not negative. -/
def asCount : Option Json → Option Nat
  | some (.int n) => if 0 ≤ n then some n.toNat else none
  | _ => none

def normalizeQueueTelemetry (response : Json) : Except StatusError QueueTelemetry :=
  match response with
  | .obj fields =>
    match getField fields "ok" with
    | some (.bool true) =>
      let count (name : String) : Option Nat := asCount (getField fields name)
      let countOrZero (name : String) : Option Nat :=
        asCount (some ((getField fields name).getD (.int 0)))
      match count "queueCapacity", count "queuePending", count "queueRunning",
        count "queueAvailable", countOrZero "queueRecoveredOnStartup",
        countOrZero "queueInterruptedOnStartup", countOrZero "queueCancelledOnStartup",
        getField fields "publishEnabled", getField fields "queueAuthentication" with
      | some capacity, some pending, some running, some available, some recovered,
          some interrupted, some cancelled, some (.bool true), some (.str authentication) =>
        if authentication ≠ authenticationScheme ∨ ¬(1 ≤ capacity ∧ capacity ≤ 1000) ∨
            capacity < pending ∨ capacity < available ∨ 1 < running ∨ capacity < recovered ∨
            pending + available ≠ capacity then
          .error .invalidQueueTelemetry
        else
          .ok ⟨capacity, pending, running, available, recovered, interrupted, cancelled,
            authenticationScheme⟩
      | _, _, _, _, _, _, _, _, _ => .error .invalidQueueTelemetry
    | _ => .error (.pluginStatus (getField fields "error"))
  | _ => .error (.pluginStatus none)

end Client

section Agreement

variable {κ : Type} [DecidableEq κ] {host : Host κ} {queue : PublishJobQueue}

theorem Consistent.count_pending {running : Option String} (h : Consistent queue running) :
    queue.count .pending = queue.pending.length := by
  have hlength := h.pending.length_eq
  rw [List.length_map] at hlength
  exact hlength.symm

theorem Consistent.count_running {running : Option String} (h : Consistent queue running) :
    queue.count .running ≤ 1 := by
  have hlength := h.running.length_eq
  rw [PublishJobQueue.count, ← hlength]
  cases running with
  | none => exact Nat.zero_le 1
  | some planId => exact le_rfl

theorem find?_emit {name key : String} (value : Option Json) (h : name ≠ key) :
    (emit name value).find? (fun field => field.1 = key) = none := by
  cases value with
  | none => rfl
  | some value => simp [emit, h]

/-- The members of a status response that are always there. -/
def statusFields (info : PluginInfo) (queue : PublishJobQueue) : List (String × Json) :=
  [("ok", .bool true), ("version", .str protocolVersion), ("product", .str info.productName),
    ("adapter", .str info.adapter)] ++
  [("runtimeSupported", .bool true), ("readOnly", .bool true),
    ("workspaceConfigured", .bool !isNullOrWhiteSpace info.workspace),
    ("publishEnabled", .bool true)] ++ telemetryFields (getTelemetry queue)

theorem status_fields (info : PluginInfo) (queue : PublishJobQueue) (id : Option String) :
    ∃ fields, (info.dispatcher queue).status id = .obj fields ∧
      ∀ key ∉ ["id", "buildCommit", "pluginSha256", "runtimeSeries"],
        getField fields key = getField (statusFields info queue) key := by
  refine ⟨_, rfl, fun key hkey => ?_⟩
  simp only [List.mem_cons, List.not_mem_nil, or_false, not_or] at hkey
  obtain ⟨hid, hcommit, hsha256, hseries⟩ := hkey
  have hnone : emit "publishInitializationError"
      ((info.dispatcher queue).publishInitializationError.map .str) = [] := rfl
  simp only [getField, statusFields, hnone, List.append_nil, List.find?_append,
    find?_emit _ (Ne.symm hid), find?_emit _ (Ne.symm hcommit), find?_emit _ (Ne.symm hsha256),
    find?_emit _ (Ne.symm hseries), Option.none_or, Option.or_none]
  rfl

/-- The client accepts the status of a consistent queue, and reads the telemetry from it. -/
theorem normalizeQueueTelemetry_status {running : Option String}
    (h : Consistent queue running) (info : PluginInfo) (id : Option String) :
    normalizeQueueTelemetry ((info.dispatcher queue).status id) =
      .ok ⟨queue.capacity, queue.pending.length, queue.count .running,
        queue.capacity - queue.pending.length, queue.recoveredOnStartup,
        queue.interruptedOnStartup, queue.cancelledOnStartup, authenticationScheme⟩ := by
  obtain ⟨fields, hstatus, hfield⟩ := status_fields info queue id
  have hcount (n : Nat) : asCount (some (.int n)) = some n := by
    rw [asCount, if_pos (Int.natCast_nonneg n), Int.toNat_natCast]
  have havailable : asCount (some (.int ((queue.capacity : Int) - queue.pending.length))) =
      some (queue.capacity - queue.pending.length) := by
    have hroom := h.room
    rw [← Int.ofNat_sub hroom, hcount]
  have hok : getField fields "ok" = some (.bool true) := hfield _ (by decide)
  have hcapacity : getField fields "queueCapacity" = some (.int queue.capacity) :=
    hfield _ (by decide)
  have hpending : getField fields "queuePending" = some (.int queue.pending.length) :=
    hfield _ (by decide)
  have hrunning : getField fields "queueRunning" = some (.int (queue.count .running)) :=
    hfield _ (by decide)
  have hleft : getField fields "queueAvailable" =
      some (.int ((queue.capacity : Int) - queue.pending.length)) := hfield _ (by decide)
  have hrecovered : getField fields "queueRecoveredOnStartup" =
      some (.int queue.recoveredOnStartup) := hfield _ (by decide)
  have hinterrupted : getField fields "queueInterruptedOnStartup" =
      some (.int queue.interruptedOnStartup) := hfield _ (by decide)
  have hcancelled : getField fields "queueCancelledOnStartup" =
      some (.int queue.cancelledOnStartup) := hfield _ (by decide)
  have henabled : getField fields "publishEnabled" = some (.bool true) := hfield _ (by decide)
  have hscheme : getField fields "queueAuthentication" = some (.str authenticationScheme) :=
    hfield _ (by decide)
  rw [hstatus, normalizeQueueTelemetry, hok]
  dsimp only
  rw [hcapacity, hpending, hrunning, hleft, hrecovered, hinterrupted, hcancelled, henabled,
    hscheme, Option.getD_some, Option.getD_some, Option.getD_some, havailable, hcount, hcount,
    hcount, hcount, hcount, hcount]
  dsimp only
  obtain ⟨hlow, hhigh⟩ := h.capacity
  have hone := h.count_running
  have hroom := h.room
  have hrecovered := h.recovered
  rw [if_neg]
  rintro (hne | hcap | hbad | hbad | hbad | hbad | hbad)
  · exact hne rfl
  · exact hcap ⟨hlow, hhigh⟩
  all_goals omega

variable {disk : Disk κ} {w : World κ} {s : Session}

/-- The telemetry of a queue, from whatever is on the disk at first, along any run. -/
theorem telemetry_coherent
    (hreach : Runs.Reaches (step host) Runs.anyEvent (World.start disk) w)
    (hs : w.session = some s) (info : PluginInfo) (id : Option String) :
    (getTelemetry s.queue).pending = s.queue.count .pending ∧
      (getTelemetry s.queue).running = s.queue.count .running ∧
      s.queue.count .running ≤ 1 ∧
      (getTelemetry s.queue).pending + (getTelemetry s.queue).available =
        (getTelemetry s.queue).capacity ∧
      (getTelemetry s.queue).recoveredOnStartup ≤ (getTelemetry s.queue).capacity ∧
      ∃ telemetry, normalizeQueueTelemetry ((info.dispatcher s.queue).status id) =
        .ok telemetry := by
  have hqueue := reaches_consistent hreach s hs
  refine ⟨hqueue.count_pending.symm, rfl, hqueue.count_running, ?_, hqueue.recovered,
    _, normalizeQueueTelemetry_status hqueue info id⟩
  simp only [getTelemetry]
  omega

end Agreement

section Example

/-- Job directories named by their manifests. -/
def plainHost : Host String := ⟨id, fun a b => a = b, fun _ => decide_eq_true rfl⟩

def request (name : String) : PublishJobRequest :=
  ⟨name, name ++ "/manifest.json", "00", name ++ "/source/a.dwg", name ++ "/output", 1⟩

/-- Two jobs are queued, the first is started and the write that would cancel the second fails. -/
def busyRun : List (Event String) :=
  [.restart 2 true [], .enqueue (request "a") .done, .enqueue (request "b") .done,
    .startNext .intact .done, .execute,
    .cancel (some "b") (some "00") .intact .intact (.fileException false)]

def pluginInfo : PluginInfo := ⟨"AutoCAD", "AutoCAD 2025", "C:\\jobs", none, none, none⟩

theorem telemetry_coherent_busy : ∃ s : Session, s.queue.count .pending = 1 ∧
    s.queue.count .running = 1 ∧ ∃ telemetry,
      normalizeQueueTelemetry ((pluginInfo.dispatcher s.queue).status none) = .ok telemetry := by
  obtain ⟨w, hreach, hw⟩ := Runs.exists_reaches_of_run (step plainHost) Runs.anyEvent
    (World.start .empty) busyRun (fun w => w.session.any fun s : Session =>
      decide (s.queue.pending.length = 1 ∧ s.queue.count .running = 1))
    (Runs.along_anyEvent _ _) (by decide +kernel)
  obtain ⟨s, hs, hcounts⟩ := (Option.any_eq_true _ _).1 hw
  rw [decide_eq_true_eq] at hcounts
  obtain ⟨hpending, _, _, _, _, haccepted⟩ := telemetry_coherent hreach hs pluginInfo none
  exact ⟨s, hpending.symm.trans hcounts.1, hcounts.2, haccepted⟩

end Example

end CadPlot.Publish.Queue
