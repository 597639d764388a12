import CadPlot.Gateway.DispatchLaws
import CadPlot.Gateway.Ingress
import CadPlot.Protocol.Formats

/-!
# Results of the wire as values of the gateway

A result that the wire models accept and that answers its dispatch is adapted to
the gateway's own models before it is applied. The two bound names and lists
differently: a display name of the wire has up to 255 characters and may hold a
colon, and its lists of codes are longer. The field checks of both sides are
written out here and compared.
-/

namespace CadPlot.Gateway.Ingress

open Dispatch Protocol Service
open Text (isSpace)

/-! ### What the wire accepts -/

/-- `^[A-Za-z]:` -/
def hasDrive : List Char → Bool
  | c :: ':' :: _ => c.isAlpha
  | _ => false

/-- `SafeDisplay` -/
def isSafeDisplay (value : String) : Bool :=
  let chars := value.toList
  decide (1 ≤ chars.length ∧ chars.length ≤ 255) && decide (Text.strip isSpace chars = chars) &&
    (chars.all fun c => !(c.toNat < 32 || c.toNat = 127 || c = '/' || c = '\\')) &&
    !hasDrive chars

/-- `DrawingDisplay`. No character but a letter folds to one of these letters. -/
def isDrawingDisplay (value : String) : Bool :=
  isSafeDisplay value && decide (5 ≤ value.toList.length) &&
    (".dwg".toList.isSuffixOf (value.toList.map Char.toLower) ||
      ".dwt".toList.isSuffixOf (value.toList.map Char.toLower))

/-- The field checks of a result of the wire, on the fields that the gateway reads. -/
def isRemoteResult : RemoteResult → Bool
  | .environment .. => true
  | .projects projects =>
    projects.items.all fun p => isWireId "prj" p.projectId && isSafeDisplay p.displayName
  | .drawings projectId drawings nextCursor =>
    isWireId "prj" projectId &&
      (drawings.items.all fun d => isWireId "drw" d.drawingId && isDrawingDisplay d.displayName) &&
      nextCursor.all (isWireId "cur")
  | .inspection drawingId layouts frames _ =>
    isWireId "drw" drawingId && decide (layouts ≤ 5000 ∧ frames ≤ 5000)
  | .publishPlan drawingId planId _ sheets _ =>
    isWireId "drw" drawingId && isHashId planId && decide (sheets ≤ 5000)
  | .translation drawingId response =>
    isWireId "drw" drawingId && isTranslationResponse response
  | .error .. => true

def isResultEnvelope (e : WorkerResultEnvelope) : Bool :=
  isGatewayId "tnt" e.tenantId && isGatewayId "usr" e.userId && isWireId "ws" e.deviceId &&
    isWireId "tsk" e.taskId && isWireId "op" e.operationId && isWireId "cmd" e.commandId &&
    isRemoteResult e.result

/-! ### What the gateway accepts -/

/-- What `str_strip_whitespace` takes for a space. -/
def isWhiteSpace (c : Char) : Bool := isSpace c && !decide (28 ≤ c.toNat ∧ c.toNat ≤ 31)

/-- A display name that the gateway holds: stripped, and with its characters. -/
def isDisplayName (value : String) : Bool :=
  decide (Text.strip isWhiteSpace value.toList = value.toList) && safeDisplayName value

def isTaskResult : TaskResult → Bool
  | .validateEnvironment .. => true
  | .listProjects projectIds => projectIds.items.all (isGatewayId "prj")
  | .scanDrawings projectId drawingIds _ =>
    isGatewayId "prj" projectId && drawingIds.items.all (isGatewayId "drw")
  | .inspectDrawing drawingId layoutCount sheetCount _ =>
    isGatewayId "drw" drawingId && decide (layoutCount ≤ 10000 ∧ sheetCount ≤ 10000)
  | .createPublishPlan drawingId planId _ sheetCount _ =>
    isGatewayId "drw" drawingId && isHashId planId && decide (sheetCount ≤ 10000)
  | .translation drawingId response =>
    isGatewayId "drw" drawingId && isTranslationResponse response

def isProjectRecord (p : ProjectRecord) : Bool :=
  isGatewayId "prj" p.projectId && isGatewayId "tnt" p.tenantId &&
    isGatewayId "usr" p.ownerSubjectId && isGatewayId "ws" p.workstationId &&
    isDisplayName p.displayName

def isDrawingRecord (d : DrawingRecord) : Bool :=
  isGatewayId "drw" d.drawingId && isGatewayId "tnt" d.tenantId &&
    isGatewayId "usr" d.ownerSubjectId && isGatewayId "ws" d.workstationId &&
    isGatewayId "prj" d.projectId && isDisplayName d.displayName

/-! ### Names -/

/-- A name of the wire that the gateway's model takes too. -/
def isShortName (value : String) : Bool := decide (value.toList.length ≤ 128 ∧ ':' ∉ value.toList)

theorem isSafeDisplay_of_isDrawingDisplay {value : String} (h : isDrawingDisplay value = true) :
    isSafeDisplay value = true := by
  simp only [isDrawingDisplay, Bool.and_eq_true] at h
  exact h.1.1

/-- Stripping leaves a name of the wire alone. -/
theorem strip_safeDisplay {value : String} (h : isSafeDisplay value = true) :
    Text.strip isWhiteSpace value.toList = value.toList := by
  simp only [isSafeDisplay, Bool.and_eq_true, decide_eq_true_eq] at h
  refine Text.strip_eq_self_mono (fun c hc => ?_) h.1.1.2
  rw [isWhiteSpace, Bool.and_eq_true] at hc
  exact hc.1

theorem safeDisplayName_iff {value : String} (h : isSafeDisplay value = true) :
    safeDisplayName value = true ↔ isShortName value = true := by
  simp only [isSafeDisplay, Bool.and_eq_true, decide_eq_true_eq, List.all_eq_true] at h
  obtain ⟨⟨⟨⟨hlo, _⟩, _⟩, hchars⟩, _⟩ := h
  simp only [safeDisplayName, isShortName, Bool.and_eq_true, decide_eq_true_eq, List.all_eq_true]
  constructor
  · rintro ⟨⟨_, hhi⟩, hall⟩
    refine ⟨hhi, fun hcolon => ?_⟩
    exact absurd (hall ':' hcolon) (by decide)
  · rintro ⟨hhi, hcolon⟩
    refine ⟨⟨hlo, hhi⟩, fun c hc => ?_⟩
    have hne : c ≠ ':' := fun heq => hcolon (heq ▸ hc)
    have hother := hchars c hc
    simp only [Bool.not_eq_true', Bool.or_eq_false_iff, decide_eq_false_iff_not] at hother ⊢
    exact ⟨⟨⟨⟨hother.2, hother.1.2⟩, hne⟩, hother.1.1.1⟩, hother.1.1.2⟩

theorem isDisplayName_iff {value : String} (h : isSafeDisplay value = true) :
    isDisplayName value = true ↔ isShortName value = true := by
  rw [isDisplayName, decide_eq_true (strip_safeDisplay h), Bool.true_and, safeDisplayName_iff h]

/-! ### The adaptation -/

/-- What a result is turned into before it is applied, all of it valid. -/
structure Adapted (correlation : DispatchCorrelation) (result : RemoteResult)
    (adapted : TaskResult) (projects : List ProjectRecord) (drawings : List DrawingRecord) :
    Prop where
  taskResult : gatewayResult result = .ok adapted
  projectRows : projectRecords correlation result = .ok projects
  drawingRows : drawingRecords correlation result = .ok drawings
  validResult : isTaskResult adapted = true
  validProjects : ∀ p ∈ projects, isProjectRecord p = true
  validDrawings : ∀ d ∈ drawings, isDrawingRecord d = true

/-- The operation that was dispatched, still running, at the worker that was sent it. -/
structure RunningFor (call : CompleteCall) (catalog : Catalog) (operation : OperationRecord) :
    Prop where
  worker : requireWorkerContext call.worker call.correlation = .ok ()
  workstation : ∃ w, requireWorkerWorkstation call.worker catalog = .ok w ∧
    w.ownerSubjectId = call.correlation.userId
  tenant : operation.tenantId = call.correlation.tenantId
  owner : operation.ownerSubjectId = call.correlation.userId
  device : operation.workstationId = call.correlation.deviceId
  command : remoteCommand operation = .ok call.correlation.command
  running : operation.state = .running

/-- The result is adapted, where it is no error, the ingress never refuses it as invalid, and for
the running operation the call comes to the repository. -/
structure Applicable (e : WorkerResultEnvelope) (correlation : DispatchCorrelation) : Prop where
  adapted : e.result.isError = false →
    ∃ adapted projects drawings, Adapted correlation e.result adapted projects drawings
  needed : ∀ call catalog operation, call.envelope = e → call.correlation = correlation →
    resultNeedsApplication call catalog operation ≠ .error (.ingress "result_invalid")
  prepared : ∀ call catalog operation, call.envelope = e → call.correlation = correlation →
    prepareResult call catalog operation ≠ .error (.ingress "result_invalid")
  applied : ∀ call catalog operation, call.envelope = e → call.correlation = correlation →
    RunningFor call catalog operation →
      resultNeedsApplication call catalog (some operation) = .ok true ∧
      ∃ repositoryCall, prepareResult call catalog (some operation) = .ok (some repositoryCall)

/-- No item of a listing has the identifier of another. -/
def hasDistinctItems : RemoteResult → Bool
  | .projects projects => decide (projects.items.map (·.projectId)).Nodup
  | .drawings _ drawings _ => decide (drawings.items.map (·.drawingId)).Nodup
  | _ => true

/-- The names and the lists of codes fit the gateway's own models. -/
def fitsGateway : RemoteResult → Bool
  | .environment _ errorCodes => decide (errorCodes.items.length ≤ 50)
  | .projects projects => projects.items.all fun p => isShortName p.displayName
  | .drawings _ drawings _ => drawings.items.all fun d => isShortName d.displayName
  | .inspection _ _ _ noticeCodes => decide (noticeCodes.items.length ≤ 100)
  | .publishPlan _ _ _ _ noticeCodes => decide (noticeCodes.items.length ≤ 100)
  | .translation .. => true
  | .error .. => true

section Adaptation

variable {correlation : DispatchCorrelation} {result : RemoteResult}

theorem rebound_eq_some {max limit : Nat} {α : Type} {xs : Bounded max α} {ys : Bounded limit α} :
    rebound limit xs = some ys ↔ xs.items = ys.items := by
  unfold rebound
  split
  · next h =>
    rw [Option.some.injEq]
    constructor
    · rintro rfl
      rfl
    · intro hitems
      cases ys
      congr
  · next h =>
    simp only [reduceCtorEq, false_iff]
    intro hitems
    exact h (hitems ▸ ys.bound)

theorem length_le_of_rebound {max limit : Nat} {α : Type} {xs : Bounded max α}
    (h : rebound limit xs ≠ none) : xs.items.length ≤ limit := by
  obtain ⟨fitted, hfitted⟩ := Option.ne_none_iff_exists'.1 h
  rw [rebound_eq_some.1 hfitted]
  exact fitted.bound

theorem rebound_of_le {max limit : Nat} {α : Type} {xs : Bounded max α}
    (h : xs.items.length ≤ limit) : rebound limit xs = some ⟨xs.items, h⟩ :=
  dif_pos h

/-- The gateway's own fields, and those that every listed row gets from the dispatch. -/
theorem gatewayIds {e : WorkerResultEnvelope} (he : isResultEnvelope e = true)
    (hb : requireResultBinding e correlation = .ok ()) :
    isGatewayId "tnt" correlation.tenantId = true ∧ isGatewayId "usr" correlation.userId = true ∧
      isGatewayId "ws" correlation.deviceId = true := by
  simp only [isResultEnvelope, Bool.and_eq_true] at he
  simp only [requireResultBinding, require_bind_eq_ok] at hb
  obtain ⟨⟨htenant, huser, hdevice, _⟩, _⟩ := hb
  rw [← htenant, ← huser, ← hdevice]
  exact ⟨he.1.1.1.1.1.1, he.1.1.1.1.1.2, isGatewayId_of_isWireId he.1.1.1.1.2⟩

/-- A result of the wire that is adapted fits the gateway's models. -/
theorem fits_of_adapted {adapted : TaskResult} {projects : List ProjectRecord}
    {drawings : List DrawingRecord} (hr : isRemoteResult result = true)
    (h : Adapted correlation result adapted projects drawings) : fitsGateway result = true := by
  have htask := h.taskResult
  have hprojects := h.projectRows
  have hdrawings := h.drawingRows
  cases result with
  | environment ready codes =>
    refine decide_eq_true (length_le_of_rebound fun hc => ?_)
    rw [gatewayResult, hc] at htask
    cases htask
  | projects listed =>
    simp only [projectRecords] at hprojects
    split_ifs at hprojects with hnames
    rw [List.all_eq_true] at hnames
    rw [isRemoteResult, List.all_eq_true] at hr
    rw [fitsGateway, List.all_eq_true]
    intro p hp
    have hwire := hr p hp
    rw [Bool.and_eq_true] at hwire
    exact (safeDisplayName_iff hwire.2).1 (hnames p hp)
  | drawings projectId listed cursor =>
    simp only [drawingRecords] at hdrawings
    split_ifs at hdrawings with hnames
    rw [List.all_eq_true] at hnames
    simp only [isRemoteResult, Bool.and_eq_true, List.all_eq_true] at hr
    rw [fitsGateway, List.all_eq_true]
    intro d hd
    have hwire := isSafeDisplay_of_isDrawingDisplay (hr.1.2 d hd).2
    exact (safeDisplayName_iff hwire).1 (hnames d hd)
  | inspection drawingId layouts frames codes =>
    refine decide_eq_true (length_le_of_rebound fun hc => ?_)
    rw [gatewayResult, hc] at htask
    cases htask
  | publishPlan drawingId planId ready sheets codes =>
    refine decide_eq_true (length_le_of_rebound fun hc => ?_)
    rw [gatewayResult, hc] at htask
    cases htask
  | translation => rfl
  | error => rfl

/-- A result of the wire that fits the gateway's models is adapted to valid values. -/
theorem adapted_of_fits {e : WorkerResultEnvelope} (he : isResultEnvelope e = true)
    (hb : requireResultBinding e correlation = .ok ()) (hfit : fitsGateway e.result = true)
    (hok : e.result.isError = false) :
    ∃ adapted projects drawings, Adapted correlation e.result adapted projects drawings := by
  obtain ⟨htenant, huser, hdevice⟩ := gatewayIds he hb
  have hr : isRemoteResult e.result = true := by
    rw [isResultEnvelope, Bool.and_eq_true] at he
    exact he.2
  cases hres : e.result with
  | environment ready codes =>
    rw [hres, fitsGateway, decide_eq_true_eq] at hfit
    have htask : gatewayResult (.environment ready codes) =
        .ok (.validateEnvironment ready ⟨codes.items, hfit⟩) := by
      rw [gatewayResult, rebound_of_le hfit]
    exact ⟨_, [], [], htask, rfl, rfl, rfl, by simp, by simp⟩
  | projects listed =>
    rw [hres, fitsGateway, List.all_eq_true] at hfit
    rw [hres, isRemoteResult, List.all_eq_true] at hr
    have hwire (p) (hp : p ∈ listed.items) := Bool.and_eq_true_iff.1 (hr p hp)
    have hnames : (listed.items.all fun p => safeDisplayName p.displayName) = true :=
      List.all_eq_true.2 fun p hp => (safeDisplayName_iff (hwire p hp).2).2 (hfit p hp)
    refine ⟨_, _, [], rfl, if_pos hnames, rfl, ?_, ?_, by simp⟩
    · rw [isTaskResult, List.all_eq_true]
      intro id hid
      obtain ⟨p, hp, rfl⟩ := List.mem_map.1 hid
      exact isGatewayId_of_isWireId (hwire p (List.mem_of_mem_filter hp)).1
    · intro row hrow
      obtain ⟨p, hp, rfl⟩ := List.mem_map.1 hrow
      simp only [isProjectRecord, isGatewayId_of_isWireId (hwire p hp).1, htenant, huser, hdevice,
        (isDisplayName_iff (hwire p hp).2).2 (hfit p hp), Bool.and_self]
  | drawings projectId listed cursor =>
    rw [hres, fitsGateway, List.all_eq_true] at hfit
    simp only [hres, isRemoteResult, Bool.and_eq_true, List.all_eq_true] at hr
    obtain ⟨⟨hproject, hlisted⟩, _⟩ := hr
    have hwire (d) (hd : d ∈ listed.items) := isSafeDisplay_of_isDrawingDisplay (hlisted d hd).2
    have hnames : (listed.items.all fun d => safeDisplayName d.displayName) = true :=
      List.all_eq_true.2 fun d hd => (safeDisplayName_iff (hwire d hd)).2 (hfit d hd)
    refine ⟨_, [], _, rfl, rfl, if_pos hnames, ?_, by simp, ?_⟩
    · rw [isTaskResult, Bool.and_eq_true, List.all_eq_true]
      refine ⟨isGatewayId_of_isWireId hproject, fun id hid => ?_⟩
      obtain ⟨d, hd, rfl⟩ := List.mem_map.1 hid
      exact isGatewayId_of_isWireId (hlisted d hd).1
    · intro row hrow
      obtain ⟨d, hd, rfl⟩ := List.mem_map.1 hrow
      simp only [isDrawingRecord, isGatewayId_of_isWireId (hlisted d hd).1, htenant, huser, hdevice,
        isGatewayId_of_isWireId hproject, (isDisplayName_iff (hwire d hd)).2 (hfit d hd),
        Bool.and_self]
  | inspection drawingId layouts frames codes =>
    rw [hres, fitsGateway, decide_eq_true_eq] at hfit
    simp only [hres, isRemoteResult, Bool.and_eq_true, decide_eq_true_eq] at hr
    have hcounts : layouts ≤ 10000 ∧ frames ≤ 10000 := by omega
    have htask : gatewayResult (.inspection drawingId layouts frames codes) =
        .ok (.inspectDrawing drawingId layouts frames ⟨codes.items, hfit⟩) := by
      rw [gatewayResult, rebound_of_le hfit]
      exact if_pos hcounts
    refine ⟨_, [], [], htask, rfl, rfl, ?_, by simp, by simp⟩
    rw [isTaskResult, isGatewayId_of_isWireId hr.1, decide_eq_true hcounts]
    rfl
  | publishPlan drawingId planId ready sheets codes =>
    rw [hres, fitsGateway, decide_eq_true_eq] at hfit
    simp only [hres, isRemoteResult, Bool.and_eq_true, decide_eq_true_eq] at hr
    have hcount : sheets ≤ 10000 := by omega
    have htask : gatewayResult (.publishPlan drawingId planId ready sheets codes) =
        .ok (.createPublishPlan drawingId planId ready sheets ⟨codes.items, hfit⟩) := by
      rw [gatewayResult, rebound_of_le hfit]
      exact if_pos hcount
    refine ⟨_, [], [], htask, rfl, rfl, ?_, by simp, by simp⟩
    rw [isTaskResult, isGatewayId_of_isWireId hr.1.1, hr.1.2, decide_eq_true hcount]
    rfl
  | translation drawingId response =>
    rw [hres, isRemoteResult, Bool.and_eq_true] at hr
    refine ⟨_, [], [], rfl, rfl, rfl, ?_, by simp, by simp⟩
    rw [isTaskResult, isGatewayId_of_isWireId hr.1, hr.2]
    rfl
  | error =>
    rw [hres] at hok
    cases hok

theorem eq_error_of_isError (h : result.isError = true) :
    ∃ action code attention, result = .error action code attention := by
  cases result with
  | error action code attention => exact ⟨action, code, attention, rfl⟩
  | environment | projects | drawings | inspection | publishPlan | translation => cases h

theorem isError_eq_false
    (h : ∀ action code attention, result = .error action code attention → False) :
    result.isError = false := by
  cases result with
  | error action code attention => exact (h _ _ _ rfl).elim
  | environment | projects | drawings | inspection | publishPlan | translation => rfl

/-- What the service refuses is not refused by the ingress. -/
theorem mapError_ne_ingress {α : Type} (x : Except String α) (code : String) :
    x.mapError (fun e => Failure.service (.gateway e)) ≠ .error (.ingress code) := by
  cases x <;> simp [Except.mapError]

/-- The task that a command of the wire carries. -/
def taskOf (workstationId : WorkstationId) : RemoteCommand → ReadTask
  | .validateEnvironment => .validateEnvironment workstationId
  | .listProjects => .listProjects workstationId
  | .scanDrawings projectId recursive _ limit => .scanDrawings projectId recursive limit
  | .inspectDrawing drawingId => .inspectDrawing drawingId
  | .createPublishPlan drawingId => .createPublishPlan drawingId
  | .translation drawingId request => .translation drawingId request

theorem task_of_remoteCommand {operation : OperationRecord} {command : RemoteCommand}
    (h : remoteCommand operation = .ok command) :
    operation.task = taskOf operation.workstationId command := by
  unfold remoteCommand at h
  cases htask : operation.task with
  | validateEnvironment id | listProjects id =>
    rw [htask] at h
    simp only at h
    split at h
    · cases h
    · next hid =>
      rw [← Except.ok.inj h, not_not.1 hid]
      rfl
  | scanDrawings | inspectDrawing | createPublishPlan | translation =>
    rw [htask] at h
    rw [← (checkedCommand_ok.1 h).2]
    rfl

section Answers

variable {catalog : Catalog} {operation : OperationRecord} {command : RemoteCommand}
  {adapted : TaskResult} {projects : List ProjectRecord} {drawings : List DrawingRecord}

/-- An adapted result answers the task whose command it answers. -/
theorem preapplication_ok (htask : operation.task = taskOf operation.workstationId command)
    (haction : result.action = command.action) (hmatch : resultMatchesCommand command result = true)
    (ha : gatewayResult result = .ok adapted) :
    validatePreapplicationResultBinding catalog operation adapted = .ok () := by
  unfold gatewayResult at ha
  cases result with
  | environment ready codes =>
    cases command <;> cases haction
    dsimp only at ha
    split at ha <;> cases ha
    simp [validatePreapplicationResultBinding, validateResultBinding, htask, taskOf,
      TaskResult.command, ReadTask.command]
  | projects listed =>
    cases command <;> cases haction
    cases ha
    simp [validatePreapplicationResultBinding, htask, taskOf, TaskResult.command,
      ReadTask.command]
  | drawings projectId listed cursor =>
    cases command <;> cases haction
    cases ha
    have hproject := of_decide_eq_true hmatch
    simp [validatePreapplicationResultBinding, htask, taskOf, TaskResult.command,
      ReadTask.command, ReadTask.scansProject, hproject]
  | inspection drawingId layouts frames codes =>
    cases command <;> cases haction
    have hdrawing := of_decide_eq_true hmatch
    dsimp only at ha
    split at ha <;> [split at ha; skip] <;> cases ha
    simp [validatePreapplicationResultBinding, validateResultBinding, htask, taskOf,
      TaskResult.command, ReadTask.command, hdrawing]
  | publishPlan drawingId planId ready sheets codes =>
    cases command <;> cases haction
    have hdrawing := of_decide_eq_true hmatch
    dsimp only at ha
    split at ha <;> [split at ha; skip] <;> cases ha
    simp [validatePreapplicationResultBinding, validateResultBinding, htask, taskOf,
      TaskResult.command, ReadTask.command, hdrawing]
  | translation drawingId response =>
    cases command <;> cases haction
    obtain ⟨hdrawing, hresponse⟩ := of_decide_eq_true hmatch
    cases ha
    simp [validatePreapplicationResultBinding, validateResultBinding, htask, taskOf,
      TaskResult.command, ReadTask.command, hdrawing, hresponse]
  | error => cases ha

/-- A result that lists nothing brings no rows, and then its application is checked like its
binding. -/
theorem application_eq (hprojects : ∀ ids, adapted ≠ .listProjects ids)
    (hdrawings : ∀ projectId ids truncated, adapted ≠ .scanDrawings projectId ids truncated)
    (h : validatePreapplicationResultBinding catalog operation adapted = .ok ()) :
    validateWorkerApplication catalog operation adapted [] [] = .ok () := by
  have hrows : validateWorkerApplication catalog operation adapted [] [] =
      validateResultBinding catalog operation adapted := by
    cases adapted with
    | listProjects ids => exact absurd rfl (hprojects ids)
    | scanDrawings projectId ids truncated => exact absurd rfl (hdrawings projectId ids truncated)
    | validateEnvironment | inspectDrawing | createPublishPlan | translation =>
      simp [validateWorkerApplication, require, bind, Except.bind]
  rw [hrows]
  unfold validatePreapplicationResultBinding at h
  rw [require_bind_eq_ok] at h
  cases adapted with
  | listProjects ids => exact absurd rfl (hprojects ids)
  | scanDrawings projectId ids truncated => exact absurd rfl (hdrawings projectId ids truncated)
  | validateEnvironment | inspectDrawing | createPublishPlan | translation => exact h.2

/-- The rows of a listing or a scan whose items differ are those that its result names. -/
theorem application_ok (htask : operation.task = taskOf operation.workstationId command)
    (howner : operation.tenantId = correlation.tenantId ∧
      operation.ownerSubjectId = correlation.userId ∧
      operation.workstationId = correlation.deviceId)
    (haction : result.action = command.action) (hmatch : resultMatchesCommand command result = true)
    (hdistinct : hasDistinctItems result = true)
    (ha : Adapted correlation result adapted projects drawings) :
    validateWorkerApplication catalog operation adapted projects drawings = .ok () := by
  have hbound : validatePreapplicationResultBinding catalog operation adapted = .ok () :=
    preapplication_ok htask haction hmatch ha.taskResult
  obtain ⟨htenant, howner, hdevice⟩ := howner
  have hresult := ha.taskResult
  have hprojects := ha.projectRows
  have hdrawings := ha.drawingRows
  cases result with
  | projects listed =>
    cases command <;> cases haction
    simp only [projectRecords] at hprojects
    split at hprojects <;> cases hprojects
    cases hdrawings
    cases hresult
    simp only [hasDistinctItems, decide_eq_true_eq] at hdistinct
    simp [validateWorkerApplication, htask, taskOf, htenant, howner, hdevice, hdistinct,
      List.filter_map, Function.comp_def]
  | drawings projectId listed cursor =>
    cases command <;> cases haction
    simp only [drawingRecords] at hdrawings
    split at hdrawings <;> cases hdrawings
    cases hprojects
    cases hresult
    have hproject := of_decide_eq_true hmatch
    simp only [hasDistinctItems, decide_eq_true_eq] at hdistinct
    simp [validateWorkerApplication, htask, taskOf, htenant, howner, hdevice, hdistinct,
      ReadTask.scansProject, hproject, Function.comp_def]
  | environment =>
    cases hprojects
    cases hdrawings
    simp only [gatewayResult] at hresult
    split at hresult <;> cases hresult
    exact application_eq (by simp) (by simp) hbound
  | inspection | publishPlan =>
    cases hprojects
    cases hdrawings
    simp only [gatewayResult] at hresult
    split at hresult <;> [split at hresult; skip] <;> cases hresult
    exact application_eq (by simp) (by simp) hbound
  | translation =>
    cases hprojects
    cases hdrawings
    cases hresult
    exact application_eq (by simp) (by simp) hbound
  | error => cases hresult

end Answers

/-- An adapted result is refused for what it says of its operation, if it is refused at all, and
the running operation of its dispatch takes it. -/
theorem applicable_of_adapted {e : WorkerResultEnvelope}
    (hb : requireResultBinding e correlation = .ok ())
    (hdistinct : hasDistinctItems e.result = true)
    (h : e.result.isError = false →
      ∃ adapted projects drawings, Adapted correlation e.result adapted projects drawings) :
    Applicable e correlation where
  adapted := h
  needed := by
    rintro call catalog operation rfl rfl
    unfold resultNeedsApplication
    split
    · exact mapError_ne_ingress _ _
    · next hres =>
      obtain ⟨adapted, projects, drawings, ha⟩ := h (isError_eq_false hres)
      rw [ha.taskResult]
      exact mapError_ne_ingress _ _
  prepared := by
    rintro call catalog operation rfl rfl
    unfold prepareResult
    split
    · exact mapError_ne_ingress _ _
    · next hres =>
      obtain ⟨adapted, projects, drawings, ha⟩ := h (isError_eq_false hres)
      rw [ha.taskResult, ha.projectRows, ha.drawingRows]
      exact mapError_ne_ingress _ _
  applied := by
    rintro call catalog operation rfl rfl hrun
    obtain ⟨⟨_, _, _, _, _, _, haction⟩, hmatch⟩ :
        (_ ∧ _ ∧ _ ∧ _ ∧ _ ∧ _ ∧ call.envelope.result.action = call.correlation.command.action) ∧
          resultMatchesCommand call.correlation.command call.envelope.result = true := by
      simpa only [requireResultBinding, require_bind_eq_ok, require_eq_ok] using hb
    obtain ⟨w, hw, howner⟩ := hrun.workstation
    obtain ⟨htenant, hdevice⟩ := (require_eq_ok _ _).1 hrun.worker
    have hoperation : requireWorkerOperation call.worker (some operation) = .ok operation :=
      if_pos ⟨hrun.tenant.trans htenant.symm, hrun.device.trans hdevice.symm⟩
    have htask := task_of_remoteCommand hrun.command
    unfold resultNeedsApplication prepareResult
    split
    · next action code attention hres =>
      -- a running operation is in neither of the states that a failure asks for
      have htarget : operation.state ≠ (failureTarget operation code attention).1 := by
        rw [hrun.running, failureTarget]
        cases attention <;> simp
      simp [workerFailureNeedsApplication, workerFail, hw, hoperation, hrun.running, htarget, bind,
        Except.bind, pure, Except.pure, Except.mapError, hrun.running ▸ htarget]
    · next hres =>
      obtain ⟨adapted, projects, drawings, ha⟩ := h (isError_eq_false hres)
      have hneeds : validatePreapplicationResultBinding catalog operation adapted = .ok () :=
        preapplication_ok htask haction hmatch ha.taskResult
      have happly : validateWorkerApplication catalog operation adapted projects drawings =
          .ok () :=
        application_ok htask ⟨hrun.tenant, hrun.owner, hrun.device⟩ haction hmatch hdistinct ha
      simp [workerResultNeedsApplication, workerApplySuccess, ha.taskResult, ha.projectRows,
        ha.drawingRows, hw, hoperation, hrun.running, howner, hrun.owner, hneeds, happly, bind,
        Except.bind, pure, Except.pure, Except.mapError, Except.map]

/-- A result that the wire accepts and that answers its dispatch, with items that differ, can be
applied exactly when its names and its lists of codes fit the gateway's models. -/
theorem applicable_iff {e : WorkerResultEnvelope} (he : isResultEnvelope e = true)
    (hb : requireResultBinding e correlation = .ok ())
    (hdistinct : hasDistinctItems e.result = true) :
    Applicable e correlation ↔ fitsGateway e.result = true := by
  constructor
  · intro h
    cases hok : e.result.isError with
    | true =>
      obtain ⟨action, code, attention, hres⟩ := eq_error_of_isError hok
      rw [hres]
      rfl
    | false =>
      obtain ⟨adapted, projects, drawings, ha⟩ := h.adapted hok
      rw [isResultEnvelope, Bool.and_eq_true] at he
      exact fits_of_adapted he.2 ha
  · intro hfit
    exact applicable_of_adapted hb hdistinct fun hok => adapted_of_fits he hb hfit hok

end Adaptation

/-! ### A drawing under two names -/

def scanCorrelation : DispatchCorrelation where
  tenantId := "tnt_00000000-0000-4000-8000-000000000001"
  userId := "usr_00000000-0000-4000-8000-000000000001"
  deviceId := "ws_00000000-0000-4000-8000-000000000001"
  taskId := "tsk_00000000-0000-4000-8000-000000000001"
  operationId := "op_00000000-0000-4000-8000-000000000001"
  commandId := "cmd_00000000-0000-4000-8000-000000000001"
  nonce := "nnnnnnnnnnnnnnnnnnnnnnnnnnnnnnnnnnnnnnnnnnn"
  command := .scanDrawings "prj_00000000-0000-4000-8000-000000000001" true none 50
  issuedAt := 0
  dispatchExpiresAt := 30000000
  operationExpiresAt := 900000000
  deadlines := by decide
  lifetime := by decide

/-- The worker lists one drawing. -/
def scanEnvelope (displayName : String) : WorkerResultEnvelope where
  tenantId := scanCorrelation.tenantId
  userId := scanCorrelation.userId
  deviceId := scanCorrelation.deviceId
  taskId := scanCorrelation.taskId
  operationId := scanCorrelation.operationId
  commandId := scanCorrelation.commandId
  completedAt := 10000000
  result := .drawings "prj_00000000-0000-4000-8000-000000000001"
    ⟨[⟨"drw_00000000-0000-4000-8000-000000000001", displayName⟩], Nat.le_of_ble_eq_true rfl⟩ none
  signature := ⟨List.replicate 86 'A', rfl, rfl⟩

def scanCall (displayName : String) : CompleteCall where
  worker := ⟨scanCorrelation.tenantId, scanCorrelation.deviceId⟩
  correlation := scanCorrelation
  envelope := scanEnvelope displayName
  canonicalResult := []
  resultSha256 := "e3b0c44298fc1c149afbf4c8996fb92427ae41e4649b934ca495991b7852b855"

def scanCatalog : Catalog where
  workstation _ := some
    { workstationId := scanCorrelation.deviceId
      tenantId := scanCorrelation.tenantId
      ownerSubjectId := scanCorrelation.userId
      displayName := "Plot workstation"
      enabled := true
      online := true }
  project _ := none
  drawing _ := none

def scanOperation : OperationRecord :=
  { listingOperation scanCorrelation.operationId "idem_00000000-0000-4000-8000-000000000001" 0 with
    task := .scanDrawings "prj_00000000-0000-4000-8000-000000000001" true 50
    state := .running
    startedAt := some 1000000 }

theorem scan_command : remoteCommand scanOperation = .ok scanCorrelation.command := by
  decide +kernel

theorem scan_running (displayName : String) :
    RunningFor (scanCall displayName) scanCatalog scanOperation where
  worker := (require_eq_ok _ _).2 ⟨rfl, rfl⟩
  workstation := ⟨_, rfl, rfl⟩
  tenant := rfl
  owner := rfl
  device := rfl
  command := scan_command
  running := rfl

theorem applicable_iff_scan : Applicable (scanEnvelope "Plan A.dwg") scanCorrelation ∧
    RunningFor (scanCall "Plan A.dwg") scanCatalog scanOperation :=
  ⟨(applicable_iff (by decide +kernel) (by decide +kernel) (by decide +kernel)).2
    (by decide +kernel), scan_running _⟩

/-- A file name of 129 characters. -/
def longName : String := String.ofList (List.replicate 125 'a' ++ ".dwg".toList)

/-- A drawing that the wire lists under its file name is refused for it. -/
theorem long_name_refused :
    isResultEnvelope (scanEnvelope longName) = true ∧
    requireResultBinding (scanEnvelope longName) scanCorrelation = .ok () ∧
    hasDistinctItems (scanEnvelope longName).result = true ∧
    drawingRecords scanCorrelation (scanEnvelope longName).result = .error "result_invalid" ∧
    ¬Applicable (scanEnvelope longName) scanCorrelation := by
  refine ⟨by decide +kernel, by decide +kernel, by decide +kernel, by decide +kernel, fun h => ?_⟩
  obtain ⟨adapted, projects, drawings, ha⟩ := h.adapted rfl
  have hrefused : drawingRecords scanCorrelation (scanEnvelope longName).result =
      .error "result_invalid" := by decide +kernel
  cases hrefused.symm.trans ha.drawingRows

end CadPlot.Gateway.Ingress
