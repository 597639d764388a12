import Mathlib.Algebra.Group.Action.Defs
import Mathlib.Algebra.Order.BigOperators.Group.List
import Mathlib.Data.Nat.Digits.Lemmas
import CadPlot.Publish.OutputAudit
import CadPlot.Publish.QueueLaws
import CadPlot.Publish.ReceiptBinding
import CadPlot.Publish.StagedReaders

/-!
# Records and their readers

The journal and the writer of receipts put records on disk as JSON; the journal
reads them back after a restart, and the audit reads the receipts. A record is
read back as it was written, unless it is too long.
-/

namespace CadPlot.Publish.Queue

section Sizes

/-- How many bytes `DataContractJsonSerializer` writes for a character of a text. -/
structure Serializer where
  escaped : Char → Nat
  escaped_le : ∀ c, escaped c ≤ 12

inductive FieldValue where
  | text (value : String)
  | number (value : Nat)
  | null

variable (serializer : Serializer)

def textBytes (value : String) : Nat := (value.toList.map serializer.escaped).sum + 2

def FieldValue.bytes : FieldValue → Nat
  | .text value => textBytes serializer value
  | .number value => max 1 (Nat.digits 10 value).length
  | .null => 4

/-- The length of an object with members. -/
def recordBytes (fields : List (String × FieldValue)) : Nat :=
  (fields.map fun field => field.1.toList.length + 4 + field.2.bytes serializer).sum + 1

/-- What is written into a record beside what it says of its job. -/
structure Seal where
  utc : String
  tag : String
  utc_length : utc.toList.length = 28
  tag_length : tag.toList.length = 44

def requestFields (s : Seal) (request : PublishJobRequest) : List (String × FieldValue) :=
  [("authentication_tag", .text s.tag), ("authentication_version", .number 1),
    ("manifest_path", .text request.manifestPath),
    ("manifest_sha256", .text request.manifestSha256),
    ("output_directory", .text request.outputDirectory), ("plan_id", .text request.planId),
    ("queued_utc", .text s.utc), ("schema_version", .number 1),
    ("sheet_count", .number request.sheetCount.toNat),
    ("staged_drawing", .text request.stagedDrawing)]

/-- A started or a cancelled record, which differ in the name of their time. -/
def markerFields (time : String) (s : Seal) (marker : PublishQueueMarker) :
    List (String × FieldValue) :=
  [("authentication_tag", .text s.tag), ("authentication_version", .number 1),
    ("manifest_sha256", .text marker.manifestSha256), ("plan_id", .text marker.planId),
    ("schema_version", .number 1), (time, .text s.utc)]

/-- `error` is not written where there is none. -/
def receiptFields (s : Seal) (receipt : PublishReceipt) : List (String × FieldValue) :=
  ("completed_utc", .text s.utc) ::
    (receipt.error.toList.map fun error => ("error", .text error)) ++
    [("manifest_sha256", .text receipt.manifestSha256),
      ("output_count", .number receipt.outputCount.toNat),
      ("outputs_sha256", receipt.outputsSha256.elim .null .text),
      ("plan_id", .text receipt.planId), ("schema_version", .number 2),
      ("state", .text receipt.state)]

def maxRecordBytes : Nat := 65536

/-- `ReadRecord` and `Verify` on a file that was not touched. -/
def readRecord (fields : List (String × FieldValue)) : Reading :=
  if recordBytes serializer fields < 2 ∨ maxRecordBytes < recordBytes serializer fields then
    .invalidData "publish_queue_record_size_invalid"
  else .intact

/-- The times and tags of the records of one job. -/
structure Seals where
  request : Seal
  started : Seal
  cancelled : Seal
  receipt : Seal

/-- What the readings of a job directory come to when nobody touched its files. -/
def untouched (seals : Seals) (outputs : Except String (Int × String)) (files : JobFiles) :
    JobReadings where
  request := files.request.elim .intact fun request =>
    readRecord serializer (requestFields seals.request request)
  marker :=
    match files.cancelled, files.started with
    | some cancelled, _ =>
      readRecord serializer (markerFields "cancelled_utc" seals.cancelled cancelled)
    | none, some started =>
      readRecord serializer (markerFields "started_utc" seals.started started)
    | none, none => .intact
  receipt := files.receipt.elim .intact fun receipt =>
    readRecord serializer (receiptFields seals.receipt receipt)
  outputs := outputs.toOption

/-- What Python reads of a receipt; its clock is in a format with a time zone. -/
def rawReceipt (receipt : PublishReceipt) : RawReceipt where
  keys := receipt.error.toList.map (fun _ => "error") ++ commonFields
  schemaVersion := some 2
  planId := some receipt.planId
  manifestSha256 := some receipt.manifestSha256
  state := .text receipt.state
  error := receipt.error
  outputCount := some receipt.outputCount
  outputsSha256 := receipt.outputsSha256
  completedUtc := .parsed true

def receiptFile (seals : Seals) (receipt : PublishReceipt) : StableFile RawReceipt :=
  ⟨true, recordBytes serializer (receiptFields seals.receipt receipt), true,
    .value (rawReceipt receipt), true⟩

end Sizes

section Jobs

/-- `^sha256:[0-9a-f]{64}$` -/
def isPlanId (value : String) : Bool :=
  let text := dropLineFeed value.toList
  text.take 7 = "sha256:".toList && Protocol.isLowerHexText 64 (text.drop 7)

/-- What the validators ask of a request beside its paths and files. -/
structure Validated (request : PublishJobRequest) : Prop where
  planId : isPlanId request.planId = true
  sheetCount : 1 ≤ request.sheetCount ∧ request.sheetCount ≤ 5000
  manifestSha256 : isSafeSha256 request.manifestSha256 = true

/-- The count and the digest that a successful receipt binds. -/
def binding (platform : Platform) (outputs : Option (List PublishManifestOutput)) :
    Except String (Int × String) :=
  match tryCompute platform outputs with
  | .ok (.ok (count, digest)) => .ok (count, String.ofList digest)
  | .ok (.error code) => .error code
  | .error (.other name) => .error ("receipt_exception:" ++ name)
  | .error _ => .error "receipt_output_unavailable"

variable {κ : Type} [DecidableEq κ] (host : Host κ) (serializer : Serializer) (seals : Seals)
  (request : PublishJobRequest) (execution : Execution) (outputs : Except String (Int × String))

/-- What the journal and the writer of receipts may leave in the directory of a job, whose files
nobody else touches. A receipt is written for a job that was started. -/
inductive Kept : JobFiles → Prop
  | empty : Kept .empty
  | pending {files} (writing : Writing) (h : Kept files) :
      Kept (recordPending writing files request).2
  | started {files} (writing : Writing) (h : Kept files) :
      Kept (recordStarted host (untouched serializer seals outputs files).request writing files
        request).2
  | cancelled {files} (writing : Writing) (h : Kept files) :
      Kept (recordCancelled host (untouched serializer seals outputs files).request
        (untouched serializer seals outputs files).marker writing files request).2
  | receipt {files} (writing : Writing) (typeName : String) (h : Kept files)
      (hstarted : files.started.isSome) :
      Kept (writeReceipt ⟨none, outputs, writing, typeName⟩ files request
        execution.result).2

/-- The state of the job by what was recorded. -/
def keptSnapshot (files : JobFiles) : PublishJobSnapshot :=
  if files.cancelled.isSome then ⟨request.planId, .cancelled, none⟩
  else if files.receipt.isSome then
    ⟨request.planId, if execution.result.succeeded then .succeeded else .failed,
      execution.result.error⟩
  else if files.started.isSome then ⟨request.planId, .failed, some "job_interrupted"⟩
  else ⟨request.planId, .pending, none⟩

/-- A listing of a workspace in which nothing but a job may keep a recovery from going through. -/
structure Recovering (capacity : Nat) (disk : Disk κ) (found : List (κ × JobReadings))
    (jobRoot : κ) : Prop where
  once : (found.map Prod.fst).Nodup
  unique : Unique disk
  few : found.length ≤ maxJobDirectories
  room : ((found.map Prod.fst).filterMap (pendingRequest disk)).length ≤ capacity
  others : ∀ e ∈ found, e.1 ≠ jobRoot → Recoverable host e.1 e.2 (disk.files e.1)

/-- The journal reads the job back as it is, whatever it read before of other jobs, so that a whole
recovery restores it, and the audit reads its receipt. -/
structure ReadBack (manifest : StagedManifest) (files : JobFiles) : Prop where
  job : ∀ recovery : PublishQueueRecovery, recovery.states.get request.planId = none →
    files.request.isSome →
    recoverJob host recovery (host.jobRoot request.manifestPath)
      (untouched serializer seals outputs files) files =
      .ok (recovery.add request files (keptSnapshot request execution files))
  recovery : ∀ capacity (disk : Disk κ) found, files.request.isSome →
    disk.files (host.jobRoot request.manifestPath) = files →
    (host.jobRoot request.manifestPath, untouched serializer seals outputs files) ∈ found →
    Recovering host capacity disk found (host.jobRoot request.manifestPath) →
    ∃ recovery, recover host capacity disk found = .ok recovery ∧
      recovery.states.get request.planId = some (keptSnapshot request execution files)
  receipt : ∀ receipt, files.receipt = some receipt →
    readPublishReceipt manifest (some (receiptFile serializer seals receipt)) =
      .ok (some (rawReceipt receipt))

end Jobs

section Shapes

variable {κ : Type} [DecidableEq κ] {host : Host κ} {serializer : Serializer} {seals : Seals}
  {request : PublishJobRequest} {execution : Execution} {outputs : Except String (Int × String)}
  {files : JobFiles}

/-- The receipt of an execution. -/
inductive ReceiptOf (request : PublishJobRequest) (execution : Execution)
    (outputs : Except String (Int × String)) : PublishReceipt → Prop
  | succeeded {digest} (hresult : execution.result = .success)
      (houtputs : outputs = .ok (request.sheetCount, digest)) :
      ReceiptOf request execution outputs
        ⟨request.planId, request.manifestSha256, "succeeded", none, request.sheetCount,
          some digest⟩
  | failed {error} (hresult : execution.result = ⟨false, some error⟩) :
      ReceiptOf request execution outputs
        ⟨request.planId, request.manifestSha256, "failed", some error, 0, none⟩

/-- The directories that a job may have. -/
inductive Shape (request : PublishJobRequest) (execution : Execution)
    (outputs : Except String (Int × String)) : JobFiles → Prop
  | empty : Shape request execution outputs ⟨none, none, none, none⟩
  | pending : Shape request execution outputs ⟨some request, none, none, none⟩
  | started : Shape request execution outputs ⟨some request, some (marker request), none, none⟩
  | cancelled : Shape request execution outputs ⟨some request, none, some (marker request), none⟩
  | ended {receipt} (h : ReceiptOf request execution outputs receipt) :
      Shape request execution outputs
        ⟨some request, some (marker request), none, some receipt⟩

/-- An execution succeeds without an error, or fails with one. -/
theorem result_cases (execution : Execution) :
    execution.result = .success ∨ ∃ error, execution.result = ⟨false, some error⟩ := by
  cases execution with
  | success => exact .inl rfl
  | failure error => exact .inr ⟨_, rfl⟩
  | noResult => exact .inr ⟨_, rfl⟩
  | exception typeName => exact .inr ⟨_, rfl⟩

theorem writeAtomicCreate_cases (writing : Writing) (before after : JobFiles)
    (there missing : String) :
    (writeAtomicCreate writing before after there missing).2 = before ∨
      (writeAtomicCreate writing before after there missing).2 = after := by
  cases writing with
  | done => exact .inr rfl
  | fileException moved => cases moved <;> simp [writeAtomicCreate]
  | exception moved => cases moved <;> simp [writeAtomicCreate]

theorem Shape.pending_recorded (h : Shape request execution outputs files) (writing : Writing) :
    Shape request execution outputs (recordPending writing files request).2 := by
  cases h with
  | empty =>
    rcases writeAtomicCreate_cases writing ⟨none, none, none, none⟩
      ⟨some request, none, none, none⟩ "duplicate_plan" "queue_state_write_failed" with h | h
    · exact (congrArg (Shape request execution outputs) h).mpr .empty
    · exact (congrArg (Shape request execution outputs) h).mpr .pending
  | pending => exact .pending
  | started => exact .started
  | cancelled => exact .cancelled
  | ended hreceipt => exact .ended hreceipt

theorem Shape.started_recorded (h : Shape request execution outputs files) (reading : Reading)
    (writing : Writing) :
    Shape request execution outputs (recordStarted host reading writing files request).2 := by
  rw [recordStarted]
  split
  · exact h
  split
  · exact h
  split
  · exact h
  split
  · exact h
  rcases writeAtomicCreate_cases writing files { files with started := some (marker request) }
    "job_already_started" "queue_state_write_failed" with heq | heq
  · rw [heq]
    exact h
  · rw [heq]
    cases h with
    | empty => simp_all [checkRequest]
    | pending => exact .started
    | started => exact .started
    | cancelled => simp_all
    | ended hreceipt => exact .ended hreceipt

theorem Shape.cancelled_recorded (h : Shape request execution outputs files)
    (reading existing : Reading) (writing : Writing) :
    Shape request execution outputs
      (recordCancelled host reading existing writing files request).2 := by
  rw [recordCancelled]
  split
  · exact h
  split
  · exact h
  split
  · exact h
  rcases writeAtomicCreate_cases writing files { files with cancelled := some (marker request) }
    "job_already_cancelled" "queue_state_write_failed" with heq | heq
  · rw [heq]
    exact h
  · rw [heq]
    cases h with
    | empty => simp_all [checkRequest]
    | pending => exact .cancelled
    | started => simp_all
    | cancelled => exact .cancelled
    | ended hreceipt => simp_all

theorem Shape.with_receipt (h : Shape request execution outputs files)
    (hstarted : files.started.isSome) (hfree : ¬ files.receipt.isSome = true)
    {receipt : PublishReceipt} (hreceipt : ReceiptOf request execution outputs receipt) :
    Shape request execution outputs { files with receipt := some receipt } := by
  cases h with
  | empty => cases hstarted
  | pending => cases hstarted
  | started => exact .ended hreceipt
  | cancelled => cases hstarted
  | ended => exact (hfree rfl).elim

/-- The receipt that the writer makes of the outputs it found. -/
theorem receiptOf_found {found : Option (Int × String)}
    (hfound : (if execution.result.succeeded then outputs.map some else .ok none) = .ok found)
    (hcount : ¬ (found.any fun computed => computed.1 ≠ request.sheetCount) = true) :
    ReceiptOf request execution outputs
      { planId := request.planId
        manifestSha256 := request.manifestSha256
        state := if execution.result.succeeded then "succeeded" else "failed"
        error := if execution.result.succeeded then none else execution.result.error
        outputCount := (found.map Prod.fst).getD 0
        outputsSha256 := found.map Prod.snd } := by
  rcases result_cases execution with hresult | ⟨error, hresult⟩
  · rw [hresult] at hfound ⊢
    obtain ⟨⟨count, digest⟩, houtputs, rfl⟩ := map_eq_ok.1 hfound
    have hsame : count = request.sheetCount := by simpa using hcount
    subst hsame
    exact .succeeded hresult houtputs
  · rw [hresult] at hfound ⊢
    cases hfound
    exact .failed hresult

theorem Shape.receipt_recorded (h : Shape request execution outputs files)
    (hstarted : files.started.isSome) (writing : Writing) (typeName : String) :
    Shape request execution outputs
      (writeReceipt ⟨none, outputs, writing, typeName⟩ files request execution.result).2 := by
  unfold writeReceipt
  dsimp only
  split
  · exact h
  · exact h
  case h_3 found _ hfound =>
    split
    · exact h
    case isFalse hcount =>
      split
      · exact h
      case isFalse hfree =>
        have hwritten := h.with_receipt hstarted hfree (receiptOf_found hfound hcount)
        split
        · exact hwritten
        · split
          · exact hwritten
          · exact h
        · split
          · exact hwritten
          · exact h

theorem Kept.shape (h : Kept host serializer seals request execution outputs files) :
    Shape request execution outputs files := by
  induction h with
  | empty => exact .empty
  | pending writing _ ih => exact ih.pending_recorded writing
  | started writing _ ih => exact ih.started_recorded _ writing
  | cancelled writing _ ih => exact ih.cancelled_recorded _ _ writing
  | receipt writing typeName _ hstarted ih => exact ih.receipt_recorded hstarted writing typeName

end Shapes

section Bounds

variable {serializer : Serializer}

theorem textBytes_le {value : String} {n : Nat} (h : value.toList.length ≤ n) :
    textBytes serializer value ≤ 12 * n + 2 := by
  have hsum := List.sum_le_card_nsmul (value.toList.map serializer.escaped) 12 (by
    intro bytes hbytes
    obtain ⟨c, -, rfl⟩ := List.mem_map.mp hbytes
    exact serializer.escaped_le c)
  rw [List.length_map, smul_eq_mul] at hsum
  rw [textBytes]
  omega

theorem recordBytes_le {fields : List (String × FieldValue)} {n : Nat}
    (h : ∀ field ∈ fields, field.1.toList.length + 4 + field.2.bytes serializer ≤ n) :
    recordBytes serializer fields ≤ fields.length * n + 1 := by
  have hsum := List.sum_le_card_nsmul (fields.map fun field =>
    field.1.toList.length + 4 + field.2.bytes serializer) n (by
      intro bytes hbytes
      obtain ⟨field, hfield, rfl⟩ := List.mem_map.mp hbytes
      exact h field hfield)
  rw [List.length_map, smul_eq_mul] at hsum
  rw [recordBytes]
  omega

theorem two_le_recordBytes (field : String × FieldValue) (rest : List (String × FieldValue)) :
    2 ≤ recordBytes serializer (field :: rest) := by
  rw [recordBytes, List.map_cons, List.sum_cons]
  omega

theorem length_le_dropLineFeed (value : List Char) :
    value.length ≤ (dropLineFeed value).length + 1 := by
  rw [dropLineFeed]
  split
  · rw [List.length_dropLast]
    omega
  · omega

variable {request : PublishJobRequest}

theorem Validated.planId_length (h : Validated request) : request.planId.toList.length ≤ 72 := by
  have hid := h.planId
  have hlen := length_le_dropLineFeed request.planId.toList
  simp only [isPlanId, Protocol.isLowerHexText, Bool.and_eq_true, decide_eq_true_eq,
    List.length_drop] at hid
  omega

theorem Validated.sha256_length (h : Validated request) :
    request.manifestSha256.toList.length ≤ 65 := by
  have hsha := h.manifestSha256
  have hlen := length_le_dropLineFeed request.manifestSha256.toList
  simp only [isSafeSha256, Bool.and_eq_true, decide_eq_true_eq] at hsha
  omega

/-- A member that takes little of a record. -/
def Small (serializer : Serializer) (field : String × FieldValue) : Prop :=
  field.1.toList.length + 4 + field.2.bytes serializer ≤ 2000

theorem small_text {name value : String} (hname : name.toList.length ≤ 30)
    (h : value.toList.length ≤ 129) : Small serializer (name, .text value) := by
  have hbytes := @textBytes_le serializer value 129 h
  rw [Small, FieldValue.bytes]
  dsimp only
  omega

theorem small_number {name : String} {value : Nat} (hname : name.toList.length ≤ 30)
    (h : value < 10000) : Small serializer (name, .number value) := by
  have hdigits : (Nat.digits 10 value).length ≤ 4 :=
    (Nat.digits_length_le_iff (by decide) value).mpr h
  rw [Small, FieldValue.bytes]
  dsimp only
  omega

theorem readRecord_intact {fields : List (String × FieldValue)}
    (h : ∀ field ∈ fields, Small serializer field) (hsome : 1 ≤ fields.length)
    (hfew : fields.length ≤ 10) :
    readRecord serializer fields = .intact ∧ recordBytes serializer fields ≤ 65536 := by
  have hle := recordBytes_le h
  have htwo : 2 ≤ recordBytes serializer fields := by
    obtain ⟨field, rest, rfl⟩ := List.exists_cons_of_length_pos hsome
    exact two_le_recordBytes field rest
  have hall : fields.length * 2000 ≤ 10 * 2000 := Nat.mul_le_mul_right _ hfew
  refine ⟨if_neg ?_, by omega⟩
  rw [maxRecordBytes]
  omega

theorem Validated.small (h : Validated request) :
    Small serializer ("plan_id", .text request.planId) ∧
      Small serializer ("manifest_sha256", .text request.manifestSha256) :=
  ⟨small_text (by decide) (h.planId_length.trans (by decide)),
    small_text (by decide) (h.sha256_length.trans (by decide))⟩

theorem Seal.small (s : Seal) {time : String} (htime : time.toList.length ≤ 30) :
    Small serializer ("authentication_tag", .text s.tag) ∧
      Small serializer (time, .text s.utc) :=
  ⟨small_text (by decide) (s.tag_length.le.trans (by decide)),
    small_text htime (s.utc_length.le.trans (by decide))⟩

theorem Validated.marker_intact (h : Validated request) (s : Seal) {time : String}
    (htime : time.toList.length ≤ 30) :
    readRecord serializer (markerFields time s (marker request)) = .intact := by
  refine (readRecord_intact ?_ (by simp [markerFields]) (by simp [markerFields])).1
  simp only [markerFields, marker, List.forall_mem_cons]
  exact ⟨(s.small htime).1, small_number (by decide) (by decide), h.small.2, h.small.1,
    small_number (by decide) (by decide), (s.small htime).2, by simp⟩

/-- What the count and the digest of a successful receipt are like. -/
def Bound (outputs : Except String (Int × String)) : Prop :=
  ∀ count digest, outputs = .ok (count, digest) →
    Protocol.isLowerHexText 64 digest.toList = true

theorem binding_bound {platform : Platform} (hsha : ∀ bytes, (platform.sha256 bytes).length = 32)
    (outputs : Option (List PublishManifestOutput)) : Bound (binding platform outputs) := by
  intro count digest h
  unfold binding tryCompute at h
  cases hstream : canonicalStream platform outputs with
  | error stop =>
    rw [hstream] at h
    rcases stop with (_ | _ | _ | _) | _ <;> cases h
  | ok stream =>
    rw [hstream] at h
    cases h
    rw [String.toList_ofList, digestText_eq, Protocol.isLowerHexText, Text.length_hex, hsha]
    simpa using fun c hc => Text.isLowerHex_of_mem_hex hc

variable {execution : Execution} {outputs : Except String (Int × String)}
  {receipt : PublishReceipt} {seals : Seals}

/-- What the journal accepts as a receipt of a request. -/
inductive ValidReceipt (request : PublishJobRequest) : PublishReceipt → Prop
  | succeeded {digest} (hdigest : isSafeSha256 digest = true) : ValidReceipt request
      ⟨request.planId, request.manifestSha256, "succeeded", none, request.sheetCount, some digest⟩
  | failed {error} (herror : isSafeError error = true) : ValidReceipt request
      ⟨request.planId, request.manifestSha256, "failed", some error, 0, none⟩

theorem dropLineFeed_prefix (value : List Char) : dropLineFeed value <+: value := by
  rw [dropLineFeed]
  split
  · exact List.dropLast_prefix value
  · exact List.prefix_refl value

theorem not_blank_of_isSafeError {error : String} (h : isSafeError error = true) :
    isNullOrWhiteSpace error = false := by
  simp only [isSafeError, Bool.and_eq_true, decide_eq_true_eq, List.all_eq_true] at h
  obtain ⟨⟨hsome, -⟩, hall⟩ := h
  obtain ⟨c, rest, hchars⟩ := List.exists_cons_of_length_pos hsome
  obtain ⟨back, hback⟩ := dropLineFeed_prefix error.toList
  rw [hchars] at hback hall
  refine isNullOrWhiteSpace_cons hback.symm (decide_eq_false ?_)
  have hsafe := hall c List.mem_cons_self
  simp only [isSafeErrorChar, Bool.or_eq_true, decide_eq_true_eq] at hsafe
  rcases hsafe with ((hsafe | rfl) | rfl) | rfl
  · have hcases := Text.isAlphanum_cases hsafe
    omega
  all_goals decide

theorem receiptValid_iff : receiptValid receipt request = true ↔ ValidReceipt request receipt := by
  constructor
  · intro h
    obtain ⟨planId, hash, state, error, count, digest⟩ := receipt
    simp only [receiptValid, Bool.and_eq_true, Bool.or_eq_true, decide_eq_true_eq] at h
    obtain ⟨⟨⟨⟨rfl, rfl⟩, hstate⟩, hsucceeded⟩, hfailed⟩ := h
    rcases hstate with rfl | rfl
    · cases error with
      | some error => simp at hsucceeded
      | none =>
        simp at hsucceeded
        cases digest with
        | none => exact absurd hsucceeded.2 (by decide)
        | some digest =>
          obtain ⟨rfl, hdigest⟩ := hsucceeded
          exact .succeeded hdigest
    · cases error with
      | none => simp at hfailed
      | some error =>
        simp at hfailed
        obtain ⟨⟨⟨-, hsafe⟩, rfl⟩, rfl⟩ := hfailed
        exact .failed hsafe
  · intro h
    cases h with
    | succeeded hdigest => simp [receiptValid, hdigest]
    | failed herror => simp [receiptValid, herror, not_blank_of_isSafeError herror]

theorem ValidReceipt.intact (h : ValidReceipt request receipt) (hvalid : Validated request)
    (s : Seal) : readRecord serializer (receiptFields s receipt) = .intact ∧
      recordBytes serializer (receiptFields s receipt) ≤ 65536 := by
  cases h with
  | @succeeded digest hdigest =>
    have hlength := length_le_dropLineFeed digest.toList
    simp only [isSafeSha256, Bool.and_eq_true, decide_eq_true_eq] at hdigest
    refine readRecord_intact ?_ (by simp [receiptFields]) (by simp [receiptFields])
    simp only [receiptFields, Option.toList_none, List.map_nil, List.cons_append,
      List.nil_append, List.forall_mem_cons, Option.elim_some]
    have hsheets := hvalid.sheetCount
    exact ⟨(s.small (by decide)).2, hvalid.small.2, small_number (by decide) (by omega),
      small_text (by decide) (by omega), hvalid.small.1,
      small_number (by decide) (by decide), small_text (by decide) (by decide), by simp⟩
  | @failed error herror =>
    have hlength := length_le_dropLineFeed error.toList
    simp only [isSafeError, Bool.and_eq_true, decide_eq_true_eq] at herror
    refine readRecord_intact ?_ (by simp [receiptFields]) (by simp [receiptFields])
    simp only [receiptFields, Option.toList_some, List.map_cons, List.map_nil, List.cons_append,
      List.nil_append, List.forall_mem_cons, Option.elim_none]
    exact ⟨(s.small (by decide)).2, small_text (by decide) (by omega), hvalid.small.2,
      small_number (by decide) (by decide),
      by rw [Small, FieldValue.bytes]; decide, hvalid.small.1,
      small_number (by decide) (by decide), small_text (by decide) (by decide), by simp⟩

theorem dropLineFeed_eq {value : List Char} (h : '\n' ∉ value) : dropLineFeed value = value :=
  if_neg fun hlast => h (List.mem_of_getLast? hlast)

theorem isSafeSha256_of_isLowerHexText {value : String}
    (h : Protocol.isLowerHexText 64 value.toList = true) : isSafeSha256 value = true := by
  simp only [Protocol.isLowerHexText, Bool.and_eq_true, decide_eq_true_eq, List.all_eq_true] at h
  have hdrop : dropLineFeed value.toList = value.toList :=
    dropLineFeed_eq fun hmem => absurd (h.2 _ hmem) (by decide)
  simp only [isSafeSha256, hdrop, Bool.and_eq_true, decide_eq_true_eq, List.all_eq_true]
  refine ⟨h.1, fun c hc => ?_⟩
  rcases of_decide_eq_true (h.2 c hc) with hdigit | hletter
  · have hc : c.isDigit = true := by
      rw [Char.isDigit, Bool.and_eq_true, decide_eq_true_eq, decide_eq_true_eq]
      exact hdigit
    simp [hc]
  · simp [hletter]

theorem isSafeError_of_isErrorCode {error : String} (h : isErrorCode error = true) :
    isSafeError error = true := by
  simp only [isErrorCode, Bool.and_eq_true, decide_eq_true_eq] at h
  obtain ⟨⟨hsome, hfew⟩, hall⟩ := h
  have hall : ∀ c ∈ error.toList, isSafeErrorChar c = true := List.all_eq_true.mp hall
  have hdrop : dropLineFeed error.toList = error.toList :=
    dropLineFeed_eq fun hmem => absurd (hall _ hmem) (by decide)
  simp only [isSafeError, hdrop, Bool.and_eq_true, decide_eq_true_eq]
  exact ⟨⟨hsome, hfew⟩, List.all_eq_true.mpr hall⟩

theorem ReceiptOf.valid (h : ReceiptOf request execution outputs receipt) (hbound : Bound outputs)
    (herror : ∀ error, execution.result.error = some error → isErrorCode error = true) :
    ValidReceipt request receipt := by
  cases h with
  | succeeded hresult houtputs =>
    exact .succeeded (isSafeSha256_of_isLowerHexText (hbound _ _ houtputs))
  | failed hresult => exact .failed (isSafeError_of_isErrorCode (herror _ (by rw [hresult])))

/-- The audit reads a receipt that is short enough, and whose error is a code. -/
theorem ReceiptOf.audited (h : ReceiptOf request execution outputs receipt)
    (hbound : Bound outputs)
    (herror : ∀ error, execution.result.error = some error → isErrorCode error = true)
    (hbytes : recordBytes serializer (receiptFields seals.receipt receipt) ≤ 65536)
    {manifest : StagedManifest} (hplan : manifest.planId = request.planId)
    (hhash : manifest.sha256 = request.manifestSha256)
    (hsheets : (manifest.outputs.length : Int) = request.sheetCount) :
    readPublishReceipt manifest (some (receiptFile serializer seals receipt)) =
      .ok (some (rawReceipt receipt)) := by
  have hsize : decide (recordBytes serializer (receiptFields seals.receipt receipt) ≤
      maxReceiptBytes) = true := decide_eq_true hbytes
  have hsuccess : sameKeys commonFields commonFields = true := by decide
  have hfailure : sameKeys ("error" :: commonFields) ("error" :: commonFields) = true := by decide
  cases h with
  | @succeeded digest hresult houtputs =>
    have hdigest := hbound _ _ houtputs
    simp [readPublishReceipt, receiptFile, rawReceipt, hsize, ensure, hplan, hhash, hsheets,
      hsuccess, hdigest, bind, Except.bind, pure, Except.pure]
  | @failed error hresult =>
    have hcode := herror error (by rw [hresult])
    simp [readPublishReceipt, receiptFile, rawReceipt, hsize, ensure, hplan, hhash, hfailure,
      hcode, bind, Except.bind, pure, Except.pure]

end Bounds

section Reading

variable {κ : Type} [DecidableEq κ] {host : Host κ} {serializer : Serializer} {seals : Seals}
  {request : PublishJobRequest} {execution : Execution} {outputs : Except String (Int × String)}
  {files : JobFiles} {manifest : StagedManifest}

theorem request_intact_iff : readRecord serializer (requestFields seals.request request) = .intact ↔
    recordBytes serializer (requestFields seals.request request) ≤ maxRecordBytes := by
  have htwo : 2 ≤ recordBytes serializer (requestFields seals.request request) :=
    two_le_recordBytes _ _
  rw [readRecord]
  split
  · constructor
    · nofun
    · omega
  · constructor
    · omega
    · exact fun _ => rfl

/-- What the journal and the writer of receipts leave in a directory. -/
structure Sound (host : Host κ) (jobRoot : κ) (files : JobFiles) : Prop where
  unmarked : files.request = none → files = .empty
  root : ∀ r, files.request = some r → host.jobRoot r.manifestPath = jobRoot
  started : ∀ r m, files.request = some r → files.started = some m → m = marker r
  cancelled : ∀ r m, files.request = some r → files.cancelled = some m →
    m = marker r ∧ files.started = none ∧ files.receipt = none
  receipt : ∀ r receipt, files.request = some r → files.receipt = some receipt →
    files.started.isSome ∧ ValidReceipt r receipt

/-- Readings without an error, and outputs that are as the receipt says. -/
structure Intact (files : JobFiles) (readings : JobReadings) : Prop where
  request : readings.request = .intact
  marker : readings.marker = .intact
  receipt : readings.receipt = .intact
  outputs : ∀ receipt digest, files.receipt = some receipt →
    receipt.outputsSha256 = some digest → readings.outputs = some (receipt.outputCount, digest)

variable {jobRoot : κ} {readings : JobReadings}

theorem Intact.readReceiptSnapshot (h : Intact files readings) {receipt : PublishReceipt}
    (hreceipt : files.receipt = some receipt) (hvalid : ValidReceipt request receipt) :
    ∃ snapshot, readReceiptSnapshot readings receipt request = .ok snapshot := by
  have hcheck : readings.receipt.check "publish_queue_receipt_invalid" = .ok () := by
    rw [h.receipt]
    rfl
  have houtputs := h.outputs receipt
  refine ⟨_, bind_eq_ok.2 ⟨(), hcheck, ensure_bind_eq_ok.2 ⟨receiptValid_iff.2 hvalid,
    ensure_bind_eq_ok.2 ⟨?_, rfl⟩⟩⟩⟩
  cases hvalid with
  | succeeded => simp [houtputs _ hreceipt rfl]
  | failed => rfl

omit [DecidableEq κ] in
theorem Sound.readStarted (h : Sound host jobRoot files) (hreadings : Intact files readings)
    (hrequest : files.request = some request) {started : PublishQueueMarker}
    (hstarted : files.started = some started) : readStarted readings started request = .ok () := by
  have hcheck : readings.marker.check "publish_queue_started_authentication_failed" = .ok () := by
    rw [hreadings.marker]
    rfl
  exact bind_eq_ok.2 ⟨(), hcheck, ensure_eq_ok.2
    (decide_eq_true (h.started _ _ hrequest hstarted))⟩

/-- Such a directory is recovered if it is read back without an error. -/
theorem Sound.recoverable (h : Sound host jobRoot files) (hreadings : Intact files readings) :
    Recoverable host jobRoot readings files := by
  unfold Recoverable recoverJob
  cases hrequest : files.request with
  | none =>
    obtain rfl := h.unmarked hrequest
    exact ⟨_, rfl⟩
  | some r =>
    have hcheck : readings.request.check "publish_queue_request_authentication_failed" =
        .ok () := by
      rw [hreadings.request]
      rfl
    have hsnapshot : ∃ snapshot, recoverSnapshot readings files r = .ok snapshot := by
      unfold recoverSnapshot
      cases hcancelled : files.cancelled with
      | some cancelled =>
        obtain ⟨hmarker, hstarted, hreceipt⟩ := h.cancelled r cancelled hrequest hcancelled
        have hcancel : readings.marker.check "publish_queue_cancelled_authentication_failed" =
            .ok () := by
          rw [hreadings.marker]
          rfl
        rw [hstarted, hreceipt]
        exact ⟨_, ensure_bind_eq_ok.2 ⟨rfl, bind_eq_ok.2 ⟨(), hcancel,
          ensure_bind_eq_ok.2 ⟨decide_eq_true hmarker, rfl⟩⟩⟩⟩
      | none =>
        cases hreceipt : files.receipt with
        | none =>
          cases hstarted : files.started with
          | none => exact ⟨_, rfl⟩
          | some started =>
            exact ⟨_, bind_eq_ok.2 ⟨(), h.readStarted hreadings hrequest hstarted, rfl⟩⟩
        | some receipt =>
          obtain ⟨hsome, hvalid⟩ := h.receipt r receipt hrequest hreceipt
          obtain ⟨started, hstarted⟩ := Option.isSome_iff_exists.1 hsome
          obtain ⟨snapshot, hread⟩ := hreadings.readReceiptSnapshot hreceipt hvalid
          rw [hstarted]
          exact ⟨snapshot, bind_eq_ok.2
            ⟨(), h.readStarted hreadings hrequest hstarted, hread⟩⟩
    obtain ⟨snapshot, hsnapshot⟩ := hsnapshot
    exact ⟨_, bind_eq_ok.2 ⟨(), hcheck, ensure_bind_eq_ok.2 ⟨decide_eq_true (h.root r hrequest),
      ensure_bind_eq_ok.2 ⟨rfl, bind_eq_ok.2 ⟨snapshot, hsnapshot, rfl⟩⟩⟩⟩⟩

omit [DecidableEq κ] in
/-- And it is, if nobody touched its files or its outputs, unless its request is too long. -/
theorem Sound.untouched_intact (h : Sound host jobRoot files)
    (hrequest : ∀ r, files.request = some r → Validated r ∧
      recordBytes serializer (requestFields seals.request r) ≤ maxRecordBytes)
    (houtputs : ∀ receipt digest, files.receipt = some receipt →
      receipt.outputsSha256 = some digest → outputs = .ok (receipt.outputCount, digest)) :
    Intact files (untouched serializer seals outputs files) := by
  refine ⟨?_, ?_, ?_, fun receipt digest hreceipt hdigest => ?_⟩
  · cases hsome : files.request with
    | none => simp [untouched, hsome]
    | some r => simpa [untouched, hsome] using request_intact_iff.mpr (hrequest r hsome).2
  · cases hsome : files.request with
    | none =>
      obtain rfl := h.unmarked hsome
      rfl
    | some r =>
      have hvalid := (hrequest r hsome).1
      cases hcancelled : files.cancelled with
      | some cancelled =>
        obtain ⟨rfl, -⟩ := h.cancelled r cancelled hsome hcancelled
        simpa [untouched, hcancelled] using hvalid.marker_intact _ (by decide)
      | none =>
        cases hstarted : files.started with
        | none => simp [untouched, hcancelled, hstarted]
        | some started =>
          obtain rfl := h.started r started hsome hstarted
          simpa [untouched, hcancelled, hstarted] using hvalid.marker_intact _ (by decide)
  · cases hsome : files.request with
    | none =>
      obtain rfl := h.unmarked hsome
      rfl
    | some r =>
      cases hreceipt : files.receipt with
      | none => simp [untouched, hreceipt]
      | some receipt =>
        have hvalid := (h.receipt r receipt hsome hreceipt).2
        simpa [untouched, hreceipt] using (hvalid.intact (hrequest r hsome).1 _).1
  · simp [untouched, houtputs receipt digest hreceipt hdigest, Except.toOption]

omit [DecidableEq κ] in
theorem Shape.sound (h : Shape request execution outputs files) (hbound : Bound outputs)
    (herror : ∀ error, execution.result.error = some error → isErrorCode error = true) :
    Sound host (host.jobRoot request.manifestPath) files := by
  cases h with
  | empty =>
    refine ⟨fun _ => rfl, ?_, ?_, ?_, ?_⟩
    all_goals nofun
  | pending =>
    refine ⟨nofun, fun r hr => ?_, nofun, nofun, nofun⟩
    rw [Option.some.inj hr]
  | started =>
    refine ⟨nofun, fun r hr => ?_, fun r m hr hm => ?_, nofun, nofun⟩
    · rw [Option.some.inj hr]
    · rw [← Option.some.inj hr, ← Option.some.inj hm]
  | cancelled =>
    refine ⟨nofun, fun r hr => ?_, nofun, fun r m hr hm => ⟨?_, rfl, rfl⟩, nofun⟩
    · rw [Option.some.inj hr]
    · rw [← Option.some.inj hr, ← Option.some.inj hm]
  | ended hreceipt =>
    refine ⟨nofun, fun r hr => ?_, fun r m hr hm => ?_, nofun, fun r receipt hr hread => ⟨rfl, ?_⟩⟩
    · rw [Option.some.inj hr]
    · rw [← Option.some.inj hr, ← Option.some.inj hm]
    · rw [← Option.some.inj hr, ← Option.some.inj hread]
      exact hreceipt.valid hbound herror

/-- What the job was, by what was recorded of it, is what the journal makes of its records. -/
theorem Shape.snapshot (h : Shape request execution outputs files) :
    files.snapshot request = keptSnapshot request execution files := by
  cases h with
  | empty => rfl
  | pending => rfl
  | started => rfl
  | cancelled => rfl
  | ended hreceipt =>
    cases hreceipt with
    | succeeded hresult =>
      simp [JobFiles.snapshot, keptSnapshot, hresult, PublishExecutionResult.success]
    | failed hresult => simp [JobFiles.snapshot, keptSnapshot, hresult]

theorem Shape.outputs_eq (h : Shape request execution outputs files) {receipt : PublishReceipt}
    {digest : String} (hreceipt : files.receipt = some receipt)
    (hdigest : receipt.outputsSha256 = some digest) :
    outputs = .ok (receipt.outputCount, digest) := by
  cases h with
  | ended hended =>
    obtain rfl := Option.some.inj hreceipt
    cases hended with
    | succeeded _ houtputs => exact Option.some.inj hdigest ▸ houtputs
    | failed => cases hdigest
  | _ => cases hreceipt

theorem Shape.request_eq (h : Shape request execution outputs files) {r : PublishJobRequest}
    (hr : files.request = some r) : r = request := by
  cases h with
  | empty => cases hr
  | _ => exact (Option.some.inj hr).symm

theorem Shape.readBack (h : Shape request execution outputs files) (hvalid : Validated request)
    (hbound : Bound outputs)
    (herror : ∀ error, execution.result.error = some error → isErrorCode error = true)
    (hbytes : recordBytes serializer (requestFields seals.request request) ≤ maxRecordBytes)
    (hplan : manifest.planId = request.planId) (hhash : manifest.sha256 = request.manifestSha256)
    (hsheets : (manifest.outputs.length : Int) = request.sheetCount) :
    ReadBack host serializer seals request execution outputs manifest files := by
  have hsound : Sound host (host.jobRoot request.manifestPath) files := h.sound hbound herror
  have hintact : Intact files (untouched serializer seals outputs files) :=
    hsound.untouched_intact
      (fun r hr => by obtain rfl := h.request_eq hr; exact ⟨hvalid, hbytes⟩)
      fun _ _ hreceipt hdigest => h.outputs_eq hreceipt hdigest
  have hrecoverable := hsound.recoverable hintact
  refine ⟨fun recovery hnew hsome => ?_, fun capacity disk found hsome hfiles hmem hrest => ?_,
    fun receipt hreceipt => ?_⟩
  · obtain ⟨r, hr⟩ := Option.isSome_iff_exists.1 hsome
    obtain rfl := h.request_eq hr
    have hjob := hrecoverable.recoverJob fun r' hr' =>
      show recovery.states.get r'.planId = none by
        obtain rfl := h.request_eq hr'
        exact hnew
    rw [hjob, hr, Option.elim_some, h.snapshot]
  · obtain ⟨r, hr⟩ := Option.isSome_iff_exists.1 hsome
    obtain rfl := h.request_eq hr
    have hfound : ∀ e ∈ found, Recoverable host e.1 e.2 (disk.files e.1) := by
      intro e he
      by_cases hroot : e.1 = host.jobRoot r.manifestPath
      · obtain rfl := List.inj_on_of_nodup_map hrest.once he hmem hroot
        rw [hfiles]
        exact hrecoverable
      · exact hrest.others e he hroot
    obtain ⟨recovery, hrecovery⟩ := recover_ok hrest.unique hrest.once hrest.few hfound hrest.room
    obtain ⟨hrecovers, -⟩ := recover_recovers hrecovery
    refine ⟨recovery, hrecovery, ?_⟩
    have hstate := (hrecovers.found _ (List.mem_map_of_mem hmem) r (by rw [hfiles, hr])).2
    rw [hstate, hfiles, h.snapshot]
  · cases h with
    | ended hended =>
      obtain rfl := Option.some.inj hreceipt
      exact hended.audited hbound herror ((hended.valid hbound herror).intact hvalid _).2 hplan
        hhash hsheets
    | _ => cases hreceipt

theorem kept_pending : Kept host serializer seals request execution outputs
    ⟨some request, none, none, none⟩ :=
  Kept.pending .done .empty

theorem kept_failed {error : String} (hresult : execution.result = ⟨false, some error⟩)
    (hrequest : readRecord serializer (requestFields seals.request request) = .intact) :
    Kept host serializer seals request execution outputs
      ⟨some request, some (marker request), none,
        some ⟨request.planId, request.manifestSha256, "failed", some error, 0, none⟩⟩ := by
  have hstarted : Kept host serializer seals request execution outputs
      ⟨some request, some (marker request), none, none⟩ := by
    have hstep := (@kept_pending κ _ host serializer seals request execution outputs).started
      .done
    simpa [recordStarted, untouched, hrequest, checkRequest, sameRequest, host.samePath_refl,
      writeAtomicCreate] using hstep
  have hstep := hstarted.receipt .done "" rfl
  simpa [writeReceipt, hresult] using hstep

theorem ReadBack.request_bytes
    (h : ReadBack host serializer seals request execution outputs manifest
      ⟨some request, none, none, none⟩) :
    recordBytes serializer (requestFields seals.request request) ≤ maxRecordBytes := by
  by_contra hlong
  have hread := h.job .empty rfl rfl
  have hinvalid : readRecord serializer (requestFields seals.request request) =
      .invalidData "publish_queue_record_size_invalid" := if_pos (.inr (not_le.mp hlong))
  simp [recoverJob, untouched, hinvalid, Reading.check, bind, Except.bind] at hread

theorem ReadBack.error_code {error : String}
    (h : ReadBack host serializer seals request execution outputs manifest
      ⟨some request, some (marker request), none,
        some ⟨request.planId, request.manifestSha256, "failed", some error, 0, none⟩⟩) :
    isErrorCode error = true := by
  have hread := h.receipt _ rfl
  iterate 3 obtain ⟨-, hread⟩ := ensure_bind_eq_ok.1 hread
  simp only [receiptFile, rawReceipt] at hread
  iterate 5 obtain ⟨-, hread⟩ := ensure_bind_eq_ok.1 hread
  rw [if_neg (by decide)] at hread
  obtain ⟨-, hread⟩ := ensure_bind_eq_ok.1 hread
  obtain ⟨hcode, -⟩ := ensure_bind_eq_ok.1 hread
  simpa using hcode

/-- Every record that is put on disk for a job can be read back exactly when the request is not
too long, and the error of a failed execution is a code. -/
theorem records_read_back_iff (host : Host κ) (serializer : Serializer) (seals : Seals)
    (platform : Platform) (request : PublishJobRequest) (execution : Execution)
    (found : Option (List PublishManifestOutput)) (manifest : StagedManifest)
    (hvalid : Validated request) (hsha : ∀ bytes, (platform.sha256 bytes).length = 32)
    (hplan : manifest.planId = request.planId) (hhash : manifest.sha256 = request.manifestSha256)
    (hsheets : (manifest.outputs.length : Int) = request.sheetCount) :
    (∀ files, Kept host serializer seals request execution (binding platform found) files →
      ReadBack host serializer seals request execution (binding platform found) manifest files) ↔
    recordBytes serializer (requestFields seals.request request) ≤ maxRecordBytes ∧
      ∀ error, execution.result.error = some error → isErrorCode error = true := by
  constructor
  · intro h
    have hbytes := (h _ kept_pending).request_bytes
    refine ⟨hbytes, fun error herror => ?_⟩
    rcases result_cases execution with hresult | ⟨error', hresult⟩
    · rw [hresult] at herror
      cases herror
    · rw [hresult] at herror
      cases herror
      exact (h _ (kept_failed hresult (request_intact_iff.mpr hbytes))).error_code
  · rintro ⟨hbytes, herror⟩ files hfiles
    exact hfiles.shape.readBack hvalid (binding_bound hsha found) herror hbytes hplan hhash hsheets

end Reading

section Example

theorem decide_same (path : String) : decide (path = path) = true := decide_eq_true rfl

def stringHost : Host String := ⟨id, fun a b => a = b, decide_same⟩

def plainSerializer : Serializer where
  escaped c := if c = '"' ∨ c = '\\' ∨ c = '/' then 2 else if c.toNat < 32 then 6 else c.utf8Size
  escaped_le c := by
    have hsize := Char.utf8Size_le_four c
    split
    · decide
    · split <;> omega

def zeroSeal : Seal :=
  ⟨String.ofList (List.replicate 28 '0'), String.ofList (List.replicate 44 'A'), by simp, by simp⟩

def zeroSeals : Seals := ⟨zeroSeal, zeroSeal, zeroSeal, zeroSeal⟩

def zeroHash : String := String.ofList (List.replicate 64 '0')

def onePlatform : Platform :=
  ⟨fun path => .ok path, fun _ _ => ⟨false, false, false, 0, .ok [], false, 0⟩,
    fun _ => List.replicate 32 0⟩

def oneRequest : PublishJobRequest where
  planId := "sha256:" ++ zeroHash
  manifestPath := "C:\\ws\\job\\manifest.json"
  manifestSha256 := zeroHash
  stagedDrawing := "C:\\ws\\job\\source\\a.dwg"
  outputDirectory := "C:\\ws\\job\\output"
  sheetCount := 1

def oneManifest : StagedManifest :=
  ⟨"sha256:" ++ zeroHash, zeroHash, ⟨zeroHash, 1, 0⟩, [⟨1, "a.pdf", .mistyped⟩], by decide⟩

theorem oneRequest_validated : Validated oneRequest := ⟨by decide, by decide, by decide⟩

theorem records_read_back_failed :
    ReadBack stringHost plainSerializer zeroSeals oneRequest (.failure none)
      (binding onePlatform none) oneManifest
      ⟨some oneRequest, some (marker oneRequest), none,
        some ⟨"sha256:" ++ zeroHash, zeroHash, "failed", some "publish_failed", 0, none⟩⟩ :=
  (records_read_back_iff stringHost plainSerializer zeroSeals onePlatform oneRequest
    (.failure none) none oneManifest oneRequest_validated (fun _ => rfl) rfl rfl rfl).2
    ⟨by decide +kernel, by decide +kernel⟩ _
    (kept_failed rfl (request_intact_iff.mpr (by decide +kernel)))

/-- The error of an executor may be a sentence, which no reader of its receipt accepts. -/
theorem records_read_back_sentence :
    ¬ ∀ files, Kept stringHost plainSerializer zeroSeals oneRequest
        (.failure (some "plotter not found")) (binding onePlatform none) files →
      ReadBack stringHost plainSerializer zeroSeals oneRequest
        (.failure (some "plotter not found")) (binding onePlatform none) oneManifest files := by
  intro h
  have hbytes := (h _ kept_pending).request_bytes
  have hresult : (Execution.failure (some "plotter not found")).result =
      ⟨false, some "plotter not found"⟩ := by decide +kernel
  have hcode := (h _ (kept_failed hresult (request_intact_iff.mpr hbytes))).error_code
  revert hcode
  decide

end Example

end CadPlot.Publish.Queue
