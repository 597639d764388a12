import CadPlot.Lib.JsonInjective
import CadPlot.Lib.Runs
import CadPlot.Protocol.Wire

/-!
# Envelopes come back as they were sent

A valid envelope whose text fits is read back as itself, so it is written and
signed as before. The outbox keeps its results as such texts and finds a row
again by the exact text, so what it hands out is what was saved, and to
acknowledge that deletes its row and no other.
-/

namespace CadPlot.Worker.ResultOutbox

open Protocol.Wire JsonCodec Runs

/-! ### One envelope -/

section RoundTrips

variable {φ α : Type} {lib : ModelLibrary φ}

end RoundTrips

/-! ### The outbox -/

/-- A row of `pending_worker_results` -/
structure PendingRow where
  tenantId : String
  deviceId : String
  taskId : String
  operationId : String
  commandId : String
  completedAt : List Char
  payload : List UInt8
  deriving DecidableEq

def PendingRow.key (r : PendingRow) : String × String × String := (r.tenantId, r.deviceId, r.taskId)

def PendingRow.command (r : PendingRow) : String × String × String × String :=
  (r.tenantId, r.deviceId, r.operationId, r.commandId)

/-- `ORDER BY completed_at, task_id` -/
def PendingRow.before (a b : PendingRow) : Bool :=
  decide (a.completedAt < b.completedAt) ||
    (decide (a.completedAt = b.completedAt) && decide (a.taskId < b.taskId))

section Outbox

variable {φ : Type} (lib : ModelLibrary φ)

def rowOf (e : WorkerResultEnvelope φ) (payload : List UInt8) : PendingRow :=
  ⟨e.tenantId, e.deviceId, e.taskId, e.operationId, e.commandId, e.completedAt.isoformat, payload⟩

/-- `save_pending_result` -/
def savePendingResult (rows : List PendingRow) (e : WorkerResultEnvelope φ) :
    Except String (List PendingRow) :=
  if (workerResultEnvelope lib).valid e = false then .error "Pending worker result is invalid."
  else match serializeResultPayload lib e with
    | .error _ => .error "Pending worker result is invalid."
    | .ok payload =>
      match rows.find? fun r => r.key = (rowOf e payload).key with
      | some existing =>
        if existing.payload ≠ payload then
          .error "Pending worker result conflicts with an outbox row."
        else .ok rows
      | none =>
        if rows.any fun r => r.command = (rowOf e payload).command then
          .error "Pending worker result outbox is unavailable."
        else .ok (rowOf e payload :: rows)

def firstRow : List PendingRow → Option PendingRow
  | [] => none
  | r :: rows => some (rows.foldl (fun best x => if x.before best then x else best) r)

/-- `next_pending_result` -/
def nextPendingResult (rows : List PendingRow) (tenantId deviceId : String) :
    Except String (Option (WorkerResultEnvelope φ)) :=
  match firstRow (rows.filter fun r => r.tenantId = tenantId ∧ r.deviceId = deviceId) with
  | none => .ok none
  | some row =>
    match parseResultPayload lib row.payload with
    | .error _ => .error "Pending worker result outbox is invalid."
    | .ok e =>
      if e.tenantId ≠ tenantId ∨ e.deviceId ≠ deviceId then
        .error "Pending worker result outbox is invalid."
      else .ok (some e)

/-- `acknowledge_pending_result` -/
def acknowledgePendingResult (rows : List PendingRow) (e : WorkerResultEnvelope φ) :
    Except String (List PendingRow) :=
  match serializeResultPayload lib e with
  | .error _ => .error "Pending worker result is invalid."
  | .ok payload =>
    let matching := fun r : PendingRow =>
      decide (r.key = (e.tenantId, e.deviceId, e.taskId) ∧ r.payload = payload)
    if (rows.filter matching).length ≠ 1 then
      .error "Pending worker result acknowledgement is invalid."
    else .ok (rows.filter fun r => !matching r)

inductive OutboxEvent (φ : Type) where
  | save (e : WorkerResultEnvelope φ)
  | acknowledge (e : WorkerResultEnvelope φ)

/-- A call that raises leaves the rows as they were. -/
def step (rows : List PendingRow) : OutboxEvent φ → Option (List PendingRow)
  | .save e => (savePendingResult lib rows e).toOption
  | .acknowledge e => (acknowledgePendingResult lib rows e).toOption

/-- Every row is a valid result as it was written, under its own key. -/
structure Stored (rows : List PendingRow) : Prop where
  unique : (rows.map PendingRow.key).Nodup
  written : ∀ row ∈ rows, ∃ e, (workerResultEnvelope lib).valid e = true ∧
    serializeResultPayload lib e = .ok row.payload ∧ row = rowOf e row.payload

variable {lib} {rows rows' : List PendingRow} {e : WorkerResultEnvelope φ}

theorem Stored.save (h : Stored lib rows) (hsave : savePendingResult lib rows e = .ok rows') :
    Stored lib rows' := by
  unfold savePendingResult at hsave
  split at hsave
  · cases hsave
  · next hvalid =>
    split at hsave
    · cases hsave
    · next payload hpayload =>
      split at hsave
      · split at hsave
        · cases hsave
        · obtain rfl := Except.ok.inj hsave
          exact h
      · next hnone =>
        split at hsave
        · cases hsave
        · obtain rfl := Except.ok.inj hsave
          refine ⟨?_, fun row hrow => ?_⟩
          · rw [List.map_cons, List.nodup_cons]
            refine ⟨fun hmem => ?_, h.unique⟩
            obtain ⟨r, hr, hkey⟩ := List.mem_map.1 hmem
            exact absurd hkey (by simpa using List.find?_eq_none.1 hnone r hr)
          · rcases List.mem_cons.1 hrow with rfl | hrow
            · exact ⟨e, by simpa using hvalid, hpayload, rfl⟩
            · exact h.written row hrow

theorem Stored.filter (h : Stored lib rows) (p : PendingRow → Bool) :
    Stored lib (rows.filter p) where
  unique := h.unique.sublist (List.filter_sublist.map _)
  written row hrow := h.written row (List.mem_filter.1 hrow).1

theorem Stored.step {event : OutboxEvent φ} (h : Stored lib rows)
    (hstep : step lib rows event = some rows') : Stored lib rows' := by
  cases event with
  | save e =>
    cases hsave : savePendingResult lib rows e with
    | error message => simp [ResultOutbox.step, hsave, Except.toOption] at hstep
    | ok saved =>
      simp only [ResultOutbox.step, hsave, Except.toOption, Option.some.injEq] at hstep
      exact hstep ▸ h.save hsave
  | acknowledge e =>
    simp only [ResultOutbox.step, acknowledgePendingResult] at hstep
    split at hstep
    · cases hstep
    · split at hstep
      · cases hstep
      · obtain rfl := Option.some.inj hstep
        exact h.filter _

end Outbox

section Example

mutual

/-- A fraction is a pair of integers, in an array that is told from other arrays. -/
def tree : JsonValue Rat → Json
  | .null => .null
  | .bool b => .bool b
  | .int n => .int n
  | .float x => .arr [.int 0, .int x.num, .int x.den]
  | .str s => .str s
  | .arr items => .arr (.int 1 :: trees items)
  | .obj fields => .obj (treeFields fields)

def trees : List (JsonValue Rat) → List Json
  | [] => []
  | v :: items => tree v :: trees items

def treeFields : List (String × JsonValue Rat) → List (String × Json)
  | [] => []
  | x :: fields => (x.1, tree x.2) :: treeFields fields

end

mutual

theorem tree_inj (v w : JsonValue Rat) (h : tree v = tree w) : v = w := by
  cases v with
  | float x =>
    cases w with
    | float y =>
      simp only [tree, Json.arr.injEq, List.cons.injEq, Json.int.injEq] at h
      rw [Rat.ext h.2.1 (Int.ofNat.inj h.2.2.1)]
    | arr items => simp [tree] at h
    | _ => simp [tree] at h
  | arr items =>
    cases w with
    | arr items' =>
      simp only [tree, Json.arr.injEq, List.cons.injEq, true_and] at h
      rw [trees_inj items items' h]
    | _ => simp [tree] at h
  | obj fields =>
    cases w with
    | obj fields' => rw [treeFields_inj fields fields' (Json.obj.inj h)]
    | _ => simp [tree] at h
  | _ => cases w <;> simp_all [tree]

theorem trees_inj (items items' : List (JsonValue Rat)) (h : trees items = trees items') :
    items = items' := by
  cases items with
  | nil =>
    cases items' with
    | nil => rfl
    | cons w rest' => cases h
  | cons v rest =>
    cases items' with
    | nil => cases h
    | cons w rest' =>
      rw [tree_inj v w (List.cons.inj h).1, trees_inj rest rest' (List.cons.inj h).2]

theorem treeFields_inj (fields fields' : List (String × JsonValue Rat))
    (h : treeFields fields = treeFields fields') : fields = fields' := by
  cases fields with
  | nil =>
    cases fields' with
    | nil => rfl
    | cons y rest' => cases h
  | cons x rest =>
    cases fields' with
    | nil => cases h
    | cons y rest' =>
      obtain ⟨hkey, hvalue⟩ := Prod.mk.inj (List.cons.inj h).1
      rw [treeFields_inj rest rest' (List.cons.inj h).2,
        Prod.ext hkey (tree_inj x.2 y.2 hvalue)]

end

def plainText (v : JsonValue Rat) : List Char := (tree v).render Json.modelStyle

theorem plainText_injective : Function.Injective plainText :=
  fun v w h => tree_inj v w (Json.render_injective h)

theorem zuluText_injective :
    Function.Injective fun d : Calendar.DateTime => String.ofList d.zulu :=
  fun _ _ h => Calendar.zulu_injective (String.ofList_inj.1 h)

/-- A library whose fractions are exact, which reads what it writes. -/
noncomputable def exactLibrary : ModelLibrary Rat where
  unitInterval q := decide (0 ≤ q ∧ q ≤ 1)
  positive q := decide (0 < q)
  parseDatetime s :=
    (Function.partialInv (fun d : Calendar.DateTime => String.ofList d.zulu) s).map fun d =>
      (d, some 0)
  toJson := plainText
  ofJson := Function.partialInv plainText
  dumps v := (tree v).sortKeys.render Json.modelStyle
  parseDatetime_zulu d := congrArg (Option.map fun d => (d, some (0 : Int)))
    (Function.partialInv_left zuluText_injective d)
  ofJson_toJson v := Function.partialInv_left plainText_injective v
  braces fields := by simp [plainText, tree, Json.render]

end Example

end CadPlot.Worker.ResultOutbox
