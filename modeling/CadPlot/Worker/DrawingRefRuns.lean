import CadPlot.Lib.Words
import CadPlot.Worker.DrawingRefs

/-!
# A drawing has one reference

Rows are added under the constraints of the table and never changed, so the id
of a reference that has been returned names one drawing for good, and the
drawing has no other id, whoever asks for it and at the same time as whom.
-/

namespace CadPlot.Worker.DrawingRefs

open Protocol Runs
open ProjectRefs (LocalProject Platform Directories insertProject resolveProject)

variable {platform : Platform} {isSpace : Char → Bool}

section Rows

/-- The drawing of a row, as far as case goes. -/
def LocalDrawing.drawing (row : LocalDrawing) : String × String × String × List Char :=
  (row.tenantId, row.deviceId, row.projectId, row.relativeKey)

/-- The drawing of a reference, as far as case goes. -/
def Reference.drawing (platform : Platform) (reference : Reference) :
    String × String × String × List Char :=
  (reference.tenantId, reference.deviceId, reference.projectId,
    fold platform reference.relativeDrawing.toList)

theorem mem_components {value part : List Char} (h : part ∈ components value) :
    '/' ∉ part ∧ (part ≠ [] && part ≠ ['.']) = true := by
  obtain ⟨hsplit, hkept⟩ := List.mem_filter.1 h
  refine ⟨fun hslash => ?_, hkept⟩
  have hseparator := (@Text.mem_splitOnP (fun c => c == '/') value '/').1 ⟨part, hsplit, hslash⟩
  cases hseparator.2

theorem components_intercalate {value : List Char} (h : components value ≠ []) :
    components (['/'].intercalate (components value)) = components value := by
  rw [components, List.splitOn_intercalate '/' (fun part hpart => (mem_components hpart).1) h]
  exact List.filter_eq_self.2 fun part hpart => (mem_components hpart).2

theorem safeRelativeDrawing_eq {value relative : String}
    (h : safeRelativeDrawing platform isSpace value = some relative) :
    components value.toList ≠ [] ∧
      relative = String.ofList (['/'].intercalate (components value.toList)) := by
  unfold safeRelativeDrawing at h
  dsimp only at h
  split at h
  · cases h
  · split at h
    · cases h
    · next hparts =>
      split at h
      · refine ⟨fun hnil => hparts ?_, (Option.some.inj h).symm⟩
        rw [hnil]
        rfl
      · cases h

/-- A relative path that has been made safe is left as it is. -/
theorem safeRelativeDrawing_idem {value relative again : String}
    (h : safeRelativeDrawing platform isSpace value = some relative)
    (hagain : safeRelativeDrawing platform isSpace relative = some again) : again = relative := by
  obtain ⟨hne, rfl⟩ := safeRelativeDrawing_eq h
  obtain ⟨-, rfl⟩ := safeRelativeDrawing_eq hagain
  rw [String.toList_ofList, components_intercalate hne]

/-- The key of a row is its path without regard to case. -/
def LocalDrawing.Folded (platform : Platform) (isSpace : Char → Bool) (row : LocalDrawing) : Prop :=
  row.relativeKey = fold platform row.relativeDrawing.toList ∧
    ∀ relative, safeRelativeDrawing platform isSpace row.relativeDrawing = some relative →
      relative = row.relativeDrawing

/-- Rows that a table may hold: an id and a drawing have one. -/
structure Good (platform : Platform) (isSpace : Char → Bool) (rows : List LocalDrawing) : Prop where
  ids : (rows.map LocalDrawing.drawingId).Nodup
  drawings : (rows.map LocalDrawing.drawing).Nodup
  folded : ∀ row ∈ rows, row.Folded platform isSpace

/-- A row of the table has the id and the drawing. -/
def Named (drawingId : String) (drawing : String × String × String × List Char)
    (rows : List LocalDrawing) : Prop :=
  ∃ row ∈ rows, row.drawingId = drawingId ∧ row.drawing = drawing

theorem Named.mono {drawingId : String} {drawing : String × String × String × List Char}
    {rows rows' : List LocalDrawing} (h : Named drawingId drawing rows) (hfront : rows <+: rows') :
    Named drawingId drawing rows' := by
  obtain ⟨row, hrow, hsame⟩ := h
  exact ⟨row, hfront.subset hrow, hsame⟩

theorem Good.id_eq_iff {rows : List LocalDrawing} (h : Good platform isSpace rows)
    {a b : String} {x y : String × String × String × List Char} (ha : Named a x rows)
    (hb : Named b y rows) : a = b ↔ x = y := by
  obtain ⟨row, hrow, rfl, rfl⟩ := ha
  obtain ⟨other, hother, rfl, rfl⟩ := hb
  constructor
  · intro hid
    rw [List.inj_on_of_nodup_map h.ids hrow hother hid]
  · intro hdrawing
    rw [List.inj_on_of_nodup_map h.drawings hrow hother hdrawing]

theorem Good.insert {tables tables' : Tables} {drawing : LocalDrawing}
    (h : Good platform isSpace tables.drawings) (hfolded : drawing.Folded platform isSpace)
    (hinsert : insertDrawing tables drawing = some tables') :
    Good platform isSpace tables'.drawings ∧ tables.drawings <+: tables'.drawings ∧
      Named drawing.drawingId drawing.drawing tables'.drawings := by
  unfold insertDrawing at hinsert
  split at hinsert
  · cases hinsert
  · next hnone =>
    split at hinsert
    · cases hinsert
      have hfresh : ∀ row ∈ tables.drawings, row.drawingId ≠ drawing.drawingId ∧
          row.drawing ≠ drawing.drawing := by
        intro row hrow
        refine ⟨fun heq => hnone (List.any_eq_true.2 ⟨row, hrow, ?_⟩),
          fun heq => hnone (List.any_eq_true.2 ⟨row, hrow, ?_⟩)⟩
        · simp [heq]
        · simp only [LocalDrawing.drawing, Prod.mk.injEq] at heq
          simp [heq]
      refine ⟨⟨?_, ?_, ?_⟩, List.prefix_append _ _,
        drawing, List.mem_append_right _ (List.mem_singleton_self _), rfl, rfl⟩
      · rw [List.map_append, List.map_singleton]
        refine List.nodup_append.2 ⟨h.ids, List.nodup_singleton _, fun id hold id' hnew => ?_⟩
        obtain ⟨row, hrow, rfl⟩ := List.mem_map.1 hold
        rw [List.mem_singleton.1 hnew]
        exact (hfresh row hrow).1
      · rw [List.map_append, List.map_singleton]
        refine List.nodup_append.2
          ⟨h.drawings, List.nodup_singleton _, fun key hold key' hnew => ?_⟩
        obtain ⟨row, hrow, rfl⟩ := List.mem_map.1 hold
        rw [List.mem_singleton.1 hnew]
        exact (hfresh row hrow).2
      · exact List.forall_mem_append.2
          ⟨h.folded, fun row hrow => List.mem_singleton.1 hrow ▸ hfolded⟩
    · cases hinsert

theorem findKey_ok {tables : Tables} {drawing : LocalDrawing} {drawingId : String}
    (h : findKey tables drawing = some drawingId) :
    Named drawingId drawing.drawing tables.drawings := by
  obtain ⟨row, hfind, rfl⟩ := Option.map_eq_some_iff.1 h
  have hsame := List.find?_some hfind
  simp only [Bool.and_eq_true, decide_eq_true_eq] at hsame
  obtain ⟨⟨⟨htenant, hdevice⟩, hproject⟩, hkey⟩ := hsame
  refine ⟨row, List.mem_of_find?_eq_some hfind, rfl, ?_⟩
  simp only [LocalDrawing.drawing, htenant, hdevice, hproject, hkey]

/-- A reference that is resolved names the drawing of its row, wherever its file has moved. -/
theorem resolveDrawing_ok {files : Files} {tables : Tables} {tenantId deviceId drawingId : String}
    {reference : Reference} (hgood : Good platform isSpace tables.drawings)
    (h : resolveDrawing platform isSpace files tables tenantId deviceId drawingId =
      some reference) : reference.drawingId = drawingId ∧
        Named drawingId (reference.drawing platform) tables.drawings := by
  unfold resolveDrawing at h
  split at h
  · obtain ⟨row, hfind, h⟩ := Option.bind_eq_some_iff.1 h
    obtain ⟨relative, hrelative, h⟩ := Option.bind_eq_some_iff.1 h
    obtain ⟨project, -, h⟩ := Option.bind_eq_some_iff.1 h
    obtain ⟨⟨file, current⟩, -, h⟩ := Option.bind_eq_some_iff.1 h
    dsimp only at h
    split at h
    · next hsame =>
      cases h
      have hrow := List.mem_of_find?_eq_some hfind
      have hquery := List.find?_some hfind
      simp only [Bool.and_eq_true, decide_eq_true_eq] at hquery
      obtain ⟨⟨htenant, hdevice⟩, hid⟩ := hquery
      obtain ⟨hkey, hidem⟩ := hgood.folded row hrow
      refine ⟨rfl, row, hrow, hid, ?_⟩
      rw [LocalDrawing.drawing, Reference.drawing, hsame, hidem relative hrelative, ← hkey, htenant,
        hdevice]
    · cases h
  · cases h

theorem prepare_ok {files : Files} {tables : Tables}
    {tenantId deviceId projectId relativeDrawing projectAlias file : String}
    {row : String → LocalDrawing}
    (h : prepare platform isSpace files tables tenantId deviceId projectId relativeDrawing =
      some (projectAlias, file, row)) (drawingId : String) :
    (row drawingId).Folded platform isSpace := by
  obtain ⟨relative, -, h⟩ := Option.bind_eq_some_iff.1 h
  obtain ⟨project, -, h⟩ := Option.bind_eq_some_iff.1 h
  obtain ⟨⟨found, canonical⟩, hlocal, h⟩ := Option.bind_eq_some_iff.1 h
  cases h
  obtain ⟨first, -, hlocal⟩ := Option.bind_eq_some_iff.1 hlocal
  obtain ⟨⟨file', path⟩, -, hlocal⟩ := Option.bind_eq_some_iff.1 hlocal
  obtain ⟨safe, hsafe, hlocal⟩ := Option.bind_eq_some_iff.1 hlocal
  cases hlocal
  exact ⟨rfl, fun again hagain => safeRelativeDrawing_idem hsafe hagain⟩

end Rows

section Invariant

/-- What a call has behind it, by how far it has come. -/
def CallSound (platform : Platform) (db : Database Tables) (n : Nat) (call : Call) : Prop :=
  match call.phase with
  | .ready | .missing | .refused | .raised => True
  | .written => ∃ tables, db.writer = some (n, tables) ∧
      Named call.row.drawingId call.row.drawing tables.drawings
  | .committed => Named call.row.drawingId call.row.drawing db.committed.drawings
  | .returned reference =>
    Named reference.drawingId (reference.drawing platform) db.committed.drawings ∧
      (call.entry ≠ .resolve → reference.drawing platform = call.row.drawing)

structure Inv (platform : Platform) (isSpace : Char → Bool) (w : World) : Prop where
  good : Good platform isSpace w.db.committed.drawings
  staged : ∀ n tables, w.db.writer = some (n, tables) →
    Good platform isSpace tables.drawings ∧ w.db.committed.drawings <+: tables.drawings
  folded : ∀ n call, w.calls.get n = some call → call.entry ≠ .resolve →
    call.row.Folded platform isSpace
  calls : ∀ n call, w.calls.get n = some call → CallSound platform w.db n call

theorem inv_start : Inv platform isSpace .start where
  good := ⟨List.nodup_nil, List.nodup_nil, fun _ h => absurd h List.not_mem_nil⟩
  staged := fun _ _ h => by cases h
  folded := fun _ _ h => by cases h
  calls := fun _ _ h => by cases h

theorem CallSound.mono {db db' : Database Tables} {n : Nat} {call : Call}
    (h : CallSound platform db n call) (hfront : db.committed.drawings <+: db'.committed.drawings)
    (hheld : ∀ tables, db.writer = some (n, tables) → db'.writer = some (n, tables)) :
    CallSound platform db' n call := by
  obtain ⟨entry, row, projectAlias, file, phase⟩ := call
  cases phase with
  | ready | missing | refused | raised => trivial
  | written =>
    obtain ⟨tables, hwriter, hnamed⟩ := h
    exact ⟨tables, hheld tables hwriter, hnamed⟩
  | committed => exact Named.mono h hfront
  | returned reference => exact ⟨h.1.mono hfront, h.2⟩

variable {w w' : World}

/-- A step of one call, which nobody else's transaction notices. -/
theorem Inv.set (h : Inv platform isSpace w) {db : Database Tables} {n : Nat} {call : Call}
    (hgood : Good platform isSpace db.committed.drawings)
    (hstaged : ∀ k tables, db.writer = some (k, tables) →
      Good platform isSpace tables.drawings ∧ db.committed.drawings <+: tables.drawings)
    (hfront : w.db.committed.drawings <+: db.committed.drawings)
    (hheld : ∀ k tables, k ≠ n → w.db.writer = some (k, tables) → db.writer = some (k, tables))
    (hfolded : call.entry ≠ .resolve → call.row.Folded platform isSpace)
    (hcall : CallSound platform db n call) :
    Inv platform isSpace ⟨db, w.calls.set n call⟩ := by
  refine ⟨hgood, hstaged, fun k c hget => ?_, fun k c hget => ?_⟩
  all_goals
    by_cases hk : k = n
    · subst hk
      rw [Dict.get_set_same] at hget
      cases hget
      assumption
    · rw [Dict.get_set_other _ _ hk] at hget
      first
        | exact h.folded k c hget
        | exact (h.calls k c hget).mono hfront fun tables => hheld k tables hk

theorem Inv.goOn (h : Inv platform isSpace w) {n : Nat} {call : Call}
    (hfolded : call.entry ≠ .resolve → call.row.Folded platform isSpace)
    (hcall : CallSound platform w.db n call) : Inv platform isSpace (w.goOn n call) :=
  h.set h.good h.staged List.prefix_rfl (fun _ _ _ hwriter => hwriter) hfolded hcall

theorem Inv.raise (h : Inv platform isSpace w) {n : Nat} {call : Call}
    (hcall : w.calls.get n = some call) : Inv platform isSpace (w.raise n call) := by
  have hcommitted : (w.db.rollback n).committed = w.db.committed := Database.rollback_committed
  refine h.set ?_ (fun k tables hwriter => ?_) ?_ (fun k tables hk hwriter => ?_)
    (h.folded n call hcall) trivial
  · rw [hcommitted]
    exact h.good
  · rw [hcommitted]
    exact h.staged k tables (Database.writer_of_rollback hwriter)
  · rw [hcommitted]
  · rw [Database.rollback_other hwriter hk]
    exact hwriter

theorem Inv.begin (h : Inv platform isSpace w) {n : Nat} {call : Option Call}
    (hfolded : ∀ c ∈ call, c.entry ≠ .resolve → c.row.Folded platform isSpace)
    (hcall : ∀ c ∈ call, CallSound platform w.db n c) (hbegin : w.begin n call = some w') :
    Inv platform isSpace w' := by
  unfold World.begin at hbegin
  split at hbegin
  · cases hbegin
  · cases call with
    | none =>
      cases hbegin
      exact h
    | some call =>
      cases hbegin
      exact h.goOn (hfolded call rfl) (hcall call rfl)

theorem Inv.inserted (h : Inv platform isSpace w) {n : Nat} {call : Call} {db : Database Tables}
    (hcall : w.calls.get n = some call) (hentry : call.entry ≠ .resolve)
    (hacquire : w.db.acquire n = some db) : Inv platform isSpace (w.inserted n call db) := by
  obtain ⟨hfree, rfl⟩ := Database.acquire_eq hacquire
  have hfolded := h.folded n call hcall hentry
  have hlocked : Inv platform isSpace ⟨⟨w.db.committed, some (n, w.db.committed)⟩, w.calls⟩ := by
    refine ⟨h.good, fun k tables hwriter => ?_, h.folded, fun k c hget => ?_⟩
    · cases hwriter
      exact ⟨h.good, List.prefix_rfl⟩
    · refine (h.calls k c hget).mono List.prefix_rfl fun tables hwriter => ?_
      rw [hfree] at hwriter
      cases hwriter
  unfold World.inserted
  split
  · next tables hinsert =>
    obtain ⟨hgood, hfront, hnamed⟩ := h.good.insert hfolded hinsert
    refine h.set h.good (fun k tables' hwriter => ?_) List.prefix_rfl
      (fun k tables' _ hwriter => ?_)
      (fun _ => hfolded) ⟨tables, rfl, hnamed⟩
    · cases hwriter
      exact ⟨hgood, hfront⟩
    · rw [hfree] at hwriter
      cases hwriter
  · split
    · exact hlocked.goOn (fun _ => hfolded) trivial
    · exact hlocked.raise hcall

theorem Inv.insertStatement (h : Inv platform isSpace w) {n : Nat} {call : Call}
    (hcall : w.calls.get n = some call) (hstep : insertStatement w n call = some w') :
    Inv platform isSpace w' := by
  unfold DrawingRefs.insertStatement at hstep
  split at hstep
  · next hentry _ =>
    obtain ⟨db, hacquire, rfl⟩ := Option.map_eq_some_iff.1 hstep
    exact h.inserted hcall (fun heq => by rw [heq] at hentry; cases hentry) hacquire
  · next hentry _ =>
    obtain ⟨db, hacquire, rfl⟩ := Option.map_eq_some_iff.1 hstep
    exact h.inserted hcall (fun heq => by rw [heq] at hentry; cases hentry) hacquire
  · cases hstep

theorem reference_drawing {call : Call} (h : call.row.Folded platform isSpace) :
    call.reference.drawing platform = call.row.drawing := by
  rw [LocalDrawing.drawing, h.1]
  rfl

theorem inv_step (h : Inv platform isSpace w) {e : Event}
    (hstep : step platform isSpace w e = some w') : Inv platform isSpace w' := by
  cases e with
  | addProject project =>
    rw [step] at hstep
    split at hstep
    · cases hstep
    · next hfree =>
      obtain ⟨projects, -, rfl⟩ := Option.map_eq_some_iff.1 hstep
      refine ⟨h.good, fun k tables hwriter => (by cases hwriter), h.folded, fun k c hget => ?_⟩
      refine (h.calls k c hget).mono List.prefix_rfl fun tables hwriter => ?_
      rw [hfree] at hwriter
      cases hwriter
  | registerDrawing n tenantId deviceId projectId drawingId relativeDrawing files =>
    refine h.begin (fun c hc _ => ?_) (fun c hc => ?_) hstep
    all_goals
      split at hc
      · obtain ⟨⟨projectAlias, file, row⟩, hprepare, rfl⟩ := Option.map_eq_some_iff.1 hc
        first | exact prepare_ok hprepare drawingId | trivial
      · cases hc
  | getOrRegisterDrawing n tenantId deviceId projectId relativeDrawing files =>
    refine h.begin (fun c hc _ => ?_) (fun c hc => ?_) hstep
    all_goals
      obtain ⟨⟨projectAlias, file, row⟩, hprepare, rfl⟩ := Option.map_eq_some_iff.1 hc
      first | exact prepare_ok hprepare "" | trivial
  | resolveDrawing n tenantId deviceId drawingId files =>
    refine h.begin (fun c hc hentry => ?_) (fun c hc => ?_) hstep
    · obtain ⟨reference, -, rfl⟩ := Option.map_eq_some_iff.1 hc
      exact absurd rfl hentry
    · obtain ⟨reference, hresolve, rfl⟩ := Option.map_eq_some_iff.1 hc
      obtain ⟨hid, hnamed⟩ := resolveDrawing_ok h.good hresolve
      exact ⟨hid ▸ hnamed, fun hentry => absurd rfl hentry⟩
  | select n drawingId =>
    rw [step] at hstep
    split at hstep
    · next row projectAlias file hcall =>
      have hfolded := h.folded n _ hcall
      cases hstep
      split
      · next found hfind => exact h.goOn hfolded (findKey_ok hfind)
      · split
        · exact h.goOn hfolded trivial
        · exact h.raise hcall
    · cases hstep
  | insert n =>
    obtain ⟨call, hcall, hinsert⟩ := Option.bind_eq_some_iff.1 hstep
    exact h.insertStatement hcall hinsert
  | reselect n =>
    rw [step] at hstep
    split at hstep
    · next row projectAlias file hcall =>
      have hfolded := h.folded n _ hcall
      obtain ⟨tables, hstaged, rfl⟩ := Option.map_eq_some_iff.1 hstep
      split
      · next found hfind =>
        exact h.goOn hfolded ⟨tables, Database.staged_eq.1 hstaged, findKey_ok hfind⟩
      · exact h.raise hcall
    · cases hstep
  | commit n =>
    rw [step] at hstep
    split at hstep
    · next call hcall =>
      split at hstep
      · next hphase =>
        obtain ⟨db, hcommit, rfl⟩ := Option.map_eq_some_iff.1 hstep
        obtain ⟨tables, hwriter, rfl⟩ := Database.commit_eq hcommit
        obtain ⟨hgood, hfront⟩ := h.staged n tables hwriter
        have hsound := h.calls n call hcall
        rw [CallSound, hphase] at hsound
        obtain ⟨tables', hwriter', hnamed⟩ := hsound
        rw [hwriter] at hwriter'
        cases hwriter'
        refine h.set hgood (fun k tables' hnone => (by cases hnone)) hfront
          (fun k tables' hk hheld => ?_) (h.folded n call hcall) ?_
        · rw [hwriter] at hheld
          cases hheld
          exact absurd rfl hk
        · by_cases hentry : call.entry = .register
          · have hdrawing := reference_drawing (h.folded n call hcall (by rw [hentry]; decide))
            rw [if_pos hentry]
            exact ⟨hdrawing ▸ hnamed, fun _ => hdrawing⟩
          · rw [if_neg hentry]
            exact hnamed
      · cases hstep
    · cases hstep
  | resolve n files =>
    rw [step] at hstep
    split at hstep
    · next call hcall =>
      split at hstep
      · next hphase =>
        cases hstep
        refine h.goOn (h.folded n call hcall) ?_
        have hsound := h.calls n call hcall
        rw [CallSound, hphase] at hsound
        cases hresolve : resolveDrawing platform isSpace files w.db.committed call.row.tenantId
            call.row.deviceId call.row.drawingId with
        | none => trivial
        | some reference =>
          obtain ⟨hid, hnamed⟩ := resolveDrawing_ok h.good hresolve
          exact ⟨hid ▸ hnamed, fun _ => (h.good.id_eq_iff hnamed hsound).1 rfl⟩
      · cases hstep
    · cases hstep
  | fail n =>
    rw [step] at hstep
    split at hstep
    · cases hstep
    · next hcall =>
      cases hstep
      exact h.raise hcall
    · cases hstep

theorem inv_of_reaches {s : World} (h : Reaches (step platform isSpace) anyEvent .start s) :
    Inv platform isSpace s :=
  invariant_of_reaches inv_start (fun _ _ _ hinv _ hstep => inv_step hinv hstep) h

/-- Whatever has been returned by then, two references have one id exactly if they are for one
drawing, and a call that registers a drawing is returned a reference for that one. -/
theorem drawings_told_apart (platform : Platform) (isSpace : Char → Bool) {s : World}
    (h : Reaches (step platform isSpace) anyEvent .start s) {n m : Nat} {a b : Call}
    {x y : Reference} (ha : s.calls.get n = some a) (hx : a.phase = .returned x)
    (hb : s.calls.get m = some b) (hy : b.phase = .returned y) :
    (x.drawingId = y.drawingId ↔ x.drawing platform = y.drawing platform) ∧
      (a.entry ≠ .resolve → x.drawing platform = a.row.drawing) := by
  have hinv := inv_of_reaches h
  have hsound := hinv.calls n a ha
  have hsound' := hinv.calls m b hb
  rw [CallSound, hx] at hsound
  rw [CallSound, hy] at hsound'
  exact ⟨hinv.good.id_eq_iff hsound.1 hsound'.1, hsound.2⟩

end Invariant

section Example

/-- Texts and paths are compared by their small letters. -/
def lowered : Platform where
  casefold c := [c.toLower]
  normcase path := path.toLower

/-- Every path is a plain directory, and a file under the name it is asked for. -/
def anyFiles : Files where
  directories := ⟨some, some, some, fun _ => true⟩
  locate root parts := some (root, String.ofList (['/'].intercalate parts))

def office : LocalProject :=
  ⟨"prj_00000000-0000-4000-8000-000000000001", "tnt_00000000-0000-4000-8000-000000000001",
    "ws_00000000-0000-4000-8000-000000000001", "Office_A", "C:\\A"⟩

def drawingId (n : Char) : String :=
  String.ofList ("drw_00000000-0000-4000-8000-00000000000".toList ++ [n])

/-- Two scans that both find no row for one drawing. -/
def scans : List Event :=
  [.addProject office,
    .getOrRegisterDrawing 0 office.tenantId office.deviceId office.projectId "Kat/plan.dwg"
      anyFiles,
    .getOrRegisterDrawing 1 office.tenantId office.deviceId office.projectId "kat/PLAN.dwg"
      anyFiles,
    .select 0 (drawingId '1'), .select 1 (drawingId '2'), .insert 1, .commit 1, .insert 0,
    .reselect 0, .commit 0, .resolve 0 anyFiles, .resolve 1 anyFiles]

def bothReturned (s : World) : Bool :=
  match s.calls.get 0, s.calls.get 1 with
  | some ⟨_, _, _, _, .returned x⟩, some ⟨_, _, _, _, .returned y⟩ =>
    x.drawingId = drawingId '2' && y.drawingId = drawingId '2'
  | _, _ => false

theorem drawings_told_apart_scans : ∃ (s : World) (a b : Call) (x y : Reference),
    (s.calls.get 0 = some a ∧ a.phase = .returned x ∧ s.calls.get 1 = some b ∧
      b.phase = .returned y) ∧
      x.drawingId = drawingId '2' ∧ x.drawing lowered = y.drawing lowered := by
  obtain ⟨s, hreach, hs⟩ := exists_reaches_of_run (step lowered Char.isWhitespace) anyEvent
    .start scans bothReturned (along_anyEvent _ _) (by decide +kernel)
  unfold bothReturned at hs
  split at hs
  · next _ _ _ _ x _ _ _ _ y ha hb =>
    rw [Bool.and_eq_true, decide_eq_true_eq, decide_eq_true_eq] at hs
    refine ⟨s, _, _, x, y, ⟨ha, rfl, hb, rfl⟩, hs.1, ?_⟩
    exact (drawings_told_apart lowered Char.isWhitespace hreach ha rfl hb rfl).1.1
      (hs.1.trans hs.2.symm)
  · cases hs

end Example

end CadPlot.Worker.DrawingRefs
