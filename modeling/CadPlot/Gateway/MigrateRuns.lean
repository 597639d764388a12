import CadPlot.Gateway.Migrate
import CadPlot.Lib.Runs

/-!
# Migration runs

Whatever interrupts them, the runners leave the ledger at a prefix of the
packaged sequence and the objects at what exactly those bodies make of them. A
database with any other history they leave alone.
-/

namespace CadPlot.Gateway.Migrate

variable {rt : Runtime} {directory : List Asset} {σ : Type} {engine : Engine σ}
  {ms : List Migration} {objects : σ}

/-- What the bodies make of the objects, one after the other. -/
def replay (engine : Engine σ) (ms : List Migration) (objects : σ) : Option σ :=
  ms.foldlM (fun objects m => engine.exec m.body objects) objects

/-- The ledger holds the first `n` migrations, and the objects are what these make of them. -/
structure UpTo (engine : Engine σ) (ms : List Migration) (objects : σ) (n : Nat)
    (db : Database σ) : Prop where
  le : n ≤ ms.length
  ledger : db.ledger = if n = 0 then none else some ((ms.take n).map Migration.row)
  replayed : replay engine (ms.take n) objects = some db.objects

/-- A history that is none of the package's: no ledger or an empty one while the schema exists,
or rows that are not, in order, the first of the package. -/
def Foreign (engine : Engine σ) (ms : List Migration) (db : Database σ) : Prop :=
  (engine.schemaExists db.objects = true ∨ db.ledger ≠ none) ∧
    ∀ rows, db.ledger = some rows → rows = [] ∨ ¬ordered rows <+: ms.map Migration.row

theorem loadMigrations_ok (h : loadMigrations rt directory = .ok ms) :
    ms ≠ [] ∧ ms.map Migration.version = List.range' 1 ms.length := by
  obtain ⟨loaded, _, h⟩ := bind_eq_ok.1 h
  obtain ⟨hcheck, h⟩ := ensure_bind_eq_ok.1 h
  obtain rfl := pure_eq_ok.1 h
  simpa using hcheck

theorem start_ok {c l : Connection} {same : Bool}
    (h : start rt directory c l same = .ok ms) : loadMigrations rt directory = .ok ms := by
  obtain ⟨loaded, hload, h⟩ := bind_eq_ok.1 h
  obtain ⟨_, _, h⟩ := bind_eq_ok.1 h
  obtain ⟨_, h⟩ := ensure_bind_eq_ok.1 h
  obtain ⟨_, _, h⟩ := bind_eq_ok.1 h
  exact pure_eq_ok.1 h ▸ hload

/-- Rows agree with the package as far as they go. -/
theorem matches_iff {rows : List LedgerRow} (hlen : rows.length ≤ ms.length) :
    ((rows.zip ms).all fun e => decide (e.1.version = e.2.version) &&
      decide (e.1.filename = e.2.filename) && decide (e.1.sha256 = e.2.sha256)) = true ↔
      rows <+: ms.map Migration.row := by
  induction rows generalizing ms with
  | nil => simp
  | cons row rows ih =>
    cases ms with
    | nil => simp at hlen
    | cons m ms =>
      have hrow : row = m.row ↔ (row.version = m.version ∧ row.filename = m.filename) ∧
          row.sha256 = m.sha256 := by
        cases row
        simp [Migration.row, and_assoc]
      rw [List.zip_cons_cons, List.all_cons, Bool.and_eq_true,
        ih (by simpa using hlen), List.map_cons, List.cons_prefix_cons, hrow]
      simp only [Bool.and_eq_true, decide_eq_true_eq]

theorem readAppliedMigrations_ok {rows : List LedgerRow} {applied : List Migration}
    (h : readAppliedMigrations rows ms = .ok applied) :
    rows ≠ [] ∧ ordered rows <+: ms.map Migration.row ∧ applied = ms.take rows.length := by
  obtain ⟨hlen, h⟩ := ensure_bind_eq_ok.1 h
  obtain ⟨hmatch, h⟩ := ensure_bind_eq_ok.1 h
  obtain rfl := pure_eq_ok.1 h
  simp only [Bool.and_eq_true, decide_eq_true_eq] at hlen
  have hlength : (ordered rows).length = rows.length := List.length_insertionSort _ _
  refine ⟨?_, (matches_iff hlen.2).1 hmatch, by rw [hlength]⟩
  rintro rfl
  exact hlen.1 rfl

/-- What the owner of the lock goes on with: everything, or what comes after the ledger. -/
theorem planned_ok {db : Database σ} {creates : Bool} {todo : List Migration}
    (h : planned engine ms db = .ok (creates, todo)) :
    (creates = true ∧ engine.schemaExists db.objects = false ∧ db.ledger = none ∧ todo = ms) ∨
      (creates = false ∧ ∃ rows, db.ledger = some rows ∧ rows ≠ [] ∧
        ordered rows <+: ms.map Migration.row ∧ todo = ms.drop rows.length) := by
  obtain ⟨hshape, h⟩ := ensure_bind_eq_ok.1 h
  obtain ⟨_, h⟩ := ensure_bind_eq_ok.1 h
  cases hledger : db.ledger with
  | none =>
    rw [hledger] at h hshape
    obtain ⟨rfl, rfl⟩ := Prod.mk.inj (pure_eq_ok.1 h)
    exact .inl ⟨rfl, by simpa using hshape, rfl, rfl⟩
  | some rows =>
    rw [hledger] at h
    obtain ⟨_, h⟩ := ensure_bind_eq_ok.1 h
    obtain ⟨applied, happlied, h⟩ := bind_eq_ok.1 h
    obtain ⟨rfl, rfl⟩ := Prod.mk.inj (pure_eq_ok.1 h)
    obtain ⟨hne, hprefix, rfl⟩ := readAppliedMigrations_ok happlied
    refine .inr ⟨rfl, rows, rfl, hne, hprefix, ?_⟩
    have hle := hprefix.length_le
    rw [ordered, List.length_insertionSort, List.length_map] at hle
    rw [List.length_take, Nat.min_eq_left hle]

theorem planned_foreign {db : Database σ} (hdb : Foreign engine ms db) {p : Bool × List Migration} :
    planned engine ms db ≠ .ok p := by
  intro h
  obtain ⟨_, hschema, hnone, _⟩ | ⟨_, rows, hrows, hne, hprefix, _⟩ := planned_ok h
  · exact hdb.1.elim (by simp [hschema]) (· hnone)
  · exact (hdb.2 rows hrows).elim hne (· hprefix)

theorem replay_snoc {m : Migration} :
    replay engine (ms ++ [m]) objects = (replay engine ms objects).bind (engine.exec m.body) := by
  simp [replay, List.foldlM_append]

theorem execAll_snoc {db : Database σ} {done : List Statement} {s : Statement} :
    execAll engine db (done ++ [s]) = (execAll engine db done).bind (execute engine · s) := by
  simp [execAll, List.foldlM_append]

/-- A transaction that ran to its end ran the body once and recorded it. -/
theorem statements_done {db working : Database σ} {creates : Bool} {m : Migration}
    (h : execAll engine db (statements creates m) = some working) :
    engine.exec m.body db.objects = some working.objects ∧
      working.ledger = some ((if creates then [] else db.ledger.getD []) ++ [m.row]) := by
  cases creates with
  | true =>
    simp only [execAll, statements, if_true, List.foldlM_cons, List.foldlM_nil, execute,
      Option.bind_eq_bind, Option.bind_eq_some_iff, Option.map_eq_some_iff, createLedger,
      recordMigration] at h
    obtain ⟨_, ⟨objects, hexec, rfl⟩, _, hcreate, _, ⟨rows, hrows, hrecord⟩, h⟩ := h
    split at hcreate
    · obtain rfl := Option.some.inj hcreate
      obtain rfl := Option.some.inj hrows
      split at hrecord
      · obtain rfl := Option.some.inj hrecord
        obtain rfl := Option.some.inj h
        exact ⟨hexec, rfl⟩
      · cases hrecord
    · cases hcreate
  | false =>
    simp only [execAll, statements, Bool.false_eq_true, if_false, List.foldlM_cons, List.foldlM_nil,
      execute, Option.bind_eq_bind, Option.bind_eq_some_iff, Option.map_eq_some_iff,
      recordMigration] at h
    obtain ⟨_, ⟨objects, hexec, rfl⟩, _, ⟨rows, hrows, hrecord⟩, h⟩ := h
    split at hrecord
    · obtain rfl := Option.some.inj hrecord
      obtain rfl := Option.some.inj h
      have hledger : db.ledger = some rows := hrows
      exact ⟨hexec, by simp [hledger]⟩
    · cases hrecord

theorem UpTo.commit {n : Nat} {db working : Database σ} {m : Migration} {todo : List Migration}
    (h : UpTo engine ms objects n db) (htodo : m :: todo = ms.drop n)
    (hdone : execAll engine db (statements (decide (n = 0)) m) = some working) :
    UpTo engine ms objects (n + 1) working ∧ todo = ms.drop (n + 1) := by
  have hlt : n < ms.length := by
    by_contra hge
    rw [List.drop_eq_nil_of_le (Nat.le_of_not_lt hge)] at htodo
    cases htodo
  have hcons := List.drop_eq_getElem_cons hlt
  rw [← htodo] at hcons
  obtain ⟨hm, hrest⟩ := List.cons.inj hcons
  have htake : ms.take (n + 1) = ms.take n ++ [m] := by
    rw [hm, List.take_append_getElem]
  obtain ⟨hexec, hledger⟩ := statements_done hdone
  refine ⟨⟨hlt, ?_, ?_⟩, hrest⟩
  · rw [hledger, htake, List.map_append, if_neg (Nat.succ_ne_zero n)]
    by_cases hn : n = 0
    · simp [hn]
    · simp [hn, h.ledger]
  · rw [htake, replay_snoc, h.replayed]
    exact hexec

/-- Where the owner may be while the database is at the first `n` migrations. -/
def PointOk (engine : Engine σ) (ms : List Migration) (n : Nat) (db : Database σ) :
    Point σ → Prop
  | .locked => True
  | .between creates applied todo =>
    creates = decide (n = 0) ∧ todo = ms.drop n ∧
      ∃ k ≤ n, applied = ((ms.take n).drop k).map Migration.filename
  | .inside applied m todo left working =>
    m :: todo = ms.drop n ∧ (∃ k ≤ n, applied = ((ms.take n).drop k).map Migration.filename) ∧
      ∃ done, done ++ left = statements (decide (n = 0)) m ∧ execAll engine db done = some working

/-- What a run that returned reports: the migrations from some place on. -/
def ResultOk (ms : List Migration) (r : MigrationResult) : Prop :=
  r.current = ms.getLast?.map Migration.filename ∧
    ∃ k, r.applied = (ms.drop k).map Migration.filename

structure Managed (engine : Engine σ) (ms : List Migration) (objects : σ) (n : Nat)
    (w : World σ) : Prop where
  upTo : UpTo engine ms objects n w.db
  owner : ∀ s, w.owner = some s → s.migrations = ms ∧ PointOk engine ms n w.db s.point
  complete : w.results ≠ [] → n = ms.length
  results : ∀ r ∈ w.results, ResultOk ms r

section Step

variable {n : Nat} {w w' : World σ}

theorem Managed.release (h : Managed engine ms objects n w) :
    Managed engine ms objects n w.release :=
  { h with owner := by simp [World.release] }

theorem Managed.move (h : Managed engine ms objects n w) {point : Point σ}
    (hpoint : PointOk engine ms n w.db point) : Managed engine ms objects n (w.move ms point) :=
  { h with owner := fun _ hs => Option.some.inj hs ▸ ⟨rfl, hpoint⟩ }

/-- The rows of a prefix of the package are in order. -/
theorem ordered_take (hversions : ms.map Migration.version = List.range' 1 ms.length) (n : Nat) :
    ordered ((ms.take n).map Migration.row) = (ms.take n).map Migration.row := by
  refine List.Pairwise.insertionSort_eq ?_
  rw [List.map_take]
  refine List.Pairwise.take ?_
  have hsorted : (ms.map Migration.version).Pairwise (· < ·) :=
    hversions ▸ List.pairwise_lt_range'
  rw [List.pairwise_map] at hsorted ⊢
  exact hsorted.imp Nat.le_of_lt

/-- The owner of the lock goes on where the ledger ends. -/
theorem planned_upTo {db : Database σ} (h : UpTo engine ms objects n db) {creates : Bool}
    {todo : List Migration} (hplan : planned engine ms db = .ok (creates, todo)) :
    creates = decide (n = 0) ∧ todo = ms.drop n := by
  have hledger := h.ledger
  obtain ⟨rfl, _, hnone, rfl⟩ | ⟨rfl, rows, hrows, _, _, rfl⟩ := planned_ok hplan
  · rw [hnone] at hledger
    split at hledger
    · next hn => simp [hn]
    · cases hledger
  · rw [hrows] at hledger
    split at hledger
    · cases hledger
    · next hn =>
      obtain rfl := Option.some.inj hledger
      simp [hn, Nat.min_eq_left h.le]

/-- Where the first migration made the schema, a rerun is never refused. -/
theorem planned_resumes (hversions : ms.map Migration.version = List.range' 1 ms.length)
    {db : Database σ} (h : UpTo engine ms objects n db)
    (hschema : engine.schemaExists db.objects = decide (n ≠ 0))
    (hoperations : engine.operationsExists db.objects = decide (n ≠ 0)) :
    planned engine ms db = .ok (decide (n = 0), ms.drop n) := by
  obtain ⟨db, ledger⟩ := db
  obtain rfl := h.ledger
  by_cases hn : n = 0
  · subst hn
    simp [planned, hschema, hoperations, ensure, bind, Except.bind, pure, Except.pure]
  · have hread : readAppliedMigrations ((ms.take n).map Migration.row) ms = .ok (ms.take n) := by
      have hle := h.le
      have hlen : ((ms.take n).map Migration.row).length = n := by simp [hle]
      have hne : (ms.take n).map Migration.row ≠ [] := by
        rintro hnil
        rw [hnil] at hlen
        exact hn hlen.symm
      rw [readAppliedMigrations, ordered_take hversions, hlen, ensure_bind_eq_ok,
        ensure_bind_eq_ok]
      refine ⟨?_, (matches_iff (by omega)).2 ((List.take_prefix n ms).map _), rfl⟩
      rw [decide_eq_true hne, decide_eq_true hle]
      rfl
    generalize (ms.take n).map Migration.row = rows at *
    simp [planned, hschema, hoperations, hn, hread, ensure, bind, Except.bind, pure, Except.pure,
      Nat.min_eq_left h.le]

theorem Managed.advance (hne : ms ≠ []) (h : Managed engine ms objects n w) {s : Session σ}
    (hs : w.owner = some s) :
    ∃ n', n ≤ n' ∧ Managed engine ms objects n' (advance engine w s) := by
  obtain ⟨hms, hpoint⟩ := h.owner s hs
  obtain ⟨migrations, point⟩ := s
  obtain rfl : migrations = ms := hms
  cases point with
  | locked =>
    refine ⟨n, le_rfl, ?_⟩
    simp only [Migrate.advance]
    split
    · exact h.release
    · next creates todo hplan =>
      obtain ⟨hcreates, htodo⟩ := planned_upTo h.upTo hplan
      exact h.move ⟨hcreates, htodo, n, le_rfl, by simp⟩
  | between creates applied todo =>
    obtain ⟨rfl, htodo, k, hk, rfl⟩ := hpoint
    refine ⟨n, le_rfl, ?_⟩
    cases todo with
    | nil =>
      have hn : n = migrations.length :=
        Nat.le_antisymm h.upTo.le (List.drop_eq_nil_iff.1 htodo.symm)
      have hzero : n ≠ 0 := hn ▸ fun hlen => hne (List.eq_nil_of_length_eq_zero hlen)
      simp only [Migrate.advance, hzero, decide_false, Bool.false_eq_true, if_false]
      refine { h.release with complete := fun _ => hn, results := fun r hr => ?_ }
      rcases List.mem_append.1 hr with hr | hr
      · exact h.results r hr
      · obtain rfl := List.mem_singleton.1 hr
        exact ⟨rfl, k, by rw [hn, List.take_length]⟩
    | cons m todo => exact h.move ⟨htodo, ⟨k, hk, rfl⟩, [], rfl, rfl⟩
  | inside applied m todo left working =>
    obtain ⟨htodo, ⟨k, hk, rfl⟩, done, hdone, hworking⟩ := hpoint
    cases left with
    | nil =>
      rw [List.append_nil] at hdone
      rw [hdone] at hworking
      obtain ⟨hupTo, hrest⟩ := h.upTo.commit htodo hworking
      refine ⟨n + 1, Nat.le_succ n, hupTo, fun _ hs => ?_, fun hresults => ?_, h.results⟩
      · obtain rfl := Option.some.inj hs
        refine ⟨rfl, by simp, hrest, k, Nat.le_succ_of_le hk, ?_⟩
        have hlt : n < migrations.length := hupTo.le
        have hcons := List.drop_eq_getElem_cons hlt
        rw [← htodo] at hcons
        rw [← List.take_append_getElem hlt, ← (List.cons.inj hcons).1,
          List.drop_append_of_le_length (by rw [List.length_take]; omega), List.map_append]
        rfl
      · have hfull := h.complete hresults
        have hlt := hupTo.le
        omega
    | cons statement left =>
      refine ⟨n, le_rfl, ?_⟩
      simp only [Migrate.advance]
      split
      · exact h.release
      · next after hafter =>
        refine h.move ⟨htodo, ⟨k, hk, rfl⟩, done ++ [statement], by rw [← hdone]; simp, ?_⟩
        rw [execAll_snoc, hworking]
        exact hafter

theorem step_managed (hload : loadMigrations rt directory = .ok ms) {e : Event}
    (h : Managed engine ms objects n w) (hstep : step rt directory engine w e = some w') :
    ∃ n', n ≤ n' ∧ Managed engine ms objects n' w' := by
  cases e with
  | acquire c l same =>
    simp only [step] at hstep
    split at hstep
    · cases hstep
    · split at hstep
      · cases hstep
      · next migrations hstart =>
        obtain rfl : ms = migrations := Except.ok.inj (hload.symm.trans (start_ok hstart))
        obtain rfl := Option.some.inj hstep
        exact ⟨n, le_rfl, h.move trivial⟩
  | advance =>
    obtain ⟨s, hs, rfl⟩ := Option.map_eq_some_iff.1 hstep
    exact h.advance (loadMigrations_ok hload).1 hs
  | interrupt =>
    obtain ⟨_, _, rfl⟩ := Option.map_eq_some_iff.1 hstep
    exact ⟨n, le_rfl, h.release⟩

/-- Over a foreign history no runner gets past its first look. -/
structure Untouched (ms : List Migration) (db : Database σ) (w : World σ) : Prop where
  db : w.db = db
  owner : ∀ s, w.owner = some s → s = ⟨ms, .locked⟩
  results : w.results = []

theorem step_untouched (hload : loadMigrations rt directory = .ok ms) {db : Database σ}
    (hdb : Foreign engine ms db) {e : Event} (h : Untouched ms db w)
    (hstep : step rt directory engine w e = some w') : Untouched ms db w' := by
  cases e with
  | acquire c l same =>
    simp only [step] at hstep
    split at hstep
    · cases hstep
    · split at hstep
      · cases hstep
      · next migrations hstart =>
        obtain rfl : ms = migrations := Except.ok.inj (hload.symm.trans (start_ok hstart))
        obtain rfl := Option.some.inj hstep
        exact { h with owner := fun _ hs => (Option.some.inj hs).symm }
  | advance =>
    obtain ⟨s, hs, rfl⟩ := Option.map_eq_some_iff.1 hstep
    obtain rfl := h.owner s hs
    simp only [Migrate.advance, h.db]
    split
    · exact { h with owner := by simp [World.release] }
    · next hplan => exact absurd hplan (planned_foreign hdb)
  | interrupt =>
    obtain ⟨_, _, rfl⟩ := Option.map_eq_some_iff.1 hstep
    exact { h with owner := by simp [World.release] }

end Step

/-- From a database without the schema, any interruptions and reruns leave a prefix of the package
in the ledger and in the objects, all of it once a run has returned. A foreign history stays as it
is, and no run over it returns. -/
theorem migrations_exact (hload : loadMigrations rt directory = .ok ms) :
    (∀ (engine : Engine σ) (objects : σ) (w : World σ),
      Runs.Reaches (step rt directory engine) Runs.anyEvent (.init ⟨objects, none⟩) w →
        ∃ n, UpTo engine ms objects n w.db ∧ (w.results ≠ [] → n = ms.length) ∧
          ∀ r ∈ w.results, ResultOk ms r) ∧
      ∀ (engine : Engine σ) (db : Database σ) (w : World σ), Foreign engine ms db →
        Runs.Reaches (step rt directory engine) Runs.anyEvent (.init db) w →
          w.db = db ∧ w.results = [] := by
  refine ⟨fun engine objects w hreach => ?_, fun engine db w hdb hreach => ?_⟩
  · have hinit : Managed engine ms objects 0 (.init ⟨objects, none⟩) :=
      ⟨⟨Nat.zero_le _, rfl, rfl⟩, by simp [World.init], by simp [World.init],
        by simp [World.init]⟩
    obtain ⟨n, h⟩ := @Runs.invariant_of_reaches _ _ _ _
      (fun w => ∃ n, Managed engine ms objects n w) _ _ ⟨0, hinit⟩
      (fun _ _ _ ⟨_, h⟩ _ hstep =>
        let ⟨n, _, h'⟩ := step_managed hload h hstep
        ⟨n, h'⟩) hreach
    exact ⟨n, h.upTo, h.complete, h.results⟩
  · have hinit : Untouched ms db (.init db) := ⟨rfl, by simp [World.init], rfl⟩
    have h := Runs.invariant_of_reaches hinit
      (fun _ _ _ h _ hstep => step_untouched hload hdb h hstep) hreach
    exact ⟨h.db, h.results⟩

/-- A database that keeps the bodies it ran. -/
def logEngine : Engine (List String) where
  exec sql log := some (log ++ [sql])
  schemaExists log := decide (log ≠ [])
  operationsExists log := decide (log ≠ [])

def logRuntime : Runtime := ⟨fun _ => "".pushn '0' 64, fun c => [c]⟩

def packagedDirectory : List Asset :=
  [⟨"0002_worker_control.sql", false, true, some "BEGIN;\nCREATE TABLE b ();\nCOMMIT;\n".toUTF8⟩,
    ⟨"0001_gateway_repository.sql", false, true,
      some "BEGIN;\nCREATE TABLE a ();\nCOMMIT;\n".toUTF8⟩]

def packaged : List Migration :=
  [⟨1, "0001_gateway_repository.sql", "".pushn '0' 64, "CREATE TABLE a ();"⟩,
    ⟨2, "0002_worker_control.sql", "".pushn '0' 64, "CREATE TABLE b ();"⟩]

def acquired : Event :=
  .acquire ⟨some true, "deployer", "deployer", "cadplot", "off"⟩
    ⟨some false, "deployer", "deployer", "cadplot", "off"⟩ false

/-- The first runner is cut off within its second transaction, and the next one finishes. -/
theorem migrations_exact_interrupted :
    (∃ w, Runs.Reaches (step logRuntime packagedDirectory logEngine) Runs.anyEvent
        (.init ⟨[], none⟩) w ∧ w.results.length = 1 ∧
        ∃ n, UpTo logEngine packaged [] n w.db ∧ (w.results ≠ [] → n = packaged.length) ∧
          ∀ r ∈ w.results, ResultOk packaged r) ∧
      ∀ w, Runs.Reaches (step logRuntime packagedDirectory logEngine) Runs.anyEvent
        (.init ⟨["CREATE TABLE a ();"], some []⟩) w →
          w.db = ⟨["CREATE TABLE a ();"], some []⟩ ∧ w.results = [] := by
  have hload : loadMigrations logRuntime packagedDirectory = .ok packaged := by decide +kernel
  refine ⟨?_, fun w hreach => (migrations_exact hload).2 logEngine _ w ⟨.inl rfl, ?_⟩ hreach⟩
  · obtain ⟨w, hreach, hcount⟩ := Runs.exists_reaches_of_run
      (step logRuntime packagedDirectory logEngine) Runs.anyEvent (.init ⟨[], none⟩)
      (acquired :: List.replicate 8 Event.advance ++ .interrupt :: acquired ::
        List.replicate 6 Event.advance)
      (fun w => w.results.length = 1) (Runs.along_anyEvent _ _) (by decide +kernel)
    exact ⟨w, hreach, of_decide_eq_true hcount, (migrations_exact hload).1 logEngine [] w hreach⟩
  · exact fun rows hrows => .inl (Option.some.inj hrows).symm

end CadPlot.Gateway.Migrate
