import Mathlib.Data.List.Pairwise
import CadPlot.Worker.ProjectRefs

/-!
# Project references are told apart

`ensure_project` looks for collisions while it holds the write lock, so it never
makes one; `register_project` leaves them to the constraints of the table, which
distinguish upper from lower case. Rows are never changed, so a call that has
returned finds its row again.
-/

namespace CadPlot.Worker.ProjectRefs

open Protocol Runs

section Rows

variable {platform : Platform} {rows rows' : List LocalProject} {project row : LocalProject}

def Apart (platform : Platform) (a b : LocalProject) : Prop :=
  a.inScope b = true → collides platform a b = false

/-- No two projects of one tenant and device have one alias or one root, as far as case goes. -/
def Distinct (platform : Platform) (rows : List LocalProject) : Prop :=
  rows.Pairwise (Apart platform)

theorem inScope_comm (a b : LocalProject) : a.inScope b = b.inScope a := by
  simp only [LocalProject.inScope, eq_comm]

theorem collides_comm (a b : LocalProject) :
    collides platform a b = collides platform b a := by
  simp only [collides, samePathText, eq_comm]

theorem Apart.symm {a b : LocalProject} (h : Apart platform a b) : Apart platform b a := by
  intro hscope
  rw [collides_comm]
  exact h (by rwa [inScope_comm])

/-- Rows that a table may hold: a project id has one. -/
structure Good (platform : Platform) (rows : List LocalProject) : Prop where
  distinct : Distinct platform rows
  keys : (rows.map LocalProject.projectId).Nodup

theorem Good.nil : Good platform [] := ⟨.nil, List.nodup_nil⟩

theorem Good.append (h : Good platform rows)
    (hkey : ∀ row ∈ rows, row.projectId ≠ project.projectId)
    (hapart : ∀ row ∈ rows, Apart platform row project) : Good platform (rows ++ [project]) where
  distinct := List.pairwise_append.mpr
    ⟨h.distinct, List.pairwise_singleton _ _, fun row hrow other hother =>
      List.mem_singleton.mp hother ▸ hapart row hrow⟩
  keys := by
    rw [List.map_append, List.nodup_append]
    refine ⟨h.keys, List.nodup_singleton _, fun key hold key' hnew => ?_⟩
    obtain ⟨row, hrow, rfl⟩ := List.mem_map.mp hold
    rw [List.mem_singleton.mp hnew]
    exact hkey row hrow

theorem insertProject_ok (h : insertProject rows project = some rows') :
    rows' = rows ++ [project] ∧ ∀ row ∈ rows, row.projectId ≠ project.projectId := by
  rw [insertProject] at h
  split at h
  case isTrue => cases h
  case isFalse hnone =>
    refine ⟨(Option.some.inj h).symm, fun row hrow heq => hnone ?_⟩
    rw [List.any_eq_true]
    exact ⟨row, hrow, by simp [heq]⟩

/-- The project has its row. -/
def Stored (platform : Platform) (project : LocalProject) (rows : List LocalProject) : Prop :=
  ∃ row ∈ rows, row.projectId = project.projectId ∧ row.inScope project = true ∧
    row.projectAlias = project.projectAlias ∧
    samePathText platform row.canonicalRoot project.canonicalRoot = true

theorem stored_self (h : project ∈ rows) : Stored platform project rows :=
  ⟨project, h, rfl, by simp [LocalProject.inScope], rfl, by simp [samePathText]⟩

theorem Stored.mono (h : Stored platform project rows) (hsubset : rows ⊆ rows') :
    Stored platform project rows' := by
  obtain ⟨row, hrow, hsame⟩ := h
  exact ⟨row, hsubset hrow, hsame⟩

/-- The scan accepts the rows as they are, or adds a project that collides with none. -/
theorem ensureRows_ok (h : ensureRows platform rows project = some rows') :
    Stored platform project rows' ∧ (rows' = rows ∨
      rows' = rows ++ [project] ∧ (∀ row ∈ rows, row.projectId ≠ project.projectId) ∧
        ∀ row ∈ rows, Apart platform row project) := by
  rw [ensureRows] at h
  split at h
  case isTrue => cases h
  case isFalse hscan =>
    split at h
    case h_1 exact hexact =>
      split at h
      case isFalse => cases h
      case isTrue hsame =>
        cases h
        have hmem := List.mem_of_getLast? hexact
        rw [List.mem_filter, List.mem_filter] at hmem
        simp only [Bool.and_eq_true, decide_eq_true_eq] at hsame hmem
        exact ⟨⟨exact, hmem.1.1, hmem.2, hsame.1.1, hsame.1.2, hsame.2⟩, .inl rfl⟩
    case h_2 =>
      obtain ⟨rfl, hkeys⟩ := insertProject_ok h
      refine ⟨stored_self (by simp), .inr ⟨rfl, hkeys, fun row hrow hscope => ?_⟩⟩
      rw [← Bool.not_eq_true]
      intro hcollides
      refine hscan (List.any_eq_true.mpr ⟨row, List.mem_filter.mpr ⟨hrow, ?_⟩, ?_⟩)
      · rw [hscope, Bool.or_true]
      · simp [hkeys row hrow, hcollides]

theorem Good.ensureRows (h : Good platform rows)
    (hensure : ensureRows platform rows project = some rows') :
    Good platform rows' ∧ rows <+: rows' ∧ Stored platform project rows' := by
  obtain ⟨hstored, rfl | ⟨rfl, hkeys, hapart⟩⟩ := ensureRows_ok hensure
  · exact ⟨h, List.prefix_rfl, hstored⟩
  · exact ⟨h.append hkeys hapart, List.prefix_append _ _, hstored⟩

theorem Good.eq_of_key (h : Good platform rows) {a b : LocalProject} (ha : a ∈ rows)
    (hb : b ∈ rows) (hkey : a.projectId = b.projectId) : a = b :=
  List.inj_on_of_nodup_map h.keys ha hb hkey

instance : Std.Symm (Apart platform) := ⟨fun _ _ h => h.symm⟩

/-- A collision with the project is one with its row. -/
theorem collides_stored {other : LocalProject} (halias : row.projectAlias = project.projectAlias)
    (hroot : samePathText platform row.canonicalRoot project.canonicalRoot = true) :
    collides platform other row = collides platform other project := by
  simp only [samePathText, decide_eq_true_eq] at hroot
  simp only [collides, samePathText, halias, hroot]

/-- Whoever has a row is let through, and nothing changes. -/
theorem ensureRows_stored (h : Good platform rows) (hstored : Stored platform project rows) :
    ensureRows platform rows project = some rows := by
  obtain ⟨row, hrow, hkey, hscope, halias, hroot⟩ := hstored
  have hmem : row ∈ (rows.filter fun row => row.projectId = project.projectId ||
      row.inScope project).filter fun row => row.projectId = project.projectId := by
    simp [hrow, hkey]
  rw [ensureRows, if_neg]
  · cases hexact : ((rows.filter fun row => row.projectId = project.projectId ||
        row.inScope project).filter fun row => row.projectId = project.projectId).getLast? with
    | none =>
      rw [List.getLast?_eq_none_iff.mp hexact] at hmem
      cases hmem
    | some exact =>
      have hfound := List.mem_of_getLast? hexact
      rw [List.mem_filter, List.mem_filter, decide_eq_true_eq] at hfound
      obtain rfl := h.eq_of_key hfound.1.1 hrow (hfound.2.trans hkey.symm)
      dsimp only
      rw [if_pos (by simp [hscope, halias, hroot])]
  · intro hscan
    obtain ⟨other, hother, hcollides⟩ := List.any_eq_true.mp hscan
    rw [List.mem_filter] at hother
    simp only [Bool.and_eq_true, decide_eq_true_eq, Bool.or_eq_true] at hother hcollides
    obtain ⟨hne, hcollides⟩ := hcollides
    have hinScope : other.inScope row = true := by
      have hboth := hother.2.resolve_left hne
      simp only [LocalProject.inScope, Bool.and_eq_true, decide_eq_true_eq] at hboth hscope ⊢
      exact ⟨hboth.1.trans hscope.1.symm, hboth.2.trans hscope.2.symm⟩
    have hdifferent : other ≠ row := fun heq => hne (heq ▸ hkey)
    have hapart := h.distinct.forall hother.1 hrow hdifferent hinScope
    rw [collides_stored halias hroot, hcollides] at hapart
    cases hapart

theorem resolveProject_front {directories : Directories} {reference : LocalProject}
    (hfront : rows <+: rows')
    (h : resolveProject platform directories rows project = some reference) :
    resolveProject platform directories rows' project = some reference := by
  obtain ⟨later, rfl⟩ := hfront
  obtain ⟨row, hrow, h⟩ := Option.bind_eq_some_iff.mp h
  refine Option.bind_eq_some_iff.mpr ⟨row, ?_, h⟩
  rw [List.find?_append, hrow]
  rfl

end Rows

section Steps

variable {platform : Platform} {w w' : World} {e : Event}

/-- A registration finds no row that its project collides with, unless the constraints of the table
refuse the project. -/
def clear (platform : Platform) (rows : List LocalProject) (project : LocalProject) : Bool :=
  (insertProject rows project).isNone ||
    rows.all fun row => !(row.inScope project && collides platform row project)

/-- The condition on a step: it is no registration that the check of `ensure_project` would refuse
and the constraints let through. -/
def checked (platform : Platform) (w : World) : Event → Bool
  | .write n =>
    match w.calls.get n with
    | some ⟨.register, project, .ready⟩ => clear platform w.db.committed project
    | _ => true
  | _ => true

def Checked (platform : Platform) (w : World) (e : Event) : Prop := checked platform w e = true

instance (platform : Platform) (w : World) (e : Event) : Decidable (Checked platform w e) :=
  instDecidableEqBool _ _

theorem apart_of_clear {rows rows' : List LocalProject} {project : LocalProject}
    (h : clear platform rows project = true) (hinsert : insertProject rows project = some rows') :
    ∀ row ∈ rows, Apart platform row project := by
  rw [clear, hinsert, Option.isNone_some, Bool.false_or, List.all_eq_true] at h
  intro row hrow hscope
  have hnot := h row hrow
  rw [hscope, Bool.true_and, Bool.not_eq_true'] at hnot
  exact hnot

/-- A registration that the constraints let through tells the projects apart only if it meets the
condition. -/
theorem distinct_insert_iff {rows rows' : List LocalProject} {project : LocalProject}
    (h : Distinct platform rows) (hinsert : insertProject rows project = some rows') :
    Distinct platform rows' ↔ clear platform rows project = true := by
  obtain ⟨rfl, -⟩ := insertProject_ok hinsert
  constructor
  · intro hdistinct
    have hapart := (List.pairwise_append.mp hdistinct).2.2
    rw [clear, Bool.or_eq_true, List.all_eq_true]
    refine .inr fun row hrow => ?_
    have hrow' := hapart row hrow project (List.mem_singleton.mpr rfl)
    cases hscope : row.inScope project with
    | false => rfl
    | true => rw [hrow' hscope]; rfl
  · intro hclear
    exact List.pairwise_append.mpr ⟨h, List.pairwise_singleton _ _, fun row hrow other hother =>
      List.mem_singleton.mp hother ▸ apart_of_clear hclear hinsert row hrow⟩

/-- What a step that meets the condition may do. -/
inductive Move (platform : Platform) (w : World) : World → Prop
  | idle : Move platform w w
  | called {n entry project} (h : w.calls.get n = none) :
      Move platform w { w with calls := w.calls.set n ⟨entry, project, .ready⟩ }
  | began {n project} (h : w.calls.get n = some ⟨.ensure, project, .ready⟩)
      (hfree : w.db.writer = none) :
      Move platform w ⟨⟨w.db.committed, some (n, w.db.committed)⟩,
        w.calls.set n ⟨.ensure, project, .began⟩⟩
  | ensured {n project rows rows'} (h : w.calls.get n = some ⟨.ensure, project, .began⟩)
      (hholds : w.db.writer = some (n, rows))
      (hrows : ensureRows platform rows project = some rows') :
      Move platform w ⟨⟨w.db.committed, some (n, rows')⟩,
        w.calls.set n ⟨.ensure, project, .written⟩⟩
  | registered {n project rows} (h : w.calls.get n = some ⟨.register, project, .ready⟩)
      (hfree : w.db.writer = none) (hrows : insertProject w.db.committed project = some rows)
      (hapart : ∀ row ∈ w.db.committed, Apart platform row project) :
      Move platform w ⟨⟨w.db.committed, some (n, rows)⟩,
        w.calls.set n ⟨.register, project, .written⟩⟩
  | committed {n entry project rows} (h : w.calls.get n = some ⟨entry, project, .written⟩)
      (hholds : w.db.writer = some (n, rows)) :
      Move platform w ⟨⟨rows, none⟩, w.calls.set n ⟨entry, project, .committed⟩⟩
  | resolved {n project directories} (h : w.calls.get n = some ⟨.ensure, project, .committed⟩) :
      Move platform w { w with calls := w.calls.set n ⟨.ensure, project,
        (resolveProject platform directories w.db.committed project).elim .raised
          fun reference => .returned directories reference⟩ }
  | raised {n call} (h : w.calls.get n = some call) : Move platform w (w.raise n call)

theorem move_of_writeStatement {n : Nat} {call : Call} (hok : Checked platform w (.write n))
    (hcall : w.calls.get n = some call) (h : writeStatement platform w n call = some w') :
    Move platform w w' := by
  obtain ⟨entry, project, phase⟩ := call
  unfold writeStatement at h
  dsimp only at h
  split at h
  · obtain ⟨rows, hstaged, rfl⟩ := Option.map_eq_some_iff.mp h
    cases hrows : ensureRows platform rows project with
    | none => exact .raised hcall
    | some rows' => exact .ensured hcall (Database.staged_eq.mp hstaged) hrows
  · obtain ⟨db, hacquire, rfl⟩ := Option.map_eq_some_iff.mp h
    cases hrows : insertProject w.db.committed project with
    | none => exact .raised hcall
    | some rows =>
      have hclear : clear platform w.db.committed project = true := by
        rw [Checked, checked, hcall] at hok
        exact hok
      exact .registered hcall (Database.acquire_eq hacquire).1 hrows (apart_of_clear hclear hrows)
  · cases h

theorem move_of_step (hok : Checked platform w e) (h : step platform w e = some w') :
    Move platform w w' := by
  cases e with
  | call n entry request directories =>
    rw [step] at h
    split at h
    · cases h
    · next hcall =>
      cases h
      cases validated platform directories request with
      | none => exact .idle
      | some project => exact .called hcall
  | beginImmediate n =>
    rw [step] at h
    split at h
    · next hcall =>
      obtain ⟨db, hacquire, rfl⟩ := Option.map_eq_some_iff.mp h
      obtain ⟨hfree, rfl⟩ := Database.acquire_eq hacquire
      exact .began hcall hfree
    · cases h
  | write n =>
    obtain ⟨call, hcall, hwrite⟩ := Option.bind_eq_some_iff.mp h
    exact move_of_writeStatement hok hcall hwrite
  | commit n =>
    rw [step] at h
    split at h
    · next hcall =>
      obtain ⟨db, hcommit, rfl⟩ := Option.map_eq_some_iff.mp h
      obtain ⟨rows, hholds, rfl⟩ := Database.commit_eq hcommit
      exact .committed hcall hholds
    · cases h
  | resolve n directories =>
    rw [step] at h
    split at h
    · next hcall =>
      cases h
      exact .resolved hcall
    · cases h
  | fail n =>
    rw [step] at h
    split at h
    · cases h
    · next _ hcall =>
      cases h
      exact .raised hcall
    · cases h

end Steps

section Invariant

variable {platform : Platform} {w w' : World}

/-- What a call has behind it, by how far it has come. -/
def CallSound (platform : Platform) (db : Database (List LocalProject)) (n : Nat) (call : Call) :
    Prop :=
  match call.phase with
  | .ready | .raised => True
  | .began => db.writer = some (n, db.committed)
  | .written => ∃ rows, db.writer = some (n, rows) ∧ (call.entry = .ensure →
      Stored platform call.project rows ∧
        (Stored platform call.project db.committed → rows = db.committed))
  | .committed => call.entry = .ensure → Stored platform call.project db.committed
  | .returned directories reference => Stored platform call.project db.committed ∧
      resolveProject platform directories db.committed call.project = some reference

structure Inv (platform : Platform) (w : World) : Prop where
  good : Good platform w.db.committed
  staged : ∀ n rows, w.db.writer = some (n, rows) → Good platform rows ∧ w.db.committed <+: rows
  calls : ∀ n call, w.calls.get n = some call → CallSound platform w.db n call

/-- A call stays sound while others append rows, and nobody else touches what it holds. -/
theorem CallSound.mono {db db' : Database (List LocalProject)} {n : Nat} {call : Call}
    (h : CallSound platform db n call) (hfront : db.committed <+: db'.committed)
    (hheld : ∀ rows, db.writer = some (n, rows) → db' = db) : CallSound platform db' n call := by
  obtain ⟨entry, project, phase⟩ := call
  cases phase with
  | ready => trivial
  | raised => trivial
  | began =>
    have hwriter : db.writer = some (n, db.committed) := h
    rw [hheld _ hwriter]
    exact h
  | written =>
    obtain ⟨rows, hwriter, hrows⟩ := h
    rw [hheld rows hwriter]
    exact ⟨rows, hwriter, hrows⟩
  | committed => exact fun hentry => (h hentry).mono hfront.subset
  | returned directories reference =>
    exact ⟨h.1.mono hfront.subset, resolveProject_front hfront h.2⟩

/-- The calls after a step of one of them. -/
theorem calls_set {db db' : Database (List LocalProject)} {calls : Dict Nat Call} {n : Nat}
    {call : Call} (h : ∀ k c, calls.get k = some c → CallSound platform db k c)
    (hnew : CallSound platform db' n call) (hfront : db.committed <+: db'.committed)
    (hheld : ∀ k rows, k ≠ n → db.writer = some (k, rows) → db' = db) :
    ∀ k c, (calls.set n call).get k = some c → CallSound platform db' k c := by
  intro k c hget
  by_cases hk : k = n
  · subst hk
    rw [Dict.get_set_same] at hget
    cases hget
    exact hnew
  · rw [Dict.get_set_other _ _ hk] at hget
    exact (h k c hget).mono hfront fun rows => hheld k rows hk

theorem inv_start : Inv platform .start where
  good := .nil
  staged := fun _ _ h => by cases h
  calls := fun _ _ h => by cases h

theorem Inv.move (h : Inv platform w) (hmove : Move platform w w') :
    Inv platform w' ∧ w.db.committed <+: w'.db.committed := by
  cases hmove with
  | idle => exact ⟨h, List.prefix_rfl⟩
  | called hnone =>
    exact ⟨⟨h.good, h.staged, calls_set h.calls trivial List.prefix_rfl fun _ _ _ _ => rfl⟩,
      List.prefix_rfl⟩
  | began hcall hfree =>
    refine ⟨⟨h.good, fun k rows hwriter => ?_, calls_set h.calls rfl List.prefix_rfl
      fun k rows _ hheld => ?_⟩, List.prefix_rfl⟩
    · cases hwriter
      exact ⟨h.good, List.prefix_rfl⟩
    · rw [hfree] at hheld
      cases hheld
  | @ensured n project rows rows' hcall hholds hrows =>
    have hbegan : w.db.writer = some (n, w.db.committed) := h.calls n _ hcall
    rw [hbegan] at hholds
    obtain rfl : w.db.committed = rows := congrArg Prod.snd (Option.some.inj hholds)
    obtain ⟨hgood, hfront, hstored⟩ := h.good.ensureRows hrows
    refine ⟨⟨h.good, fun k rows hwriter => ?_, calls_set h.calls ?_ List.prefix_rfl
      fun k rows hk hheld => ?_⟩, List.prefix_rfl⟩
    · cases hwriter
      exact ⟨hgood, hfront⟩
    · refine ⟨rows', rfl, fun _ => ⟨hstored, fun hbefore => ?_⟩⟩
      exact Option.some.inj (hrows.symm.trans (ensureRows_stored h.good hbefore))
    · rw [hbegan] at hheld
      cases hheld
      exact absurd rfl hk
  | @registered n project rows hcall hfree hrows hapart =>
    obtain ⟨rfl, hkeys⟩ := insertProject_ok hrows
    refine ⟨⟨h.good, fun k rows hwriter => ?_, calls_set h.calls ?_ List.prefix_rfl
      fun k rows hk hheld => ?_⟩, List.prefix_rfl⟩
    · cases hwriter
      exact ⟨h.good.append hkeys hapart, List.prefix_append _ _⟩
    · exact ⟨_, rfl, fun hentry => by cases hentry⟩
    · rw [hfree] at hheld
      cases hheld
  | @committed n entry project rows hcall hholds =>
    obtain ⟨hgood, hfront⟩ := h.staged n rows hholds
    refine ⟨⟨hgood, fun k rows' hwriter => (by cases hwriter), calls_set h.calls ?_ hfront
      fun k rows' hk hheld => ?_⟩, hfront⟩
    · intro hentry
      obtain ⟨written, hwriter, hstored⟩ := h.calls n _ hcall
      rw [hholds] at hwriter
      cases hwriter
      exact (hstored hentry).1
    · rw [hholds] at hheld
      cases hheld
      exact absurd rfl hk
  | @resolved n project directories hcall =>
    refine ⟨⟨h.good, h.staged, calls_set h.calls ?_ List.prefix_rfl fun _ _ _ _ => rfl⟩,
      List.prefix_rfl⟩
    have hstored : Stored platform project w.db.committed := h.calls n _ hcall rfl
    cases hresolve : resolveProject platform directories w.db.committed project with
    | none => trivial
    | some reference => exact ⟨hstored, hresolve⟩
  | @raised n call hcall =>
    have hfront : w.db.committed <+: (w.db.rollback n).committed := by
      rw [Database.rollback_committed]
    refine ⟨⟨?_, fun k rows hwriter => ?_, calls_set h.calls trivial hfront
      fun k rows hk hheld => ?_⟩, hfront⟩
    · exact (@Database.rollback_committed _ w.db n).symm ▸ h.good
    · have hcommitted : (w.raise n call).db.committed = w.db.committed :=
        Database.rollback_committed
      rw [hcommitted]
      exact h.staged k rows (Database.writer_of_rollback hwriter)
    · exact Database.rollback_other hheld hk

theorem inv_of_reaches {s t : World} (hs : Inv platform s)
    (hreach : Reaches (step platform) (Checked platform) s t) : Inv platform t :=
  invariant_of_reaches hs (fun _ _ _ h hok hstep => (h.move (move_of_step hok hstep)).1) hreach

/-- Rows that are committed stay. -/
theorem committed_front {s t : World} (hs : Inv platform s)
    (hreach : Reaches (step platform) (Checked platform) s t) :
    s.db.committed <+: t.db.committed :=
  rel_of_reaches (R := fun a b : World => a.db.committed <+: b.db.committed) hs
    (fun _ => List.prefix_rfl) (fun _ _ _ h h' => h.trans h')
    (fun _ _ _ h hok hstep => (h.move (move_of_step hok hstep)).1)
    (fun _ _ _ h hok hstep => (h.move (move_of_step hok hstep)).2) hreach

/-- What the statements of a call do whose project has a row. Its transaction writes nothing, and it
returns what was returned of the row before. -/
structure Repeats (platform : Platform) (t : World) (m : Nat) (project : LocalProject)
    (directories : Directories) (reference : LocalProject) : Prop where
  write : t.calls.get m = some ⟨.ensure, project, .began⟩ →
    step platform t (.write m) = some ⟨t.db, t.calls.set m ⟨.ensure, project, .written⟩⟩
  commit : t.calls.get m = some ⟨.ensure, project, .written⟩ →
    ∃ u, step platform t (.commit m) = some u ∧ u.db.committed = t.db.committed
  resolve : t.calls.get m = some ⟨.ensure, project, .committed⟩ →
    step platform t (.resolve m directories) =
      some { t with calls := t.calls.set m ⟨.ensure, project, .returned directories reference⟩ }
  returned : ∀ reference', t.calls.get m =
    some ⟨.ensure, project, .returned directories reference'⟩ → reference' = reference

theorem Inv.repeats {t : World} (h : Inv platform t) {project reference : LocalProject}
    {directories : Directories} (hstored : Stored platform project t.db.committed)
    (hresolve : resolveProject platform directories t.db.committed project = some reference)
    (m : Nat) : Repeats platform t m project directories reference where
  write hcall := by
    have hwriter : t.db.writer = some (m, t.db.committed) := h.calls m _ hcall
    rw [step, hcall, Option.bind_some, writeStatement]
    dsimp only
    rw [Database.staged_eq.mpr hwriter, Option.map_some, ensureRows_stored h.good hstored]
    dsimp only
    have hstage : t.db.stage m t.db.committed = t.db := by
      rw [Database.stage, ← hwriter]
    rw [hstage]
  commit hcall := by
    obtain ⟨rows, hwriter, hrows⟩ := h.calls m _ hcall
    obtain rfl := (hrows rfl).2 hstored
    refine ⟨⟨⟨t.db.committed, none⟩, t.calls.set m ⟨.ensure, project, .committed⟩⟩, ?_, rfl⟩
    rw [step, hcall]
    dsimp only
    rw [Database.commit, Database.staged_eq.mpr hwriter]
    rfl
  resolve hcall := by
    rw [step, hcall]
    dsimp only
    rw [hresolve]
    rfl
  returned reference' hcall := by
    obtain ⟨-, hresolve'⟩ := h.calls m _ hcall
    exact Option.some.inj (hresolve'.symm.trans hresolve)

/-- While every registration meets the condition, no two projects of a tenant and device have one
alias or one root as far as case goes, and whenever a call of `ensure_project` has returned, another
with the same project finds the rows as they should be, writes nothing and returns the same. -/
theorem references_kept (platform : Platform) {s : World}
    (h : Reaches (step platform) (Checked platform) .start s) :
    Distinct platform s.db.committed ∧
      ∀ n project directories reference,
        s.calls.get n = some ⟨.ensure, project, .returned directories reference⟩ →
        ∀ t, Reaches (step platform) (Checked platform) s t → ∀ m,
          Repeats platform t m project directories reference := by
  have hinv := inv_of_reaches inv_start h
  refine ⟨hinv.good.distinct, fun n project directories reference hcall t hreach m => ?_⟩
  obtain ⟨hstored, hresolve⟩ := hinv.calls n _ hcall
  have hfront := committed_front hinv hreach
  exact (inv_of_reaches hinv hreach).repeats (hstored.mono hfront.subset)
    (resolveProject_front hfront hresolve) m

end Invariant

section Example

/-- Texts and paths are compared by their small letters. -/
def smallLetters : Platform where
  casefold c := [c.toLower]
  normcase path := path.toLower

/-- Every path is a directory and its own canonical form. -/
def plainDirectories : Directories where
  absolute path := some path
  plain path := some path
  resolve path := some path
  isDir _ := true

def request (n : Char) (projectAlias root : String) : Request where
  tenantId := "tnt_00000000-0000-4000-8000-000000000001"
  deviceId := "ws_00000000-0000-4000-8000-000000000001"
  projectId := String.ofList ("prj_00000000-0000-4000-8000-00000000000".toList ++ [n])
  projectAlias
  root

def project (n : Char) (projectAlias root : String) : LocalProject :=
  let request := request n projectAlias root
  ⟨request.projectId, request.tenantId, request.deviceId, projectAlias, root⟩

/-- The events of a call that nobody disturbs. -/
def ensureCall (n : Nat) (request : Request) : List Event :=
  [.call n .ensure request plainDirectories, .beginImmediate n, .write n, .commit n,
    .resolve n plainDirectories]

def registerCall (n : Nat) (request : Request) : List Event :=
  [.call n .register request plainDirectories, .write n, .commit n]

/-- Whether a call of `ensure_project` has returned its own project. -/
def hasReturned (n : Nat) (project : LocalProject) (s : World) : Bool :=
  match s.calls.get n with
  | some ⟨.ensure, asked, .returned _ reference⟩ => asked = project && reference = project
  | _ => false

/-- A second project is registered behind the first, which is asked for again from then on. -/
theorem references_kept_office : ∃ s directories,
    s.db.committed = [project '1' "Office_A" "C:\\A", project '2' "Office_B" "C:\\B"] ∧
      Distinct smallLetters s.db.committed ∧ ∀ m, Repeats smallLetters s m
        (project '1' "Office_A" "C:\\A") directories (project '1' "Office_A" "C:\\A") := by
  obtain ⟨s, hreach, hs⟩ := exists_reaches_of_run (step smallLetters) (Checked smallLetters) .start
    (ensureCall 0 (request '1' "Office_A" "C:\\A") ++
      registerCall 1 (request '2' "Office_B" "C:\\B"))
    (fun s => s.db.committed = [project '1' "Office_A" "C:\\A", project '2' "Office_B" "C:\\B"] &&
      hasReturned 0 (project '1' "Office_A" "C:\\A") s)
    (by decide +kernel) (by decide +kernel)
  rw [Bool.and_eq_true, decide_eq_true_eq, hasReturned] at hs
  obtain ⟨hrows, hreturned⟩ := hs
  split at hreturned
  case h_2 => cases hreturned
  case h_1 asked directories reference hcall =>
    rw [Bool.and_eq_true, decide_eq_true_eq, decide_eq_true_eq] at hreturned
    obtain ⟨rfl, rfl⟩ := hreturned
    obtain ⟨hdistinct, hrepeats⟩ := references_kept smallLetters hreach
    exact ⟨s, directories, hrows, hdistinct, hrepeats 0 _ _ _ hcall s .refl⟩

/-- The constraints let an alias in other letters through. -/
theorem references_collide :
    ¬∀ s, Reaches (step smallLetters) anyEvent .start s → Distinct smallLetters s.db.committed := by
  intro hall
  obtain ⟨s, hreach, hrows⟩ := exists_reaches_of_run (step smallLetters) anyEvent .start
    (registerCall 0 (request '1' "Office_A" "C:\\A") ++
      registerCall 1 (request '2' "office_a" "C:\\B"))
    (fun s => s.db.committed = [project '1' "Office_A" "C:\\A", project '2' "office_a" "C:\\B"])
    (along_anyEvent _ _) (by decide +kernel)
  have hdistinct := hall s hreach
  rw [decide_eq_true_eq] at hrows
  rw [hrows] at hdistinct
  have hapart := (List.pairwise_cons.mp hdistinct).1 _ List.mem_cons_self (by decide +kernel)
  revert hapart
  decide +kernel

end Example

end CadPlot.Worker.ProjectRefs
