import CadPlot.Publish.OutputTransaction

/-!
# What a commit leaves behind

A commit that returns without an error has moved every file, and one that
returns another error than that of a partial commit has moved every file back.
-/

namespace CadPlot.Publish.OutputTransaction

variable {κ : Type} {host : Host κ} {faults : Faults} {disk disk' : Disk κ}
  {es : List OutputEntry}

def OutputEntry.paths (e : OutputEntry) : String × String := (e.finalPath, e.temporaryPath)

/-- All final and temporary paths are different files. -/
structure Planned (host : Host κ) (ps : List (String × String)) : Prop where
  distinct : ps.Pairwise fun p q =>
    host.key p.1 ≠ host.key q.1 ∧ host.key p.2 ≠ host.key q.2
  apart : ∀ p ∈ ps, ∀ q ∈ ps, host.key p.1 ≠ host.key q.2

theorem Planned.tail {p : String × String} {ps : List (String × String)}
    (h : Planned host (p :: ps)) : Planned host ps where
  distinct := (List.pairwise_cons.1 h.distinct).2
  apart q hq r hr := h.apart q (List.mem_cons_of_mem _ hq) r (List.mem_cons_of_mem _ hr)

/-- What the first loop of a commit found for an entry. -/
structure Measured (host : Host κ) (disk : Disk κ) (e : OutputEntry) : Prop where
  free : disk (host.key e.finalPath) = none
  noted : ∃ content, disk (host.key e.temporaryPath) = some (.file content) ∧
    e.expectedLength = content.length ∧ e.expectedSha256 = some (host.sha256 content)

section Measuring

theorem measure_paths (index : Nat) (e : OutputEntry) :
    (measure host faults disk index e).2.paths = e.paths := by
  unfold measure
  repeat' split
  all_goals rfl

theorem measure_ok {index : Nat} {e e' : OutputEntry}
    (h : measure host faults disk index e = (none, e')) : Measured host disk e' := by
  unfold measure at h
  split at h
  · cases h
  · next hfree =>
    split at h
    · next content hcontent =>
      repeat' split at h
      all_goals cases h
      exact ⟨by simpa using hfree, content, hcontent, rfl, rfl⟩
    · cases h

theorem measure_congr {index : Nat} {e e' : OutputEntry} (hpaths : e.paths = e'.paths) :
    (measure host faults disk index e).1 = (measure host faults disk index e').1 ∧
      ((measure host faults disk index e).1 = none →
        (measure host faults disk index e).2 = (measure host faults disk index e').2) := by
  obtain ⟨final, temporary, _, _⟩ := e
  obtain ⟨final', temporary', _, _⟩ := e'
  obtain ⟨rfl, rfl⟩ := Prod.mk.inj hpaths
  unfold measure
  repeat' split
  all_goals simp_all

theorem measureAll_paths (index : Nat) (es : List OutputEntry) :
    (measureAll host faults disk index es).2.map OutputEntry.paths = es.map OutputEntry.paths := by
  induction es generalizing index with
  | nil => rfl
  | cons e es ih =>
    have he := @measure_paths κ host faults disk index e
    rw [measureAll]
    split
    · next h =>
      rw [h] at he
      simp only [List.map_cons, he]
    · next h =>
      rw [h] at he
      simp only [List.map_cons, he, ih]

theorem measureAll_ok {index : Nat} {es' : List OutputEntry}
    (h : measureAll host faults disk index es = (none, es')) :
    ∀ e ∈ es', Measured host disk e := by
  induction es generalizing index es' with
  | nil =>
    obtain rfl := (Prod.mk.inj h).2
    simp
  | cons e es ih =>
    rw [measureAll] at h
    split at h
    · cases h
    · next e' he =>
      obtain ⟨herror, rfl⟩ := Prod.mk.inj h
      rw [List.forall_mem_cons]
      exact ⟨measure_ok he, ih (Prod.ext herror rfl)⟩

/-- Nothing that an earlier call noted matters to a later one. -/
theorem measureAll_congr {index : Nat} {es es' : List OutputEntry}
    (hpaths : es.map OutputEntry.paths = es'.map OutputEntry.paths) :
    (measureAll host faults disk index es).1 = (measureAll host faults disk index es').1 ∧
      ((measureAll host faults disk index es).1 = none →
        (measureAll host faults disk index es).2 = (measureAll host faults disk index es').2) := by
  induction es generalizing index es' with
  | nil =>
    obtain rfl : es' = [] := by simpa using hpaths.symm
    exact ⟨rfl, fun _ => rfl⟩
  | cons e es ih =>
    cases es' with
    | nil => simp at hpaths
    | cons e' es' =>
      obtain ⟨he, hes⟩ := List.cons.inj hpaths
      obtain ⟨herror, hentry⟩ := @measure_congr κ host faults disk index _ _ he
      obtain ⟨hrest, hentries⟩ := @ih (index + 1) _ hes
      rw [measureAll, measureAll]
      generalize measure host faults disk index e = m at herror hentry ⊢
      generalize measure host faults disk index e' = m' at herror hentry ⊢
      obtain ⟨r, a⟩ := m
      obtain ⟨r', a'⟩ := m'
      obtain rfl : r = r' := herror
      cases r with
      | some error => simp
      | none =>
        obtain rfl : a = a' := hentry rfl
        exact ⟨hrest, fun h => congrArg (a :: ·) (hentries h)⟩

theorem measure_error {index : Nat} {e e' : OutputEntry} {error : String}
    (h : measure host faults disk index e = (some error, e')) :
    error ≠ "output_commit_partial" := by
  unfold measure at h
  repeat' split at h
  all_goals cases h
  all_goals first
    | decide
    | next fault _ => cases fault <;> decide

theorem measureAll_error {index : Nat} {es' : List OutputEntry} {error : String}
    (h : measureAll host faults disk index es = (some error, es')) :
    error ≠ "output_commit_partial" := by
  induction es generalizing index es' with
  | nil => cases h
  | cons e es ih =>
    rw [measureAll] at h
    split at h
    · next he =>
      cases h
      exact measure_error he
    · exact ih (Prod.ext (Prod.mk.inj h).1 rfl)

end Measuring

section Moving

variable [DecidableEq κ]

theorem move_eq_ok {source target : String} :
    move host disk source target = .ok disk' ↔
      ∃ content, disk (host.key source) = some (.file content) ∧
        disk (host.key target) = none ∧
        disk' = Function.update (Function.update disk (host.key source) none) (host.key target)
          (some (.file content)) := by
  unfold move
  split
  · next content hsource htarget =>
    simp only [hsource, htarget, Except.ok.injEq, true_and, Option.some.injEq, Node.file.injEq,
      exists_eq_left', eq_comm]
  · next hnot =>
    simp only [reduceCtorEq, false_iff, not_exists, not_and]
    exact fun content hsource htarget => absurd htarget (hnot content hsource)

/-- A file is moved to a name of its own. -/
theorem move_ne {source target : String} (h : move host disk source target = .ok disk') :
    host.key source ≠ host.key target := by
  obtain ⟨content, hsource, htarget, _⟩ := move_eq_ok.1 h
  intro hkey
  rw [hkey, htarget] at hsource
  cases hsource

theorem move_other {source target : String} (h : move host disk source target = .ok disk') {k : κ}
    (hsource : k ≠ host.key source) (htarget : k ≠ host.key target) : disk' k = disk k := by
  obtain ⟨_, _, _, rfl⟩ := move_eq_ok.1 h
  rw [Function.update_of_ne htarget, Function.update_of_ne hsource]

/-- Moving a file back restores the disk. -/
theorem move_back {source target : String} {disk'' : Disk κ}
    (h : move host disk source target = .ok disk')
    (hback : move host disk' target source = .ok disk'') : disk'' = disk := by
  have hne := move_ne h
  obtain ⟨content, hsource, htarget, rfl⟩ := move_eq_ok.1 h
  obtain ⟨content', hcontent, _, rfl⟩ := move_eq_ok.1 hback
  rw [Function.update_self] at hcontent
  obtain rfl : content = content' := by simpa using hcontent
  funext k
  by_cases hk : k = host.key source
  · rw [hk, Function.update_self, hsource]
  · rw [Function.update_of_ne hk]
    by_cases hk' : k = host.key target
    · rw [hk', Function.update_self, htarget]
    · rw [Function.update_of_ne hk', Function.update_of_ne hk', Function.update_of_ne hk]

/-- The temporaries of the entries are moved to their final names, one after the other. -/
def promoteAll (host : Host κ) (es : List OutputEntry) (disk : Disk κ) : Option (Disk κ) :=
  es.foldlM (fun disk e => (move host disk e.temporaryPath e.finalPath).toOption) disk

theorem toOption_eq_some {ε α : Type} {x : Except ε α} {a : α} :
    x.toOption = some a ↔ x = .ok a := by
  cases x <;> simp [Except.toOption]

theorem promoteAll_cons {e : OutputEntry} :
    promoteAll host (e :: es) disk = some disk' ↔
      ∃ d, move host disk e.temporaryPath e.finalPath = .ok d ∧
        promoteAll host es d = some disk' := by
  simp only [promoteAll, List.foldlM_cons, Option.bind_eq_bind, Option.bind_eq_some_iff,
    toOption_eq_some]

theorem promoteAll_snoc {e : OutputEntry} :
    promoteAll host (es ++ [e]) disk = some disk' ↔
      ∃ d, promoteAll host es disk = some d ∧
        move host d e.temporaryPath e.finalPath = .ok disk' := by
  simp [promoteAll, List.foldlM_append, toOption_eq_some, Option.bind_eq_some_iff]

theorem promoteAll_other (h : promoteAll host es disk = some disk') {k : κ}
    (hk : ∀ e ∈ es, k ≠ host.key e.temporaryPath ∧ k ≠ host.key e.finalPath) :
    disk' k = disk k := by
  induction es generalizing disk with
  | nil => exact congrFun (Option.some.inj h).symm k
  | cons e es ih =>
    obtain ⟨d, hmove, hrest⟩ := promoteAll_cons.1 h
    rw [List.forall_mem_cons] at hk
    rw [ih hrest hk.2, move_other hmove hk.1.1 hk.1.2]

/-- Once all are promoted, each final path holds what its temporary held. -/
theorem promoteAll_final (hplan : Planned host (es.map OutputEntry.paths))
    (h : promoteAll host es disk = some disk') :
    ∀ e ∈ es, ∃ content, disk (host.key e.temporaryPath) = some (.file content) ∧
      disk' (host.key e.finalPath) = some (.file content) := by
  induction es generalizing disk with
  | nil => simp
  | cons e es ih =>
    obtain ⟨d, hmove, hrest⟩ := promoteAll_cons.1 h
    have hfinals (e' : OutputEntry) (he' : e' ∈ es) :
        host.key e.finalPath ≠ host.key e'.temporaryPath ∧
          host.key e.finalPath ≠ host.key e'.finalPath ∧
            host.key e.temporaryPath ≠ host.key e'.temporaryPath := by
      have hmem : e'.paths ∈ es.map OutputEntry.paths := List.mem_map_of_mem he'
      have hne := (List.pairwise_cons.1 hplan.distinct).1 _ hmem
      exact ⟨hplan.apart _ List.mem_cons_self _ (List.mem_cons_of_mem _ hmem), hne⟩
    rw [List.forall_mem_cons]
    constructor
    · obtain ⟨content, hsource, _, hd⟩ := move_eq_ok.1 hmove
      refine ⟨content, hsource, ?_⟩
      rw [promoteAll_other hrest fun e' he' => ⟨(hfinals e' he').1, (hfinals e' he').2.1⟩, hd,
        Function.update_self]
    · intro e' he'
      obtain ⟨content, hsource, hfinal⟩ := ih hplan.tail hrest e' he'
      refine ⟨content, ?_, hfinal⟩
      rw [← hsource]
      exact (move_other hmove (hfinals e' he').2.2.symm (hfinals e' he').1.symm).symm

/-- What the second loop of a commit did, up to the first move that failed. -/
theorem promote_spec {n m : Nat} {fault : Option FileFault}
    (h : promote host faults n es disk = (m, fault, disk')) :
    ∃ k ≤ es.length, m = n + k ∧ promoteAll host (es.take k) disk = some disk' ∧
      (fault = none → k = es.length) := by
  induction es generalizing n disk with
  | nil =>
    obtain ⟨rfl, rfl, rfl⟩ : n = m ∧ none = fault ∧ disk = disk' := by simpa [promote] using h
    exact ⟨0, le_rfl, rfl, rfl, fun _ => rfl⟩
  | cons e es ih =>
    rw [promote] at h
    split at h
    · next f hf =>
      obtain ⟨rfl, rfl, rfl⟩ : n = m ∧ some f = fault ∧ disk = disk' := by simpa using h
      exact ⟨0, Nat.zero_le _, rfl, rfl, by simp⟩
    · split at h
      · next f hf =>
        obtain ⟨rfl, rfl, rfl⟩ : n = m ∧ some f = fault ∧ disk = disk' := by simpa using h
        exact ⟨0, Nat.zero_le _, rfl, rfl, by simp⟩
      · next d hmove =>
        obtain ⟨k, hk, rfl, hall, hfault⟩ := ih h
        refine ⟨k + 1, Nat.succ_le_succ hk, by omega, ?_, fun hf => congrArg Nat.succ (hfault hf)⟩
        rw [List.take_succ_cons, promoteAll_cons]
        exact ⟨d, hmove, hall⟩

theorem moveBack_restores {k : Nat} {e : OutputEntry} {d : Disk κ}
    (hmove : move host disk e.temporaryPath e.finalPath = .ok disk')
    (h : moveBack host faults disk' k e = some d) : d = disk := by
  unfold moveBack at h
  split at h
  · split at h
    · cases h
    · exact move_back hmove (toOption_eq_some.1 h)
  · cases h

/-- Rolling back all the way restores the disk. -/
theorem tryRollback_true {start : Disk κ} {k : Nat} (hk : k ≤ es.length)
    (hall : promoteAll host (es.take k) start = some disk)
    (h : tryRollback host faults es k disk = (true, disk')) : disk' = start := by
  induction k generalizing disk with
  | zero =>
    obtain rfl : start = disk := Option.some.inj hall
    exact (Prod.mk.inj h).2.symm
  | succ k ih =>
    rw [← List.take_append_getElem hk] at hall
    obtain ⟨d, hrest, hmove⟩ := promoteAll_snoc.1 hall
    simp only [tryRollback, List.getElem?_eq_getElem hk] at h
    split at h
    · cases h
    · next d' hd' =>
      obtain rfl := moveBack_restores hmove hd'
      exact ih (Nat.le_of_succ_le hk) hrest h

/-- A file that was just promoted is moved back, unless a fault keeps it from being so. -/
theorem moveBack_isSome {k : Nat} {e : OutputEntry} {start : Disk κ}
    (hmeasured : Measured host start e)
    (hsame : disk (host.key e.temporaryPath) = start (host.key e.temporaryPath))
    (hmove : move host disk e.temporaryPath e.finalPath = .ok disk')
    (hcheck : faults.check k = none) (hback : faults.moveBack k = none) :
    (moveBack host faults disk' k e).isSome = true := by
  have hne := move_ne hmove
  obtain ⟨content, hcontent, hlength, hsha⟩ := hmeasured.noted
  rw [← hsame] at hcontent
  obtain ⟨content', hcontent', hfree, rfl⟩ := move_eq_ok.1 hmove
  obtain rfl : content = content' := by
    rw [hcontent] at hcontent'
    simpa using hcontent'
  simp [moveBack, move, Function.update_of_ne hne, hcheck, hback, hlength, hsha, Except.toOption]

theorem tryRollback_false {start : Disk κ} {k : Nat} (hk : k ≤ es.length)
    (hplan : Planned host (es.map OutputEntry.paths))
    (hmeasured : ∀ e ∈ es, Measured host start e)
    (hall : promoteAll host (es.take k) start = some disk)
    (h : tryRollback host faults es k disk = (false, disk')) :
    ∃ i, faults.check i ≠ none ∨ faults.moveBack i ≠ none := by
  induction k generalizing disk with
  | zero => simp [tryRollback] at h
  | succ k ih =>
    rw [← List.take_append_getElem hk] at hall
    obtain ⟨d, hrest, hmove⟩ := promoteAll_snoc.1 hall
    by_contra hnone
    push Not at hnone
    have hsame : d (host.key es[k].temporaryPath) = start (host.key es[k].temporaryPath) := by
      refine promoteAll_other hrest fun e he => ?_
      obtain ⟨i, hi, rfl⟩ := List.mem_take_iff_getElem.1 he
      have hi' : i < k := by omega
      have hmem (j : Nat) (hj : j < es.length) : es[j].paths ∈ es.map OutputEntry.paths :=
        List.mem_map_of_mem (List.getElem_mem hj)
      have hpair := List.pairwise_iff_getElem.1 hplan.distinct i k (by rw [List.length_map]; omega)
        (by rw [List.length_map]; omega) hi'
      simp only [List.getElem_map] at hpair
      exact ⟨hpair.2.symm, (hplan.apart _ (hmem i (by omega)) _ (hmem k (by omega))).symm⟩
    have hback := @moveBack_isSome κ host faults _ _ _ _ _ _ (hmeasured _ (List.getElem_mem hk))
      hsame hmove (hnone k).1 (hnone k).2
    obtain ⟨d', hd'⟩ := Option.isSome_iff_exists.1 hback
    simp only [tryRollback, List.getElem?_eq_getElem hk, hd'] at h
    obtain rfl := moveBack_restores hmove hd'
    obtain ⟨i, hi⟩ := ih (Nat.le_of_succ_le hk) hrest h
    exact hi.elim (· (hnone i).1) (· (hnone i).2)

theorem deleteTemporaries_other {index : Nat} {k : κ}
    (hk : ∀ e ∈ es, k ≠ host.key e.temporaryPath) :
    deleteTemporaries host faults index es disk k = disk k := by
  induction es generalizing index disk with
  | nil => rfl
  | cons e es ih =>
    rw [List.forall_mem_cons] at hk
    rw [deleteTemporaries]
    split
    · rw [ih hk.2, Function.update_of_ne hk.1]
    · exact ih hk.2

/-- What a call of `Commit` leaves of the transaction: its paths, and more than these only if it
succeeds. -/
theorem commit_transaction (t : Transaction) :
    (commit host faults t disk).2.1.entries.map OutputEntry.paths =
        t.entries.map OutputEntry.paths ∧
      (commit host faults t disk).2.1.disposed = t.disposed ∧
      ((commit host faults t disk).1 ≠ none →
        (commit host faults t disk).2.1.committed = t.committed) := by
  have hpaths := @measureAll_paths κ host faults disk 0 t.entries
  unfold commit
  split
  · exact ⟨rfl, rfl, fun _ => rfl⟩
  · split
    · exact ⟨rfl, rfl, fun _ => rfl⟩
    · split
      · next h =>
        rw [h] at hpaths
        exact ⟨hpaths, rfl, fun _ => rfl⟩
      · next h =>
        rw [h] at hpaths
        split
        · exact ⟨hpaths, rfl, fun hne => absurd rfl hne⟩
        · exact ⟨hpaths, rfl, fun _ => rfl⟩

/-- How a call of `Commit` may end. -/
inductive Ended (host : Host κ) (faults : Faults) (t : Transaction) (disk : Disk κ) :
    Option String → Disk κ → Prop where
  /-- with an error, and the disk as it was -/
  | refused {error : String} (h : error ≠ "output_commit_partial") :
    Ended host faults t disk (some error) disk
  | promoted {es : List OutputEntry} {disk' : Disk κ}
    (hpaths : es.map OutputEntry.paths = t.entries.map OutputEntry.paths)
    (hmeasured : ∀ e ∈ es, Measured host disk e) (hall : promoteAll host es disk = some disk') :
    Ended host faults t disk none disk'
  | partly {es : List OutputEntry} {disk' : Disk κ}
    (hpaths : es.map OutputEntry.paths = t.entries.map OutputEntry.paths)
    (hmeasured : ∀ e ∈ es, Measured host disk e)
    (hfault : Planned host (t.entries.map OutputEntry.paths) →
      ∃ i, faults.check i ≠ none ∨ faults.moveBack i ≠ none) :
    Ended host faults t disk (some "output_commit_partial") disk'

theorem commit_ended (t : Transaction) :
    Ended host faults t disk (commit host faults t disk).1 (commit host faults t disk).2.2 := by
  have hpaths := @measureAll_paths κ host faults disk 0 t.entries
  unfold commit
  split
  · exact .refused (by decide)
  · split
    · exact .refused (by decide)
    · split
      · next h => exact .refused (measureAll_error h)
      · next es h =>
        rw [h] at hpaths
        have hmeasured := measureAll_ok h
        split
        · next m d hpromote =>
          obtain ⟨k, _, _, hall, hfull⟩ := promote_spec hpromote
          rw [hfull rfl, List.take_length] at hall
          exact .promoted hpaths hmeasured hall
        · next m fault d hpromote =>
          obtain ⟨k, hk, hm, hall, _⟩ := promote_spec hpromote
          obtain rfl : m = k := by omega
          have hfault : commitFault fault ≠ "output_commit_partial" := by
            cases fault <;> decide
          simp only [handlePromotionFailure]
          split
          · next hzero =>
            subst hzero
            obtain rfl : disk = d := Option.some.inj hall
            exact .refused hfault
          · split
            · next hback =>
              obtain rfl := tryRollback_true hk hall hback
              exact .refused hfault
            · next hback =>
              refine .partly hpaths hmeasured fun hplan => ?_
              exact tryRollback_false hk (hpaths ▸ hplan) hmeasured hall hback

/-- Two calls find the same where the transactions differ in what earlier calls noted. -/
theorem commit_congr {t t' : Transaction}
    (hpaths : t.entries.map OutputEntry.paths = t'.entries.map OutputEntry.paths)
    (hcommitted : t.committed = t'.committed) (hdisposed : t.disposed = t'.disposed) :
    (commit host faults t disk).1 = (commit host faults t' disk).1 ∧
      (commit host faults t disk).2.2 = (commit host faults t' disk).2.2 := by
  obtain ⟨herror, hentries⟩ := @measureAll_congr κ host faults disk 0 _ _ hpaths
  unfold commit
  rw [hcommitted, hdisposed]
  generalize measureAll host faults disk 0 t.entries = m at herror hentries
  generalize measureAll host faults disk 0 t'.entries = m' at herror hentries
  obtain ⟨r, es⟩ := m
  obtain ⟨r', es'⟩ := m'
  obtain rfl : r = r' := herror
  split
  · exact ⟨rfl, rfl⟩
  · split
    · exact ⟨rfl, rfl⟩
    · cases r with
      | some error => exact ⟨rfl, rfl⟩
      | none =>
        obtain rfl : es = es' := hentries rfl
        exact ⟨rfl, rfl⟩

end Moving

section Creating

/-- The digits of an index of at most four digits tell it from others. -/
theorem paddedIndex_injective {i j : Nat} (hi : i < 10000) (hj : j < 10000)
    (h : paddedIndex i = paddedIndex j) : i = j := by
  have hdigit : ∀ a < 10, ∀ b < 10, Nat.digitChar a = Nat.digitChar b → a = b := by decide
  simp only [paddedIndex, if_pos hi, if_pos hj, List.map_cons, List.map_nil, List.cons.injEq,
    and_true] at h
  obtain ⟨h₁, h₂, h₃, h₄⟩ := h
  have h₁ := hdigit _ (by omega) _ (by omega) h₁
  have h₂ := hdigit _ (by omega) _ (by omega) h₂
  have h₃ := hdigit _ (by omega) _ (by omega) h₃
  have h₄ := hdigit _ (by omega) _ (by omega) h₄
  omega

theorem paddedIndex_length {i : Nat} (hi : i < 10000) : (paddedIndex i).length = 4 := by
  rw [paddedIndex, if_pos hi]
  rfl

theorem fold_paddedIndex {i : Nat} (hi : i < 10000) :
    (paddedIndex i).flatMap host.upper = paddedIndex i := by
  have hdigit : ∀ a < 10, (Nat.digitChar a).isDigit = true := by decide
  have hfold : ∀ digits : List Char, (∀ c ∈ digits, c.isDigit = true) →
      digits.flatMap host.upper = digits := by
    intro digits h
    induction digits with
    | nil => rfl
    | cons c digits ih =>
      rw [List.forall_mem_cons] at h
      rw [List.flatMap_cons, host.upper_digit c h.1, ih h.2]
      rfl
  refine hfold _ fun c hc => ?_
  rw [paddedIndex, if_pos hi] at hc
  obtain ⟨n, hn, rfl⟩ := List.mem_map.1 hc
  refine hdigit n ?_
  simp only [List.mem_cons, List.not_mem_nil, or_false] at hn
  omega

/-- What `Combine` puts before a name. -/
theorem combine_prefix (root : String) : ∃ head, ∀ name, combine root name = head ++ name := by
  by_cases h : root = "" ∨ root.toList.getLast?.any (fun c => isSeparator c || c == ':') = true
  · exact ⟨root, fun name => if_pos h⟩
  · exact ⟨root ++ "\\", fun name => if_neg h⟩

theorem fold_append (table : Char → List Char) (a b : String) :
    fold table (a ++ b) = fold table a ++ fold table b := by
  simp [fold]

/-- The temporaries of different entries are different files, whatever their GUIDs. -/
theorem temporaryName_ne {root g g' : String} {i j : Nat} (hi : i < 10000) (hj : j < 10000)
    (hne : i ≠ j) :
    fold host.upper (combine root (temporaryName i g)) ≠
      fold host.upper (combine root (temporaryName j g')) := by
  obtain ⟨head, hhead⟩ := combine_prefix root
  have hname (n : Nat) (hn : n < 10000) (guid : String) :
      fold host.upper (combine root (temporaryName n guid)) =
        (fold host.upper head ++ fold host.upper ".cadplot-") ++
          (paddedIndex n ++ fold host.upper ("-" ++ guid ++ ".partial.pdf")) := by
    rw [hhead, temporaryName]
    simp only [fold_append, List.append_assoc]
    congr 2
    rw [fold, String.toList_ofList, fold_paddedIndex hn]
  rw [hname i hi, hname j hj]
  intro h
  refine hne (paddedIndex_injective hi hj ?_)
  refine (List.append_inj (List.append_cancel_left h) ?_).1
  rw [paddedIndex_length hi, paddedIndex_length hj]

/-- No new GUID makes a temporary of a final path that was given before. -/
def GuidsUnused (host : Host κ) (outputDirectory : String) (finalPaths : List (Option String)) :
    Prop :=
  ∀ root given finalPath, normalizeDirectory host outputDirectory = .ok root →
    given ∈ finalPaths → host.getFullPath (given.getD "") = .ok finalPath →
      ∀ index attempt, fold host.upper (combine root (temporaryName index
        (host.newGuid index attempt))) ≠ fold host.upper finalPath

theorem newTemporaryPath_eq {root path : String} {index attempt left : Nat}
    (h : newTemporaryPath host disk root index attempt left = some path) :
    ∃ n, path = combine root (temporaryName index (host.newGuid index n)) := by
  induction left generalizing attempt with
  | zero => cases h
  | succ left ih =>
    rw [newTemporaryPath] at h
    split at h
    · exact ⟨attempt, (Option.some.inj h).symm⟩
    · exact ih h

/-- The entries so far: their final paths differ, and each temporary carries its number. -/
structure EntriesOk (host : Host κ) (root : String) (finalPaths : List (Option String))
    (es : List OutputEntry) : Prop where
  finals : es.Pairwise fun e e' => fold host.upper e.finalPath ≠ fold host.upper e'.finalPath
  given : ∀ e ∈ es, ∃ given ∈ finalPaths, host.getFullPath (given.getD "") = .ok e.finalPath
  numbered : ∀ i (hi : i < es.length), ∃ n,
    es[i].temporaryPath = combine root (temporaryName (i + 1) (host.newGuid (i + 1) n))

theorem addEntry_ok {root : String} {finalPaths : List (Option String)} {given : Option String}
    {es' : List OutputEntry} (hes : EntriesOk host root finalPaths es) (hgiven : given ∈ finalPaths)
    (h : addEntry host disk root es given = .ok es') :
    EntriesOk host root finalPaths es' ∧ es'.length = es.length + 1 := by
  obtain ⟨finalPath, hfull, h⟩ := bind_eq_ok.1 h
  obtain ⟨_, h⟩ := ensure_bind_eq_ok.1 h
  obtain ⟨hunique, h⟩ := ensure_bind_eq_ok.1 h
  obtain ⟨_, h⟩ := ensure_bind_eq_ok.1 h
  split at h
  · cases h
  · next temporaryPath htemporary =>
    obtain rfl := pure_eq_ok.1 h
    refine ⟨⟨?_, ?_, ?_⟩, by simp⟩
    · refine List.pairwise_append.2 ⟨hes.finals, List.pairwise_singleton _ _, fun e he e' he' => ?_⟩
      obtain rfl := List.mem_singleton.1 he'
      exact of_decide_eq_true (List.all_eq_true.1 hunique e he)
    · intro e he
      rcases List.mem_append.1 he with he | he
      · exact hes.given e he
      · obtain rfl := List.mem_singleton.1 he
        exact ⟨given, hgiven, mapError_eq_ok.1 hfull⟩
    · intro i hi
      by_cases hlt : i < es.length
      · rw [List.getElem_append_left hlt]
        exact hes.numbered i hlt
      · obtain rfl : i = es.length := by
          rw [List.length_append, List.length_singleton] at hi
          omega
        rw [List.getElem_append_right le_rfl]
        simpa using newTemporaryPath_eq htemporary

theorem addEntries_ok {root : String} {finalPaths todo : List (Option String)}
    {es' : List OutputEntry} (hes : EntriesOk host root finalPaths es) (htodo : todo ⊆ finalPaths)
    (h : todo.foldlM (addEntry host disk root) es = .ok es') :
    EntriesOk host root finalPaths es' ∧ es'.length = es.length + todo.length := by
  induction todo generalizing es with
  | nil =>
    obtain rfl := pure_eq_ok.1 h
    exact ⟨hes, rfl⟩
  | cons given todo ih =>
    rw [List.foldlM_cons] at h
    obtain ⟨es₁, hadd, h⟩ := bind_eq_ok.1 h
    obtain ⟨hes₁, hlen₁⟩ := addEntry_ok hes (htodo List.mem_cons_self) hadd
    obtain ⟨hes', hlen⟩ := ih hes₁ (fun _ hg => htodo (List.mem_cons_of_mem _ hg)) h
    exact ⟨hes', by rw [hlen, hlen₁, List.length_cons]; omega⟩

theorem create_planned {outputDirectory : String} {finalPaths : List (Option String)}
    {t : Transaction} (hguids : GuidsUnused host outputDirectory finalPaths)
    (h : create host disk outputDirectory finalPaths = .ok t) :
    Planned host (t.entries.map OutputEntry.paths) := by
  obtain ⟨_, h⟩ := ensure_bind_eq_ok.1 h
  obtain ⟨hcount, h⟩ := ensure_bind_eq_ok.1 h
  obtain ⟨root, hroot, h⟩ := bind_eq_ok.1 h
  split at h
  · obtain ⟨_, h⟩ := ensure_bind_eq_ok.1 h
    obtain ⟨es, hes, h⟩ := bind_eq_ok.1 h
    obtain rfl := pure_eq_ok.1 h
    have hstart : EntriesOk host root finalPaths [] := ⟨.nil, by simp, by simp⟩
    obtain ⟨hok, hlen⟩ := addEntries_ok hstart (List.Subset.refl _) hes
    rw [Bool.and_eq_true, decide_eq_true_eq, decide_eq_true_eq] at hcount
    rw [List.length_nil, Nat.zero_add] at hlen
    refine ⟨?_, ?_⟩
    · rw [List.pairwise_map, List.pairwise_iff_getElem]
      intro i j hi hj hij
      change i < es.length at hi
      change j < es.length at hj
      refine ⟨fun hkey => ?_, fun hkey => ?_⟩
      · exact List.pairwise_iff_getElem.1 hok.finals i j hi hj hij (host.key_upper _ _ hkey)
      · obtain ⟨n, hn⟩ := hok.numbered i hi
        obtain ⟨m, hm⟩ := hok.numbered j hj
        have hfold := host.key_upper _ _ hkey
        simp only [OutputEntry.paths, hn, hm] at hfold
        exact temporaryName_ne (by omega) (by omega) (by omega) hfold
    · simp only [List.forall_mem_map]
      intro e he e' he' hkey
      obtain ⟨given, hgiven, hfull⟩ := hok.given e he
      obtain ⟨j, hj, rfl⟩ := List.getElem_of_mem he'
      obtain ⟨n, hn⟩ := hok.numbered j hj
      have hfold := host.key_upper _ _ hkey
      simp only [OutputEntry.paths, hn] at hfold
      exact hguids root given _ (mapError_eq_ok.1 hroot) hgiven hfull (j + 1) n hfold.symm
  · cases h

end Creating

variable [DecidableEq κ]

/-- What holds of every call on a transaction, over any disk and whatever fails. -/
structure Lawful (host : Host κ) (t : Transaction) (disk : Disk κ) : Prop where
  /-- success: each final path holds what its temporary held -/
  promoted : ∀ faults, (commit host faults t disk).1 = none → ∀ e ∈ t.entries,
    ∃ content, disk (host.key e.temporaryPath) = some (.file content) ∧
      (commit host faults t disk).2.2 (host.key e.finalPath) = some (.file content)
  /-- an error other than that of a partial commit: the disk is as it was -/
  restored : ∀ faults error, (commit host faults t disk).1 = some error →
    error ≠ "output_commit_partial" → (commit host faults t disk).2.2 = disk
  /-- a partial commit: something failed while moving back -/
  partly : ∀ faults, (commit host faults t disk).1 = some "output_commit_partial" →
    ∃ i, faults.check i ≠ none ∨ faults.moveBack i ≠ none
  /-- what is at a final path stays there -/
  kept : ∀ faults node, ∀ e ∈ t.entries, disk (host.key e.finalPath) = some node →
    (commit host faults t disk).2.2 (host.key e.finalPath) = some node
  disposed : ∀ faults, ∀ e ∈ t.entries,
    (dispose host faults t disk).2 (host.key e.finalPath) = disk (host.key e.finalPath)
  /-- after an error other than that of a partial commit, any call finds what it would have found
  without the failed one -/
  retried : ∀ faults error, (commit host faults t disk).1 = some error →
    error ≠ "output_commit_partial" → ∀ faults' disk',
      (commit host faults' (commit host faults t disk).2.1 disk').1 =
          (commit host faults' t disk').1 ∧
        (commit host faults' (commit host faults t disk).2.1 disk').2.2 =
          (commit host faults' t disk').2.2

theorem mem_of_paths {es es' : List OutputEntry} (h : es.map OutputEntry.paths =
    es'.map OutputEntry.paths) {e : OutputEntry} (he : e ∈ es') : ∃ e' ∈ es, e'.paths = e.paths := by
  have hmem : e.paths ∈ es.map OutputEntry.paths := h ▸ List.mem_map_of_mem he
  exact List.mem_map.1 hmem

theorem lawful_of_planned {t : Transaction} (hplan : Planned host (t.entries.map OutputEntry.paths))
    (disk : Disk κ) : Lawful host t disk where
  promoted faults herror e he := by
    have hended := @commit_ended κ host faults disk _ t
    rw [herror] at hended
    generalize (commit host faults t disk).2.2 = disk' at hended ⊢
    cases hended with
    | promoted hpaths _ hall =>
      obtain ⟨e', he', hpath⟩ := mem_of_paths hpaths he
      obtain ⟨hfinal, htemporary⟩ := Prod.mk.inj hpath
      rw [← hfinal, ← htemporary]
      exact promoteAll_final (hpaths ▸ hplan) hall e' he'
  restored faults error herror hne := by
    have hended := @commit_ended κ host faults disk _ t
    rw [herror] at hended
    generalize (commit host faults t disk).2.2 = disk' at hended ⊢
    cases hended with
    | refused => rfl
    | partly => exact absurd rfl hne
  partly faults herror := by
    have hended := @commit_ended κ host faults disk _ t
    rw [herror] at hended
    generalize (commit host faults t disk).2.2 = disk' at hended
    cases hended with
    | refused h => exact absurd rfl h
    | partly _ _ hfault => exact hfault hplan
  kept faults node e he hnode := by
    have hended := @commit_ended κ host faults disk _ t
    generalize (commit host faults t disk).1 = error at hended
    generalize (commit host faults t disk).2.2 = disk' at hended ⊢
    have hfree (es : List OutputEntry)
        (hpaths : es.map OutputEntry.paths = t.entries.map OutputEntry.paths)
        (hmeasured : ∀ e ∈ es, Measured host disk e) : False := by
      obtain ⟨e', he', hpath⟩ := mem_of_paths hpaths he
      have hnone := (hmeasured e' he').free
      rw [(Prod.mk.inj hpath).1, hnode] at hnone
      cases hnone
    cases hended with
    | refused => exact hnode
    | promoted hpaths hmeasured => exact (hfree _ hpaths hmeasured).elim
    | partly hpaths hmeasured => exact (hfree _ hpaths hmeasured).elim
  disposed faults e he := by
    unfold dispose
    split
    · rfl
    · split
      · rfl
      · exact deleteTemporaries_other fun e' he' =>
          hplan.apart _ (List.mem_map_of_mem he) _ (List.mem_map_of_mem he')
  retried faults error herror _ faults' disk' := by
    obtain ⟨hpaths, hdisposed, hcommitted⟩ :=
      @commit_transaction κ host faults disk _ t
    exact commit_congr hpaths (hcommitted (by simp [herror])) hdisposed

theorem step_planned {s s' : Transaction × Disk κ} {e : Event κ}
    (h : Planned host (s.1.entries.map OutputEntry.paths)) (hstep : step host s e = some s') :
    Planned host (s'.1.entries.map OutputEntry.paths) := by
  obtain ⟨t, disk⟩ := s
  cases e with
  | commit faults =>
    obtain rfl := Option.some.inj hstep
    rw [(commit_transaction t).1]
    exact h
  | dispose faults =>
    obtain rfl := Option.some.inj hstep
    unfold dispose
    split
    · exact h
    · split <;> exact h
  | change disk =>
    obtain rfl := Option.some.inj hstep
    exact h

/-- However a transaction is used once it is created, each call on it is lawful. -/
theorem output_transaction_lawful {disk : Disk κ} {outputDirectory : String}
    {finalPaths : List (Option String)} {t : Transaction}
    (hguids : GuidsUnused host outputDirectory finalPaths)
    (hcreate : create host disk outputDirectory finalPaths = .ok t) {s : Transaction × Disk κ}
    (hreach : Runs.Reaches (step host) Runs.anyEvent (t, disk) s) : Lawful host s.1 s.2 :=
  lawful_of_planned (@Runs.invariant_of_reaches _ _ _ _
    (fun s => Planned host (s.1.entries.map OutputEntry.paths)) _ _
    (create_planned hguids hcreate) (fun _ _ _ h _ hstep => step_planned h hstep) hreach) s.2

/-- Paths that are full already, on a file system that keeps them apart by case too. -/
def plainHost : Host String where
  upper c := [c]
  upper_digit _ _ := rfl
  key path := path
  key_upper _ _ h := h ▸ rfl
  getFullPath path := .ok path
  getPathRoot _ := "C:\\"
  sha256 bytes := toString bytes
  newGuid _ _ := "5f2b6c0d9e8a4b7c8d1e2f3a4b5c6d7e"

def plottedDisk : Disk String
  | "C:\\out" => some (.directory false)
  | _ => none

def twoSheets : List (Option String) := [some "C:\\out\\1.pdf", some "C:\\out\\2.pdf"]

def twoEntries : List OutputEntry :=
  [⟨"C:\\out\\1.pdf", "C:\\out\\.cadplot-0001-5f2b6c0d9e8a4b7c8d1e2f3a4b5c6d7e.partial.pdf", 0, none⟩,
    ⟨"C:\\out\\2.pdf", "C:\\out\\.cadplot-0002-5f2b6c0d9e8a4b7c8d1e2f3a4b5c6d7e.partial.pdf", 0,
      none⟩]

theorem output_transaction_lawful_twoSheets :
    create plainHost plottedDisk "C:\\out" twoSheets = .ok ⟨twoEntries, false, false⟩ ∧
      ∀ s, Runs.Reaches (step plainHost) Runs.anyEvent (⟨twoEntries, false, false⟩, plottedDisk) s →
        Lawful plainHost s.1 s.2 := by
  have hcreate : create plainHost plottedDisk "C:\\out" twoSheets =
      .ok ⟨twoEntries, false, false⟩ := by decide +kernel
  refine ⟨hcreate, fun s hreach => output_transaction_lawful ?_ hcreate hreach⟩
  intro root given finalPath hroot hgiven hfull index attempt heq
  obtain rfl : "C:\\out" = root := Except.ok.inj hroot
  -- the name of a temporary is longer than the two final paths
  have hlen : (fold plainHost.upper finalPath).length = 12 := by
    obtain rfl := Except.ok.inj hfull
    simp only [twoSheets, List.mem_cons, List.not_mem_nil, or_false] at hgiven
    obtain rfl | rfl := hgiven <;> rfl
  rw [← heq, combine, if_neg (by decide), temporaryName] at hlen
  simp only [fold_append, List.length_append] at hlen
  have hguid : (fold plainHost.upper (plainHost.newGuid index attempt)).length = 32 := by
    change (fold (fun c => [c]) "5f2b6c0d9e8a4b7c8d1e2f3a4b5c6d7e").length = 32
    decide +kernel
  omega

end CadPlot.Publish.OutputTransaction
