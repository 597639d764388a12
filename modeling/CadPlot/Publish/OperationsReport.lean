import Mathlib.Data.String.Basic
import CadPlot.Lib.Dict
import CadPlot.Lib.Paging
import CadPlot.Lib.Runs
import CadPlot.Publish.Operations
import CadPlot.Publish.PaperSizes

/-!
# The operations report: pages

`build_publish_operations_report` cuts a page from the job directories of the
workspace. A caller follows `next_after_job_id` while jobs come and go. A job
whose inspection raises takes its page along.
-/

namespace CadPlot.Publish

open Runs (Reaches anyEvent)

section Report

variable (sha256 : Bytes → Bytes) (tolerance : Rat) (script : Script)

/-- `job-\\d{8}T(?:\\d{6}|\\d{12})Z-[0-9a-f]{12}` -/
def isJobId (name : String) : Bool :=
  let isDecimal := fun c => (script.decimal c).isSome
  let date := (name.toList.drop 4).take 8
  let rest := name.toList.drop 12
  let hasTime := fun n =>
    decide (rest.length = n + 15) && decide (rest.take 1 = [ 'T']) &&
      ((rest.drop 1).take n).all isDecimal && decide ((rest.drop (n + 1)).take 2 = [ 'Z', '-']) &&
      (rest.drop (n + 3)).all Text.isLowerHex
  decide (name.toList.take 4 = [ 'j', 'o', 'b', '-']) && decide (date.length = 8) &&
    date.all isDecimal && (hasTime 6 || hasTime 12)

/-- The entries of the workspace. One that is not a directory is `none`. -/
abbrev Workspace : Type := Dict String (Option JobDirectory)

/-- The job directories, sorted by name. -/
def Workspace.jobs (workspace : Workspace) : List (String × JobDirectory) :=
  (workspace.entries.filterMap fun child =>
    if isJobId script child.1 then child.2.map (child.1, ·) else none).insertionSort
      fun a b => a.1 ≤ b.1

structure ReportPage where
  afterJobId : Option String
  limit : Int
  processed : Nat
  hasMore : Bool
  nextAfterJobId : Option String
  summary : List (JobStatus × Nat)
  items : List Item

/-- `_report_page`. Of the digest that names the page only its failure is kept: it is of the page in
UTF-8, which has no lone surrogates. -/
def reportPage (items : List Item) (afterJobId : Option String) (limit : Int) (hasMore : Bool) :
    Except String ReportPage := do
  ensure (items.all Item.encodable) "UnicodeEncodeError"
  pure
    { afterJobId
      limit
      processed := items.length
      hasMore
      nextAfterJobId := if hasMore then items.getLast?.map Item.jobId else none
      summary := reportedStatuses.map fun name =>
        (name, items.countP fun item => item.status = name)
      items }

/-- `build_publish_operations_report`. A workspace that is not there is `none`; one that is not
configured or not a plain directory is an error, and so is an exception. -/
def buildPublishOperationsReport (workspace : Except String (Option Workspace))
    (afterJobId : Option String) (limit : Int) : Except String ReportPage := do
  ensure (decide (1 ≤ limit ∧ limit ≤ 50)) "limit must be between 1 and 50."
  ensure (afterJobId.all (isJobId script)) "after_job_id must be a valid CadPlot job ID."
  match ← workspace with
  | none => reportPage [] afterJobId limit false
  | some w =>
    let jobs := (Workspace.jobs script w).filter fun job =>
      afterJobId.all fun c => decide (c < job.1)
    let selected := jobs.take limit.toNat
    let items ← selected.mapM fun job => inspectJob sha256 tolerance job.1 job.2
    reportPage items afterJobId limit (decide (selected.length < jobs.length))

/-! ### Following the pages -/

/-- The walk of a caller, with every workspace since it began. -/
structure Walk where
  workspace : Except String (Option Workspace)
  history : List (Except String (Option Workspace))
  cursor : Option String
  cursors : List String
  reported : List String
  requests : Nat
  done : Bool

def Walk.start (workspace : Except String (Option Workspace)) : Walk where
  workspace
  history := [workspace]
  cursor := none
  cursors := []
  reported := []
  requests := 0
  done := false

inductive WalkEvent where
  | change (workspace : Except String (Option Workspace))
  | request (limit : Int)

def Walk.answered (s : Walk) (page : ReportPage) : Walk :=
  { s with
    cursor := page.nextAfterJobId
    cursors := s.cursors ++ page.nextAfterJobId.toList
    reported := s.reported ++ page.items.map Item.jobId
    requests := s.requests + 1
    done := !page.hasMore }

/-- Jobs come and go at any time. A request that fails leaves the walk where it is. -/
def walkStep (s : Walk) : WalkEvent → Option Walk
  | .change workspace => some { s with workspace, history := workspace :: s.history }
  | .request limit =>
    if s.done then none
    else
      match buildPublishOperationsReport sha256 tolerance script s.workspace s.cursor limit with
      | .error _ => some s
      | .ok page => some (s.answered page)

/-! ### One page -/

def jobNames : Option Workspace → List String
  | none => []
  | some w => (Workspace.jobs script w).map Prod.fst

/-- An item names its job, and can be encoded where the texts of the job can. -/
theorem inspectJob_eq_ok {name : String} {d : JobDirectory} {item : Item}
    (h : inspectJob sha256 tolerance name d = .ok item) :
    item.jobId = name ∧ item.encodable = d.encodable := by
  unfold inspectJob at h
  split at h
  · cases h
  · cases h
    exact ⟨rfl, rfl⟩
  · split at h <;> cases h <;> exact ⟨rfl, rfl⟩

theorem jobNames_sorted (found : Option Workspace) :
    (jobNames script found).Pairwise (· < ·) := by
  cases found with
  | none => exact .nil
  | some w =>
    have hnodup : ((w.entries.filterMap fun child =>
        if isJobId script child.1 then child.2.map (child.1, ·) else none).map Prod.fst).Nodup := by
      refine List.pairwise_map.2 (List.pairwise_filterMap.2 ?_)
      refine (List.pairwise_map.1 w.nodup).imp fun {a b} hne x hx y hy => ?_
      simp only [Option.ite_none_right_eq_some, Option.map_eq_some_iff] at hx hy
      obtain ⟨-, -, -, rfl⟩ := hx
      obtain ⟨-, -, -, rfl⟩ := hy
      exact hne
    have hsorted := List.pairwise_insertionSort (fun a b : String × JobDirectory => a.1 ≤ b.1)
      (w.entries.filterMap fun child =>
        if isJobId script child.1 then child.2.map (child.1, ·) else none)
    have hdistinct := ((List.perm_insertionSort (fun a b : String × JobDirectory => a.1 ≤ b.1)
      _).map Prod.fst).nodup_iff.2 hnodup
    refine List.pairwise_map.2 ((hsorted.and (List.pairwise_map.1 hdistinct)).imp fun h => ?_)
    exact lt_of_le_of_ne h.1 h.2

theorem isJobId_of_mem {found : Option Workspace} {name : String}
    (h : name ∈ jobNames script found) : isJobId script name = true := by
  cases found with
  | none => cases h
  | some w =>
    obtain ⟨job, hjob, rfl⟩ := List.mem_map.1 h
    obtain ⟨child, -, hchild⟩ := List.mem_filterMap.1
      ((List.perm_insertionSort (fun a b : String × JobDirectory => a.1 ≤ b.1) _).mem_iff.1 hjob)
    simp only [Option.ite_none_right_eq_some, Option.map_eq_some_iff] at hchild
    obtain ⟨hid, -, -, rfl⟩ := hchild
    exact hid

/-- What a page says of the names in the workspace. -/
structure Cut (names : List String) (cursor : Option String) (limit : Nat) (page : ReportPage) :
    Prop where
  items : page.items.map Item.jobId = (Paging.remaining cursor names).take limit
  more : page.hasMore = true ↔ limit < (Paging.remaining cursor names).length
  next : page.nextAfterJobId =
    if page.hasMore then (page.items.map Item.jobId).getLast? else none

namespace Cut

variable {names : List String} {cursor : Option String} {limit : Nat} {page : ReportPage}
  (cut : Cut names cursor limit page)

include cut

theorem sorted (hnames : names.Pairwise (· < ·)) :
    (page.items.map Item.jobId).Pairwise (· < ·) := by
  rw [cut.items]
  exact (Paging.remaining_sorted cursor hnames).sublist (List.take_sublist _ _)

theorem mem : ∀ n ∈ page.items.map Item.jobId, n ∈ names ∧ Paging.After cursor n := by
  intro n hn
  rw [cut.items] at hn
  exact Paging.mem_remaining.1 (List.mem_of_mem_take hn)

theorem taken_or_above (hnames : names.Pairwise (· < ·)) {n : String} (hn : n ∈ names)
    (hafter : Paging.After cursor n) :
    n ∈ page.items.map Item.jobId ∨
      page.hasMore = true ∧ ∀ m ∈ page.items.map Item.jobId, m < n := by
  rw [cut.items, cut.more]
  exact Paging.mem_take_or_above limit (Paging.remaining_sorted cursor hnames)
    (Paging.mem_remaining.2 ⟨hn, hafter⟩)

/-- A page with more to come has a last job, and names it. -/
theorem last (hlimit : 1 ≤ limit) (hmore : page.hasMore = true) :
    ∃ c, page.nextAfterJobId = some c ∧ (page.items.map Item.jobId).getLast? = some c := by
  have hpos : page.items.map Item.jobId ≠ [] := by
    have hlen := cut.more.1 hmore
    rw [cut.items, ← List.length_pos_iff_ne_nil, List.length_take]
    omega
  rw [cut.next, if_pos hmore, List.getLast?_eq_some_getLast hpos]
  exact ⟨_, rfl, rfl⟩

end Cut

/-- Every job can be inspected, and its item be put on a page. -/
def Inspectable (found : Option Workspace) : Prop :=
  ∀ w, found = some w → ∀ job ∈ Workspace.jobs script w,
    ¬Raises sha256 tolerance job.2 ∧ job.2.encodable = true

/-- A request is answered if its limit and its cursor are accepted, the workspace is read and its
jobs can be inspected. -/
theorem report_of_found {found : Option Workspace} {cursor : Option String} {limit : Int}
    (hlimit : 1 ≤ limit ∧ limit ≤ 50) (hcursor : ∀ c, cursor = some c → isJobId script c = true)
    (hjobs : Inspectable sha256 tolerance script found) :
    ∃ page, buildPublishOperationsReport sha256 tolerance script (.ok found) cursor limit =
      .ok page := by
  have hall : cursor.all (isJobId script) = true := by
    cases cursor with
    | none => rfl
    | some c => exact hcursor c rfl
  refine (exists_congr fun page => ensure_bind_eq_ok.trans
    (and_iff_right (decide_eq_true hlimit))).2 ?_
  refine (exists_congr fun page => ensure_bind_eq_ok.trans (and_iff_right hall)).2 ?_
  cases found with
  | none => exact ⟨_, rfl⟩
  | some w =>
    have hselected : ∀ job ∈ ((Workspace.jobs script w).filter fun job =>
        cursor.all fun c => decide (c < job.1)).take limit.toNat,
        ¬Raises sha256 tolerance job.2 ∧ job.2.encodable = true := fun job hjob =>
      hjobs w rfl job (List.mem_of_mem_filter (List.mem_of_mem_take hjob))
    obtain ⟨items, hitems⟩ := exists_mapM_eq_ok.2 fun job hjob =>
      (inspectJob_ok_iff sha256 tolerance).2 (hselected job hjob).1
    have hencodable : (items.all Item.encodable) = true := by
      rw [List.all_eq_true]
      intro item hitem
      obtain ⟨job, hjob, hinspected⟩ := forall₂_mem_right (mapM_eq_ok.1 hitems) hitem
      exact (inspectJob_eq_ok sha256 tolerance hinspected).2.trans (hselected job hjob).2
    exact ⟨_, bind_eq_ok.2 ⟨some w, rfl, bind_eq_ok.2 ⟨items, hitems,
      ensure_bind_eq_ok.2 ⟨hencodable, rfl⟩⟩⟩⟩

theorem report_eq_ok {workspace : Except String (Option Workspace)} {cursor : Option String}
    {limit : Int} {page : ReportPage}
    (h : buildPublishOperationsReport sha256 tolerance script workspace cursor limit = .ok page) :
    1 ≤ limit ∧ ∃ found, workspace = .ok found ∧
      Cut (jobNames script found) cursor limit.toNat page := by
  obtain ⟨hlimit, h⟩ := ensure_bind_eq_ok.1 h
  obtain ⟨-, h⟩ := ensure_bind_eq_ok.1 h
  obtain ⟨found, hfound, hpage⟩ := bind_eq_ok.1 h
  rw [decide_eq_true_eq] at hlimit
  refine ⟨hlimit.1, found, hfound, ?_⟩
  cases found with
  | none =>
    obtain ⟨-, hpage⟩ := ensure_bind_eq_ok.1 hpage
    cases hpage
    have hnone : Paging.remaining cursor (jobNames script none) = [] := rfl
    exact ⟨by simp [hnone], by simp [hnone], by simp⟩
  | some w =>
    obtain ⟨items, hitems, hpage⟩ := bind_eq_ok.1 hpage
    obtain ⟨-, hpage⟩ := ensure_bind_eq_ok.1 hpage
    cases hpage
    have hnames : ((Workspace.jobs script w).filter fun job =>
        cursor.all fun c => decide (c < job.1)).map Prod.fst =
          Paging.remaining cursor (jobNames script (some w)) := by
      rw [Paging.remaining, jobNames, List.filter_map]
      rfl
    have hids : items.map Item.jobId =
        (((Workspace.jobs script w).filter fun job =>
          cursor.all fun c => decide (c < job.1)).take limit.toNat).map Prod.fst := by
      have hsame : List.Forall₂ (· = ·) (items.map Item.jobId)
          ((((Workspace.jobs script w).filter fun job =>
            cursor.all fun c => decide (c < job.1)).take limit.toNat).map Prod.fst) := by
        rw [List.forall₂_map_left_iff, List.forall₂_map_right_iff]
        refine (mapM_eq_ok.1 hitems).flip.imp fun item job hinspected => ?_
        exact (inspectJob_eq_ok sha256 tolerance hinspected).1
      rwa [List.forall₂_eq_eq_eq] at hsame
    refine ⟨?_, ?_, ?_⟩
    · rw [← hnames, ← List.map_take]
      exact hids
    · rw [← hnames]
      simp only [List.length_take, decide_eq_true_eq, List.length_map]
      omega
    · simp only [List.getLast?_map]

/-! ### Every walk -/

/-- A job is in every workspace that was there to be read since the walk began. -/
def Throughout (history : List (Except String (Option Workspace))) (name : String) : Prop :=
  ∀ found, .ok found ∈ history → name ∈ jobNames script found

/-- A job was in the workspace at some time of the walk. -/
def Sometime (history : List (Except String (Option Workspace))) (name : String) : Prop :=
  ∃ found, .ok found ∈ history ∧ name ∈ jobNames script found

/-- What holds after every answer. -/
structure Walked (s : Walk) : Prop where
  current : s.workspace ∈ s.history
  sorted : s.reported.Pairwise (· < ·)
  cursors : s.cursors.Sublist s.reported
  valid : ∀ c, s.cursor = some c → isJobId script c = true
  behind : s.done = false → ∀ n ∈ s.reported, ∃ c, s.cursor = some c ∧ n ≤ c
  found : ∀ n ∈ s.reported, Sometime script s.history n
  kept : ∀ n, Throughout script s.history n →
    n ∈ s.reported ∨ s.done = false ∧ Paging.After s.cursor n
  counted : s.requests ≤ s.reported.length + if s.done then 1 else 0

theorem walked_start (workspace : Except String (Option Workspace)) :
    Walked script (.start workspace) where
  current := List.mem_singleton_self _
  sorted := .nil
  cursors := .slnil
  valid _ h := nomatch h
  behind _ _ h := nomatch h
  found _ h := nomatch h
  kept _ _ := .inr ⟨rfl, fun _ h => nomatch h⟩
  counted := Nat.le_refl 0

theorem Walked.change {s : Walk} (walked : Walked script s)
    (workspace : Except String (Option Workspace)) :
    Walked script { s with workspace, history := workspace :: s.history } where
  current := List.mem_cons_self
  sorted := walked.sorted
  cursors := walked.cursors
  valid := walked.valid
  behind := walked.behind
  found n hn :=
    let ⟨found, hfound, hmem⟩ := walked.found n hn
    ⟨found, List.mem_cons_of_mem _ hfound, hmem⟩
  kept n hn := walked.kept n fun found h => hn found (List.mem_cons_of_mem _ h)
  counted := walked.counted

theorem Walked.answer {s : Walk} (walked : Walked script s) (hdone : s.done = false)
    {found : Option Workspace} (hfound : s.workspace = .ok found) {limit : Nat} (hlimit : 1 ≤ limit)
    {page : ReportPage} (cut : Cut (jobNames script found) s.cursor limit page) :
    Walked script (s.answered page) := by
  have hsorted := jobNames_sorted script found
  have hpage := cut.sorted hsorted
  have hmem : ∀ n ∈ page.items.map Item.jobId, n ∈ jobNames script found := fun n hn =>
    (cut.mem n hn).1
  refine
    { current := walked.current
      sorted := Paging.append_sorted walked.sorted hpage (walked.behind hdone) fun n hn =>
        (cut.mem n hn).2
      cursors := ?_
      valid := ?_
      behind := ?_
      found := ?_
      kept := ?_
      counted := ?_ }
  · cases hmore : page.hasMore with
    | true =>
      obtain ⟨c, hc, hpagelast⟩ := cut.last hlimit hmore
      refine walked.cursors.append ?_
      rw [hc]
      exact List.singleton_sublist.2 (List.mem_of_getLast? hpagelast)
    | false =>
      refine walked.cursors.append ?_
      rw [cut.next, if_neg (Bool.eq_false_iff.1 hmore)]
      exact List.nil_sublist _
  · intro c hc
    cases hmore : page.hasMore with
    | true =>
      obtain ⟨c', hc', hpagelast⟩ := cut.last hlimit hmore
      cases hc.symm.trans hc'
      exact isJobId_of_mem script (hmem c (List.mem_of_getLast? hpagelast))
    | false =>
      rw [Walk.answered, cut.next, if_neg (Bool.eq_false_iff.1 hmore)] at hc
      cases hc
  · intro hgoing n hn
    have hmore : page.hasMore = true := by simpa [Walk.answered] using hgoing
    obtain ⟨c, hc, hpagelast⟩ := cut.last hlimit hmore
    refine ⟨c, hc, ?_⟩
    rcases List.mem_append.1 hn with hn | hn
    · obtain ⟨b, hb, hnb⟩ := walked.behind hdone n hn
      exact hnb.trans ((cut.mem c (List.mem_of_getLast? hpagelast)).2 b hb).le
    · exact Paging.le_last hpage hpagelast n hn
  · intro n hn
    rcases List.mem_append.1 hn with hn | hn
    · exact walked.found n hn
    · exact ⟨found, hfound ▸ walked.current, hmem n hn⟩
  · intro n hn
    rcases walked.kept n hn with hreported | ⟨-, hafter⟩
    · exact .inl (List.mem_append_left _ hreported)
    · rcases cut.taken_or_above hsorted (hn found (hfound ▸ walked.current)) hafter with
        htaken | ⟨hmore, habove⟩
      · exact .inl (List.mem_append_right _ htaken)
      · obtain ⟨c, hc, hpagelast⟩ := cut.last hlimit hmore
        refine .inr ⟨by simp [Walk.answered, hmore], fun c' hc' => ?_⟩
        cases hc.symm.trans hc'
        exact habove c (List.mem_of_getLast? hpagelast)
  · have hcounted := walked.counted
    simp only [hdone, Bool.false_eq_true, if_false] at hcounted
    simp only [Walk.answered, List.length_append]
    by_cases hmore : page.hasMore = true
    · obtain ⟨c, -, hpagelast⟩ := cut.last hlimit hmore
      have hpos := List.length_pos_of_mem (List.mem_of_getLast? hpagelast)
      simp only [hmore, Bool.not_true, Bool.false_eq_true, if_false]
      omega
    · simp only [hmore, Bool.not_false, if_true]
      omega

theorem walked_of_reaches {workspace : Except String (Option Workspace)} {s : Walk}
    (h : Reaches (walkStep sha256 tolerance script) anyEvent (.start workspace) s) :
    Walked script s := by
  refine Runs.invariant_of_reaches (walked_start script workspace) ?_ h
  intro s event next walked _ hstep
  cases event with
  | change workspace =>
    cases hstep
    exact walked.change script workspace
  | request limit =>
    simp only [walkStep] at hstep
    split at hstep
    · cases hstep
    · next hdone =>
      cases hreport : buildPublishOperationsReport sha256 tolerance script s.workspace s.cursor
        limit with
      | error error =>
        rw [hreport] at hstep
        cases hstep
        exact walked
      | ok page =>
        rw [hreport] at hstep
        cases hstep
        obtain ⟨hlimit, found, hfound, cut⟩ := report_eq_ok sha256 tolerance script hreport
        exact walked.answer script (Bool.eq_false_iff.2 hdone) hfound (by omega) cut

/-- However jobs come and go during a walk, its cursors increase and no job is reported twice. When
no page is left, a job that was there all the time was reported once. A walk ends after at most one
answer more than there were jobs, and until then every request with an accepted limit is answered
while no job in the workspace raises. -/
theorem walk_reports_once {workspace : Except String (Option Workspace)} {s : Walk}
    (h : Reaches (walkStep sha256 tolerance script) anyEvent (.start workspace) s) :
    s.cursors.Pairwise (· < ·) ∧ s.reported.Nodup ∧
      (s.done = true → ∀ name, Throughout script s.history name → s.reported.count name = 1) ∧
      (∀ jobs : Finset String, (∀ name, Sometime script s.history name → name ∈ jobs) →
        s.requests ≤ jobs.card + 1) ∧
      (s.done = false → ∀ limit : Int, 1 ≤ limit → limit ≤ 50 → ∀ found, s.workspace = .ok found →
        Inspectable sha256 tolerance script found →
        ∃ page, walkStep sha256 tolerance script s (.request limit) = some (s.answered page)) := by
  have walked := walked_of_reaches sha256 tolerance script h
  have hnodup : s.reported.Nodup := walked.sorted.imp fun hlt => hlt.ne
  refine ⟨walked.sorted.sublist walked.cursors, hnodup, ?_, ?_, ?_⟩
  · intro hdone name hname
    rcases walked.kept name hname with hmem | ⟨hgoing, -⟩
    · exact List.count_eq_one_of_mem hnodup hmem
    · cases hdone.symm.trans hgoing
  · intro jobs hjobs
    have hcard := Finset.card_le_card (s := s.reported.toFinset) (t := jobs) fun name hname =>
      hjobs name (walked.found name (List.mem_toFinset.1 hname))
    rw [List.toFinset_card_of_nodup hnodup] at hcard
    have hcounted := walked.counted
    split at hcounted <;> omega
  · intro hdone limit hlow hhigh found hfound hjobs
    obtain ⟨page, hpage⟩ :=
      report_of_found sha256 tolerance script ⟨hlow, hhigh⟩ walked.valid hjobs
    exact ⟨page, by simp [walkStep, hdone, hfound, hpage]⟩

end Report

section Example

def isolatedJob : JobDirectory :=
  ⟨.error (.reported "Job manifest does not exist."), .ok none, true, false, true⟩

def twoJobs : Workspace :=
  ⟨[("job-20260102T000000Z-0123456789ab", some isolatedJob),
    ("job-20260101T000000Z-0123456789ab", some isolatedJob)], by decide⟩

def newJob : Workspace :=
  ⟨[("job-20260103T000000Z-0123456789ab", some isolatedJob),
    ("job-20260102T000000Z-0123456789ab", some isolatedJob)], by decide⟩

/-- The first job is removed and another one is created after the first page. -/
def changedWalk : List WalkEvent :=
  [.request 1, .change (.ok (some newJob)), .request 0, .request 50]

theorem walk_reports_once_changed :
    ∃ s, (s.done = true ∧ s.reported = ["job-20260101T000000Z-0123456789ab",
        "job-20260102T000000Z-0123456789ab", "job-20260103T000000Z-0123456789ab"]) ∧
      s.cursors.Pairwise (· < ·) ∧ s.reported.Nodup ∧
      (s.done = true → ∀ name, Throughout asciiScript s.history name →
        s.reported.count name = 1) ∧
      (∀ jobs : Finset String, (∀ name, Sometime asciiScript s.history name → name ∈ jobs) →
        s.requests ≤ jobs.card + 1) ∧
      (s.done = false → ∀ limit : Int, 1 ≤ limit → limit ≤ 50 → ∀ found, s.workspace = .ok found →
        Inspectable id 1 asciiScript found →
        ∃ page, walkStep id 1 asciiScript s (.request limit) = some (s.answered page)) := by
  obtain ⟨s, hreach, hlast⟩ := Runs.exists_reaches_of_run (walkStep id 1 asciiScript) anyEvent
    (.start (.ok (some twoJobs))) changedWalk
    (fun s => s.done && decide (s.reported = ["job-20260101T000000Z-0123456789ab",
      "job-20260102T000000Z-0123456789ab", "job-20260103T000000Z-0123456789ab"]))
    (Runs.along_anyEvent _ _) (by decide +kernel)
  exact ⟨s, by simpa using hlast, walk_reports_once id 1 asciiScript hreach⟩

/-- A receipt of the first job has a list for its state. -/
def blockedJobs : Workspace :=
  ⟨[("job-20260101T000000Z-0123456789ab",
      some (directoryOf (jobWith (some (receiptOf .unhashable))))),
    ("job-20260102T000000Z-0123456789ab", some isolatedJob)], by decide⟩

theorem blockedJobs_jobs : Workspace.jobs asciiScript blockedJobs =
    [("job-20260101T000000Z-0123456789ab", directoryOf (jobWith (some (receiptOf .unhashable)))),
      ("job-20260102T000000Z-0123456789ab", isolatedJob)] := by
  rfl

theorem blockedJob_raises : inspectJob id 1 "job-20260101T000000Z-0123456789ab"
    (directoryOf (jobWith (some (receiptOf .unhashable)))) = .error "TypeError" := by
  rfl

theorem blockedJobs_raise (limit : Int) :
    ∃ error, buildPublishOperationsReport id 1 asciiScript (.ok (some blockedJobs)) none limit =
      .error error := by
  cases h : buildPublishOperationsReport id 1 asciiScript (.ok (some blockedJobs)) none limit with
  | error error => exact ⟨error, rfl⟩
  | ok page =>
    obtain ⟨hlimit, h⟩ := ensure_bind_eq_ok.1 h
    obtain ⟨-, h⟩ := ensure_bind_eq_ok.1 h
    obtain ⟨_, ⟨⟩, h⟩ := bind_eq_ok.1 h
    obtain ⟨items, hitems, -⟩ := bind_eq_ok.1 h
    -- the first page begins with the first job
    obtain ⟨n, hn⟩ := Nat.exists_eq_succ_of_ne_zero (n := limit.toNat) (by
      have := (of_decide_eq_true hlimit).1
      omega)
    rw [blockedJobs_jobs, hn] at hitems
    obtain ⟨item, -, hitem, -⟩ := List.forall₂_cons_left_iff.1 (mapM_eq_ok.1 hitems)
    cases blockedJob_raises.symm.trans hitem

theorem run_blockedJobs (limits : List Int) :
    ∃ s, Runs.run (walkStep id 1 asciiScript) (.start (.ok (some blockedJobs)))
        (limits.map WalkEvent.request) = some s ∧ s.done = false ∧ s.reported = [] ∧
      Throughout asciiScript s.history "job-20260102T000000Z-0123456789ab" := by
  induction limits with
  | nil =>
    refine ⟨_, rfl, rfl, rfl, fun found hfound => ?_⟩
    cases List.mem_singleton.1 hfound
    rw [jobNames, blockedJobs_jobs]
    decide
  | cons limit limits ih =>
    obtain ⟨error, herror⟩ := blockedJobs_raise limit
    have hstep : walkStep id 1 asciiScript (.start (.ok (some blockedJobs))) (.request limit) =
        some (.start (.ok (some blockedJobs))) := by
      simp [walkStep, Walk.start, herror]
    simpa only [List.map_cons, Runs.run, hstep] using ih

/-- However often its first page is asked for, and with whatever limits, the walk does not begin,
and a job that is there all the time is not reported. -/
theorem blocked_walk_waits :
    inspectJob id 1 "job-20260101T000000Z-0123456789ab"
        (directoryOf (jobWith (some (receiptOf .unhashable)))) = .error "TypeError" ∧
      ∀ limits : List Int, ∃ s, Runs.run (walkStep id 1 asciiScript)
          (.start (.ok (some blockedJobs))) (limits.map WalkEvent.request) = some s ∧
        s.done = false ∧ s.reported = [] ∧
          Throughout asciiScript s.history "job-20260102T000000Z-0123456789ab" :=
  ⟨blockedJob_raises, run_blockedJobs⟩

end Example

end CadPlot.Publish
