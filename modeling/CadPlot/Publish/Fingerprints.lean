import CadPlot.Lib.Runs
import CadPlot.Lib.Text

/-!
# Fingerprints of files that may change

`fingerprint_file` and `read_stable_bytes`: two passes over a file, each between
two readings of its status, one system call at a time. Meanwhile other processes
write, replace, remove and redirect it. `_is_reparse` counts as one call: its two
readings of a link agree.
-/

namespace CadPlot.Publish.Fingerprints

open Runs

/-- `_stat_identity` -/
structure Identity where
  dev : Nat
  ino : Nat
  size : Nat
  modifiedNs : Nat
  deriving DecidableEq

/-- A plain file. -/
structure FileState where
  dev : Nat
  ino : Nat
  modifiedNs : Nat
  content : List UInt8
  deriving DecidableEq

/-- `path.stat()` -/
def FileState.identity (f : FileState) : Identity := ⟨f.dev, f.ino, f.content.length, f.modifiedNs⟩

/-- What is made of the bytes of a pass, the limits of the size, and the errors. -/
structure Task (δ : Type) where
  label : String
  summary : List UInt8 → δ
  limits : Option (Nat × Nat)
  unavailable : String
  changed : String

/-- `fingerprint_file` -/
def fingerprintFile (sha256 : List UInt8 → List UInt8) (label : String) : Task String where
  label := label
  summary bytes := String.ofList (Text.hex (sha256 bytes))
  limits := none
  unavailable := s!"{label} could not be fingerprinted."
  changed := s!"{label} changed while being fingerprinted."

/-- `read_stable_bytes` -/
def readStableBytes (minBytes maxBytes : Nat) (label : String) : Task (List UInt8) where
  label := label
  summary bytes := bytes
  limits := some (minBytes, maxBytes)
  unavailable := s!"{label} could not be read."
  changed := s!"{label} changed while being read."

inductive Failure where
  | refused (message : String)
  | osError
  deriving DecidableEq

/-- What a pass returns. -/
structure Pass (δ : Type) where
  summary : δ
  identity : Identity
  deriving DecidableEq

/-- Where a call is: the pass before, the status that the pass began with, what its handle belongs
to and what it has read. At the end the supplied path is resolved again, and then looked at once
more: `kept` is whether it still leads to the file. -/
inductive Stage (δ : Type) where
  | existing
  | linking
  | locating
  | checking
  | statBefore (first : Option (Pass δ))
  | opening (first : Option (Pass δ)) (before : Identity)
  | reading (first : Option (Pass δ)) (before : Identity) (dev ino : Nat) (bytes : List UInt8)
  | statAfter (first : Option (Pass δ)) (before : Identity) (bytes : List UInt8)
  | resolving (first second : Pass δ)
  | relinking (first second : Pass δ) (kept : Bool)
  | done (result : Except Failure (Pass δ))
  deriving DecidableEq

section Call

variable {δ : Type} [DecidableEq δ] (task : Task δ)

def Task.invalidLimits (task : Task δ) : Bool := task.limits.any fun x => !decide (x.1 ≤ x.2)

/-- The limits are checked before the file. -/
def Task.started (task : Task δ) : Stage δ :=
  if task.invalidLimits then .done (.error (.refused "Stable byte snapshot limits are invalid."))
  else .existing

def Task.outside (task : Task δ) (size : Nat) : Option String :=
  match task.limits with
  | none => none
  | some (minBytes, maxBytes) =>
    if minBytes ≤ size ∧ size ≤ maxBytes then none
    else
      let label := task.label
      some s!"{label} must be between {minBytes} and {maxBytes} bytes."

/-- What a read at an offset returns. A handle of a file that was replaced reads something else. -/
def readChunk (file : Option FileState) (dev ino : Nat) (bytes : List UInt8) (limit : Nat)
    (stray : List UInt8) : List UInt8 :=
  match file with
  | none => stray
  | some f =>
    if f.dev = dev ∧ f.ino = ino then (f.content.drop bytes.length).take (limit + 1) else stray

/-- The end of a pass. -/
def endPass (first : Option (Pass δ)) (before : Identity) (bytes : List UInt8) (after : Identity) :
    Stage δ :=
  if bytes.length ≠ before.size ∨ before ≠ after then .done (.error (.refused task.changed))
  else
    match first with
    | none => .statBefore (some ⟨task.summary bytes, after⟩)
    | some pass => .resolving pass ⟨task.summary bytes, after⟩

/-- The next system call, given what the path leads to, whether the supplied path is a link, whether
it leads where it led when it was resolved, how much is read and what a stray handle reads. -/
def advance (file : Option FileState) (linked direct : Bool) (limit : Nat) (stray : List UInt8) :
    Stage δ → Stage δ
  | .existing => if file = none then .locating else .linking
  | .linking =>
    let label := task.label
    if linked then .done (.error (.refused s!"{label} must not be a symlink or reparse point."))
    else .locating
  | .locating => if file = none then .done (.error .osError) else .checking
  | .checking =>
    let label := task.label
    if file = none then .done (.error (.refused s!"{label} must be a regular file."))
    else .statBefore none
  | .statBefore first =>
    match file with
    | none => .done (.error (.refused task.unavailable))
    | some f =>
      match task.outside f.content.length with
      | some error => .done (.error (.refused error))
      | none => .opening first f.identity
  | .opening first before =>
    match file with
    | none => .done (.error (.refused task.unavailable))
    | some f => .reading first before f.dev f.ino []
  | .reading first before dev ino bytes =>
    match readChunk file dev ino bytes limit stray with
    | [] => .statAfter first before bytes
    | chunk => .reading first before dev ino (bytes ++ chunk)
  | .statAfter first before bytes =>
    match file with
    | none => .done (.error (.refused task.unavailable))
    | some f => endPass task first before bytes f.identity
  | .resolving first second =>
    if file = none then .done (.error (.refused task.changed))
    else .relinking first second direct
  | .relinking first second kept =>
    if linked = true ∨ kept = false ∨ first ≠ second then .done (.error (.refused task.changed))
    else .done (.ok second)
  | .done result => .done result

end Call

section Runs

variable {δ : Type} [DecidableEq δ] (task : Task δ)

/-- What the path has led to, the present one last, and which of these it was when the first and the
last status were read. -/
structure World (δ : Type) where
  versions : List (Option FileState)
  linked : Bool
  direct : Bool
  stage : Stage δ
  firstStat : Nat
  lastStat : Nat

inductive Event where
  | change (file : Option FileState)
  | redirect (linked direct : Bool)
  | advance (limit : Nat) (stray : List UInt8)
  | fail
  deriving DecidableEq

def World.file (w : World δ) : Option FileState := w.versions.getLast?.join

def World.start (task : Task δ) (file : Option FileState) (linked direct : Bool) : World δ :=
  ⟨[file], linked, direct, task.started, 0, 0⟩

/-- The world behind a system call. -/
def World.advanced (w : World δ) (stage : Stage δ) : World δ :=
  { w with
    stage
    firstStat := match w.stage with
      | .statBefore none => w.versions.length - 1
      | _ => w.firstStat
    lastStat := match w.stage with
      | .statAfter (some _) _ _ => w.versions.length - 1
      | _ => w.lastStat }

/-- A system call that fails. Its error escapes before the passes, and behind both the path counts
as redirected. -/
def Task.failed (task : Task δ) : Stage δ → Stage δ
  | .existing | .linking | .locating | .checking => .done (.error .osError)
  | .resolving _ _ | .relinking _ _ _ => .done (.error (.refused task.changed))
  | _ => .done (.error (.refused task.unavailable))

def step (w : World δ) : Event → Option (World δ)
  | .change file => some { w with versions := w.versions ++ [file] }
  | .redirect linked direct => some { w with linked, direct }
  | .advance limit stray =>
    match w.stage with
    | .done _ => none
    | stage => some (w.advanced (advance task w.file w.linked w.direct limit stray stage))
  | .fail =>
    match w.stage with
    | .done _ => none
    | stage => some { w with stage := task.failed stage }

/-- A file that comes to the path, or is written there, has a status that none had before. -/
def Fresh (w : World δ) : Event → Prop
  | .change (some f) => ∀ g, some g ∈ w.versions → g.identity ≠ f.identity
  | _ => True

end Runs

/-! ### What a pass saw -/

section Versions

variable {versions : List (Option FileState)} {f g : FileState} {n m : Nat}

/-- No status comes back. -/
def Distinct (versions : List (Option FileState)) : Prop :=
  versions.Pairwise fun a b => ∀ f g, a = some f → b = some g → f.identity ≠ g.identity

theorem Distinct.unique (h : Distinct versions) (hn : versions[n]? = some (some f))
    (hm : versions[m]? = some (some g)) (heq : f.identity = g.identity) : n = m := by
  have hlt {n m : Nat} {f g : FileState} (hn : versions[n]? = some (some f))
      (hm : versions[m]? = some (some g)) (heq : f.identity = g.identity) : ¬n < m := by
    intro hlt
    obtain ⟨hn, hf⟩ := List.getElem?_eq_some_iff.1 hn
    obtain ⟨hm, hg⟩ := List.getElem?_eq_some_iff.1 hm
    exact List.pairwise_iff_getElem.1 h n m hn hm hlt f g hf hg heq
  have hle := hlt hn hm heq
  have hge := hlt hm hn heq.symm
  omega

theorem Distinct.append {file : Option FileState} (h : Distinct versions)
    (hfresh : ∀ f, file = some f → ∀ g, some g ∈ versions → g.identity ≠ f.identity) :
    Distinct (versions ++ [file]) := by
  refine List.pairwise_append.2 ⟨h, List.pairwise_singleton _ _, fun a ha b hb g f hg hf => ?_⟩
  obtain rfl := List.mem_singleton.1 hb
  exact hfresh f hf g (hg ▸ ha)

theorem at_append {file : Option FileState} (h : versions[n]? = some (some f)) :
    (versions ++ [file])[n]? = some (some f) := by
  rw [List.getElem?_append_left (List.getElem?_eq_some_iff.1 h).1]
  exact h

theorem at_last (h : versions.getLast?.join = some f) :
    versions[versions.length - 1]? = some (some f) := by
  rw [← List.getLast?_eq_getElem?]
  exact Option.join_eq_some_iff.1 h

end Versions

section Seen

variable {δ : Type} (task : Task δ)

/-- A pass over one version. -/
def Of (versions : List (Option FileState)) (n : Nat) (pass : Pass δ) : Prop :=
  ∃ f, versions[n]? = some (some f) ∧ pass = ⟨task.summary f.content, f.identity⟩ ∧
    task.outside f.content.length = none

/-- A pass that began with the status of one version. -/
structure Begun (versions : List (Option FileState)) (firstStat : Nat) (first : Option (Pass δ))
    (before : Identity) (n : Nat) (f : FileState) : Prop where
  found : versions[n]? = some (some f)
  identity : f.identity = before
  inside : task.outside f.content.length = none
  base : match first with
    | none => n = firstStat
    | some pass => Of task versions firstStat pass

/-- What is known at a stage. As long as the version of the first status is the last one, the bytes
are its bytes. -/
def Sees (versions : List (Option FileState)) (firstStat lastStat : Nat) : Stage δ → Prop
  | .existing | .linking | .locating | .checking | .statBefore none | .done (.error _) => True
  | .statBefore (some pass) => Of task versions firstStat pass
  | .opening first before => ∃ n f, Begun task versions firstStat first before n f
  | .reading first before dev ino bytes => ∃ n f, Begun task versions firstStat first before n f ∧
      (versions.length = n + 1 → f.dev = dev ∧ f.ino = ino ∧ bytes <+: f.content)
  | .statAfter first before bytes => ∃ n f, Begun task versions firstStat first before n f ∧
      (versions.length = n + 1 → bytes = f.content)
  | .resolving first second | .relinking first second _ =>
    Of task versions firstStat first ∧ Of task versions lastStat second
  | .done (.ok pass) => Of task versions firstStat pass ∧ Of task versions lastStat pass

variable {task} {versions : List (Option FileState)} {firstStat lastStat : Nat}

theorem started_sees : Sees task versions firstStat lastStat task.started := by
  unfold Task.started
  split <;> trivial

theorem Of.append {file : Option FileState} {n : Nat} {pass : Pass δ}
    (h : Of task versions n pass) :
    Of task (versions ++ [file]) n pass := by
  obtain ⟨f, hf, hpass, hinside⟩ := h
  exact ⟨f, at_append hf, hpass, hinside⟩

theorem Begun.append {file : Option FileState} {first : Option (Pass δ)} {before : Identity}
    {n : Nat} {f : FileState} (h : Begun task versions firstStat first before n f) :
    Begun task (versions ++ [file]) firstStat first before n f where
  found := at_append h.found
  identity := h.identity
  inside := h.inside
  base := by
    cases first with
    | none => exact h.base
    | some pass => exact Of.append h.base

theorem Begun.changed {file : Option FileState} {first : Option (Pass δ)} {before : Identity}
    {n : Nat} {f : FileState} (h : Begun task versions firstStat first before n f) :
    (versions ++ [file]).length ≠ n + 1 := by
  have hlt := (List.getElem?_eq_some_iff.1 h.found).1
  rw [List.length_append, List.length_singleton]
  omega

/-- What is known outlives a change. -/
theorem Sees.append {file : Option FileState} {stage : Stage δ}
    (h : Sees task versions firstStat lastStat stage) :
    Sees task (versions ++ [file]) firstStat lastStat stage := by
  cases stage with
  | existing | linking | locating | checking => trivial
  | statBefore first =>
    cases first with
    | none => trivial
    | some pass => exact Of.append h
  | opening first before =>
    obtain ⟨n, f, hbegun⟩ := h
    exact ⟨n, f, hbegun.append⟩
  | reading first before dev ino bytes =>
    obtain ⟨n, f, hbegun, -⟩ := h
    exact ⟨n, f, hbegun.append, fun hsame => absurd hsame hbegun.changed⟩
  | statAfter first before bytes =>
    obtain ⟨n, f, hbegun, -⟩ := h
    exact ⟨n, f, hbegun.append, fun hsame => absurd hsame hbegun.changed⟩
  | resolving first second => exact ⟨h.1.append, h.2.append⟩
  | relinking first second kept => exact ⟨h.1.append, h.2.append⟩
  | done result =>
    cases result with
    | error => trivial
    | ok pass => exact ⟨h.1.append, h.2.append⟩

/-- The version that is the last one is what the path leads to. -/
theorem Begun.file {first : Option (Pass δ)} {before : Identity} {n : Nat} {f : FileState}
    (h : Begun task versions firstStat first before n f) (hsame : versions.length = n + 1) :
    versions.getLast?.join = some f := by
  rw [List.getLast?_eq_getElem?, hsame, Nat.add_sub_cancel, h.found]
  rfl

/-- What a read appends, while the handle is that of the last version. -/
theorem readChunk_extends {f : FileState} {dev ino limit : Nat} {bytes stray : List UInt8}
    (hdev : f.dev = dev) (hino : f.ino = ino) (hbytes : bytes <+: f.content) :
    bytes ++ readChunk (some f) dev ino bytes limit stray <+: f.content ∧
      (readChunk (some f) dev ino bytes limit stray = [] → bytes = f.content) := by
  obtain ⟨rest, hrest⟩ := hbytes
  have hread : readChunk (some f) dev ino bytes limit stray = rest.take (limit + 1) := by
    rw [readChunk, if_pos ⟨hdev, hino⟩, ← hrest, List.drop_left]
  rw [hread]
  constructor
  · rw [← hrest]
    exact (List.prefix_append_right_inj bytes).2 (List.take_prefix _ _)
  · intro hnil
    have hend : rest = [] := by simpa using hnil
    rw [← hrest, hend, List.append_nil]

/-- A pass that ends saw one version, which is still the last one. -/
theorem endPass_of {versions : List (Option FileState)} {firstStat n : Nat}
    {first : Option (Pass δ)} {before : Identity} {bytes : List UInt8} {f g : FileState}
    (hdistinct : Distinct versions) (hbegun : Begun task versions firstStat first before n f)
    (hbytes : versions.length = n + 1 → bytes = f.content)
    (hlast : versions.getLast?.join = some g) (hsame : before = g.identity) :
    n = versions.length - 1 ∧ Of task versions n ⟨task.summary bytes, g.identity⟩ := by
  have hat := at_last hlast
  have hn : n = versions.length - 1 :=
    hdistinct.unique hbegun.found hat (hbegun.identity.trans hsame)
  have hlength := (List.getElem?_eq_some_iff.1 hbegun.found).1
  have hcontent := hbytes (by omega)
  exact ⟨hn, f, hbegun.found, by rw [hcontent, ← hsame, hbegun.identity], hbegun.inside⟩

end Seen

section Steps

variable {δ : Type} [DecidableEq δ] {task : Task δ} {w w' : World δ}

theorem advanced_sees (hdistinct : Distinct w.versions) (limit : Nat) (stray : List UInt8)
    (h : Sees task w.versions w.firstStat w.lastStat w.stage)
    (hw' : w' = w.advanced (advance task w.file w.linked w.direct limit stray w.stage)) :
    Sees task w'.versions w'.firstStat w'.lastStat w'.stage := by
  subst hw'
  obtain ⟨versions, linked, direct, stage, firstStat, lastStat⟩ := w
  simp only [World.advanced, World.file] at h hdistinct ⊢
  cases stage with
  | existing | linking | locating | checking =>
    simp only [advance]
    split <;> trivial
  | statBefore first =>
    simp only [advance]
    cases hfile : versions.getLast?.join with
    | none => trivial
    | some f =>
      dsimp only
      cases hinside : task.outside f.content.length with
      | some error => trivial
      | none =>
        refine ⟨versions.length - 1, f, at_last hfile, rfl, hinside, ?_⟩
        cases first with
        | none => rfl
        | some pass => exact h
  | opening first before =>
    obtain ⟨n, f, hbegun⟩ := h
    simp only [advance]
    cases hfile : versions.getLast?.join with
    | none => trivial
    | some g =>
      refine ⟨n, f, hbegun, fun hsame => ?_⟩
      obtain rfl := Option.some.inj ((hbegun.file hsame).symm.trans hfile)
      exact ⟨rfl, rfl, List.nil_prefix⟩
  | reading first before dev ino bytes =>
    obtain ⟨n, f, hbegun, hbytes⟩ := h
    simp only [advance]
    split
    · next hend =>
      refine ⟨n, f, hbegun, fun hsame => ?_⟩
      obtain ⟨hdev, hino, hprefix⟩ := hbytes hsame
      rw [hbegun.file hsame] at hend
      exact (readChunk_extends hdev hino hprefix).2 hend
    · refine ⟨n, f, hbegun, fun hsame => ?_⟩
      obtain ⟨hdev, hino, hprefix⟩ := hbytes hsame
      rw [hbegun.file hsame]
      exact ⟨hdev, hino, (readChunk_extends hdev hino hprefix).1⟩
  | statAfter first before bytes =>
    obtain ⟨n, f, hbegun, hbytes⟩ := h
    simp only [advance]
    cases hfile : versions.getLast?.join with
    | none => trivial
    | some g =>
      simp only [endPass]
      by_cases hchanged : bytes.length ≠ before.size ∨ before ≠ g.identity
      · rw [if_pos hchanged]
        trivial
      · rw [if_neg hchanged]
        obtain ⟨-, hsame⟩ := not_or.1 hchanged
        obtain ⟨hn, hof⟩ := endPass_of hdistinct hbegun hbytes hfile (not_not.1 hsame)
        have hbase := hbegun.base
        cases first with
        | none => exact hbase ▸ hof
        | some pass => exact ⟨hbase, hn ▸ hof⟩
  | resolving first second =>
    simp only [advance]
    split
    · trivial
    · exact h
  | relinking first second kept =>
    simp only [advance]
    split
    · trivial
    · next hkept =>
      have hsame : first = second := by
        by_contra hne
        exact hkept (.inr (.inr hne))
      exact ⟨hsame ▸ h.1, h.2⟩
  | done result => exact h

/-- What holds in every run. -/
structure Ran (task : Task δ) (w : World δ) : Prop where
  distinct : Distinct w.versions
  sees : Sees task w.versions w.firstStat w.lastStat w.stage

theorem step_ran {e : Event} (hfresh : Fresh w e) (hstep : step task w e = some w')
    (h : Ran task w) : Ran task w' := by
  cases e with
  | change file =>
    obtain rfl := Option.some.inj hstep
    refine ⟨h.distinct.append ?_, h.sees.append⟩
    rintro f rfl
    exact hfresh
  | redirect linked direct =>
    obtain rfl := Option.some.inj hstep
    exact ⟨h.distinct, h.sees⟩
  | advance limit stray =>
    have hw' : w' = w.advanced (advance task w.file w.linked w.direct limit stray w.stage) := by
      simp only [step] at hstep
      split at hstep
      · cases hstep
      · exact (Option.some.inj hstep).symm
    have hversions : w'.versions = w.versions := hw' ▸ rfl
    exact ⟨hversions ▸ h.distinct, advanced_sees h.distinct limit stray h.sees hw'⟩
  | fail =>
    simp only [step] at hstep
    split at hstep
    · cases hstep
    · obtain rfl := Option.some.inj hstep
      refine ⟨h.distinct, ?_⟩
      unfold Task.failed
      dsimp only
      split <;> trivial

/-- A fingerprint that is returned is that of the file which the path led to from the first reading
of the status to the last: nothing changed in between, whatever the other processes did. -/
theorem fingerprint_stable {file : Option FileState} {linked direct : Bool} {pass : Pass δ}
    (h : Reaches (step task) Fresh (.start task file linked direct) w)
    (hdone : w.stage = .done (.ok pass)) :
    w.firstStat = w.lastStat ∧ ∃ f, w.versions[w.firstStat]? = some (some f) ∧
      pass.summary = task.summary f.content ∧ pass.identity = f.identity ∧
      task.outside f.content.length = none := by
  have hstart : Ran task (.start task file linked direct) :=
    ⟨List.pairwise_singleton _ file, started_sees⟩
  have hran : Ran task w := Runs.invariant_of_reaches hstart
    (fun _ _ _ h hfresh hstep => step_ran hfresh hstep h) h
  have hsees := hran.sees
  rw [hdone] at hsees
  obtain ⟨⟨f, hf, rfl, hinside⟩, ⟨g, hg, hpass, -⟩⟩ := hsees
  have hsame : f.identity = g.identity := congrArg Pass.identity hpass
  exact ⟨hran.distinct.unique hf hg hsame, f, hf, rfl, rfl, hinside⟩

end Steps

/-! ### A file that is left alone -/

section Quiet

variable {δ : Type} [DecidableEq δ] {task : Task δ} {w w' : World δ} {f : FileState}

/-- Nothing but the call itself goes on, and its system calls succeed. -/
def Quiet (_ : World δ) : Event → Prop
  | .advance _ _ => True
  | _ => False

def passOf (task : Task δ) (f : FileState) : Pass δ := ⟨task.summary f.content, f.identity⟩

def expected (task : Task δ) (f : FileState) : Except Failure (Pass δ) :=
  if task.invalidLimits then .error (.refused "Stable byte snapshot limits are invalid.")
  else
    match task.outside f.content.length with
    | some error => .error (.refused error)
    | none => .ok (passOf task f)

/-- A pass over the file under way. -/
structure Passing (task : Task δ) (f : FileState) (first : Option (Pass δ)) (before : Identity) :
    Prop where
  before : before = f.identity
  inside : task.outside f.content.length = none
  first : ∀ pass, first = some pass → pass = passOf task f

def Calm (task : Task δ) (f : FileState) : Stage δ → Prop
  | .existing | .linking | .locating | .checking | .statBefore none => True
  | .statBefore (some pass) => pass = passOf task f
  | .opening first before => Passing task f first before
  | .reading first before dev ino bytes => Passing task f first before ∧ f.dev = dev ∧ f.ino = ino ∧
      bytes <+: f.content
  | .statAfter first before bytes => Passing task f first before ∧ bytes = f.content
  | .resolving first second => first = passOf task f ∧ second = passOf task f ∧
      task.outside f.content.length = none
  | .relinking first second kept => first = passOf task f ∧ second = passOf task f ∧
      task.outside f.content.length = none ∧ kept = true
  | .done result => result = expected task f

/-- How many system calls there are still at most behind a pass. -/
def behind (f : FileState) : Option (Pass δ) → Nat
  | none => f.content.length + 6
  | some _ => 2

/-- How many system calls there are still at most. -/
def remaining (f : FileState) : Stage δ → Nat
  | .existing => 2 * f.content.length + 14
  | .linking => 2 * f.content.length + 13
  | .locating => 2 * f.content.length + 12
  | .checking => 2 * f.content.length + 11
  | .statBefore first => behind f first + f.content.length + 4
  | .opening first _ => behind f first + f.content.length + 3
  | .reading first _ _ _ bytes => behind f first + (f.content.length - bytes.length) + 2
  | .statAfter first _ _ => behind f first + 1
  | .resolving _ _ => 2
  | .relinking _ _ _ => 1
  | .done _ => 0

/-- A system call over a file that is left alone. -/
theorem advance_calm (hlimits : task.invalidLimits = false) (limit : Nat) (stray : List UInt8)
    {stage : Stage δ} (h : Calm task f stage) (hgoing : ∀ result, stage ≠ .done result) :
    Calm task f (advance task (some f) false true limit stray stage) ∧
      remaining f (advance task (some f) false true limit stray stage) < remaining f stage := by
  cases stage with
  | existing | linking | locating => exact ⟨trivial, by simp [advance, remaining]⟩
  | checking => exact ⟨trivial, by simp [advance, remaining, behind]; omega⟩
  | statBefore first =>
    have hfirst : ∀ pass, first = some pass → pass = passOf task f := by
      rintro pass rfl
      exact h
    cases hinside : task.outside f.content.length with
    | some error =>
      simp only [advance, hinside]
      exact ⟨by simp [Calm, expected, hlimits, hinside], by simp [remaining]⟩
    | none =>
      simp only [advance, hinside]
      exact ⟨⟨rfl, hinside, hfirst⟩, by simp [remaining]⟩
  | opening first before =>
    exact ⟨⟨h, rfl, rfl, List.nil_prefix⟩, by simp [advance, remaining]⟩
  | reading first before dev ino bytes =>
    obtain ⟨hpassing, hdev, hino, hprefix⟩ := h
    obtain ⟨happend, hend⟩ :=
      @readChunk_extends f dev ino limit bytes stray hdev hino hprefix
    simp only [advance]
    split
    · next hnil =>
      refine ⟨⟨hpassing, hend hnil⟩, ?_⟩
      simp only [remaining]
      omega
    · next hsome =>
      refine ⟨⟨hpassing, hdev, hino, happend⟩, ?_⟩
      have hlength := happend.length_le
      have hpositive := List.length_pos_iff.2 hsome
      rw [List.length_append] at hlength
      simp only [remaining, List.length_append]
      omega
  | statAfter first before bytes =>
    obtain ⟨⟨rfl, hinside, hfirst⟩, rfl⟩ := h
    have hkept : ¬(f.content.length ≠ f.identity.size ∨ f.identity ≠ f.identity) := by
      simp [FileState.identity]
    simp only [advance, endPass, if_neg hkept]
    cases first with
    | none => exact ⟨rfl, by simp [remaining, behind]; omega⟩
    | some pass => exact ⟨⟨hfirst pass rfl, rfl, hinside⟩, by simp [remaining, behind]⟩
  | resolving first second =>
    exact ⟨⟨h.1, h.2.1, h.2.2, rfl⟩, by simp [advance, remaining]⟩
  | relinking first second kept =>
    obtain ⟨rfl, rfl, hinside, rfl⟩ := h
    simp [advance, Calm, remaining, expected, hlimits, hinside]
  | done result => exact absurd rfl (hgoing result)

structure Undisturbed (task : Task δ) (f : FileState) (w : World δ) : Prop where
  versions : w.versions = [some f]
  linked : w.linked = false
  direct : w.direct = true
  limits : (∀ result, w.stage ≠ .done result) → task.invalidLimits = false
  calm : Calm task f w.stage

/-- The next system call, where nothing else goes on. -/
theorem undisturbed_step (h : Undisturbed task f w) (hgoing : ∀ result, w.stage ≠ .done result)
    (limit : Nat) (stray : List UInt8) :
    ∃ w', step task w (.advance limit stray) = some w' ∧ Undisturbed task f w' ∧
      remaining f w'.stage < remaining f w.stage := by
  have hfile : w.file = some f := by
    rw [World.file, h.versions]
    rfl
  have hlimits := h.limits hgoing
  obtain ⟨hcalm, hless⟩ := advance_calm hlimits limit stray h.calm hgoing
  refine ⟨w.advanced (advance task (some f) false true limit stray w.stage), ?_,
    ⟨h.versions, h.linked, h.direct, fun _ => hlimits, hcalm⟩, hless⟩
  simp only [step, hfile, h.linked, h.direct]

omit [DecidableEq δ] in
theorem undisturbed_start : Undisturbed task f (.start task (some f) false true) := by
  refine ⟨rfl, rfl, rfl, ?_, ?_⟩
  · intro hgoing
    by_contra hinvalidLimits
    exact hgoing _ (if_pos (Bool.not_eq_false _ ▸ hinvalidLimits))
  · simp only [World.start, Task.started]
    split
    · next hinvalidLimits => exact (if_pos hinvalidLimits).symm
    · trivial

/-- Where nothing changes the file and no system call fails, every call comes nearer to the end,
and the end is the fingerprint of the file or the error about its size or about the limits. -/
theorem fingerprint_quiet (h : Reaches (step task) Quiet (.start task (some f) false true) w) :
    w.stage = .done (expected task f) ∨ ∀ limit stray, ∃ w',
      step task w (.advance limit stray) = some w' ∧
        remaining f w'.stage < remaining f w.stage := by
  have hundisturbed : Undisturbed task f w := by
    refine Runs.invariant_of_reaches undisturbed_start ?_ h
    intro w e w' hw hquiet hstep
    cases e with
    | advance limit stray =>
      have hgoing : ∀ result, w.stage ≠ .done result := by
        intro result hdone
        simp [step, hdone] at hstep
      obtain ⟨next, hnext, hundisturbed, -⟩ := undisturbed_step hw hgoing limit stray
      exact Option.some.inj (hnext.symm.trans hstep) ▸ hundisturbed
    | _ => cases hquiet
  by_cases hdone : ∃ result, w.stage = .done result
  · obtain ⟨result, hdone⟩ := hdone
    have hcalm := hundisturbed.calm
    rw [hdone] at hcalm
    exact .inl (hdone.trans (congrArg _ hcalm))
  · refine .inr fun limit stray => ?_
    obtain ⟨w', hstep, -, hless⟩ :=
      undisturbed_step hundisturbed (not_exists.1 hdone) limit stray
    exact ⟨w', hstep, hless⟩

end Quiet

section Example

def drawingFile : FileState := ⟨1, 7, 100, [65, 67, 49]⟩

def smallFile : Task (List UInt8) := readStableBytes 1 10 "File"

/-- Bytes are read one by one, up to the second reading of the status behind them. -/
def readingRun : List Event := .replicate 18 (.advance 0 [])

instance (w : World (List UInt8)) (e : Event) : Decidable (Fresh w e) :=
  match e with
  | .change none | .redirect _ _ | .advance _ _ | .fail => .isTrue trivial
  | .change (some f) =>
    decidable_of_iff (∀ file ∈ w.versions, ∀ g ∈ file, g.identity ≠ f.identity)
      ⟨fun h g hg => h _ hg g rfl, fun h _ hfile g hg => h g (hg ▸ hfile)⟩

/-- The file is replaced before the call ends. -/
theorem fingerprint_stable_replaced : ∃ w : World (List UInt8), w.versions.length = 2 ∧
    w.firstStat = w.lastStat ∧ ∃ f, w.versions[w.firstStat]? = some (some f) ∧
      f.content = [65, 67, 49] := by
  obtain ⟨w, hreach, hw⟩ := exists_reaches_of_run (step smallFile) Fresh
    (.start smallFile (some drawingFile) false true)
    (readingRun ++ [.change (some ⟨1, 8, 200, [0]⟩), .advance 0 [], .advance 0 []])
    (fun w => decide (w.versions.length = 2 ∧
      w.stage = .done (.ok ⟨[65, 67, 49], drawingFile.identity⟩)))
    (by decide +kernel) (by decide +kernel)
  obtain ⟨hlength, hdone⟩ := of_decide_eq_true hw
  obtain ⟨hsame, f, hf, hsummary, -⟩ := fingerprint_stable hreach hdone
  exact ⟨w, hlength, hsame, f, hf, hsummary.symm⟩

/-- Twenty calls over a file of three bytes. -/
theorem fingerprint_quiet_read : ∃ w : World (List UInt8),
    w.stage = .done (.ok ⟨[65, 67, 49], drawingFile.identity⟩) ∧
      (w.stage = .done (expected smallFile drawingFile) ∨ ∀ limit stray, ∃ w',
        step smallFile w (.advance limit stray) = some w' ∧
          remaining drawingFile w'.stage < remaining drawingFile w.stage) := by
  have hquiet : ∀ e ∈ readingRun ++ [.advance 0 [], .advance 0 []],
      ∀ w : World (List UInt8), Quiet w e := by
    intro e he w
    obtain rfl : e = .advance 0 [] := by simpa [readingRun] using he
    trivial
  obtain ⟨w, hreach, hw⟩ := exists_reaches_of_run (step smallFile) Quiet
    (.start smallFile (some drawingFile) false true)
    (readingRun ++ [.advance 0 [], .advance 0 []])
    (fun w => decide (w.stage = .done (.ok ⟨[65, 67, 49], drawingFile.identity⟩)))
    (along_of_forall hquiet _) (by decide +kernel)
  exact ⟨w, of_decide_eq_true hw, fingerprint_quiet hreach⟩

end Example

end CadPlot.Publish.Fingerprints
