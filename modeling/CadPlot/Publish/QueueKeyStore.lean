import Mathlib.Logic.Function.Basic
import CadPlot.Lib.Outcome
import CadPlot.Lib.Runs
import CadPlot.Lib.Text

/-!
# The key of the queue

`PublishQueueKeyStore.LoadOrCreate` reads the key of the queue, or makes one
first. Any number of processes do so at once, and each may fail or end at any
time. What is written becomes the key by a move that never replaces a file, so
all of them return the same key, and no reader sees a part of it.
-/

namespace CadPlot.Publish

open Runs (Reaches anyEvent)

namespace PublishQueueKeyStore

/-- `WindowsDataProtection` with the entropy of the queue. What is protected depends on chance. -/
structure DataProtection where
  protect : Nat → List UInt8 → List UInt8
  unprotect : List UInt8 → Except String (List UInt8)

def header : List UInt8 := Text.utf8 "CADPLOT_QUEUE_KEY_V1\n".toList

def checkLength (length : Nat) : Except String Unit :=
  ensure (decide ¬(length ≤ header.length ∨ 8192 < length)) "queue_auth_key_size_invalid"

/-- A call of `LoadOrCreate`. Of an error only the codes of `InvalidDataException` and of
`EndOfStreamException` are kept. -/
inductive Phase where
  | idle
  | creating
  | writing (payload : List UInt8)
  | written (payload : List UInt8)
  | cleaning (ioException : Bool)
  | rechecking
  | opening
  | reading (length : Nat) (payload : List UInt8)
  | returned (key : List UInt8)
  | failed (code : Option String)
  | lost
  deriving DecidableEq

/-- A call with its temporary file, whose name no other call has. -/
structure Caller where
  temporary : Option (List UInt8)
  phase : Phase

inductive Action where
  | call
  | create (chance : Nat) (raw : List UInt8)
  | write (count : Nat)
  | flush
  | move
  | clean (deleted : Bool)
  | recheck
  | open
  | read (count : Nat)
  | finish
  | fault (ioException : Bool)
  | crash
  deriving DecidableEq

section Step

variable (dpapi : DataProtection)

/-- The part of `Read` after the bytes have been read. -/
def decode (payload : List UInt8) : Except String (List UInt8) := do
  ensure (decide (payload.take header.length = header)) "queue_auth_key_header_invalid"
  let raw ← dpapi.unprotect (payload.drop header.length)
  ensure (decide (raw.length = 32)) "queue_auth_key_material_invalid"
  pure raw

/-- What a call does next, with the key file: the key file and the call after it. -/
def act (action : Action) (key : Option (List UInt8)) (c : Caller) :
    Option (Option (List UInt8) × Caller) :=
  match c.phase, action with
  | .idle, .call => some (key, { c with phase := if key.isSome then .opening else .creating })
  | .creating, .create chance raw =>
    if raw.length = 32 then some (key, ⟨some [], .writing (header ++ dpapi.protect chance raw)⟩)
    else none
  | .creating, .fault io => some (key, { c with phase := .cleaning io })
  | .writing payload, .write count =>
    some (key, { c with temporary := c.temporary.map fun t => payload.take (t.length + count) })
  | .writing payload, .flush =>
    if c.temporary = some payload then some (key, { c with phase := .written payload }) else none
  | .writing _, .fault io => some (key, { c with phase := .cleaning io })
  | .written _, .move =>
    match key, c.temporary with
    | none, some payload => some (some payload, ⟨none, .opening⟩)
    | _, _ => some (key, { c with phase := .cleaning true })
  | .written _, .fault io => some (key, { c with phase := .cleaning io })
  | .cleaning io, .clean deleted =>
    some (key, ⟨if deleted then none else c.temporary, if io then .rechecking else .failed none⟩)
  | .rechecking, .recheck =>
    some (key, { c with phase := if key.isSome then .opening else .failed none })
  | .opening, .open =>
    match key with
    | none => some (key, { c with phase := .failed none })
    | some payload =>
      match checkLength payload.length with
      | .error e => some (key, { c with phase := .failed (some e) })
      | .ok _ => some (key, { c with phase := .reading payload.length [] })
  | .opening, .fault _ => some (key, { c with phase := .failed none })
  | .reading length payload, .read count =>
    if payload.length < length ∧ 0 < count then
      let chunk := ((key.getD []).drop payload.length).take (min count (length - payload.length))
      some (key, { c with
        phase := if chunk = [] then .failed (some "queue_auth_key_truncated")
          else .reading length (payload ++ chunk) })
    else none
  | .reading length payload, .finish =>
    if payload.length < length then none
    else
      match decode dpapi payload with
      | .error e => some (key, { c with phase := .failed (some e) })
      | .ok raw => some (key, { c with phase := .returned raw })
  | .reading _ _, .fault _ => some (key, { c with phase := .failed none })
  | .returned _, .crash => none
  | .failed _, .crash => none
  | .lost, .crash => none
  | _, .crash => some (key, { c with phase := .lost })
  | _, _ => none

structure KeyStore where
  key : Option (List UInt8)
  callers : Nat → Caller

def start : KeyStore := ⟨none, fun _ => ⟨none, .idle⟩⟩

/-- A call does something while the others wait. -/
def step (s : KeyStore) (event : Nat × Action) : Option KeyStore :=
  match act dpapi event.2 s.key (s.callers event.1) with
  | none => none
  | some (key, c) => some ⟨key, Function.update s.callers event.1 c⟩

end Step

/-! ### What every call relies on -/

/-- What is protected is not too long for the key file, and comes back. -/
structure DataProtection.Lossless (dpapi : DataProtection) : Prop where
  unprotect : ∀ chance raw, raw.length = 32 → dpapi.unprotect (dpapi.protect chance raw) = .ok raw
  length : ∀ chance raw, raw.length = 32 → 0 < (dpapi.protect chance raw).length ∧
    header.length + (dpapi.protect chance raw).length ≤ 8192

variable {dpapi : DataProtection}

/-- A whole key file. -/
def Whole (dpapi : DataProtection) (payload : List UInt8) : Prop :=
  ∃ chance raw, raw.length = 32 ∧ payload = header ++ dpapi.protect chance raw

/-- What is so of the key file and of a call, at any time. -/
def Held (dpapi : DataProtection) (key : Option (List UInt8)) (c : Caller) : Prop :=
  match c.phase with
  | .writing payload => Whole dpapi payload
  | .written payload => Whole dpapi payload ∧ c.temporary = some payload
  | .opening => ∃ payload, key = some payload
  | .reading length data => ∃ payload, key = some payload ∧ length = payload.length ∧
      data = payload.take data.length ∧ data.length ≤ length
  | .returned raw =>
    raw.length = 32 ∧ ∃ payload, key = some payload ∧ decode dpapi payload = .ok raw
  | .failed code => code = none
  | _ => True

structure Sound (dpapi : DataProtection) (s : KeyStore) : Prop where
  whole : ∀ payload, s.key = some payload → Whole dpapi payload
  held : ∀ i, Held dpapi s.key (s.callers i)

theorem decode_whole (h : dpapi.Lossless) {payload : List UInt8} (hpayload : Whole dpapi payload) :
    ∃ raw, decode dpapi payload = .ok raw ∧ raw.length = 32 := by
  obtain ⟨chance, raw, hraw, rfl⟩ := hpayload
  refine ⟨raw, ensure_bind_eq_ok.2 ⟨decide_eq_true List.take_left, ?_⟩, hraw⟩
  rw [List.drop_left]
  exact bind_eq_ok.2 ⟨raw, h.unprotect chance raw hraw,
    ensure_bind_eq_ok.2 ⟨decide_eq_true hraw, rfl⟩⟩

theorem checkLength_whole (h : dpapi.Lossless) {payload : List UInt8}
    (hpayload : Whole dpapi payload) : checkLength payload.length = .ok () := by
  obtain ⟨chance, raw, hraw, rfl⟩ := hpayload
  obtain ⟨hpos, hle⟩ := h.length chance raw hraw
  refine ensure_eq_ok.2 (decide_eq_true ?_)
  rw [List.length_append]
  omega

/-- A key that appears takes nothing from the calls that go on. -/
theorem held_of_none {payload : List UInt8} {c : Caller} (h : Held dpapi none c) :
    Held dpapi (some payload) c := by
  unfold Held at h ⊢
  cases hphase : c.phase with
  | opening =>
    rw [hphase] at h
    obtain ⟨_, hnone⟩ := h
    cases hnone
  | reading =>
    rw [hphase] at h
    obtain ⟨_, hnone, -⟩ := h
    cases hnone
  | returned =>
    rw [hphase] at h
    obtain ⟨-, _, hnone, -⟩ := h
    cases hnone
  | _ =>
    rw [hphase] at h
    exact h

/-- What a call may do to the key file. -/
def Kept (dpapi : DataProtection) (key key' : Option (List UInt8)) : Prop :=
  key' = key ∨ (key = none ∧ ∃ payload, key' = some payload ∧ Whole dpapi payload)

theorem held_opening {key : Option (List UInt8)} {c : Caller} (other : Phase)
    (hother : ∀ temporary, Held dpapi key ⟨temporary, other⟩) :
    Held dpapi key { c with phase := if key.isSome then .opening else other } := by
  cases key with
  | none => exact hother c.temporary
  | some payload => exact ⟨payload, rfl⟩

/-- A read of what is left goes on where the last one stopped. -/
theorem read_more {payload data : List UInt8} {count : Nat}
    (hdata : data = payload.take data.length) (hmore : data.length < payload.length)
    (hcount : 0 < count) :
    let chunk := (payload.drop data.length).take (min count (payload.length - data.length))
    chunk ≠ [] ∧ data ++ chunk = payload.take (data ++ chunk).length ∧
      (data ++ chunk).length ≤ payload.length := by
  intro chunk
  have hlength : chunk.length = min count (payload.length - data.length) := by
    rw [List.length_take, List.length_drop]
    omega
  have hjoined : data ++ chunk = payload.take (data ++ chunk).length := by
    rw [List.length_append, hlength, List.take_add, ← hdata]
  refine ⟨fun hnil => ?_, hjoined, ?_⟩
  · rw [hnil, List.length_nil] at hlength
    omega
  · rw [List.length_append, hlength]
    omega

/-- Whatever a call does, it keeps a whole key file and what it relies on. -/
theorem act_held (h : dpapi.Lossless) {action : Action} {key key' : Option (List UInt8)}
    {c c' : Caller} (hkey : ∀ payload, key = some payload → Whole dpapi payload)
    (hc : Held dpapi key c) (hact : act dpapi action key c = some (key', c')) :
    Kept dpapi key key' ∧ Held dpapi key' c' := by
  obtain ⟨temporary, phase⟩ := c
  cases phase with
  | idle =>
    cases action with
    | call =>
      cases hact
      exact ⟨.inl rfl, held_opening .creating fun _ => trivial⟩
    | crash =>
      cases hact
      exact ⟨.inl rfl, trivial⟩
    | _ => cases hact
  | creating =>
    cases action with
    | create chance raw =>
      dsimp only [act] at hact
      split at hact
      · next hraw =>
        cases hact
        exact ⟨.inl rfl, chance, raw, hraw, rfl⟩
      · cases hact
    | fault | crash =>
      cases hact
      exact ⟨.inl rfl, trivial⟩
    | _ => cases hact
  | writing payload =>
    cases action with
    | write count =>
      cases hact
      exact ⟨.inl rfl, hc⟩
    | flush =>
      dsimp only [act] at hact
      split at hact
      · next htemporary =>
        cases hact
        exact ⟨.inl rfl, hc, htemporary⟩
      · cases hact
    | fault | crash =>
      cases hact
      exact ⟨.inl rfl, trivial⟩
    | _ => cases hact
  | written payload =>
    cases action with
    | move =>
      obtain ⟨hwhole, htemporary⟩ := hc
      obtain rfl : temporary = some payload := htemporary
      cases key with
      | none =>
        cases hact
        exact ⟨.inr ⟨rfl, payload, rfl, hwhole⟩, payload, rfl⟩
      | some current =>
        cases hact
        exact ⟨.inl rfl, trivial⟩
    | fault | crash =>
      cases hact
      exact ⟨.inl rfl, trivial⟩
    | _ => cases hact
  | cleaning io =>
    cases action with
    | clean deleted =>
      cases hact
      cases io with
      | false => exact ⟨.inl rfl, rfl⟩
      | true => exact ⟨.inl rfl, trivial⟩
    | crash =>
      cases hact
      exact ⟨.inl rfl, trivial⟩
    | _ => cases hact
  | rechecking =>
    cases action with
    | recheck =>
      cases hact
      exact ⟨.inl rfl, held_opening (.failed none) fun _ => rfl⟩
    | crash =>
      cases hact
      exact ⟨.inl rfl, trivial⟩
    | _ => cases hact
  | opening =>
    cases action with
    | «open» =>
      obtain ⟨payload, rfl⟩ := hc
      dsimp only [act] at hact
      rw [checkLength_whole h (hkey payload rfl)] at hact
      cases hact
      exact ⟨.inl rfl, payload, rfl, rfl, rfl, Nat.zero_le _⟩
    | fault =>
      cases hact
      exact ⟨.inl rfl, rfl⟩
    | crash =>
      cases hact
      exact ⟨.inl rfl, trivial⟩
    | _ => cases hact
  | reading length data =>
    obtain ⟨payload, rfl, rfl, hdata, hlength⟩ := hc
    cases action with
    | read count =>
      dsimp only [act, Option.getD_some] at hact
      split at hact
      · next hmore =>
        cases hact
        obtain ⟨hne, hnext, hle⟩ := read_more hdata hmore.1 hmore.2
        rw [if_neg hne]
        exact ⟨.inl rfl, payload, rfl, rfl, hnext, hle⟩
      · cases hact
    | finish =>
      dsimp only [act] at hact
      split at hact
      · cases hact
      · next hdone =>
        have hall : data = payload := by
          rw [hdata, List.take_of_length_le (Nat.le_of_not_lt hdone)]
        obtain ⟨raw, hdecode, hraw⟩ := decode_whole h (hkey payload rfl)
        rw [hall, hdecode] at hact
        cases hact
        exact ⟨.inl rfl, hraw, payload, rfl, hdecode⟩
    | fault =>
      cases hact
      exact ⟨.inl rfl, rfl⟩
    | crash =>
      cases hact
      exact ⟨.inl rfl, trivial⟩
    | _ => cases hact
  | returned | failed | lost => cases action <;> cases hact

/-! ### Every run -/

theorem sound_step (h : dpapi.Lossless) {s t : KeyStore} {event : Nat × Action}
    (hs : Sound dpapi s) (hstep : step dpapi s event = some t) :
    Sound dpapi t ∧ Kept dpapi s.key t.key := by
  unfold step at hstep
  cases hact : act dpapi event.2 s.key (s.callers event.1) with
  | none =>
    rw [hact] at hstep
    cases hstep
  | some next =>
    obtain ⟨key, c⟩ := next
    rw [hact] at hstep
    cases hstep
    obtain ⟨hkept, hheld⟩ := act_held h hs.whole (hs.held event.1) hact
    refine ⟨⟨fun payload hpayload => ?_, fun i => ?_⟩, hkept⟩
    · rcases hkept with hsame | ⟨-, other, hother, hwhole⟩
      · exact hs.whole payload (hsame ▸ hpayload)
      · obtain rfl := Option.some.inj (hother.symm.trans hpayload)
        exact hwhole
    · dsimp only
      by_cases hi : i = event.1
      · subst hi
        rw [Function.update_self]
        exact hheld
      · rw [Function.update_of_ne hi]
        rcases hkept with rfl | ⟨hnone, other, rfl, -⟩
        · exact hs.held i
        · exact held_of_none (hnone ▸ hs.held i)

theorem sound_of_reaches (h : dpapi.Lossless) {s t : KeyStore} (hs : Sound dpapi s)
    (hreach : Reaches (step dpapi) anyEvent s t) : Sound dpapi t :=
  Runs.invariant_of_reaches hs (fun _ _ _ ha _ hstep => (sound_step h ha hstep).1) hreach

theorem sound_start : Sound dpapi start := by
  refine ⟨fun payload hpayload => ?_, fun _ => trivial⟩
  cases hpayload

/-- The key file is written once. -/
theorem key_kept (h : dpapi.Lossless) {s t : KeyStore} (hs : Sound dpapi s)
    (hreach : Reaches (step dpapi) anyEvent s t) {payload : List UInt8}
    (hpayload : s.key = some payload) : t.key = some payload := by
  refine Runs.rel_of_reaches
    (R := fun a b : KeyStore => ∀ payload, a.key = some payload → b.key = some payload) hs
    (fun _ _ hp => hp) (fun _ _ _ hab hbc p hp => hbc p (hab p hp))
    (fun _ _ _ ha _ hstep => (sound_step h ha hstep).1) (fun a _ b ha _ hstep p hp => ?_) hreach
    payload hpayload
  rcases (sound_step h ha hstep).2 with hsame | ⟨hnone, -⟩
  · rw [hsame, hp]
  · rw [hp] at hnone
    cases hnone

theorem loadOrCreate_agrees (h : dpapi.Lossless) {s : KeyStore}
    (hreach : Reaches (step dpapi) anyEvent start s) :
    (∀ i j a b, (s.callers i).phase = .returned a → (s.callers j).phase = .returned b →
      a = b ∧ a.length = 32) ∧
    (∀ i code, (s.callers i).phase = .failed code → code = none) ∧
    ∀ t payload, Reaches (step dpapi) anyEvent s t → s.key = some payload →
      t.key = some payload ∧ ∃ raw, decode dpapi payload = .ok raw ∧ raw.length = 32 := by
  have hsound := sound_of_reaches h sound_start hreach
  refine ⟨fun i j a b hi hj => ?_, fun i code hi => ?_, fun t payload ht hpayload => ?_⟩
  · have hheld := hsound.held i
    have hheld' := hsound.held j
    rw [Held, hi] at hheld
    rw [Held, hj] at hheld'
    obtain ⟨ha, payload, hpayload, hdecode⟩ := hheld
    obtain ⟨-, payload', hpayload', hdecode'⟩ := hheld'
    obtain rfl := Option.some.inj (hpayload.symm.trans hpayload')
    exact ⟨Except.ok.inj (hdecode.symm.trans hdecode'), ha⟩
  · have hheld := hsound.held i
    rw [Held, hi] at hheld
    exact hheld
  · exact ⟨key_kept h hsound ht hpayload, decode_whole h (hsound.whole payload hpayload)⟩

section Example

/-- A protection that puts one byte in front. -/
def plainProtection : DataProtection where
  protect chance raw := UInt8.ofNat chance :: raw
  unprotect
    | [] => .error "protected data is empty"
    | _ :: raw => .ok raw

theorem plainProtection_lossless : plainProtection.Lossless := by
  refine ⟨fun _ _ _ => rfl, fun chance raw hraw => ?_⟩
  have hheader : header.length = 21 := by decide +kernel
  change 0 < raw.length + 1 ∧ header.length + (raw.length + 1) ≤ 8192
  omega

/-- Two calls that both find no key file. -/
def race : List (Nat × Action) :=
  [(0, .call), (1, .call), (0, .create 7 (List.replicate 32 1)),
    (1, .create 8 (List.replicate 32 2)), (0, .write 20), (1, .write 99), (0, .write 99),
    (1, .flush), (0, .flush), (1, .move), (0, .move), (0, .clean true), (0, .recheck), (1, .open),
    (0, .open), (1, .read 40), (0, .read 99), (1, .read 99), (0, .finish), (1, .finish)]

theorem loadOrCreate_agrees_race : ∃ s : KeyStore,
    ((s.callers 0).phase = .returned (List.replicate 32 2) ∧
      (s.callers 1).phase = .returned (List.replicate 32 2)) ∧
    (∀ i j a b, (s.callers i).phase = .returned a → (s.callers j).phase = .returned b →
      a = b ∧ a.length = 32) ∧
    (∀ i code, (s.callers i).phase = .failed code → code = none) ∧
    ∀ t payload, Reaches (step plainProtection) anyEvent s t → s.key = some payload →
      t.key = some payload ∧
        ∃ raw, decode plainProtection payload = .ok raw ∧ raw.length = 32 := by
  obtain ⟨s, hreach, hlast⟩ := Runs.exists_reaches_of_run (step plainProtection) anyEvent start race
    (fun s => decide ((s.callers 0).phase = .returned (List.replicate 32 2)) &&
      decide ((s.callers 1).phase = .returned (List.replicate 32 2)))
    (Runs.along_anyEvent _ _) (by decide +kernel)
  exact ⟨s, by simpa using hlast, loadOrCreate_agrees plainProtection_lossless hreach⟩

end Example

/-! ### A call that is left alone -/

/-- What a call does while all others wait. -/
def alone (dpapi : DataProtection) (actions : List Action) (x : Option (List UInt8) × Caller) :
    Option (Option (List UInt8) × Caller) :=
  actions.foldlM (fun x action => act dpapi action x.1 x.2) x

/-- What one call does by itself is a run of all of them. -/
theorem reaches_alone {i : Nat} {actions : List Action} {s : KeyStore}
    {key : Option (List UInt8)} {c : Caller}
    (hrun : alone dpapi actions (s.key, s.callers i) = some (key, c)) :
    Reaches (step dpapi) anyEvent s ⟨key, Function.update s.callers i c⟩ := by
  induction actions generalizing s with
  | nil =>
    obtain ⟨rfl, rfl⟩ := Prod.mk.inj (Option.some.inj hrun)
    rw [Function.update_eq_self]
    exact .refl
  | cons action actions ih =>
    rw [alone, List.foldlM_cons] at hrun
    obtain ⟨⟨key', c'⟩, hact, hrest⟩ := Option.bind_eq_some_iff.1 hrun
    have hstep : step dpapi s (i, action) = some ⟨key', Function.update s.callers i c'⟩ := by
      simp only [step, hact]
    refine (Runs.Reaches.single trivial hstep).trans ?_
    have hself : Function.update s.callers i c' i = c' := Function.update_self ..
    rw [← hself] at hrest
    have hreach := ih (s := ⟨key', Function.update s.callers i c'⟩) hrest
    rw [Function.update_idem] at hreach
    exact hreach

/-- A call that opens a whole key file returns the key. -/
theorem read_alone (h : dpapi.Lossless) {payload : List UInt8} (hwhole : Whole dpapi payload)
    (temporary : Option (List UInt8)) : ∃ raw, raw.length = 32 ∧
      alone dpapi [.open, .read payload.length, .finish] (some payload, ⟨temporary, .opening⟩) =
        some (some payload, ⟨temporary, .returned raw⟩) := by
  obtain ⟨raw, hdecode, hraw⟩ := decode_whole h hwhole
  have hpos : 0 < payload.length := by
    obtain ⟨chance, raw', hraw', rfl⟩ := hwhole
    rw [List.length_append]
    exact Nat.add_pos_right _ (h.length chance raw' hraw').1
  refine ⟨raw, hraw, ?_⟩
  simp [alone, act, checkLength_whole h hwhole, hdecode, hpos, List.ne_nil_of_length_pos hpos]

/-- A call that finds no key file makes one. -/
theorem create_alone {chance : Nat} {raw payload : List UInt8} (hraw : raw.length = 32)
    (hpayload : header ++ dpapi.protect chance raw = payload)
    (temporary : Option (List UInt8)) :
    alone dpapi [.call, .create chance raw, .write payload.length, .flush, .move]
      (none, ⟨temporary, .idle⟩) = some (some payload, ⟨none, .opening⟩) := by
  simp [alone, act, hraw, hpayload]

theorem loadOrCreate_returns (h : dpapi.Lossless) {s : KeyStore}
    (hreach : Reaches (step dpapi) anyEvent start s) {i : Nat}
    (hidle : (s.callers i).phase = .idle) : ∃ t raw, Reaches (step dpapi) anyEvent s t ∧
      (t.callers i).phase = .returned raw ∧ raw.length = 32 ∧
        ∀ j, j ≠ i → t.callers j = s.callers j := by
  have hsound := sound_of_reaches h sound_start hreach
  have hcall : ∀ payload, Whole dpapi payload → ∀ actions temporary,
      alone dpapi actions (s.key, s.callers i) = some (some payload, ⟨temporary, .opening⟩) →
        ∃ t raw, Reaches (step dpapi) anyEvent s t ∧ (t.callers i).phase = .returned raw ∧
          raw.length = 32 ∧ ∀ j, j ≠ i → t.callers j = s.callers j := by
    intro payload hwhole actions temporary hactions
    obtain ⟨raw, hraw, hread⟩ := read_alone h hwhole temporary
    have hrun : alone dpapi (actions ++ [.open, .read payload.length, .finish])
        (s.key, s.callers i) = some (some payload, ⟨temporary, .returned raw⟩) := by
      rw [alone, List.foldlM_append]
      exact (congrArg (· >>= _) hactions).trans hread
    refine ⟨_, raw, reaches_alone hrun, ?_, hraw, fun j hj => ?_⟩
    · dsimp only
      rw [Function.update_self]
    · exact Function.update_of_ne hj _ _
  cases hc : s.callers i with
  | mk temporary phase =>
    rw [hc] at hidle hcall
    obtain rfl : phase = .idle := hidle
    cases hkey : s.key with
    | some payload =>
      rw [hkey] at hcall
      exact hcall payload (hsound.whole payload hkey) [.call] temporary rfl
    | none =>
      rw [hkey] at hcall
      have hraw : (List.replicate 32 (0 : UInt8)).length = 32 := List.length_replicate
      exact hcall _ ⟨0, _, hraw, rfl⟩ _ none (create_alone hraw rfl temporary)

theorem loadOrCreate_returns_start : ∃ t raw, Reaches (step plainProtection) anyEvent start t ∧
    (t.callers 3).phase = .returned raw ∧ raw.length = 32 ∧
      ∀ j, j ≠ 3 → t.callers j = start.callers j :=
  loadOrCreate_returns plainProtection_lossless .refl rfl

end PublishQueueKeyStore

end CadPlot.Publish
