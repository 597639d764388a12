import Mathlib.Data.Nat.Bitwise
import CadPlot.Lib.Base64
import CadPlot.Lib.Framing
import CadPlot.Lib.Text

/-!
# Authentication of the queue

`PublishQueueAuthenticator` tags the records of the journal. The bytes it tags
begin with the type of the record and have each text behind its length, so they
determine the type and every field; a tag moves to another record only where the
hash collides.
-/

namespace CadPlot.Publish

open Framing
open Text (utf8 utf8_injective)

/-- A string of the host, which may be null. -/
abbrev Field := Option (List Char)

structure PublishQueueRequestRecord where
  schemaVersion : Int32
  planId : Field
  manifestPath : Field
  manifestSha256 : Field
  stagedDrawing : Field
  outputDirectory : Field
  sheetCount : Int32
  queuedUtc : Field
  authenticationVersion : Int32
  authenticationTag : Field

structure PublishQueueStartedRecord where
  schemaVersion : Int32
  planId : Field
  manifestSha256 : Field
  startedUtc : Field
  authenticationVersion : Int32
  authenticationTag : Field

structure PublishQueueCancelledRecord where
  schemaVersion : Int32
  planId : Field
  manifestSha256 : Field
  cancelledUtc : Field
  authenticationVersion : Int32
  authenticationTag : Field

inductive QueueRecord where
  | request (record : PublishQueueRequestRecord)
  | started (record : PublishQueueStartedRecord)
  | cancelled (record : PublishQueueCancelledRecord)

namespace PublishQueueAuthenticator

/-- `BinaryWriter.Write` of an `int`, the least significant byte first -/
def writeInt32 (value : Int32) : List UInt8 := (bigEndian 4 value.toBitVec.toNat).reverse

def writeField : Field → List UInt8
  | none => writeInt32 (-1)
  | some value => writeInt32 (Int32.ofNat (utf8 value).length) ++ utf8 value

def requestTag : Field := some "cadplot-queue-request-v1".toList

def startedTag : Field := some "cadplot-queue-started-v1".toList

def cancelledTag : Field := some "cadplot-queue-cancelled-v1".toList

/-- What is written for a record. -/
def content : QueueRecord → List UInt8
  | .request record =>
    writeField requestTag ++ writeInt32 record.schemaVersion ++ writeField record.planId ++
      writeField record.manifestPath ++ writeField record.manifestSha256 ++
      writeField record.stagedDrawing ++ writeField record.outputDirectory ++
      writeInt32 record.sheetCount ++ writeField record.queuedUtc
  | .started record =>
    writeField startedTag ++ writeInt32 record.schemaVersion ++ writeField record.planId ++
      writeField record.manifestSha256 ++ writeField record.startedUtc
  | .cancelled record =>
    writeField cancelledTag ++ writeInt32 record.schemaVersion ++ writeField record.planId ++
      writeField record.manifestSha256 ++ writeField record.cancelledUtc

/-- The bytes that are hashed. A stream holds no more than `Int32.MaxValue` of them, and neither
does the array of a single text. -/
def payload (record : QueueRecord) : Option (List UInt8) :=
  if (content record).length < 2 ^ 31 then some (content record) else none

def authenticationVersion : QueueRecord → Int32
  | .request record => record.authenticationVersion
  | .started record => record.authenticationVersion
  | .cancelled record => record.authenticationVersion

def authenticationTag : QueueRecord → Field
  | .request record => record.authenticationTag
  | .started record => record.authenticationTag
  | .cancelled record => record.authenticationTag

/-- `difference` of `FixedTimeEquals` -/
def difference (left right : List UInt8) : Nat :=
  (List.zipWith (fun l r => l.toNat ^^^ r.toNat) left right).foldl (· ||| ·)
    (left.length ^^^ right.length)

def fixedTimeEquals (left right : Field) : Bool :=
  match Base64.decode (left.getD []), Base64.decode (right.getD []) with
  | some leftBytes, some rightBytes => difference leftBytes rightBytes = 0
  | _, _ => false

section Sign

variable (hmac : List UInt8 → List UInt8)

/-- `Sign` with the hash that the key selects -/
def sign (record : QueueRecord) : Option (List Char) :=
  (payload record).map fun bytes => Base64.encode (hmac bytes)

/-- `Verify` of a record that is not null -/
def verify (record : QueueRecord) : Option Bool :=
  if authenticationVersion record = 1 then
    (sign hmac record).map fun tag => fixedTimeEquals (authenticationTag record) (some tag)
  else some false

end Sign

/-- A record without its authentication: its type and its signed fields. -/
def signed : QueueRecord → QueueRecord
  | .request record =>
    .request { record with authenticationVersion := 0, authenticationTag := none }
  | .started record =>
    .started { record with authenticationVersion := 0, authenticationTag := none }
  | .cancelled record =>
    .cancelled { record with authenticationVersion := 0, authenticationTag := none }

section Encoding

theorem delimited_writeInt32 : Delimited (fun _ => True) writeInt32 := by
  refine @delimited_of_length _ _ _ _ 4 (fun value _ => by simp [writeInt32]) fun a b _ _ h => ?_
  have hbytes := List.reverse_injective h
  exact Int32.toBitVec.inj (BitVec.eq_of_toNat_eq
    (bigEndian_injective 4 a.toBitVec.isLt b.toBitVec.isLt hbytes))

/-- The bytes of a text fit into an array. -/
def Fits (field : Field) : Prop := ∀ value, field = some value → (utf8 value).length < 2 ^ 31

theorem ofNat_inj {n m : Nat} (hn : n < 2 ^ 31) (hm : m < 2 ^ 31)
    (h : Int32.ofNat n = Int32.ofNat m) : n = m := by
  have hbits := congrArg (fun value : Int32 => value.toBitVec.toNat) h
  simp only [Int32.toBitVec_ofNat', BitVec.toNat_ofNat] at hbits
  omega

theorem ofNat_ne_neg_one {n : Nat} (hn : n < 2 ^ 31) : Int32.ofNat n ≠ -1 := by
  intro h
  have hbits := congrArg (fun value : Int32 => value.toBitVec.toNat) h
  have hones : (-1 : Int32).toBitVec.toNat = 2 ^ 32 - 1 := by decide
  simp only [Int32.toBitVec_ofNat', BitVec.toNat_ofNat, hones] at hbits
  omega

theorem delimited_writeField : Delimited Fits writeField := by
  intro a b r s ha hb h
  cases a with
  | none =>
    cases b with
    | none => exact ⟨rfl, (delimited_writeInt32 _ _ _ _ trivial trivial h).2⟩
    | some right =>
      rw [writeField, writeField, List.append_assoc] at h
      have hlength := (delimited_writeInt32 _ _ _ _ trivial trivial h).1
      exact absurd hlength.symm (ofNat_ne_neg_one (hb right rfl))
  | some left =>
    cases b with
    | none =>
      rw [writeField, writeField, List.append_assoc] at h
      have hlength := (delimited_writeInt32 _ _ _ _ trivial trivial h).1
      exact absurd hlength (ofNat_ne_neg_one (ha left rfl))
    | some right =>
      rw [writeField, writeField, List.append_assoc, List.append_assoc] at h
      obtain ⟨hlength, hrest⟩ := delimited_writeInt32 _ _ _ _ trivial trivial h
      obtain ⟨htext, hrs⟩ := List.append_inj hrest (ofNat_inj (ha left rfl) (hb right rfl) hlength)
      exact ⟨congrArg some (utf8_injective htext), hrs⟩

theorem fits_of_length {field : Field} (h : (writeField field).length < 2 ^ 31) : Fits field := by
  rintro value rfl
  rw [writeField, List.length_append] at h
  omega

theorem request_injective {a b : PublishQueueRequestRecord}
    (ha : (content (.request a)).length < 2 ^ 31) (hb : (content (.request b)).length < 2 ^ 31)
    (h : content (.request a) = content (.request b)) :
    signed (.request a) = signed (.request b) := by
  simp only [content, List.length_append] at ha hb
  simp only [content, List.append_assoc] at h
  have hfield {x y : Field} {r s : List UInt8} (hx : (writeField x).length < 2 ^ 31)
      (hy : (writeField y).length < 2 ^ 31) :=
    delimited_writeField x y r s (fits_of_length hx) (fits_of_length hy)
  have hnumber {x y : Int32} {r s : List UInt8} := delimited_writeInt32 x y r s trivial trivial
  obtain ⟨-, h⟩ := hfield (by omega) (by omega) h
  obtain ⟨hschema, h⟩ := hnumber h
  obtain ⟨hplan, h⟩ := hfield (by omega) (by omega) h
  obtain ⟨hpath, h⟩ := hfield (by omega) (by omega) h
  obtain ⟨hmanifest, h⟩ := hfield (by omega) (by omega) h
  obtain ⟨hstaged, h⟩ := hfield (by omega) (by omega) h
  obtain ⟨houtput, h⟩ := hfield (by omega) (by omega) h
  obtain ⟨hcount, h⟩ := hnumber h
  have hqueued := delimited_writeField.injective (fits_of_length (by omega))
    (fits_of_length (by omega)) h
  simp only [signed, hschema, hplan, hpath, hmanifest, hstaged, houtput, hcount, hqueued]

/-- The fields behind the tag of a started or a cancelled record. -/
theorem marker_injective {schema schema' : Int32} {plan plan' manifest manifest' utc utc' : Field}
    {tag tag' : Field}
    (ha : (writeField tag ++ writeInt32 schema ++ writeField plan ++ writeField manifest ++
      writeField utc).length < 2 ^ 31)
    (hb : (writeField tag' ++ writeInt32 schema' ++ writeField plan' ++ writeField manifest' ++
      writeField utc').length < 2 ^ 31)
    (h : writeField tag ++ writeInt32 schema ++ writeField plan ++ writeField manifest ++
      writeField utc = writeField tag' ++ writeInt32 schema' ++ writeField plan' ++
        writeField manifest' ++ writeField utc') :
    schema = schema' ∧ plan = plan' ∧ manifest = manifest' ∧ utc = utc' := by
  simp only [List.length_append] at ha hb
  simp only [List.append_assoc] at h
  have hfield {x y : Field} {r s : List UInt8} (hx : (writeField x).length < 2 ^ 31)
      (hy : (writeField y).length < 2 ^ 31) :=
    delimited_writeField x y r s (fits_of_length hx) (fits_of_length hy)
  obtain ⟨-, h⟩ := hfield (by omega) (by omega) h
  obtain ⟨hschema, h⟩ := delimited_writeInt32 _ _ _ _ trivial trivial h
  obtain ⟨hplan, h⟩ := hfield (by omega) (by omega) h
  obtain ⟨hmanifest, h⟩ := hfield (by omega) (by omega) h
  exact ⟨hschema, hplan, hmanifest, delimited_writeField.injective (fits_of_length (by omega))
    (fits_of_length (by omega)) h⟩

/-- The type of a record, which is written first. -/
def typeTag : QueueRecord → Field
  | .request _ => requestTag
  | .started _ => startedTag
  | .cancelled _ => cancelledTag

theorem content_typeTag (record : QueueRecord) :
    ∃ rest, content record = writeField (typeTag record) ++ rest := by
  cases record <;> simp only [content, typeTag, List.append_assoc] <;> exact ⟨_, rfl⟩

theorem typeTag_eq {a b : QueueRecord} (ha : (content a).length < 2 ^ 31)
    (hb : (content b).length < 2 ^ 31) (h : content a = content b) : typeTag a = typeTag b := by
  obtain ⟨r, hr⟩ := content_typeTag a
  obtain ⟨s, hs⟩ := content_typeTag b
  rw [hr, List.length_append] at ha
  rw [hs, List.length_append] at hb
  rw [hr, hs] at h
  exact (delimited_writeField _ _ _ _ (fits_of_length (by omega)) (fits_of_length (by omega)) h).1

theorem tags_ne : requestTag ≠ startedTag ∧ requestTag ≠ cancelledTag ∧
    startedTag ≠ cancelledTag := by decide

theorem content_injective {a b : QueueRecord} (ha : (content a).length < 2 ^ 31)
    (hb : (content b).length < 2 ^ 31) (h : content a = content b) : signed a = signed b := by
  have htag := typeTag_eq ha hb h
  cases a with
  | request a =>
    cases b with
    | request b => exact request_injective ha hb h
    | started b => exact absurd htag tags_ne.1
    | cancelled b => exact absurd htag tags_ne.2.1
  | started a =>
    cases b with
    | request b => exact absurd htag.symm tags_ne.1
    | started b =>
      obtain ⟨hschema, hplan, hmanifest, hutc⟩ := marker_injective ha hb h
      simp only [signed, hschema, hplan, hmanifest, hutc]
    | cancelled b => exact absurd htag tags_ne.2.2
  | cancelled a =>
    cases b with
    | request b => exact absurd htag.symm tags_ne.2.1
    | started b => exact absurd htag.symm tags_ne.2.2
    | cancelled b =>
      obtain ⟨hschema, hplan, hmanifest, hutc⟩ := marker_injective ha hb h
      simp only [signed, hschema, hplan, hmanifest, hutc]

end Encoding

section Tags

theorem payload_eq_some {record : QueueRecord} {bytes : List UInt8} :
    payload record = some bytes ↔ (content record).length < 2 ^ 31 ∧ content record = bytes := by
  rw [payload, Option.ite_none_right_eq_some, Option.some_inj]

theorem foldl_or_eq_zero (bits : List Nat) (start : Nat) :
    bits.foldl (· ||| ·) start = 0 ↔ start = 0 ∧ ∀ b ∈ bits, b = 0 := by
  induction bits generalizing start with
  | nil => simp
  | cons b bits ih =>
    rw [List.foldl_cons, ih, Nat.or_eq_zero_iff, List.forall_mem_cons, and_assoc]

theorem difference_eq_zero {left right : List UInt8} :
    difference left right = 0 ↔ left = right := by
  rw [difference, foldl_or_eq_zero, Nat.xor_eq_zero_iff]
  constructor
  · rintro ⟨hlength, hbytes⟩
    refine List.ext_getElem hlength fun i hi hi' => ?_
    have hzip := hbytes _ (List.getElem_mem (by simpa using ⟨hi, hi'⟩ :
      i < (List.zipWith (fun l r : UInt8 => l.toNat ^^^ r.toNat) left right).length))
    rw [List.getElem_zipWith, Nat.xor_eq_zero_iff] at hzip
    exact UInt8.toNat_inj.mp hzip
  · rintro rfl
    exact ⟨rfl, by simp [List.zipWith_self]⟩

/-- An accepted tag decodes to the hash of the payload. -/
theorem verify_eq_some_true {hmac : List UInt8 → List UInt8} {record : QueueRecord}
    (h : verify hmac record = some true) : ∃ bytes, payload record = some bytes ∧
      Base64.decode ((authenticationTag record).getD []) = some (hmac bytes) := by
  rw [verify] at h
  split at h
  case isFalse => cases h
  case isTrue =>
    obtain ⟨tag, hsign, heq⟩ := Option.map_eq_some_iff.mp h
    obtain ⟨bytes, hbytes, rfl⟩ := Option.map_eq_some_iff.mp hsign
    refine ⟨bytes, hbytes, ?_⟩
    rw [fixedTimeEquals, Option.getD_some, Base64.decode_encode] at heq
    split at heq
    · next hleft hright =>
      cases hright
      rw [decide_eq_true_eq, difference_eq_zero] at heq
      rw [hleft, heq]
    · cases heq

/-- Records with one payload have one type and the same signed fields. So where two different
records are accepted with one tag, the hash has two payloads with one value. -/
theorem payload_determines (a b : QueueRecord) :
    (∀ bytes, payload a = some bytes → payload b = some bytes → signed a = signed b) ∧
    ∀ hmac, verify hmac a = some true → verify hmac b = some true →
      authenticationTag a = authenticationTag b → signed a = signed b ∨
        ∃ bytes bytes', payload a = some bytes ∧ payload b = some bytes' ∧ bytes ≠ bytes' ∧
          hmac bytes = hmac bytes' := by
  have hinjective : ∀ bytes, payload a = some bytes → payload b = some bytes →
      signed a = signed b := by
    intro bytes ha hb
    obtain ⟨hla, rfl⟩ := payload_eq_some.mp ha
    obtain ⟨hlb, hcontent⟩ := payload_eq_some.mp hb
    exact content_injective hla hlb hcontent.symm
  refine ⟨hinjective, fun hmac ha hb htag => ?_⟩
  obtain ⟨bytes, hbytes, hdecode⟩ := verify_eq_some_true ha
  obtain ⟨bytes', hbytes', hdecode'⟩ := verify_eq_some_true hb
  rw [htag, hdecode'] at hdecode
  by_cases heq : bytes = bytes'
  · exact .inl (hinjective bytes hbytes (heq ▸ hbytes'))
  · exact .inr ⟨bytes, bytes', hbytes, hbytes', heq, (Option.some.inj hdecode).symm⟩

end Tags

section Example

def startedRecord (planId : Field) (tag : Field) : QueueRecord :=
  .started ⟨2, planId, some "ab".toList, none, 1, tag⟩

/-- A plan id that is null and one that is empty are told apart. -/
theorem payload_determines_null : payload (startedRecord none none) ≠
    payload (startedRecord (some []) none) := by
  intro h
  have hpayload : payload (startedRecord none none) = some (content (startedRecord none none)) :=
    payload_eq_some.mpr ⟨by decide +kernel, rfl⟩
  have hsigned := (payload_determines (startedRecord none none) (startedRecord (some []) none)).1
    _ hpayload (h ▸ hpayload)
  simp [signed, startedRecord] at hsigned

end Example

end PublishQueueAuthenticator

end CadPlot.Publish
