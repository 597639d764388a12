import CadPlot.Lib.Framing
import CadPlot.Lib.Text

/-!
# The output evidence of a publish receipt

The worker side writes the digest of the published files into its receipt, from
the manifest and the files it finds; the audit builds the digest again from its
own evidence. Both hash a canonical byte string of their own making: here are
the two, each as its source builds it. A name of the worker is a list of UTF-16
code units, a name of the audit is text.
-/

namespace CadPlot.Publish

open Framing Text

abbrev Bytes := List UInt8

/-- `cadplot-receipt-outputs-v1` and a zero byte. -/
def receiptOutputDomain : Bytes := utf8 "cadplot-receipt-outputs-v1\x00".toList

/-! ### The audit -/

structure OutputEvidence where
  sheetIndex : Int
  file : String
  sizeBytes : Int
  sha256 : String
  deriving DecidableEq, Repr

/-- `struct.pack(">q", value)` -/
def packQ (value : Int) : Except String Bytes :=
  if -2 ^ 63 ≤ value ∧ value < 2 ^ 63 then .ok (bigEndian 8 (value % 2 ^ 64).toNat)
  else .error "int too large to convert"

/-- `Path(file_name).name == file_name`: one component and no drive. -/
def isBareName (name : List Char) : Bool :=
  name.all (fun c => c ≠ '/' ∧ c ≠ '\\') && decide (name ≠ ['.']) &&
    (match name with
    | _ :: c :: _ => decide (c ≠ ':')
    | _ => true)

/-- `Path(file_name).suffix`: from the last dot on, if something stands before and behind it. -/
def suffix (name : List Char) : List Char :=
  match name.reverse.span (· ≠ '.') with
  | (_, []) => []
  | (extension, _ :: stem) =>
    if extension = [] ∨ stem = [] then [] else '.' :: extension.reverse

def OutputEvidence.accepted (item : OutputEvidence) : Bool :=
  decide (1 ≤ item.sheetIndex) && decide (item.file ≠ "") && isBareName item.file.toList &&
    decide ((suffix item.file.toList).map Char.toLower = ".pdf".toList) &&
    item.file.toList.all (fun c => ¬(c.toNat < 32 ∨ c.toNat = 127)) &&
    decide (1 ≤ item.sizeBytes ∧ item.sizeBytes ≤ 2 ^ 63 - 1) &&
    (decide (item.sha256.toList.length = 64) && item.sha256.toList.all isLowerHex)

def packItem (item : OutputEvidence) : Except String Bytes :=
  if item.accepted then do
    let fileBytes := utf8 item.file.toList
    let sheetIndex ← packQ item.sheetIndex
    let length ← packQ fileBytes.length
    let size ← packQ item.sizeBytes
    match unhex item.sha256.toList with
    | none => .error "non-hexadecimal number found in fromhex() arg"
    | some digest => pure (sheetIndex ++ length ++ fileBytes ++ size ++ digest)
  else .error "Receipt output evidence item is invalid."

/-- What `build_receipt_output_digest` feeds to its hash. -/
def canonicalOutputs (outputs : List OutputEvidence) : Except String Bytes :=
  if 1 ≤ outputs.length ∧ outputs.length ≤ 5000 then do
    let count ← packQ outputs.length
    let items ← outputs.mapM packItem
    pure (receiptOutputDomain ++ count ++ items.flatten)
  else .error "Receipt output evidence must contain between 1 and 5000 items."

def buildReceiptOutputDigest (sha256 : Bytes → Bytes) (outputs : List OutputEvidence) :
    Except String (List Char) := do
  let bytes ← canonicalOutputs outputs
  pure (hex (sha256 bytes))

/-! ### The worker -/

structure PublishManifestOutput where
  sheetIndex : Int
  pdf : Option (List UInt16)
  deriving DecidableEq, Repr

inductive ClrException where
  | io | unauthorizedAccess | security
  | other (name : String)
  deriving DecidableEq, Repr

/-- What `FileInfo` saw of a file, its contents, and what it saw when refreshed after. -/
structure FileProbe where
  found : Bool
  directory : Bool
  reparsePoint : Bool
  length : Int
  contents : Except ClrException Bytes
  foundAfter : Bool
  lengthAfter : Int

/-- The platform under the worker. A file is probed once in each turn of the loop. -/
structure Platform where
  getFullPath : List UInt16 → Except ClrException (List UInt16)
  probe : Nat → List UInt16 → FileProbe
  sha256 : Bytes → Bytes

inductive Stop where
  | raised (exception : ClrException)
  | refused (code : String)
  deriving DecidableEq, Repr

def isSeparator (u : UInt16) : Bool := u = 0x5C || u = 0x2F || u = 0x3A

/-- `Path.GetFileName`: what stands behind the last separator. -/
def getFileName (path : List UInt16) : List UInt16 :=
  (path.reverse.takeWhile (¬isSeparator ·)).reverse

/-- `Char.IsWhiteSpace` -/
def isWhiteSpace (u : UInt16) : Bool :=
  let n := u.toNat
  decide ((9 ≤ n ∧ n ≤ 13) ∨ n = 0x20 ∨ n = 0x85 ∨ n = 0xA0 ∨ n = 0x1680 ∨
    (0x2000 ≤ n ∧ n ≤ 0x200A) ∨ n = 0x2028 ∨ n = 0x2029 ∨ n = 0x202F ∨ n = 0x205F ∨ n = 0x3000)

/-- `Char.IsControl` -/
def isControl (u : UInt16) : Bool :=
  decide (u.toNat < 0x20 ∨ (0x7F ≤ u.toNat ∧ u.toNat < 0xA0))

/-- The loop of `WriteInt64`, from the last byte to the first. -/
def fillBytes : Nat → Nat → Bytes → Bytes
  | 0, _, done => done
  | index + 1, value, done => fillBytes index (value >>> 8) (UInt8.ofNat (value &&& 0xFF) :: done)

def writeInt64 (stream : Bytes) (value : Int) : Except Stop Bytes :=
  if value < 0 then .error (.raised (.other "InvalidDataException"))
  else .ok (stream ++ fillBytes 8 value.toNat [])

def hexToBytes (value : List Char) : Except Stop Bytes :=
  if value.length ≠ 64 then .error (.raised (.other "InvalidDataException"))
  else
    match unhex value with
    | none => .error (.raised (.other "FormatException"))
    | some bytes => .ok bytes

/-- `BitConverter.ToString(bytes)`: pairs of upper-case digits with hyphens between them. -/
def bitConverterToString (bytes : Bytes) : List Char :=
  ['-'].intercalate (bytes.map fun b => (hexByte b).map Char.toUpper)

/-- `BitConverter.ToString(bytes).Replace("-", String.Empty).ToLowerInvariant()` -/
def digestText (bytes : Bytes) : List Char :=
  ((bitConverterToString bytes).filter (· ≠ '-')).map Char.toLower

def refuse {α : Type} (code : String) : Except Stop α := .error (.refused code)

/-- One turn of the loop of `TryCompute`. -/
def writeOutput (platform : Platform) (turn : Nat) (stream : Bytes)
    (output : PublishManifestOutput) : Except Stop Bytes := do
  let path ← (platform.getFullPath (output.pdf.getD [])).mapError .raised
  let fileName := getFileName path
  if fileName.all isWhiteSpace then refuse "receipt_output_invalid"
  else if fileName.any isControl then refuse "receipt_output_invalid"
  else
    let info := platform.probe turn path
    if ¬info.found ∨ info.directory then refuse "receipt_output_missing"
    else if info.reparsePoint then refuse "receipt_output_redirected"
    else if info.length < 1 then refuse "receipt_output_empty"
    else do
      let contents ← info.contents.mapError .raised
      let digest := digestText (platform.sha256 contents)
      if ¬info.foundAfter ∨ info.lengthAfter ≠ info.length then refuse "receipt_output_changed"
      else do
        let fileNameBytes := utf8 (decodeUtf16 fileName)
        let stream ← writeInt64 stream output.sheetIndex
        let stream ← writeInt64 stream fileNameBytes.length
        let stream ← writeInt64 (stream ++ fileNameBytes) info.length
        let digestBytes ← hexToBytes digest
        pure (stream ++ digestBytes)

def writeOutputs (platform : Platform) :
    Nat → List PublishManifestOutput → Bytes → Except Stop Bytes
  | _, [], stream => .ok stream
  | turn, output :: outputs, stream => do
    let stream ← writeOutput platform turn stream output
    writeOutputs platform (turn + 1) outputs stream

/-- What `TryCompute` hashes. -/
def canonicalStream (platform : Platform) (outputs : Option (List PublishManifestOutput)) :
    Except Stop Bytes :=
  match outputs with
  | none => refuse "receipt_outputs_invalid"
  | some outputs =>
    if outputs.length < 1 ∨ 5000 < outputs.length then refuse "receipt_outputs_invalid"
    else do
      let stream ← writeInt64 receiptOutputDomain outputs.length
      writeOutputs platform 0 outputs stream

/-- The count and the digest, or the code of a refusal. Other exceptions escape. -/
def tryCompute (platform : Platform) (outputs : Option (List PublishManifestOutput)) :
    Except ClrException (Except String (Nat × List Char)) :=
  match canonicalStream platform outputs with
  | .ok stream => .ok (.ok ((outputs.getD []).length, digestText (platform.sha256 stream)))
  | .error (.refused code) => .ok (.error code)
  | .error (.raised (.other name)) => .error (.other name)
  | .error (.raised _) => .ok (.error "receipt_output_unavailable")

end CadPlot.Publish
