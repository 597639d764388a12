import CadPlot.Lib.Outcome
import CadPlot.Publish.ReceiptOutputs

/-!
# A receipt digest binds one list of outputs

Both canonical byte strings are the same encoding of a list of entries, written
once here: a domain, a count, and for each entry its fields with the name behind
its length. The encoding is delimited, so the bytes determine the list.
-/

namespace CadPlot.Publish

open Framing Text

/-- One output as both sides mean it. -/
structure Entry where
  sheetIndex : Nat
  name : List Char
  size : Nat
  digest : Bytes

namespace Entry

def encode (e : Entry) : Bytes :=
  bigEndian 8 e.sheetIndex ++
    ((bigEndian 8 (utf8 e.name).length ++ utf8 e.name) ++ (bigEndian 8 e.size ++ e.digest))

/-- The numbers have eight bytes and the digest has thirty-two. -/
structure Fits (e : Entry) : Prop where
  sheetIndex : e.sheetIndex < 256 ^ 8
  name : (utf8 e.name).length < 256 ^ 8
  size : e.size < 256 ^ 8
  digest : e.digest.length = 32

theorem delimited_encode : Delimited Fits encode := by
  have hnumber := delimited_bigEndian 8
  have hname : Delimited (fun name => True ∧ (utf8 name).length < 256 ^ 8)
      fun name => bigEndian 8 (utf8 name).length ++ utf8 name :=
    hnumber.framed fun _ _ _ _ => utf8_injective
  have hdigest : Delimited (fun digest : Bytes => digest.length = 32) id :=
    delimited_of_length (fun _ h => h) fun _ _ _ _ h => h
  refine (hnumber.pair (hname.pair (hnumber.pair hdigest))).record
    (fun e : Entry => (e.sheetIndex, e.name, e.size, e.digest)) ?_ ?_
  · intro e h
    exact ⟨h.sheetIndex, ⟨trivial, h.name⟩, h.size, h.digest⟩
  · rintro ⟨i, n, s, d⟩ ⟨i', n', s', d'⟩ _ _ h
    cases h
    rfl

end Entry

/-- The canonical bytes of a list of entries. -/
def encodeEntries (entries : List Entry) : Bytes :=
  receiptOutputDomain ++ (bigEndian 8 entries.length ++ entries.flatMap Entry.encode)

theorem encodeEntries_injective {xs ys : List Entry} (hlx : xs.length < 256 ^ 8)
    (hly : ys.length < 256 ^ 8) (hx : ∀ x ∈ xs, x.Fits) (hy : ∀ y ∈ ys, y.Fits)
    (h : encodeEntries xs = encodeEntries ys) : xs = ys :=
  (Entry.delimited_encode.counted (delimited_bigEndian 8)).injective ⟨hlx, hx⟩ ⟨hly, hy⟩
    (List.append_cancel_left h)

/-! ### The audit builds the encoding -/

/-- The entry of an evidence item. -/
def OutputEvidence.entry (item : OutputEvidence) : Entry where
  sheetIndex := item.sheetIndex.toNat
  name := item.file.toList
  size := item.sizeBytes.toNat
  digest := (unhex item.sha256.toList).getD []

section Audit

variable {item other : OutputEvidence} {bytes : Bytes}

/-- What the checks of an accepted item leave to rely on. -/
structure OutputEvidence.Sound (item : OutputEvidence) : Prop where
  sheetIndex : 1 ≤ item.sheetIndex
  size : 1 ≤ item.sizeBytes
  sizeBound : item.sizeBytes ≤ 2 ^ 63 - 1
  digestLength : item.sha256.toList.length = 64
  digestDigits : ∀ c ∈ item.sha256.toList, isLowerHex c = true

theorem OutputEvidence.sound (h : item.accepted = true) : item.Sound := by
  simp only [OutputEvidence.accepted, Bool.and_eq_true, decide_eq_true_eq] at h
  obtain ⟨⟨⟨⟨⟨⟨hindex, _⟩, _⟩, _⟩, _⟩, hsize, hbound⟩, hlength, hdigits⟩ := h
  exact ⟨hindex, hsize, hbound, hlength, List.all_eq_true.1 hdigits⟩

theorem OutputEvidence.Sound.digest (h : item.Sound) :
    unhex item.sha256.toList = some item.entry.digest ∧ hex item.entry.digest = item.sha256.toList ∧
      item.entry.digest.length = 32 := by
  obtain ⟨digest, hunhex, hhex, hlen⟩ := @exists_hex 32 _ h.digestLength h.digestDigits
  have hentry : item.entry.digest = digest := by simp [OutputEvidence.entry, hunhex]
  exact ⟨by rw [hentry, hunhex], by rw [hentry, hhex], by rw [hentry, hlen]⟩

/-- The entry of an accepted item determines the item. -/
theorem OutputEvidence.Sound.ext (h : item.Sound) (h' : other.Sound)
    (heq : item.entry = other.entry) : item = other := by
  have hnumber : item.sheetIndex.toNat = other.sheetIndex.toNat := congrArg Entry.sheetIndex heq
  have hfile : item.file.toList = other.file.toList := congrArg Entry.name heq
  have hsize : item.sizeBytes.toNat = other.sizeBytes.toNat := congrArg Entry.size heq
  have hdigest : item.sha256.toList = other.sha256.toList := by
    rw [← h.digest.2.1, ← h'.digest.2.1, heq]
  have hindices := And.intro h.sheetIndex h'.sheetIndex
  have hsizes := And.intro h.size h'.size
  have hindex' : item.sheetIndex = other.sheetIndex := by omega
  have hsize' : item.sizeBytes = other.sizeBytes := by omega
  cases item with
  | mk index file size sha256 =>
    cases other with
    | mk index' file' size' sha256' =>
      simp only [OutputEvidence.mk.injEq]
      exact ⟨hindex', String.toList_injective hfile, hsize', String.toList_injective hdigest⟩

theorem packQ_eq {value : Int} (hnonneg : 0 ≤ value) (h : packQ value = .ok bytes) :
    value.toNat < 256 ^ 8 ∧ bytes = bigEndian 8 value.toNat := by
  unfold packQ at h
  split at h
  · next hrange =>
    have hmod : value % 2 ^ 64 = value := Int.emod_eq_of_lt hnonneg (by omega)
    rw [hmod] at h
    exact ⟨by omega, (Except.ok.inj h).symm⟩
  · cases h

theorem packItem_eq (h : packItem item = .ok bytes) :
    item.Sound ∧ item.entry.Fits ∧ bytes = item.entry.encode := by
  unfold packItem at h
  split at h
  · next haccepted =>
    have hsound := OutputEvidence.sound haccepted
    obtain ⟨index, hindex, h⟩ := bind_eq_ok.1 h
    obtain ⟨length, hlength, h⟩ := bind_eq_ok.1 h
    obtain ⟨size, hsize, h⟩ := bind_eq_ok.1 h
    rw [hsound.digest.1] at h
    obtain ⟨hi, rfl⟩ := packQ_eq (Int.le_of_lt hsound.sheetIndex) hindex
    obtain ⟨hl, rfl⟩ := packQ_eq (Int.natCast_nonneg _) hlength
    obtain ⟨hs, rfl⟩ := packQ_eq (Int.le_of_lt hsound.size) hsize
    rw [Int.toNat_natCast] at hl h
    refine ⟨hsound, ⟨hi, hl, hs, hsound.digest.2.2⟩, ?_⟩
    rw [← pure_eq_ok.1 h, Entry.encode]
    simp only [List.append_assoc]
    rfl
  · cases h

theorem packItems_eq {items : List OutputEvidence} {packed : List Bytes}
    (h : items.mapM packItem = .ok packed) :
    (∀ x ∈ items, x.Sound ∧ x.entry.Fits) ∧
      packed.flatten = (items.map (·.entry)).flatMap Entry.encode := by
  have hall := mapM_eq_ok.1 h
  clear h
  induction hall with
  | nil => exact ⟨by simp, rfl⟩
  | @cons x bytes xs rest hx _ ih =>
    obtain ⟨hsound, hfits, rfl⟩ := packItem_eq hx
    constructor
    · intro y hy
      rcases List.mem_cons.1 hy with rfl | hmem
      · exact ⟨hsound, hfits⟩
      · exact ih.1 y hmem
    · rw [List.flatten_cons, ih.2, List.map_cons, List.flatMap_cons]

theorem canonicalOutputs_eq {outputs : List OutputEvidence} (h : canonicalOutputs outputs = .ok bytes) :
    1 ≤ outputs.length ∧ outputs.length ≤ 5000 ∧ (∀ x ∈ outputs, x.Sound ∧ x.entry.Fits) ∧
      bytes = encodeEntries (outputs.map (·.entry)) := by
  unfold canonicalOutputs at h
  split at h
  · next hcount =>
    obtain ⟨count, hc, h⟩ := bind_eq_ok.1 h
    obtain ⟨packed, hpacked, h⟩ := bind_eq_ok.1 h
    obtain ⟨_, rfl⟩ := packQ_eq (Int.natCast_nonneg _) hc
    obtain ⟨hall, hflat⟩ := packItems_eq hpacked
    refine ⟨hcount.1, hcount.2, hall, ?_⟩
    rw [← pure_eq_ok.1 h, hflat, encodeEntries, List.length_map, Int.toNat_natCast,
      List.append_assoc]
  · cases h

/-- Two lists that the audit accepts and encodes to the same bytes are the same. -/
theorem canonicalOutputs_injective {xs ys : List OutputEvidence} (hx : canonicalOutputs xs = .ok bytes)
    (hy : canonicalOutputs ys = .ok bytes) : xs = ys := by
  obtain ⟨_, hlx, hallx, hbx⟩ := canonicalOutputs_eq hx
  obtain ⟨_, hly, hally, hby⟩ := canonicalOutputs_eq hy
  have hentries : xs.map (·.entry) = ys.map (·.entry) := by
    refine encodeEntries_injective ?_ ?_ ?_ ?_ (hbx.symm.trans hby)
    · simpa using Nat.lt_of_le_of_lt hlx (by decide)
    · simpa using Nat.lt_of_le_of_lt hly (by decide)
    · intro e he
      obtain ⟨x, hmem, rfl⟩ := List.mem_map.1 he
      exact (hallx x hmem).2
    · intro e he
      obtain ⟨y, hmem, rfl⟩ := List.mem_map.1 he
      exact (hally y hmem).2
  -- the entries determine the items they came from
  have hlift : ∀ (as bs : List OutputEvidence), (∀ x ∈ as, x.Sound) → (∀ y ∈ bs, y.Sound) →
      as.map (·.entry) = bs.map (·.entry) → as = bs := by
    intro as
    induction as with
    | nil =>
      intro bs _ _ h
      exact (List.map_eq_nil_iff.1 h.symm).symm
    | cons a as ih =>
      intro bs ha hb h
      cases bs with
      | nil => cases h
      | cons b bs =>
        obtain ⟨hhead, htail⟩ := List.cons.inj h
        rw [(ha a List.mem_cons_self).ext (hb b List.mem_cons_self) hhead,
          ih bs (fun x hx => ha x (List.mem_cons_of_mem _ hx))
            (fun y hy => hb y (List.mem_cons_of_mem _ hy)) htail]
  exact hlift xs ys (fun x hmem => (hallx x hmem).1) (fun y hmem => (hally y hmem).1) hentries

end Audit

/-! ### The worker builds the encoding -/

theorem fillBytes_eq (width value : Nat) (done : Bytes) :
    fillBytes width value done = bigEndian width value ++ done := by
  induction width generalizing value done with
  | zero => rfl
  | succ width ih =>
    have hbyte : UInt8.ofNat (value &&& 0xFF) = UInt8.ofNat value := by
      apply UInt8.toNat_inj.1
      rw [UInt8.toNat_ofNat', UInt8.toNat_ofNat', Nat.and_two_pow_sub_one_eq_mod value 8,
        Nat.mod_mod]
    have hshift : value >>> 8 = value / 256 := Nat.shiftRight_eq_div_pow value 8
    rw [fillBytes, ih, hbyte, hshift, bigEndian, List.append_assoc]
    rfl

theorem writeInt64_eq {stream bytes : Bytes} {value : Int}
    (h : writeInt64 stream value = .ok bytes) : bytes = stream ++ bigEndian 8 value.toNat := by
  unfold writeInt64 at h
  split at h
  · cases h
  · rw [← Except.ok.inj h, fillBytes_eq, List.append_nil]

theorem toLower_toUpper_hexDigit :
    ∀ n < 16, (hexDigit n).toUpper.toLower = hexDigit n ∧ (hexDigit n).toUpper ≠ '-' := by
  decide

/-- Without the hyphens and in lower case, what `BitConverter` writes is plain hexadecimal. -/
theorem digestText_eq (bytes : Bytes) : digestText bytes = hex bytes := by
  have hbyte : ∀ b : UInt8,
      (((hexByte b).map Char.toUpper).filter (· ≠ '-')).map Char.toLower = hexByte b := by
    intro b
    have hb := b.toNat_lt
    obtain ⟨hhigh, hhigh'⟩ := toLower_toUpper_hexDigit (b.toNat / 16) (by omega)
    obtain ⟨hlow, hlow'⟩ := toLower_toUpper_hexDigit (b.toNat % 16) (by omega)
    simp [hexByte, hhigh, hhigh', hlow, hlow']
  induction bytes with
  | nil => rfl
  | cons b bytes ih =>
    cases bytes with
    | nil => simpa [digestText, bitConverterToString, hex] using hbyte b
    | cons c bytes =>
      have hstep : digestText (b :: c :: bytes) =
          (((hexByte b).map Char.toUpper).filter (· ≠ '-')).map Char.toLower ++
            digestText (c :: bytes) := by
        simp [digestText, bitConverterToString, List.intercalate]
      rw [hstep, hbyte, ih]
      rfl

/-- The worker finds this evidence for an output, in its turn. -/
structure Reads (platform : Platform) (turn : Nat) (output : PublishManifestOutput)
    (item : OutputEvidence) (path : List UInt16) (contents : Bytes) : Prop where
  sheetIndex : output.sheetIndex = item.sheetIndex
  fullPath : platform.getFullPath (output.pdf.getD []) = .ok path
  file : getFileName path = utf16 item.file.toList
  size : (platform.probe turn path).length = item.sizeBytes
  read : (platform.probe turn path).contents = .ok contents
  sha256 : hex (platform.sha256 contents) = item.sha256.toList

def ReadsAll (platform : Platform) :
    Nat → List PublishManifestOutput → List OutputEvidence → Prop
  | _, [], [] => True
  | turn, output :: outputs, item :: items =>
    (∃ path contents, Reads platform turn output item path contents) ∧
      ReadsAll platform (turn + 1) outputs items
  | _, _, _ => False

section Worker

variable {platform : Platform} {output : PublishManifestOutput} {item : OutputEvidence}
  {stream bytes : Bytes} {turn : Nat}

theorem hexToBytes_eq {text : List Char} (h : hexToBytes text = .ok bytes) :
    unhex text = some bytes := by
  unfold hexToBytes at h
  split at h
  · cases h
  · split at h
    · cases h
    · next hunhex => rw [hunhex, Except.ok.inj h]

/-- A turn of the loop that finds this evidence appends its entry. -/
theorem writeOutput_eq {path : List UInt16} {contents : Bytes}
    (hr : Reads platform turn output item path contents)
    (h : writeOutput platform turn stream output = .ok bytes) :
    bytes = stream ++ item.entry.encode := by
  obtain ⟨path', hpath, h⟩ := bind_eq_ok.1 h
  obtain rfl : path = path' := Except.ok.inj (hr.fullPath.symm.trans (mapError_eq_ok.1 hpath))
  simp only at h
  split at h
  · cases h
  split at h
  · cases h
  split at h
  · cases h
  split at h
  · cases h
  split at h
  · cases h
  obtain ⟨contents', hcontents, h⟩ := bind_eq_ok.1 h
  obtain rfl : contents = contents' :=
    Except.ok.inj (hr.read.symm.trans (mapError_eq_ok.1 hcontents))
  split at h
  · cases h
  obtain ⟨stream₁, h₁, h⟩ := bind_eq_ok.1 h
  obtain ⟨stream₂, h₂, h⟩ := bind_eq_ok.1 h
  obtain ⟨stream₃, h₃, h⟩ := bind_eq_ok.1 h
  obtain ⟨digest, hdigest, h⟩ := bind_eq_ok.1 h
  have hunhex : unhex item.sha256.toList = some digest := by
    have hread := hexToBytes_eq hdigest
    rwa [digestText_eq, hr.sha256] at hread
  have hname : utf8 (decodeUtf16 (getFileName path)) = utf8 item.file.toList := by
    rw [hr.file, decodeUtf16_utf16]
  rw [← pure_eq_ok.1 h, writeInt64_eq h₃, writeInt64_eq h₂, writeInt64_eq h₁, hname, hr.sheetIndex,
    hr.size, Int.toNat_natCast, Entry.encode]
  simp [OutputEvidence.entry, hunhex]

theorem writeOutputs_eq {outputs : List PublishManifestOutput} {items : List OutputEvidence}
    (hr : ReadsAll platform turn outputs items)
    (h : writeOutputs platform turn outputs stream = .ok bytes) :
    bytes = stream ++ (items.map (·.entry)).flatMap Entry.encode := by
  induction outputs generalizing turn items stream with
  | nil =>
    cases items with
    | nil => simpa using (Except.ok.inj h).symm
    | cons item items => cases hr
  | cons output outputs ih =>
    cases items with
    | nil => cases hr
    | cons item items =>
      obtain ⟨⟨path, contents, hread⟩, hrest⟩ := hr
      obtain ⟨stream', hone, hmore⟩ := bind_eq_ok.1 h
      rw [ih hrest hmore, writeOutput_eq hread hone, List.append_assoc]
      rfl

theorem ReadsAll.length {outputs : List PublishManifestOutput} {items : List OutputEvidence}
    (hr : ReadsAll platform turn outputs items) : outputs.length = items.length := by
  induction outputs generalizing turn items with
  | nil =>
    cases items with
    | nil => rfl
    | cons item items => cases hr
  | cons output outputs ih =>
    cases items with
    | nil => cases hr
    | cons item items => exact congrArg Nat.succ (ih hr.2)

theorem canonicalStream_eq {outputs : List PublishManifestOutput} {items : List OutputEvidence}
    (hr : ReadsAll platform 0 outputs items)
    (h : canonicalStream platform (some outputs) = .ok bytes) :
    bytes = encodeEntries (items.map (·.entry)) := by
  unfold canonicalStream at h
  simp only at h
  split at h
  · cases h
  · obtain ⟨stream, hcount, h⟩ := bind_eq_ok.1 h
    rw [writeOutputs_eq hr h, writeInt64_eq hcount, Int.toNat_natCast, hr.length, encodeEntries,
      List.length_map, List.append_assoc]

end Worker

/-- Two byte strings of one digest. -/
def Collides (sha256 : Bytes → Bytes) (a b : Bytes) : Prop := a ≠ b ∧ sha256 a = sha256 b

/-- What a receipt of the worker says to the audit: the bytes are the same on both sides, no other
list has them, and no other list has the digest of the receipt unless two strings collide. -/
structure Binds (platform : Platform) (outputs : List PublishManifestOutput)
    (items : List OutputEvidence) : Prop where
  same : ∀ stream bytes, canonicalStream platform (some outputs) = .ok stream →
    canonicalOutputs items = .ok bytes → stream = bytes
  digest : ∀ receipt bytes, tryCompute platform (some outputs) = .ok (.ok receipt) →
    canonicalOutputs items = .ok bytes →
      receipt.1 = items.length ∧
      buildReceiptOutputDigest platform.sha256 items = .ok receipt.2
  injective : ∀ others bytes, canonicalOutputs items = .ok bytes →
    canonicalOutputs others = .ok bytes → others = items
  unique : ∀ receipt others bytes bytes', tryCompute platform (some outputs) = .ok (.ok receipt) →
    canonicalOutputs items = .ok bytes → canonicalOutputs others = .ok bytes' →
    ¬Collides platform.sha256 bytes bytes' →
    buildReceiptOutputDigest platform.sha256 others = .ok receipt.2 → others = items

theorem tryCompute_eq {platform : Platform} {outputs : List PublishManifestOutput}
    {receipt : Nat × List Char} (h : tryCompute platform (some outputs) = .ok (.ok receipt)) :
    ∃ stream, canonicalStream platform (some outputs) = .ok stream ∧
      receipt = (outputs.length, hex (platform.sha256 stream)) := by
  unfold tryCompute at h
  split at h
  · next stream hstream =>
    refine ⟨stream, hstream, ?_⟩
    rw [← Except.ok.inj (Except.ok.inj h), digestText_eq]
    rfl
  · cases h
  · cases h
  · cases h

theorem buildReceiptOutputDigest_eq {sha256 : Bytes → Bytes} {items : List OutputEvidence}
    {bytes : Bytes} (h : canonicalOutputs items = .ok bytes) :
    buildReceiptOutputDigest sha256 items = .ok (hex (sha256 bytes)) := by
  simp [buildReceiptOutputDigest, h, bind, Except.bind, pure, Except.pure]

/-- The receipt of the outputs that the worker found binds the evidence that describes them. -/
theorem receipt_binds (platform : Platform) (outputs : List PublishManifestOutput)
    (items : List OutputEvidence) (hr : ReadsAll platform 0 outputs items) :
    Binds platform outputs items where
  same stream bytes hstream hbytes := by
    obtain ⟨_, _, _, hentries⟩ := canonicalOutputs_eq hbytes
    rw [canonicalStream_eq hr hstream, hentries]
  digest receipt bytes hreceipt hbytes := by
    obtain ⟨stream, hstream, rfl⟩ := tryCompute_eq hreceipt
    obtain ⟨_, _, _, hentries⟩ := canonicalOutputs_eq hbytes
    refine ⟨hr.length, ?_⟩
    rw [buildReceiptOutputDigest_eq hbytes, canonicalStream_eq hr hstream, hentries]
  injective others bytes hitems hothers := canonicalOutputs_injective hothers hitems
  unique receipt others bytes bytes' hreceipt hitems hothers hfree hdigest := by
    obtain ⟨stream, hstream, rfl⟩ := tryCompute_eq hreceipt
    obtain ⟨_, _, _, hentries⟩ := canonicalOutputs_eq hitems
    rw [buildReceiptOutputDigest_eq hothers] at hdigest
    have hsha : platform.sha256 bytes' = platform.sha256 bytes := by
      rw [hentries, ← canonicalStream_eq hr hstream]
      exact hex_injective (Except.ok.inj hdigest)
    have hbytes : bytes = bytes' := by
      by_contra hne
      exact hfree ⟨hne, hsha.symm⟩
    exact canonicalOutputs_injective hothers (hbytes ▸ hitems)

/-- One published file of eight bytes. -/
def publishedFile : Bytes := utf8 "%PDF-1.7".toList

def publishedEvidence : OutputEvidence where
  sheetIndex := 1
  file := "Ç1.pdf"
  sizeBytes := 8
  sha256 := "86edbaa24831badfa0a8b04bb410141e2ee4182b6d0014493fe262a7a331c20b"

/-- The digests of the file, and of the receipt's byte string. -/
def publishedSha256 (bytes : Bytes) : Bytes :=
  (unhex (if bytes = publishedFile then publishedEvidence.sha256
    else "f380b698e67a667d2823de2b5a7f1a5eb32a39dfd0da41f4bac96e73d595ac38").toList).getD []

def publishPlatform : Platform where
  getFullPath path := .ok path
  probe _ _ := ⟨true, false, false, 8, .ok publishedFile, true, 8⟩
  sha256 := publishedSha256

def publishedOutput : PublishManifestOutput := ⟨1, some (utf16 "C:\\jobs\\1\\output\\Ç1.pdf".toList)⟩

theorem receipt_binds_published :
    tryCompute publishPlatform (some [publishedOutput]) =
      .ok (.ok (1, "f380b698e67a667d2823de2b5a7f1a5eb32a39dfd0da41f4bac96e73d595ac38".toList)) ∧
    canonicalOutputs [publishedEvidence] = .ok (encodeEntries [publishedEvidence.entry]) ∧
    Binds publishPlatform [publishedOutput] [publishedEvidence] := by
  refine ⟨by decide +kernel, by decide +kernel, ?_⟩
  refine receipt_binds publishPlatform [publishedOutput] [publishedEvidence] ⟨?_, trivial⟩
  exact ⟨utf16 "C:\\jobs\\1\\output\\Ç1.pdf".toList, publishedFile, rfl, rfl, by decide +kernel, rfl,
    rfl, by decide +kernel⟩

end CadPlot.Publish
