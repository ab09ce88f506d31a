import BuildEngine.Base.Hex
import BuildEngine.Base.Outcome
import BuildEngine.Config.EngineConfig

/-! # The verified download

`download_source` writes what it is sent to a temporary file, and moves that file to the destination when all checks
have passed: whatever is raised leaves the destination as it was (`downloadSource_raises`). The digest is taken of the
bytes received and the limit is compared with their number; but the expected size is compared with the header
`Content-Length` only, which need not be there and need not be true (`download_verified_iff`). -/

namespace BuildEngine.Executor.Download

open BuildEngine.Base BuildEngine.Base.Hex BuildEngine.Config

/-! ### What is called -/

/-- An exception of what is called: a `URLError` with its reason, another `OSError` with its text, a `WorkspaceError`
with its text, or another one. -/
inductive Fault where
  | url (reason : PyStr)
  | os (text : PyStr)
  | workspace (text : PyStr)
  | other
  deriving DecidableEq

/-- What one `read` gives, which is not empty before the end, and what writing it raises. -/
structure Chunk where
  data : List Byte
  nonempty : data ≠ []
  fault : Option Fault

/-- The response that `_open_source` returns: the header `Content-Length`, the chunks, and what the last `read` raises
instead of the empty chunk, and `close`. -/
structure SourceResponse where
  contentLength : Option PyStr
  chunks : List Chunk
  ending : Option Fault
  closing : Option Fault

/-- The concatenation of some chunks. -/
def dataOf (chunks : List Chunk) : List Byte := chunks.flatMap Chunk.data

/-- What the call meets. -/
structure World where
  /-- what `mkdir` or `with_suffix` raises -/
  prepare : Option Fault
  /-- `_open_source` -/
  source : Except Fault SourceResponse
  /-- what opening and closing the temporary file raises -/
  openTemp : Option Fault
  closeTemp : Option Fault
  /-- what `unlink` and `replace` raise -/
  unlink : Option Fault
  replace : Option Fault

/-- The arguments, other than those of `_open_source`. -/
structure DownloadArgs where
  expectedSha256 : PyStr
  expectedSize : Option ℤ
  maxBytes : Option ℤ

/-- The contents of the destination and of the temporary file beside it, where they are. -/
structure Files where
  destination : Option (List Byte)
  temp : Option (List Byte)
  deriving DecidableEq

/-! ### What is raised -/

/-- What `download_source` raises: its own `WorkspaceError`s, or what is called raises. -/
inductive DownloadError where
  | digestForm
  | negativeSize
  | badLength
  | sizeMismatch
  | tooLarge
  | failed (reason : PyStr)
  | unverified
  | raised (fault : Fault)
  deriving DecidableEq

/-- The text of a `WorkspaceError`. -/
def DownloadError.text : DownloadError → Option PyStr
  | digestForm => py "expected_sha256 must be a 64-character hexadecimal digest"
  | negativeSize => py "expected_size must not be negative"
  | badLength => py "Source response has an invalid Content-Length"
  | sizeMismatch => py "Source archive size does not match the assignment"
  | tooLarge => py "Source archive exceeds configured maximum size"
  | failed reason => py "Source download failed: " ++ reason
  | unverified => py "Source SHA256 verification failed"
  | raised (.workspace text) => text
  | raised _ => none

/-- `except error.URLError` and `except OSError` -/
def DownloadError.converted : DownloadError → DownloadError
  | raised (.url reason) => failed reason
  | raised (.os text) => failed text
  | e => e

/-- What is raised, and the files then. -/
structure Stopped where
  error : DownloadError
  files : Files
  deriving DecidableEq

/-- The exception of the `try` block, as it leaves the block. -/
def Stopped.converted (s : Stopped) : Stopped := { s with error := s.error.converted }

/-- A call that may raise. -/
def attempt (fault : Option Fault) (files : Files) : Except Stopped Unit :=
  match fault with
  | none => .ok ()
  | some f => .error ⟨.raised f, files⟩

/-- A check. -/
def refuse (refused : Bool) (e : DownloadError) (files : Files) : Except Stopped Unit :=
  if refused then .error ⟨e, files⟩ else .ok ()

/-! ### The download -/

/-- `_content_length` -/
def contentLength (response : SourceResponse) : Except DownloadError (Option ℤ) :=
  match response.contentLength with
  | none => .ok none
  | some raw =>
    match intOfText raw with
    | none => .error .badLength
    | some value => if value < 0 then .error .badLength else .ok (some value)

/-- What has been received: the number of bytes, the bytes hashed, and the files. -/
structure Progress where
  total : ℕ
  hashed : List Byte
  files : Files
  deriving DecidableEq

/-- Writing to the temporary file. -/
def Files.write (files : Files) (data : List Byte) : Files := { files with temp := files.temp.map (· ++ data) }

/-- The loop that reads the response. -/
def readChunks (maxBytes : Option ℤ) (ending : Option Fault) : List Chunk → Progress → Except Stopped Progress
  | [], p => do
    attempt ending p.files
    return p
  | chunk :: chunks, p => do
    let total := p.total + chunk.data.length
    refuse (maxBytes.any fun limit => limit < (total : ℤ)) .tooLarge p.files
    attempt chunk.fault p.files
    readChunks maxBytes ending chunks ⟨total, p.hashed ++ chunk.data, p.files.write chunk.data⟩

/-- The body of the `with` statement, on an empty temporary file. -/
def receive (a : DownloadArgs) (response : SourceResponse) (files : Files) : Except Stopped Progress := do
  let length ← (contentLength response).mapError fun e => ⟨e, files⟩
  refuse (a.expectedSize.any fun size => length.any fun n => n ≠ size) .sizeMismatch files
  refuse (a.maxBytes.any fun limit => a.expectedSize.any fun size => limit < size) .tooLarge files
  readChunks a.maxBytes response.ending response.chunks ⟨0, [], files⟩

/-- The files at the end of a block. -/
def filesAfter : Except Stopped Progress → Files
  | .ok p => p.files
  | .error s => s.files

/-- The end of a `with` block: what `close` raises, if it raises, hides what the block gave. -/
def closing (fault : Option Fault) (block : Except Stopped Progress) : Except Stopped Progress :=
  match fault with
  | none => block
  | some f => .error ⟨.raised f, filesAfter block⟩

/-- The `with` statement. -/
def fetch (a : DownloadArgs) (w : World) (files : Files) : Except Stopped Progress := do
  let response ← w.source.mapError fun f => ⟨.raised f, files⟩
  closing response.closing do
    attempt w.openTemp files
    closing w.closeTemp (receive a response { files with temp := some [] })

/-- `re.fullmatch(r"[0-9a-fA-F]{64}", s)` -/
def isDigest (s : PyStr) : Bool := s.length = 64 && s.all isHexDigit

section
variable (sha256 : List Byte → List Byte)

/-- `download_source`: the files after it. -/
def downloadSource (a : DownloadArgs) (w : World) (files : Files) : Except Stopped Files := do
  refuse (!isDigest a.expectedSha256) .digestForm files
  refuse (a.expectedSize.any (· < 0)) .negativeSize files
  attempt w.prepare files
  let p ← (fetch a w files).mapError Stopped.converted
  if (hexText (sha256 p.hashed)).map lowerAscii ≠ a.expectedSha256.map lowerAscii then
    attempt w.unlink p.files
    .error ⟨.unverified, { p.files with temp := none }⟩
  else
    attempt w.replace p.files
    return ⟨p.files.temp, none⟩

end

/-! ### The destination -/

/-- The destination is as it was. -/
def Kept (destination : Option (List Byte)) (s : Stopped) : Prop := s.files.destination = destination

theorem kept_attempt (fault : Option Fault) (files : Files) : Raises (Kept files.destination) (attempt fault files) := by
  rcases fault with _ | f
  · exact raises_ok ()
  · exact (raises_error _).mpr rfl

theorem kept_refuse (refused : Bool) (e : DownloadError) (files : Files) :
    Raises (Kept files.destination) (refuse refused e files) := by
  rcases refused with _ | _
  · exact raises_ok ()
  · exact (raises_error _).mpr rfl

theorem destination_bind {α : Type} {destination : Option (List Byte)} {x : Except Stopped α}
    {k : α → Except Stopped Progress} (hx : Raises (Kept destination) x)
    (hk : ∀ b, (filesAfter (k b)).destination = destination) : (filesAfter (x >>= k)).destination = destination := by
  rcases x with s | b
  · exact (raises_error s).mp hx
  · exact hk b

theorem destination_readChunks (maxBytes : Option ℤ) (ending : Option Fault) : ∀ (chunks : List Chunk) (p : Progress),
    (filesAfter (readChunks maxBytes ending chunks p)).destination = p.files.destination
  | [], p => destination_bind (kept_attempt ending p.files) fun _ => rfl
  | chunk :: chunks, p =>
    destination_bind (kept_refuse _ _ p.files) fun _ =>
      destination_bind (kept_attempt chunk.fault p.files) fun _ => destination_readChunks maxBytes ending chunks _

theorem destination_receive (a : DownloadArgs) (response : SourceResponse) (files : Files) :
    (filesAfter (receive a response files)).destination = files.destination := by
  have hlength : Raises (Kept files.destination)
      ((contentLength response).mapError fun e => (⟨e, files⟩ : Stopped)) := by
    rw [raises_mapError]
    exact fun _ _ => rfl
  exact destination_bind hlength fun _ => destination_bind (kept_refuse _ _ files) fun _ =>
    destination_bind (kept_refuse _ _ files) fun _ => destination_readChunks _ _ _ _

theorem filesAfter_closing (fault : Option Fault) (block : Except Stopped Progress) :
    filesAfter (closing fault block) = filesAfter block := by
  rcases fault with _ | f <;> rfl

theorem destination_fetch (a : DownloadArgs) (w : World) (files : Files) :
    (filesAfter (fetch a w files)).destination = files.destination := by
  have hsource : Raises (Kept files.destination) (w.source.mapError fun f => (⟨.raised f, files⟩ : Stopped)) := by
    rw [raises_mapError]
    exact fun _ _ => rfl
  refine destination_bind hsource fun response => ?_
  rw [filesAfter_closing]
  refine destination_bind (kept_attempt w.openTemp files) fun _ => ?_
  rw [filesAfter_closing]
  exact destination_receive a response _

/-- **A call that raises leaves the destination as it was.** -/
theorem downloadSource_raises (sha256 : List Byte → List Byte) (a : DownloadArgs) (w : World) (files : Files) :
    Raises (Kept files.destination) (downloadSource sha256 a w files) := by
  have hfetch := destination_fetch a w files
  have hraised : Raises (Kept files.destination) ((fetch a w files).mapError Stopped.converted) := by
    rw [raises_mapError]
    intro s hs
    rw [hs] at hfetch
    exact hfetch
  unfold downloadSource
  refine (raises_bind _ _).mpr ⟨kept_refuse _ _ files, fun _ _ => ?_⟩
  refine (raises_bind _ _).mpr ⟨kept_refuse _ _ files, fun _ _ => ?_⟩
  refine (raises_bind _ _).mpr ⟨kept_attempt _ files, fun _ _ => ?_⟩
  refine (raises_bind _ _).mpr ⟨hraised, fun p hp => ?_⟩
  rw [(mapError_ok_iff _ _ p).mp hp] at hfetch
  have hp : p.files.destination = files.destination := hfetch
  rw [← hp]
  split_ifs
  · exact (raises_bind _ _).mpr ⟨kept_attempt _ p.files, fun _ _ => (raises_error _).mpr rfl⟩
  · exact (raises_bind _ _).mpr ⟨kept_attempt _ p.files, fun _ _ => raises_pure _⟩

/-! ### What is accepted -/

theorem attempt_bind_ok_iff {α : Type} (fault : Option Fault) (files : Files) (k : Unit → Except Stopped α) (b : α) :
    attempt fault files >>= k = .ok b ↔ fault = none ∧ k () = .ok b := by
  rcases fault with _ | f
  · exact (and_iff_right rfl).symm
  · exact iff_of_false (fun h => by cases h) fun h => by cases h.1

theorem refuse_bind_ok_iff {α : Type} (refused : Bool) (e : DownloadError) (files : Files)
    (k : Unit → Except Stopped α) (b : α) : refuse refused e files >>= k = .ok b ↔ refused = false ∧ k () = .ok b := by
  rcases refused with _ | _
  · exact (and_iff_right rfl).symm
  · exact iff_of_false (fun h => by cases h) fun h => by cases h.1

theorem any_false_iff {α : Type} (o : Option α) (p : α → Bool) : o.any p = false ↔ ∀ x ∈ o, p x = false := by
  rcases o with _ | x <;> simp

theorem Files.write_write (files : Files) (data data' : List Byte) :
    (files.write data).write data' = files.write (data ++ data') := by
  rcases files with ⟨destination, _ | temp⟩
  · rfl
  · simp only [Files.write, Option.map_some, List.append_assoc]

theorem Files.write_nil (files : Files) : files.write [] = files := by
  rcases files with ⟨destination, _ | temp⟩
  · rfl
  · simp only [Files.write, Option.map_some, List.append_nil]

/-- All is read and written, within the limit. -/
structure ReadsAll (maxBytes : Option ℤ) (ending : Option Fault) (chunks : List Chunk) (total : ℕ) : Prop where
  read : ending = none
  written : ∀ chunk ∈ chunks, chunk.fault = none
  within : chunks ≠ [] → ∀ limit ∈ maxBytes, ((total + (dataOf chunks).length : ℕ) : ℤ) ≤ limit

/-- The loop ends if all is read and written, within the limit. -/
theorem readChunks_ok_iff (maxBytes : Option ℤ) (ending : Option Fault) : ∀ (chunks : List Chunk) (p p' : Progress),
    readChunks maxBytes ending chunks p = .ok p' ↔ ReadsAll maxBytes ending chunks p.total ∧
      p' = ⟨p.total + (dataOf chunks).length, p.hashed ++ dataOf chunks, p.files.write (dataOf chunks)⟩
  | [], p, p' => by
    have hdata : dataOf [] = [] := rfl
    rw [readChunks, attempt_bind_ok_iff, hdata, List.length_nil, List.append_nil, Nat.add_zero, Files.write_nil]
    constructor
    · rintro ⟨hending, hp⟩
      exact ⟨⟨hending, by simp, fun h => absurd rfl h⟩, (Except.ok.inj hp).symm⟩
    · rintro ⟨hall, rfl⟩
      exact ⟨hall.read, rfl⟩
  | chunk :: chunks, p, p' => by
    have hdata : dataOf (chunk :: chunks) = chunk.data ++ dataOf chunks := rfl
    have hlen : p.total + (chunk.data ++ dataOf chunks).length = p.total + chunk.data.length + (dataOf chunks).length := by
      rw [List.length_append]
      omega
    rw [readChunks, refuse_bind_ok_iff, attempt_bind_ok_iff, readChunks_ok_iff maxBytes ending chunks, any_false_iff,
      hdata, hlen, List.append_assoc, Files.write_write]
    simp only [decide_eq_false_iff_not, not_lt]
    constructor
    · rintro ⟨hfirst, hfault, hall, hp⟩
      refine ⟨⟨hall.read, List.forall_mem_cons.mpr ⟨hfault, hall.written⟩, fun _ limit hlimit => ?_⟩, hp⟩
      rw [hdata, hlen]
      rcases eq_or_ne chunks [] with rfl | hne
      · exact hfirst limit hlimit
      · exact hall.within hne limit hlimit
    · rintro ⟨⟨hread, hwritten, hwithin⟩, hp⟩
      have hlast := hwithin (List.cons_ne_nil _ _)
      rw [hdata, hlen] at hlast
      obtain ⟨hfault, hfaults⟩ := List.forall_mem_cons.mp hwritten
      refine ⟨fun limit hlimit => ?_, hfault, ⟨hread, hfaults, fun _ => hlast⟩, hp⟩
      have := hlast limit hlimit
      omega

/-- The header, if there is one, is a number, and the expected size if there is one. -/
structure Announced (a : DownloadArgs) (response : SourceResponse) : Prop where
  number : ∃ length, contentLength response = .ok length ∧ ∀ size ∈ a.expectedSize, ∀ n ∈ length, n = size

/-- The response is received as a whole. -/
structure Received (a : DownloadArgs) (response : SourceResponse) : Prop where
  announced : Announced a response
  sizeWithin : ∀ limit ∈ a.maxBytes, ∀ size ∈ a.expectedSize, size ≤ limit
  all : ReadsAll a.maxBytes response.ending response.chunks 0

theorem receive_ok_iff (a : DownloadArgs) (response : SourceResponse) (files : Files) (p : Progress) :
    receive a response files = .ok p ↔ Received a response ∧
      p = ⟨(dataOf response.chunks).length, dataOf response.chunks, files.write (dataOf response.chunks)⟩ := by
  have hrest : ∀ length : Option ℤ, (do
      refuse (a.expectedSize.any fun size => length.any fun n => n ≠ size) .sizeMismatch files
      refuse (a.maxBytes.any fun limit => a.expectedSize.any fun size => limit < size) .tooLarge files
      readChunks a.maxBytes response.ending response.chunks ⟨0, [], files⟩) = .ok p ↔
      (∀ size ∈ a.expectedSize, ∀ n ∈ length, n = size) ∧ (∀ limit ∈ a.maxBytes, ∀ size ∈ a.expectedSize, size ≤ limit) ∧
        ReadsAll a.maxBytes response.ending response.chunks 0 ∧
        p = ⟨(dataOf response.chunks).length, dataOf response.chunks, files.write (dataOf response.chunks)⟩ := by
    intro length
    rw [refuse_bind_ok_iff, refuse_bind_ok_iff, readChunks_ok_iff, Nat.zero_add, List.nil_append]
    simp only [any_false_iff, decide_eq_false_iff_not, not_not, not_lt]
  constructor
  · intro h
    obtain ⟨length, hlength, h⟩ := bind_ok h
    obtain ⟨hsize, hwithin, hall, hp⟩ := (hrest length).mp h
    exact ⟨⟨⟨length, (mapError_ok_iff _ _ _).mp hlength, hsize⟩, hwithin, hall⟩, hp⟩
  · rintro ⟨⟨⟨length, hlength, hsize⟩, hwithin, hall⟩, hp⟩
    have h := (hrest length).mpr ⟨hsize, hwithin, hall, hp⟩
    unfold receive
    rw [hlength]
    exact h

theorem closing_ok_iff (fault : Option Fault) (block : Except Stopped Progress) (p : Progress) :
    closing fault block = .ok p ↔ fault = none ∧ block = .ok p := by
  rcases fault with _ | f
  · exact (and_iff_right rfl).symm
  · exact iff_of_false (fun h => by cases h) fun h => by cases h.1

/-- The response is opened, received as a whole and closed. -/
structure Fetched (a : DownloadArgs) (w : World) (response : SourceResponse) : Prop where
  opened : w.source = .ok response
  openedTemp : w.openTemp = none
  received : Received a response
  closed : w.closeTemp = none ∧ response.closing = none

theorem fetch_ok_iff (a : DownloadArgs) (w : World) (files : Files) (p : Progress) :
    fetch a w files = .ok p ↔ ∃ response, Fetched a w response ∧ p = ⟨(dataOf response.chunks).length,
      dataOf response.chunks, { files with temp := some (dataOf response.chunks) }⟩ := by
  have hwrite : ∀ data, ({ files with temp := some [] } : Files).write data = { files with temp := some data } :=
    fun _ => rfl
  unfold fetch
  constructor
  · intro h
    obtain ⟨response, hsource, h⟩ := bind_ok h
    obtain ⟨hclosing, h⟩ := (closing_ok_iff _ _ _).mp h
    obtain ⟨htemp, h⟩ := (attempt_bind_ok_iff _ _ _ _).mp h
    obtain ⟨hcloseTemp, h⟩ := (closing_ok_iff _ _ _).mp h
    obtain ⟨hreceived, hp⟩ := (receive_ok_iff _ _ _ _).mp h
    exact ⟨response, ⟨(mapError_ok_iff _ _ _).mp hsource, htemp, hreceived, hcloseTemp, hclosing⟩, by rw [hp, hwrite]⟩
  · rintro ⟨response, ⟨hsource, htemp, hreceived, hcloseTemp, hclosing⟩, hp⟩
    have hreceive := (receive_ok_iff a response { files with temp := some [] } p).mpr ⟨hreceived, by rw [hp, hwrite]⟩
    rw [hsource]
    refine (closing_ok_iff _ _ _).mpr ⟨hclosing, (attempt_bind_ok_iff _ _ _ _).mpr ⟨htemp, ?_⟩⟩
    exact (closing_ok_iff _ _ _).mpr ⟨hcloseTemp, hreceive⟩

/-- An upper-case letter is 32 below the lower-case one. -/
theorem val_lowerAscii (c : CodePoint) :
    (lowerAscii c).val = if 65 ≤ c.val ∧ c.val ≤ 90 then c.val + 32 else c.val := by
  unfold lowerAscii
  split_ifs with h
  · rw [Fin.val_add]
    have hlt : c.val + 32 < 0x110000 := by omega
    exact Nat.mod_eq_of_lt hlt
  · rfl

theorem hexVal_lowerAscii (c : CodePoint) : Json.hexVal (lowerAscii c) = Json.hexVal c := by
  unfold Json.hexVal
  rw [val_lowerAscii]
  split_ifs <;> first | omega | rfl

theorem hexDigit_of_hexVal (c : CodePoint) (n : ℕ) (h : Json.hexVal c = some n) :
    n < 16 ∧ Json.hexDigit n = lowerAscii c := by
  have hn : n < 16 ∧ (lowerAscii c).val = if n < 10 then 48 + n else 87 + n := by
    rw [val_lowerAscii]
    unfold Json.hexVal at h
    split_ifs at h ⊢ <;> simp only [Option.some.injEq] at h <;> omega
  refine ⟨hn.1, Fin.ext ?_⟩
  rw [hn.2]
  exact Nat.mod_eq_of_lt (by split_ifs <;> omega)

theorem lowerAscii_lowerAscii (c : CodePoint) : lowerAscii (lowerAscii c) = lowerAscii c := by
  apply Fin.ext
  rw [val_lowerAscii, val_lowerAscii]
  split_ifs <;> omega

/-- The comparison of the digests. -/
theorem digest_eq_iff (expected : PyStr) (digest : List Byte) :
    (hexText digest).map lowerAscii = expected.map lowerAscii ↔ fromHex expected = some digest :=
  (fromHex_eq_some_iff hexVal_lowerAscii hexDigit_of_hexVal lowerAscii_lowerAscii expected digest).symm

section
variable (sha256 : List Byte → List Byte)

/-- None of the reasons to raise. -/
structure Completes (a : DownloadArgs) (w : World) (response : SourceResponse) : Prop where
  digestForm : isDigest a.expectedSha256 = true
  sizeForm : ∀ size ∈ a.expectedSize, 0 ≤ size
  prepared : w.prepare = none
  fetched : Fetched a w response
  digest : fromHex a.expectedSha256 = some (sha256 (dataOf response.chunks))
  replaced : w.replace = none

/-- **The downloads that are accepted**, and what they leave. -/
theorem downloadSource_ok_iff (a : DownloadArgs) (w : World) (files files' : Files) :
    downloadSource sha256 a w files = .ok files' ↔
      ∃ response, Completes sha256 a w response ∧ files' = ⟨some (dataOf response.chunks), none⟩ := by
  unfold downloadSource
  rw [refuse_bind_ok_iff, refuse_bind_ok_iff, attempt_bind_ok_iff, any_false_iff]
  simp only [Bool.not_eq_false', decide_eq_false_iff_not, not_lt]
  constructor
  · rintro ⟨hform, hsize, hprepare, h⟩
    obtain ⟨p, hfetch, h⟩ := bind_ok h
    obtain ⟨response, hfetched, rfl⟩ := (fetch_ok_iff _ _ _ _).mp ((mapError_ok_iff _ _ _).mp hfetch)
    split_ifs at h with hdigest
    · obtain ⟨-, h⟩ := (attempt_bind_ok_iff _ _ _ _).mp h
      cases h
    · obtain ⟨hreplace, h⟩ := (attempt_bind_ok_iff _ _ _ _).mp h
      rw [not_not, digest_eq_iff] at hdigest
      exact ⟨response, ⟨hform, hsize, hprepare, hfetched, hdigest, hreplace⟩, (Except.ok.inj h).symm⟩
  · rintro ⟨response, ⟨hform, hsize, hprepare, hfetched, hdigest, hreplace⟩, rfl⟩
    refine ⟨hform, hsize, hprepare, ?_⟩
    rw [(fetch_ok_iff a w files _).mpr ⟨response, hfetched, rfl⟩]
    have hsame := not_not.mpr ((digest_eq_iff _ _).mpr hdigest)
    show (if _ then _ else _) = _
    rw [if_neg hsame, attempt_bind_ok_iff]
    exact ⟨hreplace, rfl⟩

/-! ### What is claimed -/

/-- The bytes that are sent. -/
def World.body (w : World) : List Byte :=
  match w.source with
  | .ok response => dataOf response.chunks
  | .error _ => []

/-- The bytes have the digest, the size and the limit that are asked for, and are at the destination. -/
structure Verified (a : DownloadArgs) (body : List Byte) (files : Files) : Prop where
  digest : fromHex a.expectedSha256 = some (sha256 body)
  size : ∀ size ∈ a.expectedSize, (body.length : ℤ) = size
  limit : ∀ limit ∈ a.maxBytes, (body.length : ℤ) ≤ limit
  stored : files.destination = some body

/-- The call returns after a verified download only, and changes nothing when it raises. -/
def VerifiesDownload (a : DownloadArgs) (w : World) (files : Files) : Prop :=
  (∀ files', downloadSource sha256 a w files = .ok files' → Verified sha256 a w.body files') ∧
    ∀ stopped, downloadSource sha256 a w files = .error stopped → stopped.files.destination = files.destination

theorem body_of_fetched {a : DownloadArgs} {w : World} {response : SourceResponse} (h : Fetched a w response) :
    w.body = dataOf response.chunks := by
  unfold World.body
  rw [h.opened]

/-- No chunk, no byte. -/
theorem dataOf_eq_nil_iff (chunks : List Chunk) : dataOf chunks = [] ↔ chunks = [] := by
  unfold dataOf
  rw [List.flatMap_eq_nil_iff]
  constructor
  · intro h
    rcases chunks with _ | ⟨chunk, chunks⟩
    · rfl
    · exact absurd (h chunk List.mem_cons_self) chunk.nonempty
  · rintro rfl
    simp

/-- **A download is verified** exactly if something is raised, or the number of bytes is the expected size and the
limit of an empty body is not negative. -/
theorem download_verified_iff (a : DownloadArgs) (w : World) (files : Files) :
    VerifiesDownload sha256 a w files ↔ (¬ ∃ response, Completes sha256 a w response) ∨
      ((∀ size ∈ a.expectedSize, (w.body.length : ℤ) = size) ∧ (w.body = [] → ∀ limit ∈ a.maxBytes, 0 ≤ limit)) := by
  constructor
  · intro h
    by_cases hdone : ∃ response, Completes sha256 a w response
    · obtain ⟨response, hcompletes⟩ := hdone
      have hverified := h.1 _ ((downloadSource_ok_iff sha256 a w files _).mpr ⟨response, hcompletes, rfl⟩)
      refine Or.inr ⟨hverified.size, fun hempty limit hlimit => ?_⟩
      have hlen := hverified.limit limit hlimit
      rwa [hempty] at hlen
    · exact Or.inl hdone
  · intro h
    refine ⟨fun files' hok => ?_, fun stopped hstopped => downloadSource_raises sha256 a w files stopped hstopped⟩
    obtain ⟨response, hcompletes, rfl⟩ := (downloadSource_ok_iff sha256 a w files files').mp hok
    have hbody := body_of_fetched hcompletes.fetched
    rcases h with hnone | ⟨hsize, hlimit⟩
    · exact absurd ⟨response, hcompletes⟩ hnone
    · refine ⟨by rw [hbody]; exact hcompletes.digest, hsize, fun limit hmem => ?_, by rw [hbody]⟩
      by_cases hempty : w.body = []
      · rw [hempty]
        exact hlimit hempty limit hmem
      · have hchunks : response.chunks ≠ [] := by rwa [hbody, dataOf_eq_nil_iff] at hempty
        have hwithin := hcompletes.fetched.received.all.within hchunks limit hmem
        rwa [Nat.zero_add, ← hbody] at hwithin

end

/-- A response of three bytes in one chunk, without `Content-Length`. -/
def unannounced : SourceResponse := ⟨none, [⟨[1, 2, 3], List.cons_ne_nil _ _, none⟩], none, none⟩

/-- It is accepted where five bytes are expected. -/
theorem unannounced_accepted : ¬ ∀ (sha256 : List Byte → List Byte) (a : DownloadArgs) (w : World) (files : Files),
    VerifiesDownload sha256 a w files := by
  intro h
  have hok : downloadSource (fun _ => List.replicate 32 0) ⟨List.replicate 64 (ch '0'), some 5, none⟩
      ⟨none, .ok unannounced, none, none, none, none⟩ ⟨none, none⟩ = .ok ⟨some [1, 2, 3], none⟩ := by rfl
  have hverified := (h _ _ _ _).1 _ hok
  exact absurd (hverified.size 5 rfl) (by decide)

end BuildEngine.Executor.Download
