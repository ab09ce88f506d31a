import BuildEngine.Base.Utf8
import BuildEngine.Agent.Protocol

/-! # Redaction of the log stream

`SecretRedactor`, `pump_stream` and `_frame_chunks` of `executor/stream.py`. The reader hands the output of
the container over in chunks; each chunk is decoded, redacted and framed by itself, and a frame is published
as log data. `kept` says which characters of a chunk are still there after its redaction: a secret is in what
is published exactly if the characters that are kept spell it across a boundary between two chunks
(`no_secret_published_iff`). -/

namespace BuildEngine.Executor.Stream

open BuildEngine.Base
open BuildEngine.Agent.Protocol (maxLogDataBytes)

/-! ### The redactor -/

/-- `SecretRedactor(values)`: the non-empty values without repetition, the longest first. Secrets of one
length stand in the order in which the set gives them, which is not fixed. -/
structure SecretRedactor (values : List PyStr) where
  secrets : List PyStr
  mem_iff : ∀ s, s ∈ secrets ↔ s ∈ values ∧ s ≠ []
  nodup : secrets.Nodup
  sorted : secrets.Pairwise fun s t => t.length ≤ s.length

namespace SecretRedactor
variable {values : List PyStr}

/-- The redactor of a set that gives its values in the order of `values`. -/
def init (values : List PyStr) : SecretRedactor values where
  secrets := (values.dedup.filter (· ≠ [])).mergeSort fun s t => t.length ≤ s.length
  mem_iff := by simp
  nodup := (List.mergeSort_perm _ _).nodup_iff.mpr ((List.nodup_dedup values).filter _)
  sorted := by
    have h := @List.pairwise_mergeSort _ (fun s t : PyStr => decide (t.length ≤ s.length))
      (by simp only [decide_eq_true_eq]; omega) (by simp only [Bool.or_eq_true, decide_eq_true_eq]; omega)
      (values.dedup.filter (· ≠ []))
    simpa using h

/-- The text that stands for a secret. -/
def token : PyStr := py "[REDACTED]"

/-- `redact` -/
def redact (r : SecretRedactor values) (value : PyStr) : PyStr :=
  r.secrets.foldl (fun redacted secret => replace secret token redacted) value

end SecretRedactor

/-! ### Frames -/

/-- The inner loop of `_frame_chunks`: the largest limit, from `limit` down, whose text is not too long;
`none` where `encode` raises. -/
def fitLimit (remaining : PyStr) : ℕ → Option ℕ
  | 0 => some 0
  | limit + 1 => do
    let n ← encodedLength (remaining.take (limit + 1))
    if n ≤ maxLogDataBytes then some (limit + 1) else fitLimit remaining limit

/-- The outer loop of `_frame_chunks`. -/
def frameLoop : ℕ → PyStr → Option (List PyStr)
  | _, [] => some []
  | 0, _ :: _ => none
  | fuel + 1, c :: rest => do
    let remaining := c :: rest
    let limit ← fitLimit remaining (min remaining.length maxLogDataBytes)
    let frames ← frameLoop fuel (remaining.drop limit)
    some (remaining.take limit :: frames)

/-- `_frame_chunks`: `none` where `encode` raises or the loop does not end, which
`frameChunks_returns` excludes for a decoded text. -/
def frameChunks (value : PyStr) : Option (List PyStr) := do
  let n ← encodedLength value
  if n ≤ maxLogDataBytes then some [value] else frameLoop value.length value

/-! ### The pump -/

/-- What one call of `reader.read(MAX_LOG_DATA_BYTES)` returns before the end of the stream. -/
structure Chunk where
  bytes : List Byte
  nonempty : bytes ≠ []
  length_le : bytes.length ≤ maxLogDataBytes

/-- The text of a chunk. -/
def Chunk.text (c : Chunk) : PyStr := decodeReplace c.bytes

/-- `pump_stream`: the data of the log events it publishes, in order. -/
def pumpStream {values : List PyStr} (r : SecretRedactor values) : List Chunk → Option (List PyStr)
  | [] => some []
  | c :: chunks => do
    let frames ← frameChunks (r.redact c.text)
    let rest ← pumpStream r chunks
    some (frames ++ rest)

/-! ### Framing keeps the text -/

theorem fitLimit_returns {remaining : PyStr} (hs : ∀ c ∈ remaining, Scalar c) : ∀ limit : ℕ,
    0 < limit → ∃ n, fitLimit remaining limit = some n ∧ 0 < n
  | limit + 1, _ => by
    obtain ⟨n, hn, hle⟩ := encodedLength_of_scalar (s := remaining.take (limit + 1))
      fun c hc => hs c (List.mem_of_mem_take hc)
    rw [fitLimit, hn]
    by_cases hfit : n ≤ maxLogDataBytes
    · exact ⟨limit + 1, if_pos hfit, by omega⟩
    · -- one character is at most four bytes long
      have hpos : 0 < limit := by
        have hlen : (remaining.take (limit + 1)).length ≤ limit + 1 := List.length_take_le _ _
        unfold maxLogDataBytes at hfit
        omega
      obtain ⟨k, hk, hk0⟩ := fitLimit_returns hs limit hpos
      exact ⟨k, (if_neg hfit).trans hk, hk0⟩

theorem frameLoop_returns : ∀ {fuel : ℕ} {remaining : PyStr}, (∀ c ∈ remaining, Scalar c) →
    remaining.length ≤ fuel → ∃ frames, frameLoop fuel remaining = some frames ∧ frames.flatten = remaining
  | _, [], _, _ => ⟨[], by simp [frameLoop], rfl⟩
  | fuel + 1, c :: rest, hs, hlen => by
    obtain ⟨limit, hfit, hpos⟩ := fitLimit_returns hs (min (c :: rest).length maxLogDataBytes)
      (by simp [maxLogDataBytes])
    have hdrop : ((c :: rest).drop limit).length ≤ fuel := by
      rw [List.length_drop]
      omega
    obtain ⟨frames, hframes, hflat⟩ := frameLoop_returns
      (fun d hd => hs d (List.mem_of_mem_drop hd)) hdrop
    refine ⟨(c :: rest).take limit :: frames, ?_, ?_⟩
    · simp only [frameLoop, hfit, hframes, Option.bind_eq_bind, Option.bind_some]
    · rw [List.flatten_cons, hflat, List.take_append_drop]

/-- The frames of a text without surrogates are the text, cut. -/
theorem frameChunks_returns {value : PyStr} (hs : ∀ c ∈ value, Scalar c) :
    ∃ frames, frameChunks value = some frames ∧ frames.flatten = value := by
  obtain ⟨n, hn, -⟩ := encodedLength_of_scalar hs
  rw [frameChunks, hn]
  by_cases hfit : n ≤ maxLogDataBytes
  · exact ⟨[value], if_pos hfit, by simp⟩
  · obtain ⟨frames, hframes, hflat⟩ := frameLoop_returns hs le_rfl
    exact ⟨frames, (if_neg hfit).trans hframes, hflat⟩

/-- The text fits the limit of a log event. -/
def Fits (frame : PyStr) : Prop := ∃ n, encodedLength frame = some n ∧ n ≤ maxLogDataBytes

theorem fits_of_fitLimit {remaining : PyStr} : ∀ {limit n : ℕ}, fitLimit remaining limit = some n →
    Fits (remaining.take n)
  | 0, n, h => by
    obtain rfl := Option.some.inj h
    exact ⟨0, rfl, Nat.zero_le _⟩
  | limit + 1, n, h => by
    rw [fitLimit] at h
    obtain ⟨k, hk, h⟩ := Option.bind_eq_some_iff.mp h
    split_ifs at h with hfit
    · obtain rfl := Option.some.inj h
      exact ⟨k, hk, hfit⟩
    · exact fits_of_fitLimit h

theorem fits_of_frameLoop : ∀ {fuel : ℕ} {remaining : PyStr} {frames : List PyStr},
    frameLoop fuel remaining = some frames → ∀ frame ∈ frames, Fits frame
  | _, [], frames, h, frame, hmem => by
    rw [frameLoop] at h
    obtain rfl := Option.some.inj h
    exact absurd hmem List.not_mem_nil
  | fuel + 1, c :: rest, frames, h, frame, hmem => by
    rw [frameLoop] at h
    obtain ⟨limit, hlimit, h⟩ := Option.bind_eq_some_iff.mp h
    obtain ⟨later, hlater, h⟩ := Option.bind_eq_some_iff.mp h
    obtain rfl := Option.some.inj h
    rcases List.mem_cons.mp hmem with rfl | hmem
    · exact fits_of_fitLimit hlimit
    · exact fits_of_frameLoop hlater frame hmem

/-- The frames of a text fit the limit. -/
theorem fits_of_frameChunks {value : PyStr} {frames : List PyStr} (h : frameChunks value = some frames) :
    ∀ frame ∈ frames, Fits frame := by
  unfold frameChunks at h
  obtain ⟨n, hn, h⟩ := Option.bind_eq_some_iff.mp h
  split_ifs at h with hfit
  · obtain rfl := Option.some.inj h
    intro frame hmem
    rw [List.mem_singleton.mp hmem]
    exact ⟨n, hn, hfit⟩
  · exact fits_of_frameLoop h

section Redact
variable {values : List PyStr} (r : SecretRedactor values)

theorem fits_of_pumpStream : ∀ {chunks : List Chunk} {frames : List PyStr}, pumpStream r chunks = some frames →
    ∀ frame ∈ frames, Fits frame
  | [], frames, h, frame, hmem => by
    obtain rfl := Option.some.inj h
    exact absurd hmem List.not_mem_nil
  | c :: chunks, frames, h, frame, hmem => by
    rw [pumpStream] at h
    obtain ⟨first, hfirst, h⟩ := Option.bind_eq_some_iff.mp h
    obtain ⟨rest, hrest, h⟩ := Option.bind_eq_some_iff.mp h
    obtain rfl := Option.some.inj h
    rcases List.mem_append.mp hmem with hmem | hmem
    · exact fits_of_frameChunks hfirst frame hmem
    · exact fits_of_pumpStream hrest frame hmem

theorem scalar_token : ∀ c ∈ SecretRedactor.token, Scalar c := by
  have hascii : Ascii SecretRedactor.token := by decide
  intro c hc
  have := hascii c hc
  rw [scalar_iff]
  omega

theorem scalar_foldl_replace : ∀ (secrets : List PyStr) {value : PyStr}, (∀ c ∈ value, Scalar c) →
    ∀ c ∈ secrets.foldl (fun redacted secret => replace secret SecretRedactor.token redacted) value, Scalar c
  | [], _, hs, c, hc => hs c hc
  | secret :: secrets, value, hs, c, hc => by
    refine scalar_foldl_replace secrets (fun d hd => ?_) c hc
    rcases mem_replace hd with htoken | hvalue
    · exact scalar_token d htoken
    · exact hs d hvalue

/-- **What is published is what was redacted**, chunk by chunk. -/
theorem pumpStream_returns : ∀ chunks : List Chunk, ∃ frames, pumpStream r chunks = some frames ∧
    frames.flatten = (chunks.map fun c => r.redact c.text).flatten
  | [] => ⟨[], rfl, rfl⟩
  | c :: chunks => by
    obtain ⟨frames, hframes, hflat⟩ := frameChunks_returns
      (scalar_foldl_replace r.secrets (scalar_decodeReplace c.bytes))
    obtain ⟨rest, hrest, hrestFlat⟩ := pumpStream_returns chunks
    refine ⟨frames ++ rest, ?_, ?_⟩
    · have hcall : frameChunks (r.redact c.text) = some frames := hframes
      simp only [pumpStream, hcall, hrest, Option.bind_eq_bind, Option.bind_some]
    · rw [List.flatten_append, hflat, hrestFlat]
      rfl

end Redact

/-! ### The characters that are kept -/

/-- The secret is not spelled with the help of the token. -/
def Plain (s : PyStr) : Prop := ch '[' ∉ s ∧ ch ']' ∉ s ∧ ¬ s <:+: py "REDACTED"

instance (s : PyStr) : Decidable (Plain s) := inferInstanceAs (Decidable (_ ∧ _))

theorem Plain.bracketed {s : PyStr} (h : Plain s) : Bracketed s SecretRedactor.token where
  nonempty := by
    rintro rfl
    exact h.2.2 List.nil_infix
  token_eq := ⟨ch '[', py "REDACTED", ch ']', by decide, h.1, h.2.1, h.2.2⟩

/-- Take every occurrence of the texts out, one text after the other. -/
def blank (secrets : List PyStr) (m : List (Option CodePoint)) : List (Option CodePoint) :=
  secrets.foldl (fun left secret => replace (secret.map some) [none] left) m

theorem render_blank : ∀ {secrets : List PyStr}, (∀ s ∈ secrets, Plain s) → ∀ m : List (Option CodePoint),
    render SecretRedactor.token (blank secrets m) =
      secrets.foldl (fun redacted secret => replace secret SecretRedactor.token redacted)
        (render SecretRedactor.token m)
  | [], _, _ => rfl
  | s :: secrets, h, m => by
    rw [List.foldl_cons, render_replace (h s List.mem_cons_self).bracketed]
    exact render_blank (fun t ht => h t (List.mem_cons_of_mem _ ht)) _

theorem infix_of_blank {x : PyStr} : ∀ (secrets : List PyStr) {m : List (Option CodePoint)},
    x.map some <:+: blank secrets m → x.map some <:+: m
  | [], _, h => h
  | _ :: secrets, _, h => infix_of_replace (infix_of_blank secrets h)

theorem not_infix_blank {s : PyStr} (hs : s ≠ []) : ∀ {secrets : List PyStr} {m : List (Option CodePoint)},
    s ∈ secrets → ¬ s.map some <:+: blank secrets m
  | t :: secrets, m, hmem, hin => by
    rcases List.mem_cons.mp hmem with rfl | hmem
    · exact not_infix_replace hs m (infix_of_blank secrets hin)
    · exact not_infix_blank hs hmem hin

section Kept
variable {values : List PyStr} (r : SecretRedactor values)

/-- The characters of the chunks that no secret of their own chunk covers; `none` stands for a token. -/
def kept (chunks : List Chunk) : List (Option CodePoint) :=
  (chunks.map fun c => blank r.secrets (c.text.map some)).flatten

/-- A boundary between two chunks cuts the secret: one part of it stands at the end of what is kept in front
of the boundary, the other part after it. -/
def Cut (s : PyStr) (before after : List Chunk) : Prop :=
  ∃ x y, x ≠ [] ∧ y ≠ [] ∧ s = x ++ y ∧ x.map some <:+ kept r before ∧ y.map some <+: kept r after

theorem kept_append (before after : List Chunk) :
    kept r (before ++ after) = kept r before ++ kept r after := by
  simp [kept]

theorem infix_kept_iff {s : PyStr} (hs : s ∈ r.secrets) {chunks : List Chunk} :
    s.map some <:+: kept r chunks ↔ ∃ before after, chunks = before ++ after ∧ Cut r s before after := by
  have hne : s ≠ [] := ((r.mem_iff s).mp hs).2
  constructor
  · intro h
    rcases infix_flatten (by simpa using hne) h with ⟨part, hpart, hin⟩ | ⟨before, after, y, z, hsplit, hy,
      hz, hyz, hleft, hright⟩
    · obtain ⟨c, -, rfl⟩ := List.mem_map.mp hpart
      exact absurd hin (not_infix_blank hne hs)
    · obtain ⟨before, after, rfl, rfl, rfl⟩ := List.map_eq_append_iff.mp hsplit
      obtain ⟨y, z, rfl, rfl, rfl⟩ := List.map_eq_append_iff.mp hyz
      exact ⟨before, after, rfl, y, z, by simpa using hy, by simpa using hz, rfl, hleft, hright⟩
  · rintro ⟨before, after, rfl, x, y, -, -, rfl, ⟨u, hu⟩, ⟨v, hv⟩⟩
    rw [kept_append, ← hu, ← hv]
    exact ⟨u, v, by simp⟩

theorem redacted_eq_render (hplain : ∀ s ∈ values, Plain s) (chunks : List Chunk) :
    (chunks.map fun c => r.redact c.text).flatten = render SecretRedactor.token (kept r chunks) := by
  have hsecrets : ∀ s ∈ r.secrets, Plain s := fun s hs => hplain s ((r.mem_iff s).mp hs).1
  induction chunks with
  | nil => rfl
  | cons c chunks ih =>
    have hcons : kept r (c :: chunks) = blank r.secrets (c.text.map some) ++ kept r chunks := rfl
    rw [List.map_cons, List.flatten_cons, ih, hcons, render_append, render_blank hsecrets, render_map_some]
    rfl

end Kept

/-! ### What is published -/

/-- **Redaction of a stream.** `pump_stream` returns; and for secrets that the token does not spell, what it
publishes has no secret if and only if no boundary between two chunks cuts one. -/
theorem no_secret_published_iff (values : List PyStr) (r : SecretRedactor values)
    (hplain : ∀ s ∈ values, Plain s) (chunks : List Chunk) :
    ∃ frames, pumpStream r chunks = some frames ∧
      ((∀ s ∈ values, ¬ s <:+: frames.flatten) ↔
        ∀ s ∈ values, ∀ before after, chunks = before ++ after → ¬ Cut r s before after) := by
  obtain ⟨frames, hframes, hflat⟩ := pumpStream_returns r chunks
  refine ⟨frames, hframes, forall₂_congr fun s hs => ?_⟩
  have hmem : s ∈ r.secrets := (r.mem_iff s).mpr ⟨hs, (hplain s hs).bracketed.nonempty⟩
  rw [hflat, redacted_eq_render r hplain, infix_render_iff (hplain s hs).bracketed, infix_kept_iff r hmem]
  simp only [not_exists, not_and]

/-- The chunk of a text of ASCII characters. -/
def asciiChunk (s : String) (hne : s.toList ≠ []) (hlen : s.toList.length ≤ maxLogDataBytes) : Chunk where
  bytes := s.toList.map fun c => Fin.ofNat 256 c.toNat
  nonempty := by simpa using hne
  length_le := by simpa using hlen

/-- A chunk that holds the whole secret. -/
def wholeChunk : Chunk := asciiChunk "key=abc" (by decide) (by decide)

/-- Two chunks that a secret lies across. -/
def cutChunks : List Chunk := [asciiChunk "key=ab" (by decide) (by decide), asciiChunk "c" (by decide) (by decide)]

theorem no_secret_published_whole :
    pumpStream (SecretRedactor.init [py "abc"]) [wholeChunk] = some [py "key=[REDACTED]"] ∧
    ∃ frames, pumpStream (SecretRedactor.init [py "abc"]) [wholeChunk] = some frames ∧
      ((∀ s ∈ [py "abc"], ¬ s <:+: frames.flatten) ↔
        ∀ s ∈ [py "abc"], ∀ before after, [wholeChunk] = before ++ after →
          ¬ Cut (SecretRedactor.init [py "abc"]) s before after) :=
  ⟨by decide +kernel, no_secret_published_iff _ (SecretRedactor.init [py "abc"]) (by decide) [wholeChunk]⟩

/-- A secret that the reader cuts in two is published as it is. -/
theorem secret_published : (∀ s ∈ [py "abc"], Plain s) ∧
    ∃ frames, pumpStream (SecretRedactor.init [py "abc"]) cutChunks = some frames ∧
      py "abc" <:+: frames.flatten := by
  have hpump : pumpStream (SecretRedactor.init [py "abc"]) cutChunks = some [py "key=ab", py "c"] := by
    decide +kernel
  exact ⟨by decide, _, hpump, by decide⟩

end BuildEngine.Executor.Stream
