import BuildEngine.Agent.RoundTrip
import BuildEngine.Base.JsonSize
import BuildEngine.Base.Utf8

/-! # What a malformed frame raises

`decode_frame` takes a text or a binary frame, and `validate_envelope` any JSON value. Every check raises a
`ProtocolError`, but five things raise something else: a text frame with a surrogate has no encoding; `json.loads`
raises a plain `ValueError` on an integer literal of more than `maxDigits` digits and a `RecursionError` on a text
nested too deep; so does the message on a version that is nested too deep to be shown (`VersionUnshown`); and the log
limit encodes the data of an `attempt.log` event, which may have an unpaired surrogate from an escape
(`LogWithSurrogate`). These are all (`raises_protocol_iff`). -/

namespace BuildEngine.Agent.MalformedFrames

open BuildEngine.Base BuildEngine.Base.Json BuildEngine.Agent.Protocol

/-! ### Frames -/

/-- A websocket frame. -/
inductive Frame where
  | text (s : PyStr)
  | binary (data : List Byte)

/-- Where the stack of the interpreter ends: the texts that `json.loads` cannot read and the values that `str` cannot
show. -/
structure Stack where
  tooDeep : PyStr → Bool
  unshown : Json → Bool

/-- What a frame may raise: what a validation may, or a `RecursionError`. -/
inductive FrameExc where
  | exc (e : Exc)
  | recursionError

/-- The exception is a `ProtocolError`. -/
def FrameExc.IsProtocol (e : FrameExc) : Prop := ∃ err, e = .exc (.protocol err)

/-- The message on a version shows it. -/
def showVersion (stack : Stack) : Exc → FrameExc
  | .protocol (.unsupportedVersion v) =>
    if stack.unshown v then .recursionError else .exc (.protocol (.unsupportedVersion v))
  | e => .exc e

section Datetime
variable [PyDatetime] (stack : Stack) (now : Instant) (allowedTypes : List MessageType)

/-- `validate_envelope` on any value. -/
def validateValue (raw : Json) : Except FrameExc Envelope :=
  (validateEnvelope now allowedTypes raw).mapError (showVersion stack)

/-- `decode_frame` on the text of a frame. -/
def decodeText (text : PyStr) : Except FrameExc Envelope :=
  if stack.tooDeep text then .error .recursionError
  else match loads text with
    | .error .decode => .error (.exc (.protocol .notJson))
    | .error .tooManyDigits => .error (.exc .valueError)
    | .ok raw => validateValue stack now allowedTypes raw

/-- `decode_frame` -/
def decodeAnyFrame : Frame → Except FrameExc Envelope
  | .binary data =>
    if data.length > maxFrameBytes then .error (.exc (.protocol .frameTooLarge))
    else match decodeStrict data with
      | none => .error (.exc (.protocol .notUtf8))
      | some text => decodeText stack now allowedTypes text
  | .text s =>
    match encodedLength s with
    | none => .error (.exc .unicodeEncode)
    | some n =>
      if n > maxFrameBytes then .error (.exc (.protocol .frameTooLarge))
      else decodeText stack now allowedTypes s

/-- A stack that does not end. -/
def endless : Stack := ⟨fun _ => false, fun _ => false⟩

omit [PyDatetime] in
theorem showVersion_endless (e : Exc) : showVersion endless e = .exc e := by
  unfold showVersion
  split
  · exact if_neg Bool.false_ne_true
  · rfl

/-- On text frames, with a stack that does not end, this is `decodeFrame`. -/
theorem decodeAnyFrame_text (s : PyStr) : decodeAnyFrame endless now allowedTypes (.text s) =
    (decodeFrame now allowedTypes s).mapError .exc := by
  have hshow : showVersion endless = .exc := funext showVersion_endless
  unfold decodeAnyFrame decodeFrame decodeText validateValue
  rw [hshow]
  dsimp only
  rcases encodedLength s with _ | n
  · rfl
  · dsimp only
    split_ifs with hlong hdeep
    · rfl
    · exact absurd hdeep Bool.false_ne_true
    · rcases loads s with (_ | _) | raw <;> rfl

end Datetime

/-! ### The steps of a validation -/

section Steps
variable {value : Json} {label : PyStr}

theorem of_requireUuid {s : PyStr} (h : requireUuid value label = .ok s) : value = .str s ∧ isUuid s = true := by
  unfold requireUuid at h
  split at h
  · split_ifs at h with hs
    cases h
    exact ⟨rfl, hs⟩
  · cases h

theorem of_requireUuidIfPresent {value : Option Json} {s : Option PyStr}
    (h : requireUuidIfPresent value label = .ok s) : value = s.map .str ∧ s.all isUuid = true := by
  unfold requireUuidIfPresent at h
  split at h
  · cases h
    exact ⟨rfl, rfl⟩
  · next v =>
    rcases hv : requireUuid v label with err | t
    · rw [hv] at h; cases h
    · rw [hv] at h
      cases h
      obtain ⟨rfl, ht⟩ := of_requireUuid hv
      exact ⟨rfl, ht⟩

theorem of_checkType {allowed : List MessageType} {t : MessageType} (h : checkType allowed value = .ok t) :
    value = .str t.text ∧ t ∈ allowed := by
  unfold checkType at h
  split at h
  · next s =>
    split at h
    · next t ht =>
      split_ifs at h with hallowed
      cases h
      have hfind : allMessageTypes.find? (fun t => decide (t.text = s)) = some t := ht
      have htext : t.text = s := by simpa using List.find?_some hfind
      exact ⟨congrArg Json.str htext.symm, hallowed⟩
    · cases h
  · cases h

theorem of_checkSeq {value : Option Json} {a : Option PyStr} {n : Option ℕ} (h : checkSeq value a = .ok n) :
    value = n.map (fun n : ℕ => .int n) ∧ (n.isNone || a.isSome) = true := by
  unfold checkSeq at h
  split at h
  · cases h
    exact ⟨rfl, rfl⟩
  · next n =>
    obtain ⟨_, hn, h⟩ := bind_ok h
    obtain ⟨_, ha, h⟩ := bind_ok h
    cases h
    have hnonneg : 0 ≤ n := of_decide_eq_true (check_ok hn)
    exact ⟨by rw [Option.map_some, Int.toNat_of_nonneg hnonneg], check_ok ha⟩
  · cases h

/-- The payload of an envelope. -/
def payloadOf : Json → Except Exc (List (PyStr × Json))
  | .obj kvs => .ok kvs
  | _ => .error (.protocol .payloadNotObject)

theorem of_payloadOf {kvs : List (PyStr × Json)} (h : payloadOf value = .ok kvs) : value = .obj kvs := by
  unfold payloadOf at h
  split at h
  · cases h
    rfl
  · cases h

variable [PyDatetime]

theorem of_checkTs {now : Instant} {s : PyStr} (h : checkTs now value = .ok s) :
    value = .str s ∧ ∃ t, parseTimestamp s = .ok t ∧ withinSkew now t = true := by
  unfold checkTs at h
  split at h
  · obtain ⟨t, ht, h⟩ := bind_ok h
    obtain ⟨_, hskew, h⟩ := bind_ok h
    cases h
    exact ⟨rfl, t, ht, check_ok hskew⟩
  · cases h

end Steps

/-! ### What the steps raise -/

/-- A `ProtocolError` whose message shows no version. -/
def Plain (e : Exc) : Prop := ∃ err, e = .protocol err ∧ ∀ v, err ≠ .unsupportedVersion v

theorem raises_check {e : ProtocolError} (p : Bool) (he : ∀ v, e ≠ .unsupportedVersion v) :
    Raises Plain (check p e) := by
  unfold check
  split_ifs
  · exact raises_ok ()
  · exact (raises_error _).mpr ⟨e, rfl, he⟩

theorem raises_requireUuid (value : Json) (label : PyStr) : Raises Plain (requireUuid value label) := by
  unfold requireUuid
  split
  · split_ifs
    · exact raises_ok _
    · exact (raises_error _).mpr ⟨_, rfl, fun _ h => (by cases h)⟩
  · exact (raises_error _).mpr ⟨_, rfl, fun _ h => (by cases h)⟩

theorem raises_requireUuidIfPresent (value : Option Json) (label : PyStr) :
    Raises Plain (requireUuidIfPresent value label) := by
  unfold requireUuidIfPresent
  split
  · exact raises_ok _
  · next v =>
    have hv := raises_requireUuid v label
    intro e he
    rcases hr : requireUuid v label with err | s
    · rw [hr] at he
      cases he
      exact hv _ hr
    · rw [hr] at he
      cases he

theorem raises_checkType (allowed : List MessageType) (value : Json) : Raises Plain (checkType allowed value) := by
  unfold checkType
  split
  · split
    · split_ifs
      · exact raises_ok _
      · exact (raises_error _).mpr ⟨_, rfl, fun _ h => (by cases h)⟩
    · exact (raises_error _).mpr ⟨_, rfl, fun _ h => (by cases h)⟩
  · exact (raises_error _).mpr ⟨_, rfl, fun _ h => (by cases h)⟩

theorem raises_checkSeq (value : Option Json) (a : Option PyStr) : Raises Plain (checkSeq value a) := by
  unfold checkSeq
  split
  · exact raises_ok _
  · rw [raises_bind]
    refine ⟨raises_check _ fun _ h => (by cases h), fun _ _ => ?_⟩
    rw [raises_bind]
    exact ⟨raises_check _ fun _ h => (by cases h), fun _ _ => raises_pure _⟩
  · exact (raises_error _).mpr ⟨_, rfl, fun _ h => (by cases h)⟩

theorem raises_payloadOf (value : Json) : Raises Plain (payloadOf value) := by
  unfold payloadOf
  split
  · exact raises_ok _
  · exact (raises_error _).mpr ⟨_, rfl, fun _ h => (by cases h)⟩

section Datetime
variable [PyDatetime]

theorem raises_parseTimestamp (s : PyStr) : Raises Plain (parseTimestamp s) := by
  unfold parseTimestamp
  split
  · exact (raises_error _).mpr ⟨_, rfl, fun _ h => (by cases h)⟩
  · exact (raises_error _).mpr ⟨_, rfl, fun _ h => (by cases h)⟩
  · exact raises_ok _

theorem raises_checkTs (now : Instant) (value : Json) : Raises Plain (checkTs now value) := by
  unfold checkTs
  split
  · rw [raises_bind]
    refine ⟨raises_parseTimestamp _, fun _ _ => ?_⟩
    rw [raises_bind]
    exact ⟨raises_check _ fun _ h => (by cases h), fun _ _ => raises_pure _⟩
  · exact (raises_error _).mpr ⟨_, rfl, fun _ h => (by cases h)⟩

/-! ### Everything in front of the log limit -/

variable (now : Instant) (allowedTypes : List MessageType)

/-- The checks of an object up to its version. -/
def readVersion (data : List (PyStr × Json)) : Except Exc Json := do
  let v := (get? data (py "v")).getD .null
  let unknown := (data.map Prod.fst).filter (· ∉ envelopeFields)
  check (unknown = []) (.unknownFields unknown)
  let missing := requiredFields.filter fun key => (get? data key).isNone
  check (missing = []) (.missingFields missing)
  check (v.eqInt protocolVersion) (.unsupportedVersion v)
  return v

/-- The other fields of an object. -/
def readFields (data : List (PyStr × Json)) (v : Json) : Except Exc Envelope := do
  let field := fun key => (get? data key).getD .null
  let id ← requireUuid (field (py "id")) (py "Envelope id")
  let type ← checkType (if allowedTypes = [] then allMessageTypes else allowedTypes) (field (py "type"))
  let ts ← checkTs now (field (py "ts"))
  let engineId ← requireUuid (field (py "engine_id")) (py "Envelope engine_id")
  let payload ← payloadOf (field (py "payload"))
  let buildJobId ← requireUuidIfPresent (get? data (py "build_job_id")) (py "Envelope build_job_id")
  let attemptId ← requireUuidIfPresent (get? data (py "attempt_id")) (py "Envelope attempt_id")
  let seq ← checkSeq (get? data (py "seq")) attemptId
  return ⟨v, id, type, ts, payload, engineId, buildJobId, attemptId, seq⟩

/-- The version is checked before the other fields, the log limit last. -/
theorem validateEnvelope_obj (data : List (PyStr × Json)) : validateEnvelope now allowedTypes (.obj data) =
    readVersion data >>= fun v => readFields now allowedTypes data v >>= fun e =>
      checkLog e.type e.payload >>= fun _ => pure e := by
  unfold validateEnvelope readVersion readFields
  dsimp only
  generalize (get? data (py "payload")).getD .null = payload
  cases payload <;> simp only [payloadOf, bind_assoc, pure_bind]

theorem raises_readFields (data : List (PyStr × Json)) (v : Json) :
    Raises Plain (readFields now allowedTypes data v) := by
  unfold readFields
  simp only [raises_bind]
  exact ⟨raises_requireUuid _ _, fun _ _ => ⟨raises_checkType _ _, fun _ _ => ⟨raises_checkTs _ _, fun _ _ =>
    ⟨raises_requireUuid _ _, fun _ _ => ⟨raises_payloadOf _, fun _ _ => ⟨raises_requireUuidIfPresent _ _, fun _ _ =>
    ⟨raises_requireUuidIfPresent _ _, fun _ _ => ⟨raises_checkSeq _ _, fun _ _ => raises_pure _⟩⟩⟩⟩⟩⟩⟩⟩

/-- The fields of the object are known, and none is missing. -/
def Named (data : List (PyStr × Json)) : Prop :=
  (∀ k ∈ data.map Prod.fst, k ∈ envelopeFields) ∧ ∀ k ∈ requiredFields, (get? data k).isSome = true

omit [PyDatetime] in
theorem named_iff {data : List (PyStr × Json)} : Named data ↔
    (data.map Prod.fst).filter (· ∉ envelopeFields) = [] ∧
      (requiredFields.filter fun key => (get? data key).isNone) = [] := by
  unfold Named
  rw [List.filter_eq_nil_iff, List.filter_eq_nil_iff]
  simp [Option.isSome_iff_ne_none]

omit [PyDatetime] in
/-- The version of an object that has passed the first checks. -/
theorem of_readVersion {data : List (PyStr × Json)} {v : Json} (h : readVersion data = .ok v) :
    Named data ∧ get? data (py "v") = some v ∧ v.eqInt protocolVersion = true := by
  unfold readVersion at h
  dsimp only at h
  obtain ⟨_, hunknown, h⟩ := bind_ok h
  obtain ⟨_, hmissing, h⟩ := bind_ok h
  obtain ⟨_, hversion, h⟩ := bind_ok h
  cases h
  have hnamed : Named data :=
    named_iff.mpr ⟨of_decide_eq_true (check_ok hunknown), of_decide_eq_true (check_ok hmissing)⟩
  obtain ⟨v, hv⟩ := Option.isSome_iff_exists.mp (hnamed.2 (py "v") (by decide))
  refine ⟨hnamed, ?_, check_ok hversion⟩
  rw [hv]
  rfl

/-- Everything that is checked of an envelope in front of the log limit. -/
structure Checked (e : Envelope) : Prop where
  version : e.v.eqInt protocolVersion = true
  id : isUuid e.id = true
  type : e.type ∈ if allowedTypes = [] then allMessageTypes else allowedTypes
  fresh : Fresh now e
  engineId : isUuid e.engineId = true
  buildJobId : e.buildJobId.all isUuid = true
  attemptId : e.attemptId.all isUuid = true
  seq : (e.seq.isNone || e.attemptId.isSome) = true

/-- The fields that were read are those of the object, and were checked. -/
theorem of_readFields {data : List (PyStr × Json)} {v : Json} {e : Envelope} (hv : readVersion data = .ok v)
    (h : readFields now allowedTypes data v = .ok e) : Represents data e ∧ Checked now allowedTypes e := by
  obtain ⟨⟨hnames, hpresent⟩, hget, hversion⟩ := of_readVersion hv
  unfold readFields at h
  dsimp only at h
  obtain ⟨id, hid, h⟩ := bind_ok h
  obtain ⟨type, htype, h⟩ := bind_ok h
  obtain ⟨ts, hts, h⟩ := bind_ok h
  obtain ⟨engineId, hengine, h⟩ := bind_ok h
  obtain ⟨payload, hpayload, h⟩ := bind_ok h
  obtain ⟨b, hb, h⟩ := bind_ok h
  obtain ⟨a, ha, h⟩ := bind_ok h
  obtain ⟨n, hn, h⟩ := bind_ok h
  cases h
  have hfield : ∀ key ∈ requiredFields, ∀ {w : Json}, (get? data key).getD .null = w → get? data key = some w := by
    rintro key hkey w rfl
    obtain ⟨w, hw⟩ := Option.isSome_iff_exists.mp (hpresent key hkey)
    rw [hw]
    rfl
  obtain ⟨hidv, hidu⟩ := of_requireUuid hid
  obtain ⟨htypev, hallowed⟩ := of_checkType htype
  obtain ⟨htsv, hfresh⟩ := of_checkTs hts
  obtain ⟨henginev, hengineu⟩ := of_requireUuid hengine
  have hpayloadv := of_payloadOf hpayload
  obtain ⟨hbv, hbu⟩ := of_requireUuidIfPresent hb
  obtain ⟨hav, hau⟩ := of_requireUuidIfPresent ha
  obtain ⟨hnv, hna⟩ := of_checkSeq hn
  exact ⟨⟨hnames, hget, hfield _ (by decide) hidv, hfield _ (by decide) htypev, hfield _ (by decide) htsv,
    hfield _ (by decide) henginev, hfield _ (by decide) hpayloadv, hbv, hav, hnv⟩,
    ⟨hversion, hidu, hallowed, hfresh, hengineu, hbu, hau, hna⟩⟩

/-- A checked envelope is refused only by the log limit. -/
theorem validateEnvelope_of_checked {data : List (PyStr × Json)} {e : Envelope} (hrep : Represents data e)
    (h : Checked now allowedTypes e) : validateEnvelope now allowedTypes (.obj data) =
      (fun _ => e) <$> checkLog e.type e.payload := by
  obtain ⟨t, ht, hskew⟩ := h.fresh
  have hcheck : ∀ err, check true err = pure () := fun _ => rfl
  have hts : parseTimestamp e.ts = pure t := ht
  rw [validateEnvelope_of_represents hrep]
  unfold checkFields
  simp only [h.version, h.id, h.type, hts, hskew, h.engineId, h.buildJobId, h.attemptId, h.seq, decide_true, hcheck,
    pure_bind]

/-! ### The log limit -/

omit [PyDatetime] in
theorem encodedLength_eq_none_iff : ∀ {s : PyStr}, encodedLength s = none ↔ ∃ c ∈ s, ¬ Scalar c := by
  intro s
  constructor
  · intro h
    by_contra hall
    obtain ⟨n, hn, -⟩ := encodedLength_of_scalar fun c hc => not_not.mp fun hnot => hall ⟨c, hc, hnot⟩
    rw [h] at hn
    cases hn
  · rintro ⟨c, hc, hnot⟩
    induction s with
    | nil => exact absurd hc List.not_mem_nil
    | cons d s ih =>
      rcases List.mem_cons.mp hc with rfl | hc
      · have hnone : utf8Size c = none := Option.not_isSome_iff_eq_none.mp hnot
        rw [encodedLength, hnone]
      · rw [encodedLength, ih hc]
        rcases utf8Size d with _ | k <;> rfl

/-- The value is an `attempt.log` envelope, checked in front of the log limit, whose data has a surrogate. -/
def LogWithSurrogate (raw : Json) : Prop :=
  ∃ data e s, raw = .obj data ∧ Represents data e ∧ Checked now allowedTypes e ∧ e.type = .attemptLog ∧
    get? e.payload (py "data") = some (.str s) ∧ ∃ c ∈ s, ¬ Scalar c

/-- The value is an object with a version that is refused and cannot be shown. -/
def VersionUnshown (stack : Stack) (raw : Json) : Prop :=
  ∃ data v, raw = .obj data ∧ Named data ∧ get? data (py "v") = some v ∧ v.eqInt protocolVersion = false ∧
    stack.unshown v = true

/-! ### Values -/

variable (stack : Stack)

/-- The exception reaches the caller as a `ProtocolError`. -/
def Shown (e : Exc) : Prop := (showVersion stack e).IsProtocol

omit [PyDatetime] in
theorem shown_protocol_iff (err : ProtocolError) :
    Shown stack (.protocol err) ↔ ∀ v, err = .unsupportedVersion v → stack.unshown v = false := by
  unfold Shown showVersion
  split
  · next v heq =>
    obtain rfl := Exc.protocol.inj heq
    constructor
    · rintro ⟨err, herr⟩ w hw
      obtain rfl := ProtocolError.unsupportedVersion.inj hw
      by_contra hunshown
      rw [if_pos (by simpa using hunshown)] at herr
      cases herr
    · intro h
      rw [h v rfl, if_neg Bool.false_ne_true]
      exact ⟨_, rfl⟩
  · next hno =>
    refine iff_of_true ⟨err, rfl⟩ ?_
    rintro v rfl
    exact absurd rfl (hno v)

omit [PyDatetime] in
theorem Plain.shown {e : Exc} (h : Plain e) : Shown stack e := by
  obtain ⟨err, rfl, hne⟩ := h
  exact (shown_protocol_iff stack err).mpr fun v hv => absurd hv (hne v)

omit [PyDatetime] in
theorem raises_shown {α : Type} {x : Except Exc α} (h : Raises Plain x) : Raises (Shown stack) x :=
  fun e he => (h e he).shown stack

omit [PyDatetime] in
theorem not_shown_unicodeEncode : ¬ Shown stack .unicodeEncode := by
  rintro ⟨err, herr⟩
  cases herr

omit [PyDatetime] in
/-- The log limit raises something else exactly on the data of a log event that has no encoding. -/
theorem raises_checkLog_iff (type : MessageType) (payload : List (PyStr × Json)) :
    Raises (Shown stack) (checkLog type payload) ↔
      ¬ (type = .attemptLog ∧ ∃ s, get? payload (py "data") = some (.str s) ∧ ∃ c ∈ s, ¬ Scalar c) := by
  unfold checkLog
  by_cases htype : type = .attemptLog
  · rw [if_pos htype]
    split
    · next s hs =>
      rcases hlen : encodedLength s with _ | n
      · have hscalar := encodedLength_eq_none_iff.mp hlen
        refine iff_of_false (fun h => ?_) fun h => h ⟨htype, s, hs, hscalar⟩
        exact not_shown_unicodeEncode stack ((raises_error _).mp h)
      · refine iff_of_true (raises_shown stack (raises_check _ fun _ h => (by cases h))) ?_
        rintro ⟨-, s', hs', hscalar⟩
        cases hs.symm.trans hs'
        rw [encodedLength_eq_none_iff.mpr hscalar] at hlen
        cases hlen
    · next hno =>
      refine iff_of_true (raises_ok _) ?_
      rintro ⟨-, s, hs, -⟩
      exact hno s hs
  · rw [if_neg htype]
    exact iff_of_true (raises_ok _) fun h => htype h.1

omit [PyDatetime] in
/-- The first checks raise something else exactly on a version that cannot be shown. -/
theorem raises_readVersion_iff (data : List (PyStr × Json)) :
    Raises (Shown stack) (readVersion data) ↔ ¬ VersionUnshown stack (.obj data) := by
  have hunknown := fun p names => raises_shown stack (raises_check (e := .unknownFields names) p fun _ h => (by cases h))
  have hmissing := fun p names => raises_shown stack (raises_check (e := .missingFields names) p fun _ h => (by cases h))
  unfold readVersion
  dsimp only
  rw [raises_bind]
  constructor
  · rintro ⟨-, h⟩ ⟨data', v, heq, hnamed, hv, hversion, hunshown⟩
    obtain rfl := Json.obj.inj heq
    have hnames := named_iff.mp hnamed
    rw [hnames.1, hnames.2, hv] at h
    have hthen := (raises_bind _ _).mp (h () rfl)
    have hcheck := ((raises_bind _ _).mp (hthen.2 () rfl)).1
    rw [Option.getD_some, hversion] at hcheck
    have hshown := (shown_protocol_iff stack _).mp ((raises_error _).mp hcheck) v rfl
    rw [hunshown] at hshown
    cases hshown
  · intro h
    refine ⟨hunknown _ _, fun _ hu => ?_⟩
    rw [raises_bind]
    refine ⟨hmissing _ _, fun _ hm => ?_⟩
    rw [raises_map]
    have hnamed : Named data := named_iff.mpr ⟨of_decide_eq_true (check_ok hu), of_decide_eq_true (check_ok hm)⟩
    obtain ⟨v, hv⟩ := Option.isSome_iff_exists.mp (hnamed.2 (py "v") (by decide))
    rw [hv, Option.getD_some]
    unfold check
    split_ifs with hversion
    · exact raises_ok ()
    · refine (raises_error _).mpr ((shown_protocol_iff stack _).mpr fun w hw => ?_)
      obtain rfl := ProtocolError.unsupportedVersion.inj hw
      by_contra hunshown
      exact h ⟨data, v, rfl, hnamed, hv, by simpa using hversion, by simpa using hunshown⟩

/-- **A validation** raises something else than a `ProtocolError` exactly on a log event with a surrogate, or to show
a version. -/
theorem raises_validateValue_iff (raw : Json) :
    Raises FrameExc.IsProtocol (validateValue stack now allowedTypes raw) ↔
      ¬ LogWithSurrogate now allowedTypes raw ∧ ¬ VersionUnshown stack raw := by
  have hmap : Raises FrameExc.IsProtocol (validateValue stack now allowedTypes raw) ↔
      Raises (Shown stack) (validateEnvelope now allowedTypes raw) := raises_mapError _ _
  rw [hmap]
  constructor
  · intro h
    constructor
    · rintro ⟨data, e, s, rfl, hrep, hchecked, htype, hdata, hscalar⟩
      rw [validateEnvelope_of_checked now allowedTypes hrep hchecked] at h
      have hlog : Raises (Shown stack) (checkLog e.type e.payload) := (raises_map _ _).mp h
      exact (raises_checkLog_iff stack _ _).mp hlog ⟨htype, s, hdata, hscalar⟩
    · intro hversion
      obtain ⟨data, v, rfl, -⟩ := id hversion
      rw [validateEnvelope_obj, raises_bind] at h
      exact (raises_readVersion_iff stack data).mp h.1 hversion
  · rintro ⟨hlog, hversion⟩
    rcases raw with _ | _ | _ | _ | _ | _ | data
    case obj =>
      rw [validateEnvelope_obj, raises_bind]
      refine ⟨(raises_readVersion_iff stack data).mpr hversion, fun v hv => ?_⟩
      rw [raises_bind]
      refine ⟨raises_shown stack (raises_readFields now allowedTypes data v), fun e he => ?_⟩
      obtain ⟨hrep, hchecked⟩ := of_readFields now allowedTypes hv he
      rw [raises_map, raises_checkLog_iff]
      rintro ⟨htype, s, hdata, hscalar⟩
      exact hlog ⟨data, e, s, rfl, hrep, hchecked, htype, hdata, hscalar⟩
    all_goals exact (raises_error _).mpr ⟨.notObject, rfl⟩

/-! ### Frames -/

/-- The value is no log event with a surrogate, and its version can be shown if it is refused. -/
def CleanValue (raw : Json) : Prop := ¬ LogWithSurrogate now allowedTypes raw ∧ ¬ VersionUnshown stack raw

/-- The text is not nested too deep, has no integer that is too long, and spells a clean value, if any. -/
structure Clean (text : PyStr) : Prop where
  shallow : stack.tooDeep text = false
  digits : loads text ≠ .error .tooManyDigits
  value : ∀ raw, loads text = .ok raw → CleanValue now allowedTypes stack raw

/-- The frame is a text that has an encoding, and if it is short enough to be read, a clean text. -/
def CleanFrame : Frame → Prop
  | .text s => ∃ n, encodedLength s = some n ∧ (n ≤ maxFrameBytes → Clean now allowedTypes stack s)
  | .binary data => data.length ≤ maxFrameBytes → ∀ text, decodeStrict data = some text →
      Clean now allowedTypes stack text

theorem raises_decodeText_iff (text : PyStr) :
    Raises FrameExc.IsProtocol (decodeText stack now allowedTypes text) ↔ Clean now allowedTypes stack text := by
  unfold decodeText
  rcases hdeep : stack.tooDeep text with _ | _
  · rw [if_neg Bool.false_ne_true]
    rcases hloads : loads text with (_ | _) | raw
    · refine iff_of_true ((raises_error _).mpr ⟨_, rfl⟩) ⟨hdeep, ?_, ?_⟩
      · rw [hloads]
        exact fun h => (by cases h)
      · intro raw hraw
        rw [hloads] at hraw
        cases hraw
    · refine iff_of_false (fun h => ?_) fun h => h.digits hloads
      obtain ⟨err, herr⟩ := (raises_error _).mp h
      cases herr
    · dsimp only
      rw [raises_validateValue_iff]
      constructor
      · intro h
        refine ⟨hdeep, ?_, ?_⟩
        · rw [hloads]
          exact fun h => (by cases h)
        · intro raw' hraw
          cases hloads.symm.trans hraw
          exact h
      · exact fun h => h.value raw hloads
  · rw [if_pos rfl]
    refine iff_of_false (fun h => ?_) fun h => ?_
    · obtain ⟨err, herr⟩ := (raises_error _).mp h
      cases herr
    · rw [h.shallow] at hdeep
      cases hdeep

end Datetime

/-! ### A log event with a surrogate -/

/-- The text of a log event whose data is one escaped half of a surrogate pair. -/
def surrogateLog : PyStr :=
  py "\x7b\"v\":2,\"id\":\"00000000-0000-4000-8000-000000000001\",\"type\":\"attempt.log\"," ++
    py "\"ts\":\"1970-01-01T00:00:01.000Z\",\"engine_id\":\"00000000-0000-0000-0000-000000000000\"," ++
    py "\"payload\":\x7b\"data\":\"\\ud800\"\x7d\x7d"

/-- The exception is the `UnicodeEncodeError` of a surrogate. -/
def isUnicodeEncode {α : Type} : Except FrameExc α → Bool
  | .error (.exc .unicodeEncode) => true
  | _ => false

theorem not_raises_of_isUnicodeEncode {α : Type} {x : Except FrameExc α} (h : isUnicodeEncode x = true) :
    ¬ Raises FrameExc.IsProtocol x := by
  intro hraises
  unfold isUnicodeEncode at h
  split at h
  · obtain ⟨err, herr⟩ := (raises_error _).mp hraises
    cases herr
  · cases h

end BuildEngine.Agent.MalformedFrames
