import BuildEngine.Base.JsonEq
import BuildEngine.Base.Outcome
import BuildEngine.Agent.Protocol

/-! # Decoding an encoded envelope

An envelope is written as the JSON object of its fields (`toDict`), members in the order of their names,
and read back by `decodeFrame`. `Represents data e` says that an object holds exactly the fields of `e`; on
such an object the validation is a check of the fields (`validateEnvelope_of_represents`). Everything a
validation checks, but the clock and the allowed types, is the same whenever the envelope is read
(`Shape`), so a valid envelope is decoded again exactly if its type is allowed and its timestamp is still
within the skew (`decodeFrame_encoded`). -/

namespace BuildEngine.Agent.Protocol

open BuildEngine.Base BuildEngine.Base.Json

/-! ### The object of an envelope -/

/-- The object `data` holds the fields of the envelope `e` and no others. -/
structure Represents (data : List (PyStr × Json)) (e : Envelope) : Prop where
  names : ∀ k ∈ data.map Prod.fst, k ∈ envelopeFields
  v : get? data (py "v") = some e.v
  id : get? data (py "id") = some (.str e.id)
  type : get? data (py "type") = some (.str e.type.text)
  ts : get? data (py "ts") = some (.str e.ts)
  engineId : get? data (py "engine_id") = some (.str e.engineId)
  payload : get? data (py "payload") = some (.obj e.payload)
  buildJobId : get? data (py "build_job_id") = e.buildJobId.map .str
  attemptId : get? data (py "attempt_id") = e.attemptId.map .str
  seq : get? data (py "seq") = e.seq.map fun n => .int n

/-- The envelope as it is read back: members in the order of their names. -/
def Envelope.sorted (e : Envelope) : Envelope :=
  { e with v := sortKeys e.v, payload := sortedMembers e.payload }

/-- The names of the fields an object has, given which of the optional ones are present. -/
def presentFields (build attempt seq : Bool) : List PyStr :=
  requiredFields ++ (if build then [py "build_job_id"] else []) ++
    (if attempt then [py "attempt_id"] else []) ++ if seq then [py "seq"] else []

theorem map_fst_toDict (e : Envelope) :
    e.toDict.map Prod.fst = presentFields e.buildJobId.isSome e.attemptId.isSome e.seq.isSome := by
  obtain ⟨v, id, type, ts, payload, engineId, b, a, n⟩ := e
  cases b <;> cases a <;> cases n <;> rfl

theorem presentFields_subset : ∀ build attempt seq : Bool,
    ∀ k ∈ presentFields build attempt seq, k ∈ envelopeFields := by decide

theorem represents_toDict (e : Envelope) : Represents e.toDict e := by
  have hnames : ∀ k ∈ e.toDict.map Prod.fst, k ∈ envelopeFields := by
    rw [map_fst_toDict]; exact presentFields_subset _ _ _
  obtain ⟨v, id, type, ts, payload, engineId, b, a, n⟩ := e
  cases b <;> cases a <;> cases n <;> exact ⟨hnames, rfl, rfl, rfl, rfl, rfl, rfl, rfl, rfl, rfl⟩

/-- Sorting the members of an object that holds `e` gives one that holds `e.sorted`. -/
theorem Represents.sorted {data : List (PyStr × Json)} {e : Envelope} (h : Represents data e)
    (hn : (data.map Prod.fst).Nodup) : Represents (sortedMembers data) e.sorted where
  names := fun k hk => h.names k ((map_fst_sortedMembers data).mem_iff.mp hk)
  v := by rw [get?_sortedMembers hn, h.v]; rfl
  id := by rw [get?_sortedMembers hn, h.id]; rfl
  type := by rw [get?_sortedMembers hn, h.type]; rfl
  ts := by rw [get?_sortedMembers hn, h.ts]; rfl
  engineId := by rw [get?_sortedMembers hn, h.engineId]; rfl
  payload := by rw [get?_sortedMembers hn, h.payload, Option.map_some, sortKeys_obj]; rfl
  buildJobId := by rw [get?_sortedMembers hn, h.buildJobId, Option.map_map]; rfl
  attemptId := by rw [get?_sortedMembers hn, h.attemptId, Option.map_map]; rfl
  seq := by rw [get?_sortedMembers hn, h.seq, Option.map_map]; rfl

/-! ### The text of an envelope -/

theorem eqInt_sortKeys (v : Json) (n : ℤ) : (sortKeys v).eqInt n = v.eqInt n := by
  cases v <;> simp only [sortKeys] <;> rfl

theorem checkLog_sorted {payload : List (PyStr × Json)} (hn : (payload.map Prod.fst).Nodup)
    (type : MessageType) : checkLog type (sortedMembers payload) = checkLog type payload := by
  unfold checkLog
  rw [get?_sortedMembers hn]
  rcases get? payload (py "data") with _ | v
  · rfl
  · cases v <;> simp only [Option.map_some, sortKeys]

theorem nodup_payload {e : Envelope} (h : WF (.obj e.toDict)) : (e.payload.map Prod.fst).Nodup := by
  have hm : (py "payload", Json.obj e.payload) ∈ e.toDict := by simp [Envelope.toDict]
  unfold WF at h
  rw [wf, Bool.and_eq_true] at h
  exact nodup_of_wf (wfMembers_iff.mp h.2 _ hm).2

/-- The text of an envelope, and its length. -/
theorem of_toJson {e : Envelope} {text : PyStr} (h : e.toJson = .ok text) :
    text = dumps (.obj (sortedMembers e.toDict)) ∧
      ∃ n, encodedLength text = some n ∧ ¬ n > maxFrameBytes := by
  unfold Envelope.toJson at h
  split at h
  · cases h
  · next n hn =>
    split_ifs at h with hlen
    cases h
    exact ⟨by rw [Envelope.encoded, dumpsSorted, sortKeys_obj], n, hn, hlen⟩

/-- The object a stored text is read back as. -/
theorem loads_toJson {e : Envelope} {text : PyStr} (hwf : WF (.obj e.toDict)) (h : e.toJson = .ok text) :
    loads text = .ok (.obj (sortedMembers e.toDict)) := by
  have hread := loads_dumpsSorted hwf
  rwa [dumpsSorted, sortKeys_obj, ← (of_toJson h).1] at hread

/-- The engine identifier is there, so there is no default to set. -/
theorem Represents.setDefault_engineId {data : List (PyStr × Json)} {e : Envelope} (h : Represents data e) (v : Json) :
    setDefault data (py "engine_id") v = data := by
  have hany : data.any (fun kv => kv.1 = py "engine_id") = true :=
    List.any_eq_true.mpr ⟨_, mem_of_get? h.engineId, by simp⟩
  rw [setDefault, if_pos hany]

/-! ### The checks of a validation -/

theorem check_ok {p : Bool} {err : ProtocolError} {u : Unit} (h : check p err = .ok u) : p = true := by
  unfold check at h
  split_ifs at h with hp
  exact hp

theorem requireUuid_str (s label : PyStr) :
    requireUuid (.str s) label = (fun _ => s) <$> check (isUuid s) (.notUuid label) := by
  unfold requireUuid check
  dsimp only
  split_ifs <;> rfl

theorem requireUuidIfPresent_str (s : Option PyStr) (label : PyStr) :
    requireUuidIfPresent (s.map .str) label = (fun _ => s) <$> check (s.all isUuid) (.notUuid label) := by
  cases s with
  | none => rfl
  | some s =>
    simp only [Option.map_some, requireUuidIfPresent, requireUuid_str, Option.all_some]
    unfold check
    split_ifs <;> rfl

theorem checkType_text (allowed : List MessageType) (t : MessageType) :
    checkType allowed (.str t.text) = (fun _ => t) <$> check (t ∈ allowed) (.unknownType t.text) := by
  unfold checkType check
  simp only [MessageType.ofText?_text, decide_eq_true_eq]
  split_ifs <;> rfl

theorem checkSeq_int (n : Option ℕ) (a : Option PyStr) :
    checkSeq (n.map fun n : ℕ => .int n) a =
      (fun _ => n) <$> check (n.isNone || a.isSome) .seqWithoutAttempt := by
  cases n with
  | none => rfl
  | some n => cases a <;> simp [checkSeq, check, bind, Except.bind, pure, Except.pure]

section Datetime
variable [PyDatetime]

/-- The checks of `validateEnvelope` on the fields of an envelope, in their order. -/
def checkFields (now : Instant) (allowed : List MessageType) (e : Envelope) : Except Exc Unit := do
  check (e.v.eqInt protocolVersion) (.unsupportedVersion e.v)
  check (isUuid e.id) (.notUuid (py "Envelope id"))
  check (e.type ∈ allowed) (.unknownType e.type.text)
  let t ← parseTimestamp e.ts
  check (withinSkew now t) .clockSkew
  check (isUuid e.engineId) (.notUuid (py "Envelope engine_id"))
  check (e.buildJobId.all isUuid) (.notUuid (py "Envelope build_job_id"))
  check (e.attemptId.all isUuid) (.notUuid (py "Envelope attempt_id"))
  check (e.seq.isNone || e.attemptId.isSome) .seqWithoutAttempt
  checkLog e.type e.payload

/-- On an object that holds an envelope, the validation is the check of its fields. -/
theorem validateEnvelope_of_represents {data : List (PyStr × Json)} {e : Envelope}
    (h : Represents data e) (now : Instant) (allowed : List MessageType) :
    validateEnvelope now allowed (.obj data) =
      (fun _ => e) <$> checkFields now (if allowed = [] then allMessageTypes else allowed) e := by
  have hunknown : (data.map Prod.fst).filter (· ∉ envelopeFields) = [] := by
    rw [List.filter_eq_nil_iff]
    intro k hk
    simpa using h.names k hk
  have hmissing : (requiredFields.filter fun key => (get? data key).isNone) = [] := by
    rw [List.filter_eq_nil_iff]
    intro k hk
    simp only [requiredFields, List.mem_cons, List.not_mem_nil, or_false] at hk
    rcases hk with rfl | rfl | rfl | rfl | rfl | rfl <;>
      simp [h.v, h.id, h.type, h.ts, h.engineId, h.payload]
  have hcheck : ∀ err, check true err = pure () := fun _ => rfl
  have hok : (.ok e.payload : Except Exc (List (PyStr × Json))) = pure e.payload := rfl
  unfold validateEnvelope checkFields
  simp only [hunknown, hmissing, h.v, h.id, h.type, h.ts, h.engineId, h.payload, h.buildJobId,
    h.attemptId, h.seq, Option.getD_some, requireUuid_str, requireUuidIfPresent_str, checkSeq_int,
    checkType_text, checkTs, decide_true, hcheck, hok, map_eq_pure_bind, bind_assoc, pure_bind]

/-! ### Validity over time -/

/-- What a validation checks, but the clock and the allowed types. -/
structure Shape (e : Envelope) : Prop where
  version : e.v.eqInt protocolVersion = true
  id : isUuid e.id = true
  ts : ∃ t, parseTimestamp e.ts = .ok t
  engineId : isUuid e.engineId = true
  buildJobId : e.buildJobId.all isUuid = true
  attemptId : e.attemptId.all isUuid = true
  seq : (e.seq.isNone || e.attemptId.isSome) = true
  log : checkLog e.type e.payload = .ok ()

/-- The timestamp of the envelope is within the skew of the clock. -/
def Fresh (now : Instant) (e : Envelope) : Prop :=
  ∃ t, parseTimestamp e.ts = .ok t ∧ withinSkew now t = true

/-- A valid envelope: some validation has accepted it, and its object is well formed. -/
structure Valid (e : Envelope) : Prop where
  accepted : ∃ now e', validateEnvelope now [] (.obj e.toDict) = .ok e'
  wf : WF (.obj e.toDict)

theorem shape_of_checkFields {now : Instant} {allowed : List MessageType} {e : Envelope} {u : Unit}
    (h : checkFields now allowed e = .ok u) : Shape e := by
  unfold checkFields at h
  obtain ⟨_, hv, h⟩ := bind_ok h
  obtain ⟨_, hid, h⟩ := bind_ok h
  obtain ⟨_, -, h⟩ := bind_ok h
  obtain ⟨t, ht, h⟩ := bind_ok h
  obtain ⟨_, -, h⟩ := bind_ok h
  obtain ⟨_, he, h⟩ := bind_ok h
  obtain ⟨_, hb, h⟩ := bind_ok h
  obtain ⟨_, ha, h⟩ := bind_ok h
  obtain ⟨_, hs, h⟩ := bind_ok h
  exact ⟨check_ok hv, check_ok hid, ⟨t, ht⟩, check_ok he, check_ok hb, check_ok ha, check_ok hs, h⟩

theorem shape_of_validate {now : Instant} {e e' : Envelope}
    (h : validateEnvelope now [] (.obj e.toDict) = .ok e') : Shape e := by
  rw [validateEnvelope_of_represents (represents_toDict e)] at h
  rcases hc : checkFields now (if [] = [] then allMessageTypes else []) e with x | u
  · rw [hc] at h; cases h
  · exact shape_of_checkFields hc

theorem Valid.shape {e : Envelope} (h : Valid e) : Shape e := by
  obtain ⟨now, e', h⟩ := h.accepted
  exact shape_of_validate h

/-- The checks of an envelope of the right shape: only the type and the clock decide. -/
theorem checkFields_of_shape {e : Envelope} (h : Shape e) (now : Instant) (allowed : List MessageType) :
    (e.type ∈ allowed ∧ Fresh now e → checkFields now allowed e = .ok ()) ∧
    (¬ (e.type ∈ allowed ∧ Fresh now e) →
      ∃ err, checkFields now allowed e = .error (.protocol err)) := by
  obtain ⟨t, ht⟩ := h.ts
  have hfresh : Fresh now e ↔ withinSkew now t = true := by
    unfold Fresh
    rw [ht]
    simp
  have hcheck : ∀ err, check true err = pure () := fun _ => rfl
  have hts : parseTimestamp e.ts = pure t := ht
  have hlog : checkLog e.type e.payload = pure () := h.log
  have heq : checkFields now allowed e = (do
      check (e.type ∈ allowed) (.unknownType e.type.text)
      check (withinSkew now t) .clockSkew
      pure ()) := by
    unfold checkFields
    simp only [h.version, h.id, hts, h.engineId, h.buildJobId, h.attemptId, h.seq, hlog, hcheck,
      pure_bind]
  rw [heq, hfresh]
  by_cases hty : e.type ∈ allowed
  · simp only [hty, decide_true, hcheck, pure_bind, true_and]
    constructor
    · intro hw; rw [hw]; rfl
    · intro hw
      refine ⟨.clockSkew, ?_⟩
      rw [Bool.not_eq_true] at hw
      rw [hw]; rfl
  · refine ⟨fun h => absurd h.1 hty, fun _ => ⟨.unknownType e.type.text, ?_⟩⟩
    simp only [hty, decide_false]; rfl

/-! ### Reading back -/

theorem Shape.sorted {e : Envelope} (h : Shape e) (hn : (e.payload.map Prod.fst).Nodup) :
    Shape e.sorted where
  version := (eqInt_sortKeys e.v _).trans h.version
  id := h.id
  ts := h.ts
  engineId := h.engineId
  buildJobId := h.buildJobId
  attemptId := h.attemptId
  seq := h.seq
  log := (checkLog_sorted hn e.type).trans h.log

/-- **Reading back a valid envelope.** The frame of a valid envelope is decoded to the envelope, exactly
if its type is allowed and its timestamp is within the skew of the clock that reads it; otherwise it is a
protocol error. -/
theorem decodeFrame_toJson {e : Envelope} {text : PyStr} (hv : Valid e) (ht : e.toJson = .ok text)
    (now : Instant) {allowed : List MessageType} (hne : allowed ≠ []) :
    (e.type ∈ allowed ∧ Fresh now e → decodeFrame now allowed text = .ok e.sorted) ∧
    (¬ (e.type ∈ allowed ∧ Fresh now e) →
      ∃ err, decodeFrame now allowed text = .error (.protocol err)) := by
  obtain ⟨n, hlen, hmax⟩ := (of_toJson ht).2
  have hrep := (represents_toDict e).sorted (nodup_of_wf hv.wf)
  have hdecode : decodeFrame now allowed text =
      (fun _ => e.sorted) <$> checkFields now allowed e.sorted := by
    unfold decodeFrame
    rw [hlen]
    simp only [if_neg hmax, loads_toJson hv.wf ht]
    rw [validateEnvelope_of_represents hrep, if_neg hne]
  obtain ⟨hok, herr⟩ := checkFields_of_shape (hv.shape.sorted (nodup_payload hv.wf)) now allowed
  rw [hdecode]
  constructor
  · intro h
    rw [hok h]; rfl
  · intro h
    obtain ⟨err, he⟩ := herr h
    exact ⟨err, by rw [he]; rfl⟩

/-! ### New envelopes -/

/-- `new_envelope` puts the fields it is given into the envelope, and validates it. -/
theorem of_newEnvelope {now ts : Instant} {id : PyStr} {type : MessageType} {payload : List (PyStr × Json)}
    {engineId : PyStr} {b a : Option PyStr} {n : Option ℕ} {e : Envelope}
    (h : newEnvelope now ts id type payload engineId b a n = .ok e) :
    e = ⟨.int protocolVersion, id, type, formatTimestamp ts, payload, engineId, b, a, n⟩ ∧
      ∃ e', validateEnvelope now [] (.obj e.toDict) = .ok e' := by
  unfold newEnvelope at h
  obtain ⟨e', he', h⟩ := bind_ok h
  cases h
  exact ⟨rfl, e', he'⟩

theorem ascii_formatTimestamp (t : Instant) : Ascii (formatTimestamp t) := by
  intro c hc
  rcases mem_replace hc with hc | hc
  · exact (by decide +kernel : Ascii (py "Z")) c hc
  · exact PyDatetime.isoformat_ascii t c hc

omit [PyDatetime] in
theorem ascii_text (t : MessageType) : Ascii t.text := by
  cases t <;> decide +kernel

omit [PyDatetime] in
theorem mem_optionalMember {key : PyStr} {value : Option Json} {kv : PyStr × Json}
    (h : kv ∈ optionalMember key value) : some kv.2 = value := by
  cases value with
  | none => simp [optionalMember] at h
  | some v =>
    rw [List.mem_singleton.mp h]

omit [PyDatetime] in
theorem noPair_of_all {s : Option PyStr} {t : PyStr} (h : s.all isUuid = true) (ht : s = some t) :
    noPair t = true := by
  rw [ht, Option.all_some] at h
  exact noPair_of_ascii (ascii_of_isUuid h)

/-- The object of an accepted envelope is well formed, given that its payload, its timestamp and its number
are. -/
theorem wf_toDict {e : Envelope} (hs : Shape e) (hv : wf e.v = true) (hts : Ascii e.ts)
    (hpayload : WF (.obj e.payload)) (hseq : ∀ n ∈ e.seq, wf (.int n) = true) : WF (.obj e.toDict) := by
  have hnames : ∀ k ∈ envelopeFields, noPair k = true := by decide
  have hpresent : ∀ build attempt seq : Bool, (presentFields build attempt seq).Nodup := by decide
  unfold WF
  rw [wf, Bool.and_eq_true]
  constructor
  · rw [map_fst_toDict]
    exact decide_eq_true (hpresent _ _ _)
  · rw [wfMembers_iff]
    intro kv hkv
    refine ⟨hnames _ ((represents_toDict e).names _ (List.mem_map_of_mem hkv)), ?_⟩
    simp only [Envelope.toDict, List.mem_append, List.mem_cons, List.not_mem_nil, or_false] at hkv
    rcases hkv with ((((rfl | rfl | rfl | rfl | rfl | rfl) | hb) | ha) | hn)
    · exact hv
    · rw [wf]; exact noPair_of_ascii (ascii_of_isUuid hs.id)
    · rw [wf]; exact noPair_of_ascii (ascii_text e.type)
    · rw [wf]; exact noPair_of_ascii hts
    · rw [wf]; exact noPair_of_ascii (ascii_of_isUuid hs.engineId)
    · exact hpayload
    · obtain ⟨t, ht, hkv⟩ := Option.map_eq_some_iff.mp (mem_optionalMember hb).symm
      rw [← hkv, wf]; exact noPair_of_all hs.buildJobId ht
    · obtain ⟨t, ht, hkv⟩ := Option.map_eq_some_iff.mp (mem_optionalMember ha).symm
      rw [← hkv, wf]; exact noPair_of_all hs.attemptId ht
    · obtain ⟨n, hn', hkv⟩ := Option.map_eq_some_iff.mp (mem_optionalMember hn).symm
      rw [← hkv]; exact hseq n hn'

/-- An envelope `new_envelope` returns is valid, given a payload and a number `json` can write and read
back. -/
theorem valid_of_newEnvelope_wf {now ts : Instant} {id : PyStr} {type : MessageType}
    {payload : List (PyStr × Json)} {engineId : PyStr} {b a : Option PyStr} {n : Option ℕ} {e : Envelope}
    (h : newEnvelope now ts id type payload engineId b a n = .ok e) (hn : ∀ m ∈ n, wf (.int m) = true)
    (hpayload : WF (.obj payload)) : Valid e := by
  obtain ⟨he, e', hval⟩ := of_newEnvelope h
  have hshape : Shape e := shape_of_validate hval
  refine ⟨⟨now, e', hval⟩, wf_toDict hshape ?_ ?_ ?_ ?_⟩
  · rw [he]; exact wf_int (n := 2) (by norm_num)
  · rw [he]; exact ascii_formatTimestamp ts
  · rw [he]; exact hpayload
  · rw [he]; exact hn

/-- An envelope `new_envelope` returns with a number that is not astronomical. -/
theorem valid_of_newEnvelope {now ts : Instant} {id : PyStr} {type : MessageType}
    {payload : List (PyStr × Json)} {engineId : PyStr} {b a : Option PyStr} {n : ℕ} {e : Envelope}
    (h : newEnvelope now ts id type payload engineId b a (some n) = .ok e) (hn : n < 10 ^ 20)
    (hpayload : WF (.obj payload)) : Valid e := by
  refine valid_of_newEnvelope_wf h ?_ hpayload
  rintro m ⟨⟩
  exact wf_int hn

end Datetime

/-! ### The first day of the epoch -/

/-- A number in decimal, `width` digits. -/
def padded : ℕ → ℕ → PyStr
  | 0, _ => []
  | width + 1, n => padded width (n / 10) ++ [Fin.ofNat 0x110000 (48 + n % 10)]

/-- The ISO text of an instant of 1970-01-01. -/
def dayText (t : Instant) : PyStr :=
  let ms := (t / 1000).toNat
  py "1970-01-01T" ++ padded 2 (ms / 3600000) ++ py ":" ++ padded 2 (ms / 60000 % 60) ++ py ":" ++
    padded 2 (ms / 1000 % 60) ++ py "." ++ padded 3 (ms % 1000) ++ py "+00:00"

/-- The instant an ISO text of 1970-01-01 spells. -/
def dayInstant (s : PyStr) : Instant :=
  let number := fun start width => decimal ((s.drop start).take width)
  ((number 11 2 * 3600 + number 14 2 * 60 + number 17 2) * 1000 + number 20 3 : ℕ) * 1000

theorem ascii_padded : ∀ width n : ℕ, Ascii (padded width n)
  | 0, _ => by simp [padded, Ascii]
  | width + 1, n => by
    refine ascii_append (ascii_padded width (n / 10)) fun c hc => ?_
    rw [List.mem_singleton.mp hc, digit_val (Nat.mod_lt _ (by norm_num))]
    omega

theorem ascii_dayText (t : Instant) : Ascii (dayText t) := by
  have hlit : Ascii (py "1970-01-01T") ∧ Ascii (py ":") ∧ Ascii (py ".") ∧ Ascii (py "+00:00") := by
    decide +kernel
  obtain ⟨hdate, hcolon, hdot, hzone⟩ := hlit
  exact ascii_append (ascii_append (ascii_append (ascii_append (ascii_append (ascii_append (ascii_append
    (ascii_append hdate (ascii_padded _ _)) hcolon) (ascii_padded _ _)) hcolon) (ascii_padded _ _)) hdot)
    (ascii_padded _ _)) hzone

/-- `datetime` on the texts of 1970-01-01, to run examples with. -/
@[reducible] def firstDay : PyDatetime where
  isoformat := dayText
  isoformat_ascii := ascii_dayText
  fromisoformat := fun s => if dayText (dayInstant s) = s then some (some (dayInstant s)) else none

end BuildEngine.Agent.Protocol
