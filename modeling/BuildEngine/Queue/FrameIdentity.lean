import BuildEngine.Base.JsonEq
import BuildEngine.Queue.Replay

/-! # A replayed frame is the frame first sent

An envelope is written once for the wire and once for the outbox, and a stored text is parsed, written again
with other options and decoded before it is sent again. What is decoded is the envelope, with the members of
its payload in the order of their names (`SameEnvelope`); and since a text is always written in that order,
every one of these paths ends in the same text (`codec_round_trip`). -/

namespace BuildEngine.Queue.FrameIdentity

open BuildEngine.Base BuildEngine.Base.Json BuildEngine.Agent.Protocol BuildEngine.Queue.Schema
open BuildEngine.Queue.Outbox BuildEngine.Queue.Replay

/-- The two envelopes are equal in all nine fields; payloads are compared as dictionaries. -/
structure SameEnvelope (e e' : Envelope) : Prop where
  v : e.v = e'.v
  id : e.id = e'.id
  type : e.type = e'.type
  ts : e.ts = e'.ts
  payload : Same (.obj e.payload) (.obj e'.payload)
  engineId : e.engineId = e'.engineId
  buildJobId : e.buildJobId = e'.buildJobId
  attemptId : e.attemptId = e'.attemptId
  seq : e.seq = e'.seq

theorem same_sorted {e : Envelope} (hv : e.v = .int protocolVersion) (hpayload : WF (.obj e.payload)) :
    SameEnvelope e.sorted e := by
  have hsame := same_sortKeys (.obj e.payload) hpayload
  rw [sortKeys_obj] at hsame
  refine ⟨?_, rfl, rfl, rfl, hsame, rfl, rfl, rfl, rfl⟩
  show sortKeys e.v = e.v
  rw [hv, sortKeys]

/-! ### Writing again -/

/-- Sorting the fields of an envelope first does not change its text. -/
theorem encoded_sorted (e : Envelope) : e.sorted.encoded = e.encoded := by
  have hpayload : sortKeys (.obj (sortedMembers e.payload)) = sortKeys (.obj e.payload) := by
    rw [← sortKeys_obj, sortKeys_idem]
  have hmembers : sortKeysMembers e.sorted.toDict = sortKeysMembers e.toDict := by
    rw [sortKeysMembers_eq, sortKeysMembers_eq]
    simp only [Envelope.toDict, Envelope.sorted, List.map_append, List.map_cons, List.map_nil, sortKeys_idem,
      hpayload]
  show dumps (sortKeys (.obj e.sorted.toDict)) = dumps (sortKeys (.obj e.toDict))
  rw [sortKeys_obj, sortKeys_obj]
  unfold sortedMembers
  rw [hmembers]

theorem toJson_sorted (e : Envelope) : e.sorted.toJson = e.toJson := by
  unfold Envelope.toJson
  rw [encoded_sorted]

section Datetime
variable [PyDatetime]

/-! ### Decoding -/

/-- No set of allowed types stands for all types. -/
theorem decodeFrame_nil (now : Instant) (frame : PyStr) :
    decodeFrame now [] frame = decodeFrame now allMessageTypes frame := by
  have hvalidate : ∀ raw, validateEnvelope now [] raw = validateEnvelope now allMessageTypes raw := by
    intro raw
    unfold validateEnvelope
    rw [if_pos rfl, if_neg (by decide)]
  unfold decodeFrame
  simp only [hvalidate]

omit [PyDatetime] in
theorem mem_allMessageTypes (t : MessageType) : t ∈ allMessageTypes := by
  cases t <;> decide

/-- A fresh frame of a valid envelope is decoded to it, whatever set of types is allowed that has its own. -/
theorem decodeFrame_fresh {e : Envelope} {text : PyStr} (hv : Valid e) (ht : e.toJson = .ok text)
    {now : Instant} (hfresh : Fresh now e) {allowed : List MessageType}
    (hallowed : allowed = [] ∨ e.type ∈ allowed) : decodeFrame now allowed text = .ok e.sorted := by
  rcases hallowed with rfl | hmem
  · rw [decodeFrame_nil]
    exact (decodeFrame_toJson hv ht now (by decide)).1 ⟨mem_allMessageTypes e.type, hfresh⟩
  · exact (decodeFrame_toJson hv ht now (List.ne_nil_of_mem hmem)).1 ⟨hmem, hfresh⟩

/-- What the outbox decodes for a stored text: the text is parsed and written again. -/
def restored (text : PyStr) : Option PyStr :=
  match loads text with
  | .ok (.obj raw) => some (dumps (.obj (setDefault raw (py "engine_id") (.str zeroEngineId))))
  | _ => none

/-- The outbox decodes a row by decoding its restored text. -/
theorem decodeRow_of_restored {row : EventRow} {text : PyStr} (h : restored row.envelopeJson = some text)
    (now : Instant) : decodeRow now row = decodeFrame now outboundMessageTypes text := by
  unfold restored at h
  unfold decodeRow
  split at h
  · next raw hraw =>
    rw [hraw, ← Option.some.inj h]
  · cases h

omit [PyDatetime] in
/-- The second writing of a stored text gives the text again. -/
theorem restored_toJson {e : Envelope} {text : PyStr} (hwf : WF (.obj e.toDict)) (ht : e.toJson = .ok text) :
    restored text = some text := by
  have hrep := (represents_toDict e).sorted (nodup_of_wf hwf)
  unfold restored
  rw [loads_toJson hwf ht]
  dsimp only
  rw [hrep.setDefault_engineId, ← (of_toJson ht).1]

/-- **The envelope codec.** For every envelope `new_envelope` builds with a payload and a number `json` can
write and read back, whose text fits a frame, and every clock within the skew of its timestamp: the text is
decoded to an envelope equal in all nine fields, which is encoded to the same text. The outbox restores the
text it has stored, decodes it to such an envelope too, and so sends the frame it was given. -/
theorem codec_round_trip {now timestamp : Instant} {id : PyStr} {type : MessageType}
    {payload : List (PyStr × Json)} {engineId : PyStr} {b a : Option PyStr} {n : Option ℕ} {e : Envelope}
    {text : PyStr} {clock : Instant} {allowed : List MessageType}
    (hnew : newEnvelope now timestamp id type payload engineId b a n = .ok e)
    (hpayload : WF (.obj payload)) (hseq : ∀ m ∈ n, WF (.int m)) (htext : e.toJson = .ok text)
    (hfresh : Fresh clock e) (hallowed : allowed = [] ∨ type ∈ allowed) :
    (∃ e', decodeFrame clock allowed text = .ok e' ∧ SameEnvelope e' e ∧ e'.toJson = .ok text) ∧
    restored text = some text ∧
    (type ∈ outboundMessageTypes → ∀ row : EventRow, row.envelopeJson = text →
      ∃ e', decodeRow clock row = .ok e' ∧ SameEnvelope e' e ∧ e'.toJson = .ok text) := by
  obtain ⟨he, -⟩ := of_newEnvelope hnew
  have hvalid : Valid e := valid_of_newEnvelope_wf hnew hseq hpayload
  have htype : e.type = type := by rw [he]
  have hsame : SameEnvelope e.sorted e := same_sorted (by rw [he]) (by rw [he]; exact hpayload)
  have hagain : e.sorted.toJson = .ok text := (toJson_sorted e).trans htext
  have hrestored := restored_toJson hvalid.wf htext
  refine ⟨⟨e.sorted, ?_, hsame, hagain⟩, hrestored, fun hout row hrow => ⟨e.sorted, ?_, hsame, hagain⟩⟩
  · exact decodeFrame_fresh hvalid htext hfresh (htype ▸ hallowed)
  · subst hrow
    rw [decodeRow_of_restored hrestored]
    exact decodeFrame_fresh hvalid htext hfresh (Or.inr (htype ▸ hout))

end Datetime

theorem ts_firstEvent : @formatTimestamp firstDay 1000000 = firstEvent.ts := by decide +kernel

/-- A payload whose members are not in the order of their names. -/
def unsortedPayload : List (PyStr × Json) :=
  [(py "phase", .str (py "BUILDING")), (py "detail", .arr [.int (-3), .null, .str [ch 'a', 0x1f600]])]

/-- An event with such a payload is replayed as it was sent. -/
theorem codec_round_trip_unsorted : ∃ e text, @newEnvelope firstDay 1000000 1000000 firstEvent.id .attemptStatus
      unsortedPayload zeroEngineId (some Ops.sampleBuild) (some Ops.sampleAttempt) (some 1) = .ok e ∧
    e.toJson = .ok text ∧ restored text = some text ∧
    ∃ e', @decodeFrame firstDay 2000000 outboundMessageTypes text = .ok e' ∧ SameEnvelope e' e ∧
      e'.toJson = .ok text := by
  let _ := firstDay
  obtain ⟨e, hnew⟩ := exists_of_isOk (x := newEnvelope 1000000 1000000 firstEvent.id .attemptStatus
    unsortedPayload zeroEngineId (some Ops.sampleBuild) (some Ops.sampleAttempt) (some 1)) (by decide +kernel)
  obtain ⟨he, -⟩ := of_newEnvelope hnew
  have htext : (Envelope.toJson ⟨.int protocolVersion, firstEvent.id, .attemptStatus, formatTimestamp 1000000,
      unsortedPayload, zeroEngineId, some Ops.sampleBuild, some Ops.sampleAttempt, some 1⟩).isOk = true := by
    rw [ts_firstEvent]
    decide +kernel
  rw [← he] at htext
  obtain ⟨text, htext⟩ := exists_of_isOk htext
  have hfresh : Fresh 2000000 e := by
    refine ⟨1000000, ?_, by decide⟩
    rw [he]
    show parseTimestamp (formatTimestamp 1000000) = _
    rw [ts_firstEvent]
    exact parse_firstEvent
  have hallowed : outboundMessageTypes = [] ∨ MessageType.attemptStatus ∈ outboundMessageTypes :=
    Or.inr (by decide)
  obtain ⟨hdecode, hrestored, -⟩ := codec_round_trip hnew (by unfold WF; decide +kernel)
    (by rintro m ⟨⟩; unfold WF; decide +kernel) htext hfresh hallowed
  exact ⟨e, text, hnew, htext, hrestored, hdecode⟩

end BuildEngine.Queue.FrameIdentity
