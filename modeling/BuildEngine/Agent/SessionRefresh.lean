import BuildEngine.Agent.Credentials
import BuildEngine.Agent.Protocol
import BuildEngine.Base.Run

/-! # The session of the workers

One run of `_run_service`: the uplink refreshes its credentials before every connection, the workers of the pool
take jobs, and `execute_job` sends two requests of its own, for the secrets of the attempt and for the
upload URL. `EngineCredentials` is an immutable value. The uplink, every `_worker` and every call of
`execute_job` have one each, and so has the machine below; the credentials of a call are those its worker was
started with. Beside them it keeps the session the last refresh has obtained, and with every request the
session that was obtained last when it was sent. -/

namespace BuildEngine.Agent.SessionRefresh

open BuildEngine.Base BuildEngine.Base.Run BuildEngine.Agent.Credentials BuildEngine.Agent.Protocol

/-- A session the backend has minted: `_session_from_payload` refuses an empty token. -/
structure Session where
  token : PyStr
  expiresAt : Instant
  nonempty : token ≠ []

/-- `refresh_window`, five minutes. -/
def refreshWindow : Instant := 300000000

/-- `a or b` -/
def orElse (a b : Option PyStr) : Option PyStr := if orEmpty a = [] then b else a

/-- The `Authorization` header of `client_headers_for_credentials` and of `ArtifactUploadClient`. -/
def bearer (sessionJwt : PyStr) : PyStr := py "Bearer " ++ sessionJwt

theorem bearer_injective {a b : PyStr} (h : bearer a = bearer b) : a = b := List.append_cancel_left h

/-- How far a worker's call of `execute_job` has come. `ids` says that both identifiers of the job are UUIDs. -/
inductive Stage where
  | idle
  /-- Before the secrets are fetched. -/
  | executing (credentials : EngineCredentials) (ids : Bool)
  /-- The secrets are there; the container runs, or the artifact is packed. -/
  | building (credentials : EngineCredentials) (ids : Bool)
  /-- The `ArtifactUploadClient` is built. -/
  | uploading (sessionJwt : PyStr) (ids : Bool)
  /-- The upload URL has been requested. -/
  | requested

/-- A `_worker`. -/
structure Worker where
  credentials : EngineCredentials
  stage : Stage

/-- How far `connect_once` has come. -/
inductive Link where
  | down
  /-- `create_session` has been called. -/
  | refreshing
  | up

/-- A request of `execute_job`, and the session obtained last when it was sent. -/
structure Request where
  authorization : PyStr
  obtained : Option PyStr

/-- The service. -/
structure State where
  uplink : EngineCredentials
  link : Link
  workers : ℕ → Worker
  obtained : Option PyStr
  requests : List Request

/-- `_run_service` hands the credentials it was given to the uplink and to every worker. -/
def init (loaded : EngineCredentials) : State := ⟨loaded, .down, fun _ => ⟨loaded, .idle⟩, none, []⟩

/-- What happens in a run of the service. -/
inductive Action where
  /-- `connect_once` up to the call of `create_session`, if one is needed. -/
  | connect (now : Instant)
  /-- `create_session` returns, or raises. -/
  | reply (session : Option Session)
  /-- The connection ends. -/
  | disconnect
  /-- A worker has leased a job and calls `execute_job`. -/
  | beginJob (w : ℕ) (ids : Bool)
  /-- `_fetch_secret_env` -/
  | fetchSecrets (w : ℕ)
  /-- The `ArtifactUploadClient` is built. -/
  | buildClient (w : ℕ)
  /-- `request_upload_url` -/
  | requestUploadUrl (w : ℕ)
  /-- `execute_job` returns, or raises. -/
  | endJob (w : ℕ)

/-- A worker's call has come to a stage. -/
def State.stage (s : State) (w : ℕ) (stage : Stage) : State :=
  { s with workers := Function.update s.workers w { s.workers w with stage := stage } }

/-- A request is sent. -/
def State.request (s : State) (authorization : PyStr) : State :=
  { s with requests := ⟨authorization, s.obtained⟩ :: s.requests }

/-- A refresh has returned: `self.credentials = refreshed`. -/
def State.refreshed (s : State) (credentials : EngineCredentials) : State :=
  { s with uplink := credentials, obtained := some credentials.sessionJwt, link := .up }

/-! ### One step -/

section Service

/- `parse_datetime`, which raises on some texts, `datetime.isoformat`, and `config.backend_url`. -/
variable (parseDatetime : PyStr → Option Instant) (isoformat : Instant → PyStr) (configUrl : Option PyStr)

/-- `refresh_session_if_needed` keeps the credentials, unless their session is missing or near expiry. -/
def fresh (now expiresAt : Instant) (c : EngineCredentials) : Bool :=
  c.sessionJwt ≠ [] && expiresAt - now > refreshWindow

/-- The credentials with a new session. -/
def renew (c : EngineCredentials) (session : Session) : EngineCredentials :=
  { c with sessionJwt := session.token, sessionJwtExpiresAt := isoformat session.expiresAt }

/-- `_refresh_credentials` of a connection that is being opened. -/
def connect (s : State) (now : Instant) : State :=
  match orElse s.uplink.backendUrl configUrl with
  | none => s
  | some _ =>
    match parseDatetime s.uplink.sessionJwtExpiresAt with
    | none => s
    | some expiresAt =>
      if fresh now expiresAt s.uplink then s.refreshed s.uplink else { s with link := .refreshing }

/-- One thing that happens; what is not enabled changes nothing. -/
def step (s : State) : Action → State
  | .connect now =>
    match s.link with
    | .down => connect parseDatetime configUrl s now
    | _ => s
  | .reply session =>
    match s.link, session with
    | .refreshing, some session => s.refreshed (renew isoformat s.uplink session)
    | .refreshing, none => { s with link := .down }
    | _, _ => s
  | .disconnect =>
    match s.link with
    | .up => { s with link := .down }
    | _ => s
  | .beginJob w ids =>
    match (s.workers w).stage with
    | .idle => s.stage w (.executing (s.workers w).credentials ids)
    | _ => s
  | .fetchSecrets w =>
    match (s.workers w).stage with
    | .executing c ids =>
      if (orElse c.backendUrl configUrl).isSome && ids then
        (s.request (bearer c.sessionJwt)).stage w (.building c ids)
      else s.stage w .idle
    | _ => s
  | .buildClient w =>
    match (s.workers w).stage with
    | .building c ids =>
      if (orElse c.backendUrl configUrl).isSome then s.stage w (.uploading c.sessionJwt ids)
      else s.stage w .idle
    | _ => s
  | .requestUploadUrl w =>
    match (s.workers w).stage with
    | .uploading sessionJwt ids =>
      if ids then (s.request (bearer sessionJwt)).stage w .requested else s.stage w .idle
    | _ => s
  | .endJob w => s.stage w .idle

/-- The step sends a request. -/
def sends (s : State) : Action → Bool
  | .fetchSecrets w =>
    match (s.workers w).stage with
    | .executing c ids => (orElse c.backendUrl configUrl).isSome && ids
    | _ => false
  | .requestUploadUrl w =>
    match (s.workers w).stage with
    | .uploading _ ids => ids
    | _ => false
  | _ => false

/-- Every request carries the session a refresh had obtained last, once a refresh had obtained one. -/
def Current (s : State) : Prop := ∀ r ∈ s.requests, ∀ jwt ∈ r.obtained, r.authorization = bearer jwt

/-- When a request is sent, the session obtained last is the one the service was started with. -/
def Unreplaced (loaded : EngineCredentials) (s : State) (a : Action) : Prop :=
  sends configUrl s a = true → ∀ jwt ∈ s.obtained, jwt = loaded.sessionJwt

/-! ### Who has which session -/

/-- A stage has the session the service was started with. -/
def Stage.Loaded (loaded : EngineCredentials) : Stage → Prop
  | .idle | .requested => True
  | .executing c _ | .building c _ => c = loaded
  | .uploading sessionJwt _ => sessionJwt = loaded.sessionJwt

/-- The workers and their calls have the credentials the service was started with; the uplink has the session
obtained last. -/
structure Inv (loaded : EngineCredentials) (s : State) : Prop where
  workers : ∀ w, (s.workers w).credentials = loaded ∧ (s.workers w).stage.Loaded loaded
  uplink : s.uplink.sessionJwt = s.obtained.getD loaded.sessionJwt

theorem inv_init (loaded : EngineCredentials) : Inv loaded (init loaded) := ⟨fun _ => ⟨rfl, trivial⟩, rfl⟩

variable {parseDatetime isoformat configUrl} {loaded : EngineCredentials} {s : State}

theorem Inv.stage (h : Inv loaded s) (w : ℕ) {stage : Stage} (hstage : stage.Loaded loaded) :
    Inv loaded (s.stage w stage) := by
  refine ⟨fun v => ?_, h.uplink⟩
  show (Function.update s.workers w _ v).credentials = loaded ∧
    (Function.update s.workers w _ v).stage.Loaded loaded
  by_cases hv : v = w
  · subst hv
    rw [Function.update_self]
    exact ⟨(h.workers v).1, hstage⟩
  · rw [Function.update_of_ne hv]
    exact h.workers v

theorem Inv.request (h : Inv loaded s) (authorization : PyStr) : Inv loaded (s.request authorization) :=
  ⟨h.workers, h.uplink⟩

theorem Inv.refreshed (h : Inv loaded s) (c : EngineCredentials) : Inv loaded (s.refreshed c) :=
  ⟨h.workers, rfl⟩

theorem Inv.connect (h : Inv loaded s) (now : Instant) : Inv loaded (connect parseDatetime configUrl s now) := by
  unfold SessionRefresh.connect
  split
  · exact h
  · split
    · exact h
    · split_ifs
      · exact h.refreshed _
      · exact ⟨h.workers, h.uplink⟩

/-- The stage of a worker's call has the session the service was started with. -/
theorem Inv.loaded_of_stage (h : Inv loaded s) {w : ℕ} {stage : Stage} (hstage : (s.workers w).stage = stage) :
    stage.Loaded loaded := by
  rw [← hstage]
  exact (h.workers w).2

theorem Inv.step (h : Inv loaded s) (a : Action) :
    Inv loaded (step parseDatetime isoformat configUrl s a) := by
  cases a with
  | connect now =>
    dsimp only [SessionRefresh.step]
    split
    · exact h.connect now
    · exact h
  | reply session =>
    dsimp only [SessionRefresh.step]
    split
    · exact h.refreshed _
    · exact ⟨h.workers, h.uplink⟩
    · exact h
  | disconnect =>
    dsimp only [SessionRefresh.step]
    split
    · exact ⟨h.workers, h.uplink⟩
    · exact h
  | beginJob w ids =>
    dsimp only [SessionRefresh.step]
    split
    · exact h.stage w (h.workers w).1
    · exact h
  | fetchSecrets w =>
    dsimp only [SessionRefresh.step]
    split
    · next c ids hstage =>
      have hc : c = loaded := h.loaded_of_stage hstage
      split_ifs
      · exact (h.request _).stage w hc
      · exact h.stage w trivial
    · exact h
  | buildClient w =>
    dsimp only [SessionRefresh.step]
    split
    · next c ids hstage =>
      have hc : c = loaded := h.loaded_of_stage hstage
      split_ifs
      · exact h.stage w (congrArg EngineCredentials.sessionJwt hc)
      · exact h.stage w trivial
    · exact h
  | requestUploadUrl w =>
    dsimp only [SessionRefresh.step]
    split
    · split_ifs
      · exact (h.request _).stage w trivial
      · exact h.stage w trivial
    · exact h
  | endJob w => exact h.stage w trivial

/-! ### What a step sends -/

theorem requests_connect (s : State) (now : Instant) :
    (connect parseDatetime configUrl s now).requests = s.requests := by
  unfold connect
  split
  · rfl
  · split
    · rfl
    · split_ifs
      · rfl
      · rfl

/-- A step that sends nothing leaves the requests as they are. -/
theorem requests_of_silent {a : Action} (h : sends configUrl s a = false) :
    (step parseDatetime isoformat configUrl s a).requests = s.requests := by
  cases a with
  | connect now =>
    dsimp only [step]
    split
    · exact requests_connect s now
    · rfl
  | fetchSecrets w =>
    dsimp only [sends] at h
    dsimp only [step]
    split
    · next c ids hstage =>
      rw [hstage] at h
      rw [if_neg (ne_true_of_eq_false h)]
      rfl
    · rfl
  | requestUploadUrl w =>
    dsimp only [sends] at h
    dsimp only [step]
    split
    · next jwt ids hstage =>
      rw [hstage] at h
      rw [if_neg (ne_true_of_eq_false h)]
      rfl
    · rfl
  | reply session | disconnect =>
    dsimp only [step]
    split <;> rfl
  | beginJob w ids =>
    dsimp only [step]
    split <;> rfl
  | buildClient w =>
    dsimp only [step]
    split
    · split_ifs <;> rfl
    · rfl
  | endJob w => rfl

/-- A request carries the session the service was started with. -/
theorem requests_of_sends (h : Inv loaded s) {a : Action} (hs : sends configUrl s a = true) :
    (step parseDatetime isoformat configUrl s a).requests =
      ⟨bearer loaded.sessionJwt, s.obtained⟩ :: s.requests := by
  cases a with
  | fetchSecrets w =>
    dsimp only [sends] at hs
    dsimp only [step]
    split at hs
    · next c ids hstage =>
      have hc : c = loaded := h.loaded_of_stage hstage
      rw [if_pos hs, hc]
      rfl
    · cases hs
  | requestUploadUrl w =>
    dsimp only [sends] at hs
    dsimp only [step]
    split at hs
    · next jwt ids hstage =>
      have hjwt : jwt = loaded.sessionJwt := h.loaded_of_stage hstage
      rw [if_pos hs, hjwt]
      rfl
    · cases hs
  | connect | reply | disconnect | beginJob | buildClient | endJob => cases hs

/-- The requests stay current exactly if a request that is sent comes before any replacement. -/
theorem current_step (h : Inv loaded s) (hs : Current s) (a : Action) :
    Current (step parseDatetime isoformat configUrl s a) ↔ Unreplaced configUrl loaded s a := by
  unfold Current Unreplaced
  rcases hsends : sends configUrl s a with _ | _
  · rw [requests_of_silent hsends]
    exact ⟨fun _ hsent => (by cases hsent), fun _ => hs⟩
  · rw [requests_of_sends h hsends]
    constructor
    · intro hcurrent _ jwt hjwt
      have hsame := hcurrent _ List.mem_cons_self jwt hjwt
      exact (bearer_injective hsame).symm
    · intro hfirst r hr jwt hjwt
      rcases List.mem_cons.mp hr with rfl | hr
      · rw [hfirst rfl jwt hjwt]
      · exact hs r hr jwt hjwt

/-! ### Whole runs -/

/-- **The workers use the current session** exactly as long as no refresh has replaced the one the service was
started with: for every run of the service, with any connections, refreshes, workers and jobs, every secret
fetch and every request for an upload URL carries the session obtained last by a refresh, at all times, if
and only if, whenever such a request is sent, that session is the one of the credentials the service was
started with. -/
theorem session_current_iff (parseDatetime : PyStr → Option Instant) (isoformat : Instant → PyStr)
    (configUrl : Option PyStr) (loaded : EngineCredentials) (as : List Action) :
    (∀ before after, as = before ++ after →
      Current (run (step parseDatetime isoformat configUrl) (init loaded) before)) ↔
      Along (step parseDatetime isoformat configUrl) (Unreplaced configUrl loaded) (init loaded) as := by
  have hcurrent : Current (init loaded) := fun r hr => (by cases hr)
  have hstep : ∀ s a, Inv loaded s → Current s →
      (Current (step parseDatetime isoformat configUrl s a) ↔ Unreplaced configUrl loaded s a) :=
    fun _ a hinv h => current_step hinv h a
  exact along_iff_of_invariant (fun _ a h => h.step a) hstep as (inv_init loaded) hcurrent

end Service

/-- Credentials whose session ends at the start of the clock. -/
def sampleLoaded : EngineCredentials :=
  ⟨py "e", py "s", py "old", [], some (py "https://backend"), none⟩

/-- A session, with the token `new`. -/
def sampleSession : Session := ⟨py "new", 3600000000, by decide⟩

/-- A refresh, and then a job. -/
def sampleActs : List Action := [.connect 0, .reply (some sampleSession), .beginJob 0 true, .fetchSecrets 0]

/-- After a refresh the secrets are asked for with the session it has replaced. -/
theorem stale_secret_fetch :
    (run (step (fun _ => some 0) (fun _ => []) none) (init sampleLoaded) sampleActs).requests =
      [⟨bearer (py "old"), some (py "new")⟩] ∧
    ¬ Current (run (step (fun _ => some 0) (fun _ => []) none) (init sampleLoaded) sampleActs) := by
  have hrequests : (run (step (fun _ => some 0) (fun _ => []) none) (init sampleLoaded) sampleActs).requests =
      [⟨bearer (py "old"), some (py "new")⟩] := rfl
  refine ⟨hrequests, fun hcurrent => ?_⟩
  unfold Current at hcurrent
  rw [hrequests] at hcurrent
  have hsame := hcurrent _ List.mem_cons_self (py "new") rfl
  exact absurd (bearer_injective hsame) (by decide)

end BuildEngine.Agent.SessionRefresh
