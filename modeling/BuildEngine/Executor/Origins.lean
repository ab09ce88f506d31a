import BuildEngine.Config.EngineConfig

/-! # The origins of storage

Three checks decide where the bytes of a build come from and go to: `_open_source` checks the address of the source,
`_SafeRedirectHandler` every redirect of its download, and `_validate_upload_url` the address the artifact is sent to.
No byte of the source comes from an origin that is not configured (`fetched_approved`). But `_open_source` compares
the network locations with regard to case, the redirects are compared without, and the address of the artifact is
compared with nothing (`one_policy_iff`). -/

namespace BuildEngine.Executor.Origins

open BuildEngine.Base BuildEngine.Config

/-! ### Addresses -/

/-- The functions on addresses that are not modelled: `str.lower`, `urljoin`, which may raise, and what `urlsplit`
checks of a network location. -/
structure Urls where
  surroundings : Surroundings
  lower : PyStr → PyStr
  urljoin : PyStr → PyStr → Option PyStr

/-- The parts of an address that the checks read. -/
structure ParseResult where
  scheme : PyStr
  netloc : PyStr
  deriving DecidableEq

/-- The parts of an address. -/
def splitUrl (url : PyStr) : ParseResult :=
  ⟨(splitScheme (cleanUrl url)).1, Config.netloc (splitScheme (cleanUrl url)).2⟩

/-- `urlparse`; `none` where it raises. -/
def urlparse (w : Surroundings) (url : PyStr) : Option ParseResult :=
  if w.badNetloc (splitUrl url).netloc then none else some (splitUrl url)

/-- `parsed.hostname` -/
def ParseResult.hostname (lower : PyStr → PyStr) (parsed : ParseResult) : Option PyStr :=
  let hostinfo := (parsed.netloc.reverse.takeWhile (· ≠ ch '@')).reverse
  let hostname :=
    if ch '[' ∈ hostinfo then ((hostinfo.dropWhile (· ≠ ch '[')).drop 1).takeWhile (· ≠ ch ']')
    else hostinfo.takeWhile (· ≠ ch ':')
  -- the zone of an IPv6 address keeps its case
  if hostname = [] then none
  else some (lower (hostname.takeWhile (· ≠ ch '%')) ++ hostname.dropWhile (· ≠ ch '%'))

/-- `_origin`; `none` where it raises. -/
def origin (u : Urls) (value : PyStr) : Option PyStr :=
  (urlparse u.surroundings value).map fun parsed => u.lower parsed.scheme ++ py "://" ++ u.lower parsed.netloc

/-! ### The source -/

/-- What opening the source raises; `badUrl` is a `ValueError` of `urlparse` or `urljoin`. -/
inductive SourceError where
  | notHttps
  | noHost
  | notAllowed
  | redirectNotHttps
  | redirectLeaves
  | badUrl
  deriving DecidableEq

/-- The text of a `WorkspaceError`. -/
def SourceError.text : SourceError → Option PyStr
  | notHttps => py "source_download_url must use HTTPS"
  | noHost => py "source_download_url must include a host"
  | notAllowed => py "source_download_url host is not an allowed storage origin"
  | redirectNotHttps => py "Source redirect must use HTTPS"
  | redirectLeaves => py "Source redirect leaves the approved storage origin"
  | badUrl => none

/-- `_SafeRedirectHandler` -/
structure SafeRedirectHandler where
  sourceOrigin : PyStr
  allowedOrigins : List PyStr

/-- `_SafeRedirectHandler.__init__`; `none` where it raises. -/
def safeRedirectHandler (u : Urls) (sourceUrl : PyStr) (allowedOrigins : List PyStr) : Option SafeRedirectHandler := do
  let sourceOrigin ← origin u sourceUrl
  let origins ← allowedOrigins.mapM (origin u)
  return ⟨sourceOrigin, origins⟩

/-- The network locations of the allowed origins; `none` where `urlparse` raises. -/
def allowedNetlocs (w : Surroundings) (allowedOrigins : List PyStr) : Option (List PyStr) :=
  (allowedOrigins.mapM (urlparse w)).map fun parsed => (parsed.map ParseResult.netloc).filter (· ≠ [])

/-- What is opened: a file of the engine, or the address, with what handles its redirects. -/
inductive Opening where
  | file
  | remote (handler : SafeRedirectHandler)

/-- `_open_source`, up to the request. -/
def openSource (u : Urls) (allowedOrigins : List PyStr) (allowFile : Bool) (sourceUrl : PyStr) :
    Except SourceError Opening :=
  match urlparse u.surroundings sourceUrl with
  | none => .error .badUrl
  | some parsed =>
    if parsed.scheme = py "file" then if allowFile then .ok .file else .error .notHttps
    else if parsed.scheme ≠ py "https" then .error .notHttps
    else if parsed.netloc = [] then .error .noHost
    else match allowedNetlocs u.surroundings allowedOrigins, safeRedirectHandler u sourceUrl allowedOrigins with
      | some netlocs, some handler =>
        if allowedOrigins ≠ [] ∧ parsed.netloc ∉ netlocs then .error .notAllowed else .ok (.remote handler)
      | _, _ => .error .badUrl

/-- `redirect_request`: the address that is requested next. -/
def redirectRequest (u : Urls) (handler : SafeRedirectHandler) (fullUrl newurl : PyStr) : Except SourceError PyStr :=
  match u.urljoin fullUrl newurl with
  | none => .error .badUrl
  | some target =>
    match urlparse u.surroundings target, origin u target with
    | some parsed, some targetOrigin =>
      if parsed.scheme ≠ py "https" ∨ parsed.netloc = [] then .error .redirectNotHttps
      else if targetOrigin ∉ (if handler.allowedOrigins = [] then [handler.sourceOrigin] else handler.allowedOrigins)
        then .error .redirectLeaves
      else .ok target
    | _, _ => .error .badUrl

/-- What a server answers: a redirect, or anything else. -/
inductive Reply where
  | redirect (newurl : PyStr)
  | final

/-- The addresses that are requested, one after the other, from an address on. -/
def follow (u : Urls) (handler : SafeRedirectHandler) : List Reply → PyStr → List PyStr
  | .redirect newurl :: replies, url =>
    match redirectRequest u handler url newurl with
    | .error _ => [url]
    | .ok target => url :: follow u handler replies target
  | _, url => [url]

/-- The addresses that are requested for a source. -/
def fetchedFrom (u : Urls) (allowedOrigins : List PyStr) (allowFile : Bool) (replies : List Reply) (sourceUrl : PyStr) :
    List PyStr :=
  match openSource u allowedOrigins allowFile sourceUrl with
  | .ok (.remote handler) => follow u handler replies sourceUrl
  | _ => []

/-! ### The artifact -/

/-- What the upload raises; `badUrl` is a `ValueError` of `urlparse`. -/
inductive UploadError where
  | notObject
  | missing (key : PyStr)
  | noHost
  | notHttps
  | redirected
  | badUrl
  deriving DecidableEq

/-- The text of an `ArtifactError`. -/
def UploadError.text : UploadError → Option PyStr
  | notObject => py "Artifact upload URL response was not a JSON object"
  | missing key => py "Artifact upload URL response missing " ++ key
  | noHost => py "Artifact upload URL must include a host"
  | notHttps => py "Artifact upload URL must be an HTTPS URL"
  | redirected => py "Artifact upload URL returned an unexpected redirect"
  | badUrl => none

/-- `UploadTicket` -/
structure UploadTicket where
  uploadUrl : PyStr
  expiresAt : PyStr
  storageKey : PyStr

/-- A field of the payload, which must be a string that is not empty. -/
def ticketField (payload : List (PyStr × Json)) (key : PyStr) : Except UploadError PyStr :=
  match Json.get? payload key with
  | some (.str s) => if s = [] then .error (.missing key) else .ok s
  | _ => .error (.missing key)

/-- `_upload_ticket_from_payload` -/
def uploadTicketFromPayload (payload : List (PyStr × Json)) : Except UploadError UploadTicket := do
  let uploadUrl ← ticketField payload (py "upload_url")
  let expiresAt ← ticketField payload (py "expires_at")
  let storageKey ← ticketField payload (py "storage_key")
  return ⟨uploadUrl, expiresAt, storageKey⟩

/-- `_validate_upload_url` -/
def validateUploadUrl (u : Urls) (allowInsecureLocalhost : Bool) (value : PyStr) : Except UploadError Unit :=
  match urlparse u.surroundings value with
  | none => .error .badUrl
  | some parsed =>
    if parsed.netloc = [] then .error .noHost
    else if parsed.scheme = py "https" then .ok ()
    else if allowInsecureLocalhost ∧ parsed.scheme = py "http" ∧
        parsed.hostname u.lower ∈ [some (py "127.0.0.1"), some (py "localhost"), some (py "::1")] then .ok ()
    else .error .notHttps

/-- `request_upload_url`, after the answer of the backend has been decoded. -/
def requestUploadUrl (u : Urls) (allowInsecureLocalhost : Bool) (decoded : Json) : Except UploadError UploadTicket :=
  match decoded with
  | .obj payload => do
    let ticket ← uploadTicketFromPayload payload
    validateUploadUrl u allowInsecureLocalhost ticket.uploadUrl
    return ticket
  | _ => .error .notObject

/-- `upload`: the addresses that are requested, and what is raised. -/
def upload (ticket : UploadTicket) : Reply → List PyStr × Except UploadError Unit
  | .redirect _ => ([ticket.uploadUrl], .error .redirected)
  | .final => ([ticket.uploadUrl], .ok ())

/-- The addresses that the artifact is sent to. -/
def sentTo (u : Urls) (allowInsecureLocalhost : Bool) (decoded : Json) (reply : Reply) : List PyStr :=
  match requestUploadUrl u allowInsecureLocalhost decoded with
  | .ok ticket => (upload ticket reply).1
  | .error _ => []

/-! ### Approved origins -/

/-- An absolute `https` address, as `_is_secure_origin` takes it. -/
structure SecureUrl (w : Surroundings) where
  text : PyStr
  secure : isSecureOrigin w text = some true

/-- The configured `storage_origins`. -/
structure StorageOrigins (w : Surroundings) where
  all : List (SecureUrl w)
  nonempty : all ≠ []

/-- The texts of the configuration. -/
def StorageOrigins.texts {w : Surroundings} (origins : StorageOrigins w) : List PyStr := origins.all.map SecureUrl.text

/-- The same scheme and network location, up to case. -/
def SameOrigin (lower : PyStr → PyStr) (p q : ParseResult) : Prop :=
  lower p.scheme = lower q.scheme ∧ lower p.netloc = lower q.netloc

/-- The origin of the address is one of the configured origins. -/
def Approved (u : Urls) (origins : StorageOrigins u.surroundings) (url : PyStr) : Prop :=
  ∃ parsed, urlparse u.surroundings url = some parsed ∧ ∃ o ∈ origins.all, SameOrigin u.lower (splitUrl o.text) parsed

section Secure
variable {w : Surroundings}

theorem urlparse_eq_some {url : PyStr} {parsed : ParseResult} (h : urlparse w url = some parsed) :
    parsed = splitUrl url := by
  unfold urlparse at h
  split_ifs at h
  exact (Option.some.inj h).symm

theorem secure_iff (url : PyStr) : isSecureOrigin w url = some true ↔
    urlparse w url = some (splitUrl url) ∧ (splitUrl url).scheme = py "https" ∧ (splitUrl url).netloc ≠ [] := by
  have hsecure : isSecureOrigin w url = if w.badNetloc (splitUrl url).netloc then none
      else some (decide ((splitUrl url).scheme = py "https") && decide ((splitUrl url).netloc ≠ [])) := rfl
  rw [hsecure]
  unfold urlparse
  split_ifs with hbad
  · exact iff_of_false (fun h => by cases h) fun h => by cases h.1
  · rw [Option.some_inj, Bool.and_eq_true, decide_eq_true_eq, decide_eq_true_eq]
    exact (and_iff_right rfl).symm

theorem SecureUrl.parts (url : SecureUrl w) : urlparse w url.text = some (splitUrl url.text) ∧
    (splitUrl url.text).scheme = py "https" ∧ (splitUrl url.text).netloc ≠ [] :=
  (secure_iff url.text).mp url.secure

end Secure

/-- A function that gives a result on every element gives a list of results. -/
theorem mapM_eq_map {α β : Type} {f : α → Option β} {g : α → β} : ∀ {xs : List α}, (∀ x ∈ xs, f x = some (g x)) →
    xs.mapM f = some (xs.map g)
  | [], _ => rfl
  | x :: xs, h => by
    have hrest := mapM_eq_map fun y hy => h y (List.mem_cons_of_mem x hy)
    rw [List.mapM_cons, h x List.mem_cons_self, hrest]
    rfl

section Policy
variable (u : Urls) (origins : StorageOrigins u.surroundings)

theorem mapM_texts {β : Type} {f : PyStr → Option β} {g : PyStr → β}
    (h : ∀ o : SecureUrl u.surroundings, f o.text = some (g o.text)) :
    origins.texts.mapM f = some (origins.all.map fun o => g o.text) := by
  have hall := @mapM_eq_map _ _ f g origins.texts fun text htext => by
    obtain ⟨o, -, rfl⟩ := List.mem_map.mp htext
    exact h o
  rw [hall, StorageOrigins.texts, List.map_map]
  rfl

theorem netlocs_of_origins : allowedNetlocs u.surroundings origins.texts =
    some (origins.all.map fun o => (splitUrl o.text).netloc) := by
  have hkeep : ((origins.all.map fun o => splitUrl o.text).map ParseResult.netloc).filter (· ≠ []) =
      (origins.all.map fun o => splitUrl o.text).map ParseResult.netloc := by
    refine List.filter_eq_self.mpr fun netloc hnetloc => ?_
    obtain ⟨parsed, hparsed, rfl⟩ := List.mem_map.mp hnetloc
    obtain ⟨o, -, rfl⟩ := List.mem_map.mp hparsed
    exact decide_eq_true o.parts.2.2
  unfold allowedNetlocs
  rw [mapM_texts u origins fun o => o.parts.1, Option.map_some, hkeep, List.map_map]
  rfl

/-- The text of an origin. -/
def originText (parsed : ParseResult) : PyStr := u.lower parsed.scheme ++ py "://" ++ u.lower parsed.netloc

/-- The origins of the configuration. -/
def allowedTexts : List PyStr := origins.all.map fun o => originText u (splitUrl o.text)

theorem allowedTexts_ne_nil : allowedTexts u origins ≠ [] := by
  unfold allowedTexts
  exact fun h => origins.nonempty (List.map_eq_nil_iff.mp h)

variable {u}

theorem origin_eq {url : PyStr} {parsed : ParseResult} (h : urlparse u.surroundings url = some parsed) :
    origin u url = some (originText u parsed) := by
  unfold origin
  rw [h]
  rfl

theorem safeRedirectHandler_eq {sourceUrl : PyStr} {parsed : ParseResult}
    (h : urlparse u.surroundings sourceUrl = some parsed) :
    safeRedirectHandler u sourceUrl origins.texts = some ⟨originText u parsed, allowedTexts u origins⟩ := by
  unfold safeRedirectHandler
  have horigins := @mapM_texts u origins _ (origin u) (fun text => originText u (splitUrl text)) fun o =>
    origin_eq o.parts.1
  rw [origin_eq h, horigins]
  rfl

/-- The handler knows the origins of the configuration. -/
theorem allowedOrigins_of_handler {sourceUrl : PyStr} {handler : SafeRedirectHandler}
    (h : safeRedirectHandler u sourceUrl origins.texts = some handler) :
    handler.allowedOrigins = allowedTexts u origins := by
  rcases hparsed : urlparse u.surroundings sourceUrl with _ | parsed
  · unfold safeRedirectHandler origin at h
    rw [hparsed] at h
    cases h
  · rw [safeRedirectHandler_eq origins hparsed] at h
    rw [← Option.some.inj h]

/-- The texts of two origins with one scheme are the same exactly if the network locations are, up to case. -/
theorem originText_eq_iff {p q : ParseResult} (h : p.scheme = q.scheme) :
    originText u p = originText u q ↔ u.lower p.netloc = u.lower q.netloc := by
  unfold originText
  rw [h]
  exact List.append_right_inj _

variable {origins}

/-- An `https` address is approved if the text of its origin is a configured one. -/
theorem approved_iff {url : PyStr} {parsed : ParseResult} (hparsed : urlparse u.surroundings url = some parsed)
    (hscheme : parsed.scheme = py "https") : Approved u origins url ↔ originText u parsed ∈ allowedTexts u origins := by
  have hsame : ∀ o : SecureUrl u.surroundings, (splitUrl o.text).scheme = parsed.scheme := fun o =>
    o.parts.2.1.trans hscheme.symm
  unfold allowedTexts
  rw [List.mem_map]
  constructor
  · rintro ⟨parsed', hparsed', o, ho, -, hnetloc⟩
    rw [hparsed] at hparsed'
    rw [← Option.some.inj hparsed'] at hnetloc
    exact ⟨o, ho, (originText_eq_iff (hsame o)).mpr hnetloc⟩
  · rintro ⟨o, ho, htext⟩
    exact ⟨parsed, hparsed, o, ho, congrArg u.lower (hsame o), (originText_eq_iff (hsame o)).mp htext⟩

/-! ### The three checks -/

/-- The network locations of the configuration. -/
def StorageOrigins.netlocs {w : Surroundings} (origins : StorageOrigins w) : List PyStr :=
  origins.all.map fun o => (splitUrl o.text).netloc

/-- A configured network location is approved. -/
theorem approved_of_netloc {url : PyStr} {parsed : ParseResult} (hparsed : urlparse u.surroundings url = some parsed)
    (hscheme : parsed.scheme = py "https") (h : parsed.netloc ∈ origins.netlocs) : Approved u origins url := by
  obtain ⟨o, ho, hnetloc⟩ := List.mem_map.mp h
  refine (approved_iff hparsed hscheme).mpr (List.mem_map.mpr ⟨o, ho, ?_⟩)
  rw [originText_eq_iff (o.parts.2.1.trans hscheme.symm)]
  exact congrArg u.lower hnetloc

/-- **The check of the source**: an `https` address with a configured network location. -/
theorem openSource_remote_iff (allowFile : Bool) (sourceUrl : PyStr) (handler : SafeRedirectHandler) :
    openSource u origins.texts allowFile sourceUrl = .ok (.remote handler) ↔
      isSecureOrigin u.surroundings sourceUrl = some true ∧ (splitUrl sourceUrl).netloc ∈ origins.netlocs ∧
        safeRedirectHandler u sourceUrl origins.texts = some handler := by
  unfold openSource
  rw [secure_iff]
  rcases hparsed : urlparse u.surroundings sourceUrl with _ | parsed
  · exact iff_of_false (fun h => by cases h) fun h => by cases h.1.1
  · obtain rfl := urlparse_eq_some hparsed
    dsimp only
    by_cases hscheme : (splitUrl sourceUrl).scheme = py "https"
    · have hfile : (splitUrl sourceUrl).scheme ≠ py "file" := by
        rw [hscheme]
        decide
      rw [if_neg hfile, if_neg (not_not.mpr hscheme)]
      by_cases hnetloc : (splitUrl sourceUrl).netloc = []
      · rw [if_pos hnetloc]
        exact iff_of_false (fun h => by cases h) fun h => h.1.2.2 hnetloc
      · have hconfigured : origins.texts ≠ [] := by
          unfold StorageOrigins.texts
          exact fun h => origins.nonempty (List.map_eq_nil_iff.mp h)
        rw [if_neg hnetloc, netlocs_of_origins, safeRedirectHandler_eq origins hparsed]
        dsimp only
        by_cases hmem : (splitUrl sourceUrl).netloc ∈ origins.netlocs
        · rw [if_neg fun h => h.2 hmem]
          constructor
          · intro h
            injection h with h
            injection h with h
            exact ⟨⟨rfl, hscheme, hnetloc⟩, hmem, congrArg some h⟩
          · rintro ⟨-, -, h⟩
            rw [← Option.some.inj h]
        · rw [if_pos ⟨hconfigured, hmem⟩]
          exact iff_of_false (fun h => by cases h) fun h => hmem h.2.1
    · rw [if_pos hscheme]
      refine iff_of_false (fun h => ?_) fun h => hscheme h.1.2.1
      split_ifs at h
      injection h with h
      cases h

/-- **The check of a redirect**: an `https` address with an approved origin. -/
theorem redirectRequest_ok_iff {handler : SafeRedirectHandler} (h : handler.allowedOrigins = allowedTexts u origins)
    (fullUrl newurl target : PyStr) : redirectRequest u handler fullUrl newurl = .ok target ↔
      u.urljoin fullUrl newurl = some target ∧ isSecureOrigin u.surroundings target = some true ∧
        Approved u origins target := by
  unfold redirectRequest
  rcases u.urljoin fullUrl newurl with _ | joined
  · exact iff_of_false (fun h => by cases h) fun h => by cases h.1
  · dsimp only
    rw [Option.some_inj]
    rcases hparsed : urlparse u.surroundings joined with _ | parsed
    · refine iff_of_false (fun h => by cases h) ?_
      rintro ⟨rfl, hsecure, -⟩
      rw [((secure_iff joined).mp hsecure).1] at hparsed
      cases hparsed
    · have hsplit := urlparse_eq_some hparsed
      rw [origin_eq hparsed]
      dsimp only
      by_cases hunsafe : parsed.scheme ≠ py "https" ∨ parsed.netloc = []
      · rw [if_pos hunsafe]
        refine iff_of_false (fun h => by cases h) ?_
        rintro ⟨rfl, hsecure, -⟩
        obtain ⟨-, hscheme, hnetloc⟩ := (secure_iff joined).mp hsecure
        rw [← hsplit] at hscheme hnetloc
        exact hunsafe.elim (fun h => h hscheme) hnetloc
      · rw [if_neg hunsafe, h, if_neg (allowedTexts_ne_nil u origins)]
        obtain ⟨hscheme, hnetloc⟩ := not_or.mp hunsafe
        rw [not_not] at hscheme
        have hsecure : isSecureOrigin u.surroundings joined = some true := by
          rw [secure_iff, ← hsplit]
          exact ⟨hparsed, hscheme, hnetloc⟩
        have happroved := @approved_iff u origins joined parsed hparsed hscheme
        by_cases hmem : originText u parsed ∈ allowedTexts u origins
        · rw [if_neg (not_not.mpr hmem)]
          constructor
          · intro h
            injection h with h
            subst h
            exact ⟨rfl, hsecure, happroved.mpr hmem⟩
          · rintro ⟨rfl, -, -⟩
            rfl
        · rw [if_pos hmem]
          refine iff_of_false (fun h => by cases h) ?_
          rintro ⟨rfl, -, h⟩
          exact hmem (happroved.mp h)

/-- **The check of the artifact**: any `https` address. -/
theorem validateUploadUrl_secure (allowInsecureLocalhost : Bool) (url : SecureUrl u.surroundings) :
    validateUploadUrl u allowInsecureLocalhost url.text = .ok () := by
  obtain ⟨hparsed, hscheme, hnetloc⟩ := url.parts
  unfold validateUploadUrl
  rw [hparsed]
  dsimp only
  rw [if_neg hnetloc, if_pos hscheme]

/-! ### Where bytes come from and go to -/

theorem follow_approved {handler : SafeRedirectHandler} (h : handler.allowedOrigins = allowedTexts u origins) :
    ∀ (replies : List Reply) (url : PyStr), Approved u origins url →
      ∀ v ∈ follow u handler replies url, Approved u origins v
  | [], url, hurl => by simpa [follow] using hurl
  | .final :: _, url, hurl => by simpa [follow] using hurl
  | .redirect newurl :: replies, url, hurl => by
    rw [follow]
    rcases htarget : redirectRequest u handler url newurl with _ | target
    · simpa using hurl
    · have happroved := ((redirectRequest_ok_iff h url newurl target).mp htarget).2.2
      have hrest := follow_approved h replies target happroved
      intro v hv
      rcases List.mem_cons.mp hv with rfl | hv
      · exact hurl
      · exact hrest v hv

/-- **No byte of the source comes from an origin that is not configured**, however it is redirected. -/
theorem fetched_approved (allowFile : Bool) (replies : List Reply) (sourceUrl : PyStr) :
    ∀ v ∈ fetchedFrom u origins.texts allowFile replies sourceUrl, Approved u origins v := by
  unfold fetchedFrom
  rcases hopen : openSource u origins.texts allowFile sourceUrl with e | ⟨_ | handler⟩
  · exact fun v hv => absurd hv List.not_mem_nil
  · exact fun v hv => absurd hv List.not_mem_nil
  · obtain ⟨hsecure, hnetloc, hhandler⟩ := (openSource_remote_iff allowFile sourceUrl handler).mp hopen
    obtain ⟨hparsed, hscheme, -⟩ := (secure_iff sourceUrl).mp hsecure
    exact follow_approved (allowedOrigins_of_handler origins hhandler) replies sourceUrl
      (approved_of_netloc hparsed hscheme hnetloc)

/-- An artifact is sent to the address of the ticket only. -/
theorem mem_sentTo {allowInsecureLocalhost : Bool} {decoded : Json} {reply : Reply} {v : PyStr}
    (h : v ∈ sentTo u allowInsecureLocalhost decoded reply) :
    ∃ ticket, requestUploadUrl u allowInsecureLocalhost decoded = .ok ticket ∧ v = ticket.uploadUrl := by
  unfold sentTo at h
  rcases hticket : requestUploadUrl u allowInsecureLocalhost decoded with e | ticket
  · rw [hticket] at h
    exact absurd h List.not_mem_nil
  · rw [hticket] at h
    refine ⟨ticket, rfl, ?_⟩
    rcases reply with newurl | _ <;> exact List.mem_singleton.mp h

variable (u origins)

/-- The three checks of an address accept it exactly if its origin is approved, and so are the origins that a source is
fetched from, from this address on, and that an artifact with this address is sent to. -/
structure OnePolicy (url : SecureUrl u.surroundings) : Prop where
  source : ∀ allowFile,
    (∃ handler, openSource u origins.texts allowFile url.text = .ok (.remote handler)) ↔ Approved u origins url.text
  redirect : ∀ sourceUrl handler fullUrl newurl, safeRedirectHandler u sourceUrl origins.texts = some handler →
    u.urljoin fullUrl newurl = some url.text →
    ((∃ target, redirectRequest u handler fullUrl newurl = .ok target) ↔ Approved u origins url.text)
  upload : ∀ allowInsecureLocalhost,
    validateUploadUrl u allowInsecureLocalhost url.text = .ok () ↔ Approved u origins url.text
  fetched : ∀ allowFile replies, ∀ v ∈ fetchedFrom u origins.texts allowFile replies url.text, Approved u origins v
  sent : ∀ allowInsecureLocalhost decoded ticket reply,
    requestUploadUrl u allowInsecureLocalhost decoded = .ok ticket → ticket.uploadUrl = url.text →
    ∀ v ∈ sentTo u allowInsecureLocalhost decoded reply, Approved u origins v

/-- **The checks are one policy** for the addresses with a network location that is configured, with this case. -/
theorem one_policy_iff (url : SecureUrl u.surroundings) :
    OnePolicy u origins url ↔ (splitUrl url.text).netloc ∈ origins.netlocs := by
  obtain ⟨hparsed, hscheme, -⟩ := url.parts
  constructor
  · intro h
    have happroved := (h.upload false).mp (validateUploadUrl_secure false url)
    obtain ⟨handler, hopen⟩ := (h.source false).mpr happroved
    exact ((openSource_remote_iff false url.text handler).mp hopen).2.1
  · intro h
    have happroved := approved_of_netloc hparsed hscheme h
    refine ⟨fun allowFile => iff_of_true ?_ happroved, fun sourceUrl handler fullUrl newurl hhandler hjoin => ?_,
      fun allow => iff_of_true (validateUploadUrl_secure allow url) happroved,
      fun allowFile replies => fetched_approved allowFile replies url.text, ?_⟩
    · have hhandler := safeRedirectHandler_eq origins hparsed
      exact ⟨_, (openSource_remote_iff allowFile url.text _).mpr ⟨url.secure, h, hhandler⟩⟩
    · have hallowed := allowedOrigins_of_handler origins hhandler
      refine iff_of_true ⟨url.text, ?_⟩ happroved
      exact (redirectRequest_ok_iff hallowed fullUrl newurl url.text).mpr ⟨hjoin, url.secure, happroved⟩
    · intro allow decoded ticket reply hticket hurl v hv
      obtain ⟨ticket', hticket', rfl⟩ := mem_sentTo hv
      rw [hticket] at hticket'
      rw [← Except.ok.inj hticket', hurl]
      exact happroved

end Policy

/-- Surroundings in which every network location can be parsed. -/
def plainSurroundings : Surroundings where
  file _ := .missing
  environ := []
  os := py "linux"
  arch := py "amd64"
  int text := (intOfDigits text).map Int.ofNat
  float _ := none
  repr _ := []
  badNetloc _ := false

/-- The functions on addresses, for absolute ASCII addresses. -/
def plainUrls : Urls := ⟨plainSurroundings, (·.map lowerAscii), fun _ newurl => some newurl⟩

/-- One storage origin. -/
def oneOrigin : StorageOrigins plainSurroundings :=
  ⟨[⟨py "https://storage.example", by rfl⟩], List.cons_ne_nil _ _⟩

-- the same address is accepted as a redirect and refused as the address of a source
example : (redirectRequest plainUrls ⟨py "https://storage.example", [py "https://storage.example"]⟩
      (py "https://storage.example/a") (py "https://Storage.Example/b")).toOption = some (py "https://Storage.Example/b") ∧
    (openSource plainUrls oneOrigin.texts false (py "https://Storage.Example/b")).toOption.isNone = true := by
  decide

/-- The artifact may be sent to any host. -/
theorem foreign_upload_accepted : ¬ ∀ (u : Urls) (origins : StorageOrigins u.surroundings)
    (url : SecureUrl u.surroundings), OnePolicy u origins url := by
  intro h
  have hpolicy := h plainUrls oneOrigin ⟨py "https://elsewhere.example/artifact", by rfl⟩
  obtain ⟨parsed, hparsed, o, ho, hsame⟩ := (hpolicy.upload false).mp (validateUploadUrl_secure false _)
  rw [List.mem_singleton.mp ho, ← Option.some.inj hparsed] at hsame
  exact absurd hsame.2 (by decide)

end BuildEngine.Executor.Origins
