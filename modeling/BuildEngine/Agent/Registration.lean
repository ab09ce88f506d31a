import BuildEngine.Agent.CredentialsFile
import BuildEngine.Agent.Protocol
import BuildEngine.Base.Outcome

/-! # Registration and the start of the service

`validate_credentials_file` of `agent/auth.py` reads the credentials file back: `register_engine` calls it after
`write_credentials`, and `build-engine serve` before it connects, each for the owner it expects. In any run of the
calls of `write_credentials` the file at the destination belongs to one user, the service account if the host has it
(`Kept`), so the start of the service accepts the file at any moment, and a registration by the superuser refuses it
(`registration_checked`), although its credentials are in place (`registration_outcome`). -/

namespace BuildEngine.Agent.Registration

open BuildEngine.Base BuildEngine.Base.Run BuildEngine.Base.FileSystem
open BuildEngine.Agent.Credentials BuildEngine.Agent.CredentialsFile
open BuildEngine.Agent.Protocol (Instant)

/-- `SERVICE_USER` -/
def serviceUser : PyStr := py "build-engine"

/-- `SERVICE_GROUP` -/
def serviceGroup : PyStr := py "build-engine"

/-- `MIN_ENGINE_SECRET_BYTES` -/
def minEngineSecretBytes : ℕ := 32

/-- The accounts of the host: `pwd.getpwnam` and `grp.getgrnam`, with `none` for a `KeyError`. -/
structure Accounts where
  uid : PyStr → Option ℕ
  gid : PyStr → Option ℕ

/-- The account `_chown_service_file` hands files to. -/
def Accounts.service (accounts : Accounts) : Option Owner :=
  match accounts.uid serviceUser, accounts.gid serviceGroup with
  | some uid, some gid => some (uid, gid)
  | _, _ => none

/-- What `validate_credentials_file` raises. -/
inductive AuthFailure where
  | notFound
  | unreadable
  | load (e : LoadError)
  | tooOpen
  | ownership (owner expected : Owner)
  | notAscii
  | tooShort
  | datetime
  deriving DecidableEq

/-- The text of an `AuthError` about a path; the other exceptions have texts of their own. -/
def AuthFailure.text? (path : PyStr) : AuthFailure → Option PyStr
  | .tooOpen => some (py "Secret file permissions are too open: " ++ path)
  | .ownership owner expected =>
    some (py "Secret file ownership is invalid: " ++ path ++ py " uid=" ++ natText owner.1 ++ py " gid=" ++
      natText owner.2 ++ py "; expected uid=" ++ natText expected.1 ++ py " gid=" ++ natText expected.2)
  | .notAscii => some (py "engine_secret must contain only ASCII characters")
  | .tooShort =>
    some (py "engine_secret must be at least " ++ natText minEngineSecretBytes ++ py " bytes")
  | .notFound | .unreadable | .load _ | .datetime => none

section Check

-- `uuid.UUID`, `parse_datetime`, and the accounts of the host
variable (uuid : PyStr → Bool) (parseDatetime : PyStr → Option Instant) (accounts : Accounts)

/-- The system lets the process open the file for reading. -/
def readable (process : Owner) (f : File CodePoint Owner) : Bool :=
  if process.1 = 0 then true
  else if process.1 = f.owner.1 then f.mode &&& 0o400 ≠ 0
  else if process.2 = f.owner.2 then f.mode &&& 0o040 ≠ 0
  else f.mode &&& 0o004 ≠ 0

/-- `validate_secret_file_permissions` -/
def validateSecretFilePermissions (mode : ℕ) : Except AuthFailure Unit :=
  if mode &&& 0o077 ≠ 0 then .error .tooOpen else .ok ()

/-- `_expected_uid` -/
def expectedUid (process : Owner) (user : Option PyStr) : ℕ := (user.bind accounts.uid).getD process.1

/-- `_expected_gid` -/
def expectedGid (process : Owner) (group : Option PyStr) : ℕ := (group.bind accounts.gid).getD process.2

/-- The owner a check expects. -/
def expected (process : Owner) (user group : Option PyStr) : Owner :=
  (expectedUid accounts process user, expectedGid accounts process group)

/-- `validate_secret_file_ownership` -/
def validateSecretFileOwnership (process : Owner) (user group : Option PyStr) (owner : Owner) :
    Except AuthFailure Unit :=
  if owner.1 ≠ expectedUid accounts process user ∨ owner.2 ≠ expectedGid accounts process group then
    .error (.ownership owner (expected accounts process user group))
  else .ok ()

/-- `validate_engine_secret` -/
def validateEngineSecret (value : PyStr) : Except AuthFailure Unit :=
  if ¬ Ascii value then .error .notAscii
  else if value.length < minEngineSecretBytes then .error .tooShort
  else .ok ()

/-- `validate_credentials_file` of a process, on the file that is there. -/
def validateCredentialsFile (process : Owner) (user group : Option PyStr) :
    Option (File CodePoint Owner) → Except AuthFailure EngineCredentials
  | none => .error .notFound
  | some f =>
    if !readable process f then .error .unreadable
    else do
      let credentials ← (loadCredentials uuid f.content).mapError .load
      validateSecretFilePermissions f.mode
      validateSecretFileOwnership accounts process user group f.owner
      validateEngineSecret credentials.engineSecret
      match parseDatetime credentials.sessionJwtExpiresAt with
      | none => .error .datetime
      | some _ => .ok credentials

/-- The check of `register_engine`, after `write_credentials`. -/
def registerCheck (process : Owner) (file : Option (File CodePoint Owner)) : Except AuthFailure EngineCredentials :=
  validateCredentialsFile uuid parseDatetime accounts process none none file

/-- The check of `serve`; with `--state-dir` it expects the files of its own user. -/
def serveCheck (devIdentity : Bool) (process : Owner) (file : Option (File CodePoint Owner)) :
    Except AuthFailure EngineCredentials :=
  validateCredentialsFile uuid parseDatetime accounts process
    (if devIdentity then none else some serviceUser) (if devIdentity then none else some serviceGroup) file

/-! ### What the check finds -/

/-- The credentials can be written and read back, and pass the checks of their texts. -/
structure Acceptable (c : EngineCredentials) : Prop where
  registered : Registered uuid c
  basicPlane : BasicPlane c
  ascii : Ascii c.engineSecret
  long : minEngineSecretBytes ≤ c.engineSecret.length
  expires : (parseDatetime c.sessionJwtExpiresAt).isSome

/-- The file holds credentials for its owner, and for its owner only. -/
structure Fit (home : Owner) (f : File CodePoint Owner) (c : EngineCredentials) : Prop where
  owner : f.owner = home
  closed : f.mode &&& 0o077 = 0
  opens : f.mode &&& 0o400 ≠ 0
  loads : loadCredentials uuid f.content = .ok c
  ascii : Ascii c.engineSecret
  long : minEngineSecretBytes ≤ c.engineSecret.length
  expires : (parseDatetime c.sessionJwtExpiresAt).isSome

variable {uuid parseDatetime accounts}

theorem validateEngineSecret_ok {value : PyStr} (hascii : Ascii value) (hlong : minEngineSecretBytes ≤ value.length) :
    validateEngineSecret value = .ok () := by
  unfold validateEngineSecret
  rw [if_neg (not_not.mpr hascii), if_neg (not_lt.mpr hlong)]

theorem validateSecretFileOwnership_eq (process : Owner) (user group : Option PyStr) (owner : Owner) :
    validateSecretFileOwnership accounts process user group owner =
      if expected accounts process user group ≠ owner then
        .error (.ownership owner (expected accounts process user group))
      else .ok () := by
  unfold validateSecretFileOwnership
  refine if_congr ?_ rfl rfl
  rw [ne_eq, ← not_and_or, not_iff_not, eq_comm (a := expected _ _ _ _)]
  exact ⟨fun h => Prod.ext h.1 h.2, fun h => ⟨congrArg Prod.fst h, congrArg Prod.snd h⟩⟩

/-- Only the owner and the superuser can read a file with no bits for others. -/
theorem readable_iff {process : Owner} {f : File CodePoint Owner} (hclosed : f.mode &&& 0o077 = 0)
    (hopens : f.mode &&& 0o400 ≠ 0) : readable process f = true ↔ process.1 = 0 ∨ process.1 = f.owner.1 := by
  have hgroup : f.mode &&& 0o040 = 0 := by
    calc f.mode &&& 0o040 = (f.mode &&& 0o077) &&& 0o040 := by rw [Nat.and_assoc]; rfl
      _ = 0 := by rw [hclosed, Nat.zero_and]
  have hothers : f.mode &&& 0o004 = 0 := by
    calc f.mode &&& 0o004 = (f.mode &&& 0o077) &&& 0o004 := by rw [Nat.and_assoc]; rfl
      _ = 0 := by rw [hclosed, Nat.zero_and]
  unfold readable
  by_cases hroot : process.1 = 0
  · simp [hroot]
  · by_cases howner : process.1 = f.owner.1
    · simp [howner, hopens]
    · simp [hroot, howner, hgroup, hothers]

/-- **What the check says of such a file** depends on the process and the names it expects only. -/
theorem Fit.validate {home : Owner} {f : File CodePoint Owner} {c : EngineCredentials}
    (h : Fit uuid parseDatetime home f c) (process : Owner) (user group : Option PyStr) :
    validateCredentialsFile uuid parseDatetime accounts process user group (some f) =
      if process.1 ≠ 0 ∧ process.1 ≠ home.1 then .error .unreadable
      else if expected accounts process user group ≠ home then
        .error (.ownership home (expected accounts process user group))
      else .ok c := by
  have hreadable : readable process f = true ↔ process.1 = 0 ∨ process.1 = f.owner.1 := readable_iff h.closed h.opens
  rw [h.owner] at hreadable
  show (if (!readable process f) = true then _ else _) = _
  by_cases hread : process.1 = 0 ∨ process.1 = home.1
  · rw [hreadable.mpr hread, if_neg (by decide), if_neg (by rw [← not_or]; exact not_not.mpr hread)]
    rw [h.loads, h.owner, validateSecretFileOwnership_eq]
    have hmode : validateSecretFilePermissions f.mode = .ok () := if_neg (not_not.mpr h.closed)
    have hsecret := validateEngineSecret_ok h.ascii h.long
    obtain ⟨expiresAt, hexpires⟩ := Option.isSome_iff_exists.mp h.expires
    by_cases howner : expected accounts process user group ≠ home
    · rw [if_pos howner, if_pos howner, hmode]
      rfl
    · rw [if_neg howner, if_neg howner, hmode]
      show (validateEngineSecret c.engineSecret >>= fun _ => _) = _
      rw [hsecret]
      show (match parseDatetime c.sessionJwtExpiresAt with | none => _ | some _ => _) = _
      rw [hexpires]
  · have hnot : readable process f = false := by
      rw [← Bool.not_eq_true]
      exact fun hr => hread (hreadable.mp hr)
    rw [hnot, if_pos (by decide), if_pos (by rw [← not_or]; exact hread)]

variable (uuid parseDatetime accounts) in
/-- What the check has found in a file it accepts. -/
structure Accepted (process : Owner) (user group : Option PyStr) (f : File CodePoint Owner) (c : EngineCredentials) :
    Prop where
  loads : loadCredentials uuid f.content = .ok c
  owner : expected accounts process user group = f.owner
  ascii : Ascii c.engineSecret
  long : minEngineSecretBytes ≤ c.engineSecret.length
  expires : (parseDatetime c.sessionJwtExpiresAt).isSome

theorem validateEngineSecret_of_ok {value : PyStr} (h : validateEngineSecret value = .ok ()) :
    Ascii value ∧ minEngineSecretBytes ≤ value.length := by
  unfold validateEngineSecret at h
  split_ifs at h with hascii hshort
  exact ⟨hascii, not_lt.mp hshort⟩

theorem accepted_of_validate {process : Owner} {user group : Option PyStr} {f : File CodePoint Owner}
    {c : EngineCredentials}
    (h : validateCredentialsFile uuid parseDatetime accounts process user group (some f) = .ok c) :
    Accepted uuid parseDatetime accounts process user group f c := by
  have hbody : (if (!readable process f) = true then _ else _) = Except.ok c := h
  split_ifs at hbody
  obtain ⟨loaded, hload, hrest⟩ := bind_ok hbody
  obtain ⟨_, -, hrest⟩ := bind_ok hrest
  obtain ⟨_, howner, hrest⟩ := bind_ok hrest
  obtain ⟨_, hsecret, hrest⟩ := bind_ok hrest
  rw [mapError_ok_iff] at hload
  rw [validateSecretFileOwnership_eq] at howner
  split_ifs at howner with hexpected
  obtain ⟨hascii, hlong⟩ := validateEngineSecret_of_ok hsecret
  split at hrest
  · cases hrest
  · next expiresAt hexpires =>
    obtain rfl := Except.ok.inj hrest
    exact ⟨hload, not_not.mp hexpected, hascii, hlong, Option.isSome_of_eq_some hexpires⟩

/-- The file of a call holds its credentials. -/
theorem Acceptable.fit {c : EngineCredentials} (h : Acceptable uuid parseDatetime c) {home : Owner}
    {f : File CodePoint Owner} (howner : f.owner = home) (hmode : f.mode = 0o600)
    (hcontent : f.content = writeCredentials c) : Fit uuid parseDatetime home f c := by
  refine ⟨howner, by rw [hmode]; rfl, by rw [hmode]; decide, ?_, h.ascii, h.long, h.expires⟩
  rw [hcontent, loadCredentials_write h.registered, if_pos h.basicPlane]

end Check

/-! ### Bits and owners -/

section Runs

variable {account : Option Owner}

variable (account) in
/-- The files of a disk, later: their bits are as before or `0600`, their owners as before or the account. -/
structure Retouched (k k' : CredentialsDisk) : Prop where
  next : k.next ≤ k'.next
  mode : ∀ i < k.next, (k'.files i).mode = (k.files i).mode ∨ (k'.files i).mode = 0o600
  owner : ∀ i < k.next, (k'.files i).owner = (k.files i).owner ∨ account = some (k'.files i).owner

theorem Retouched.of_files {k k' : CredentialsDisk} (hnext : k.next ≤ k'.next)
    (h : ∀ i < k.next, k'.files i = k.files i) : Retouched account k k' :=
  ⟨hnext, fun i hi => Or.inl (congrArg File.mode (h i hi)), fun i hi => Or.inl (congrArg File.owner (h i hi))⟩

theorem Retouched.refl (k : CredentialsDisk) : Retouched account k k := .of_files le_rfl fun _ _ => rfl

theorem Retouched.trans {k k' k'' : CredentialsDisk} (h : Retouched account k k') (h' : Retouched account k' k'') :
    Retouched account k k'' := by
  refine ⟨le_trans h.next h'.next, fun i hi => ?_, fun i hi => ?_⟩
  · rcases h'.mode i (lt_of_lt_of_le hi h.next) with he | he
    · rw [he]
      exact h.mode i hi
    · exact Or.inr he
  · rcases h'.owner i (lt_of_lt_of_le hi h.next) with he | he
    · rw [he]
      exact h.owner i hi
    · exact Or.inr he

theorem Retouched.modify (k : CredentialsDisk) (i : ℕ) {f : File CodePoint Owner → File CodePoint Owner}
    (hf : ∀ x, ((f x).mode = x.mode ∨ (f x).mode = 0o600) ∧ ((f x).owner = x.owner ∨ account = some (f x).owner)) :
    Retouched account k (k.modify i f) := by
  have hfile : ∀ j, (((k.modify i f).files j).mode = (k.files j).mode ∨ ((k.modify i f).files j).mode = 0o600) ∧
      (((k.modify i f).files j).owner = (k.files j).owner ∨ account = some ((k.modify i f).files j).owner) := by
    intro j
    by_cases hj : j = i
    · rw [hj, Disk.files_modify_self]
      exact hf _
    · rw [Disk.files_modify_of_ne _ hj]
      exact ⟨Or.inl rfl, Or.inl rfl⟩
  exact ⟨le_of_eq (Disk.next_modify k i f).symm, fun j _ => (hfile j).1, fun j _ => (hfile j).2⟩

theorem Retouched.create (k : CredentialsDisk) (n : PyStr) (mode : ℕ) (user : Owner) :
    Retouched account k (k.create n mode user) :=
  .of_files (Nat.le_succ _) fun _ hi => Function.update_of_ne (Nat.ne_of_lt hi) _ _

theorem Retouched.powerLoss (k : CredentialsDisk) (age : ℕ) (torn : ℕ → PyStr) :
    Retouched account k (k.powerLoss age torn) :=
  ⟨le_rfl, fun i _ => Or.inl (Disk.mode_powerLoss k age torn i), fun i _ => Or.inl (Disk.owner_powerLoss k age torn i)⟩

theorem Retouched.chown {k k' : CredentialsDisk} {path : PyStr} {user : Owner} {permitted : Bool}
    (h : chownServiceFile account path user permitted k = some k') : Retouched account k k' := by
  unfold chownServiceFile at h
  rcases account with _ | owner
  · cases h
    exact .refl k
  · dsimp only at h
    split at h
    · cases h
    · split_ifs at h
      · cases h
        exact .modify k _ fun _ => ⟨Or.inl rfl, Or.inr rfl⟩
      · cases h
        exact .refl k

/-- The call with the same credentials, user and file. -/
def Same (c c' : Call) : Prop := c'.credentials = c.credentials ∧ c'.user = c.user ∧ c'.inode = c.inode

variable (account) in
/-- No call begins, and the disk is retouched. -/
structure Touches (s t : State) : Prop where
  calls : ∀ q c', t.calls q = some c' → ∃ c, s.calls q = some c ∧ Same c c'
  disk : Retouched account s.disk t.disk

theorem Touches.refl (s : State) : Touches account s s := ⟨fun _ c hc => ⟨c, hc, rfl, rfl, rfl⟩, .refl _⟩

theorem touches_goto {s : State} {p : ℕ} {c : Call} (hc : s.calls p = some c) {k : CredentialsDisk}
    (hk : Retouched account s.disk k) (pc : Pc) : Touches account s ({ s with disk := k }.goto p c pc) := by
  refine ⟨fun q c' hq => ?_, hk⟩
  by_cases hqp : q = p
  · subst hqp
    rw [State.calls_goto_self] at hq
    obtain rfl := Option.some.inj hq
    exact ⟨c, hc, rfl, rfl, rfl⟩
  · rw [State.calls_goto_of_ne _ _ _ hqp] at hq
    exact ⟨c', hq, rfl, rfl, rfl⟩

theorem touches_attempt {s : State} {p : ℕ} {c : Call} (hc : s.calls p = some c) {result : Option CredentialsDisk}
    (h : ∀ k, result = some k → Retouched account s.disk k) (pc : Pc) :
    Touches account s (s.attempt p c result pc) := by
  rcases result with _ | k
  · exact touches_goto hc (.refl _) .cleaning
  · exact touches_goto hc (h k rfl) pc

variable {parent name : PyStr}

/-- A system call changes no more than the bits and the owners of files. -/
theorem touches_turn {s : State} {p : ℕ} {c : Call} (hc : s.calls p = some c) (written : ℕ) (permitted : Bool) :
    Touches account s (CredentialsFile.turn parent name account s p c written permitted) := by
  unfold CredentialsFile.turn
  generalize c.pc = pc
  cases pc with
  | opened =>
    refine touches_attempt hc (fun k hk => ?_) _
    cases hk
    exact .modify _ _ fun _ => ⟨Or.inr rfl, Or.inl rfl⟩
  | writing rest =>
    cases rest with
    | nil =>
      refine touches_attempt hc (fun k hk => ?_) _
      cases hk
      exact .modify _ _ fun _ => ⟨Or.inl rfl, Or.inl rfl⟩
    | cons x rest =>
      refine touches_attempt hc (fun k hk => ?_) _
      cases hk
      exact .modify _ _ fun _ => ⟨Or.inl rfl, Or.inl rfl⟩
  | chowning => exact touches_attempt hc (fun k hk => .chown hk) _
  | replacing =>
    refine touches_attempt hc (fun k hk => ?_) _
    obtain ⟨i, -, rfl⟩ := Option.map_eq_some_iff.mp hk
    exact .of_files le_rfl fun _ _ => rfl
  | replaced =>
    refine touches_attempt hc (fun k hk => ?_) _
    obtain ⟨i, -, rfl⟩ := Option.map_eq_some_iff.mp hk
    exact .modify _ _ fun _ => ⟨Or.inr rfl, Or.inl rfl⟩
  | rechowning => exact touches_attempt hc (fun k hk => .chown hk) _
  | cleaning =>
    refine touches_attempt hc (fun k hk => ?_) _
    cases hk
    exact .of_files le_rfl fun _ _ => rfl
  | ended => exact .refl s
  | killed => exact .refl s

theorem touches_raised {s : State} {p : ℕ} {c : Call} (hc : s.calls p = some c) :
    Touches account s (CredentialsFile.raised s p c) := by
  unfold CredentialsFile.raised
  split
  · exact touches_goto hc (.refl _) _
  · exact .refl s
  · exact .refl s
  · exact touches_goto hc (.refl _) _

theorem touches_powerLoss (s : State) (age : ℕ) (torn : ℕ → PyStr) :
    Touches account s (CredentialsFile.step parent name account s (.powerLoss age torn)) := by
  refine ⟨fun q c' hq => ?_, .powerLoss _ _ _⟩
  obtain ⟨c, hc, rfl⟩ := Option.map_eq_some_iff.mp hq
  exact ⟨c, hc, rfl, rfl, rfl⟩

end Runs

/-! ### Every moment of every run -/

section Moments

-- the host, the parent directory with its separator and the name of the file, and the owner of the file
variable (uuid : PyStr → Bool) (parseDatetime : PyStr → Option Instant) (accounts : Accounts) (parent name : PyStr)
  (home : Owner) (disk₀ : CredentialsDisk)

/-- The owner of the file writes it, or the superuser if the host has the service account. -/
def Entitled (user : Owner) : Prop := user = home ∨ user.1 = 0 ∧ accounts.service = some home

/-- The calls are made by such users, with acceptable credentials. -/
def Authorized : Action → Prop
  | .call _ credentials user _ => Acceptable uuid parseDatetime credentials ∧ Entitled accounts home user
  | _ => True

/-- The files of a run: what was there before was retouched, and a file of a call has the owner of the call, or the
service account. -/
structure Kept (s : State) : Prop where
  inv : Inv parent name accounts.service disk₀ s
  former : Retouched accounts.service disk₀ s.disk
  calls : ∀ p c, s.calls p = some c → Acceptable uuid parseDatetime c.credentials ∧ Entitled accounts home c.user ∧
    ((s.disk.files c.inode).owner = c.user ∨ accounts.service = some (s.disk.files c.inode).owner)

/-- The credentials are those of a call, or those of the former file. -/
def Stored (s : State) (c : EngineCredentials) : Prop :=
  (∃ p call, s.calls p = some call ∧ call.credentials = c) ∨
    ∃ f₀, disk₀.lookup (destination parent name) = some f₀ ∧ Fit uuid parseDatetime home f₀ c

/-- What the checks say of a file: `register_engine` accepts it as the owner only, `serve` as the owner or the
superuser, and others cannot read it. -/
structure Checked (f : File CodePoint Owner) (c : EngineCredentials) : Prop where
  register : ∀ process : Owner, process.1 = 0 ∨ process.1 = home.1 →
    registerCheck uuid parseDatetime accounts process (some f) =
      if process = home then .ok c else .error (.ownership home process)
  serve : accounts.service = some home → ∀ process : Owner, process.1 = 0 ∨ process.1 = home.1 →
    serveCheck uuid parseDatetime accounts false process (some f) = .ok c
  dev : serveCheck uuid parseDatetime accounts true home (some f) = .ok c
  others : ∀ (process : Owner) (user group : Option PyStr), process.1 ≠ 0 → process.1 ≠ home.1 →
    validateCredentialsFile uuid parseDatetime accounts process user group (some f) = .error .unreadable

variable {uuid parseDatetime accounts parent name home disk₀}

theorem expected_none (process : Owner) : expected accounts process none none = process := rfl

theorem expected_service (h : accounts.service = some home) (process : Owner) :
    expected accounts process (some serviceUser) (some serviceGroup) = home := by
  unfold Accounts.service at h
  unfold expected expectedUid expectedGid
  rw [Option.bind_some, Option.bind_some]
  split at h
  · next uid gid huid hgid =>
    rw [huid, hgid]
    exact Option.some.inj h
  · cases h

theorem Fit.checked {f : File CodePoint Owner} {c : EngineCredentials} (h : Fit uuid parseDatetime home f c) :
    Checked uuid parseDatetime accounts home f c := by
  refine ⟨fun process hread => ?_, fun hservice process hread => ?_, ?_, fun process user group hroot howner => ?_⟩
  · have hnot : ¬ (process.1 ≠ 0 ∧ process.1 ≠ home.1) := by rwa [← not_or, not_not]
    rw [registerCheck, h.validate, if_neg hnot, expected_none, ite_not]
  · have hnot : ¬ (process.1 ≠ 0 ∧ process.1 ≠ home.1) := by rwa [← not_or, not_not]
    show validateCredentialsFile uuid parseDatetime accounts process (some serviceUser) (some serviceGroup) _ = _
    rw [h.validate, if_neg hnot, expected_service hservice, if_neg (not_not.mpr rfl)]
  · show validateCredentialsFile uuid parseDatetime accounts home none none _ = _
    rw [h.validate, if_neg (fun hne => hne.2 rfl), expected_none, if_neg (not_not.mpr rfl)]
  · rw [h.validate, if_pos ⟨hroot, howner⟩]

theorem Kept.touches {s t : State} (h : Kept uuid parseDatetime accounts parent name home disk₀ s)
    (hinv : Inv parent name accounts.service disk₀ t) (ht : Touches accounts.service s t) :
    Kept uuid parseDatetime accounts parent name home disk₀ t := by
  refine ⟨hinv, h.former.trans ht.disk, fun q c' hq => ?_⟩
  obtain ⟨c, hc, hcredentials, huser, hinode⟩ := ht.calls q c' hq
  obtain ⟨hacceptable, hentitled, howner⟩ := h.calls q c hc
  rw [hcredentials, huser, hinode]
  refine ⟨hacceptable, hentitled, ?_⟩
  rcases ht.disk.owner c.inode (h.inv.call q c hc).used with he | he
  · rw [he]
    exact howner
  · exact Or.inr he

/-- Every action of such users keeps it. -/
theorem Kept.step {s : State} (h : Kept uuid parseDatetime accounts parent name home disk₀ s) {act : Action}
    (hact : Authorized uuid parseDatetime accounts home act) :
    Kept uuid parseDatetime accounts parent name home disk₀
      (CredentialsFile.step parent name accounts.service s act) := by
  have hinv := h.inv.step act
  cases act with
  | call p credentials user drawn =>
    simp only [CredentialsFile.step] at hinv ⊢
    split_ifs at hinv ⊢ with hnew
    · refine ⟨hinv, h.former.trans (.create _ _ _ _), fun q c hq => ?_⟩
      dsimp only at hq ⊢
      by_cases hqp : q = p
      · subst hqp
        rw [Function.update_self] at hq
        obtain rfl := Option.some.inj hq
        exact ⟨hact.1, hact.2, Or.inl (congrArg File.owner (Disk.files_create_self _ _ _ _))⟩
      · rw [Function.update_of_ne hqp] at hq
        obtain ⟨hacceptable, hentitled, howner⟩ := h.calls q c hq
        refine ⟨hacceptable, hentitled, ?_⟩
        have hfile : (s.disk.create (temporaryName parent name drawn) 0o600 user).files c.inode =
            s.disk.files c.inode := Function.update_of_ne (Nat.ne_of_lt (h.inv.call q c hq).used) _ _
        rw [hfile]
        exact howner
    · exact h
  | turn p written permitted =>
    simp only [CredentialsFile.step] at hinv ⊢
    split at hinv
    · next c hc => exact h.touches hinv (touches_turn hc written permitted)
    · exact h
  | raised p =>
    simp only [CredentialsFile.step] at hinv ⊢
    split at hinv
    · next c hc => exact h.touches hinv (touches_raised hc)
    · exact h
  | kill p =>
    simp only [CredentialsFile.step] at hinv ⊢
    split at hinv
    · next c hc =>
      split_ifs at hinv ⊢
      · exact h
      · exact h.touches hinv (touches_goto hc (.refl _) _)
    · exact h
  | powerLoss age torn => exact h.touches hinv (touches_powerLoss s age torn)

theorem kept_init (hsettled : Settled disk₀) :
    Kept uuid parseDatetime accounts parent name home disk₀ (State.init disk₀) :=
  ⟨inv_init hsettled, .refl _, fun _ _ hc => by cases hc⟩

/-- The file at the destination belongs to its owner. -/
theorem Kept.fit {s : State} (h : Kept uuid parseDatetime accounts parent name home disk₀ s)
    (hhome : ∀ owner ∈ accounts.service, owner = home)
    (hformer : ∀ f₀, disk₀.lookup (destination parent name) = some f₀ → ∃ c, Fit uuid parseDatetime home f₀ c)
    {f : File CodePoint Owner} (hf : s.disk.lookup (destination parent name) = some f) :
    ∃ c, Stored uuid parseDatetime parent name home disk₀ s c ∧ Fit uuid parseDatetime home f c := by
  obtain ⟨i, hi, rfl⟩ := Option.map_eq_some_iff.mp hf
  rcases (h.inv.dirs s.disk.dir List.mem_cons_self).complete i hi with hi₀ | ⟨p, c, hc, rfl, -, hcomplete, hhanded⟩
  · -- the former file, with other bits or another owner
    have hlookup : disk₀.lookup (destination parent name) = some (disk₀.files i) := by
      rw [Disk.lookup, hi₀]
      rfl
    obtain ⟨c, hfit⟩ := hformer _ hlookup
    have hlt : i < disk₀.next := disk₀.used disk₀.dir List.mem_cons_self _ i hi₀
    refine ⟨c, Or.inr ⟨_, hlookup, hfit⟩, ?_, ?_, ?_, ?_, hfit.ascii, hfit.long, hfit.expires⟩
    · rcases h.former.owner i hlt with he | he
      · exact he.trans hfit.owner
      · exact hhome _ he
    · rcases h.former.mode i hlt with he | he
      · rw [he]
        exact hfit.closed
      · rw [he]
        rfl
    · rcases h.former.mode i hlt with he | he
      · rw [he]
        exact hfit.opens
      · rw [he]
        decide
    · rw [(h.inv.former i hlt).1]
      exact hfit.loads
  · -- the file of a call
    obtain ⟨hacceptable, hentitled, howner⟩ := h.calls p c hc
    refine ⟨c.credentials, Or.inl ⟨p, c, hc, rfl⟩, hacceptable.fit ?_ (h.inv.call p c hc).mode hcomplete.1⟩
    rcases hentitled with huser | ⟨hroot, hservice⟩
    · rcases howner with he | he
      · exact he.trans huser
      · exact hhome _ he
    · exact hhanded hroot home hservice

/-- **What the checks of the credentials file say, at any moment of any run.** The file may be written by any calls of
`write_credentials`, with exceptions, deaths of processes and losses of power. If it is there, the start of the
service accepts it; the check at the end of `register_engine` accepts it from its owner only, so where the host has
the service account, a registration by the superuser raises. -/
theorem registration_checked (hsettled : Settled disk₀) (hhome : ∀ owner ∈ accounts.service, owner = home)
    (hformer : ∀ f₀, disk₀.lookup (destination parent name) = some f₀ → ∃ c, Fit uuid parseDatetime home f₀ c)
    (acts : List Action) (hacts : ∀ act ∈ acts, Authorized uuid parseDatetime accounts home act)
    (f : File CodePoint Owner)
    (hf : (run (CredentialsFile.step parent name accounts.service) (State.init disk₀) acts).disk.lookup
      (destination parent name) = some f) :
    ∃ c, Stored uuid parseDatetime parent name home disk₀
        (run (CredentialsFile.step parent name accounts.service) (State.init disk₀) acts) c ∧
      Checked uuid parseDatetime accounts home f c := by
  have halong : Along (CredentialsFile.step parent name accounts.service)
      (fun _ act => Authorized uuid parseDatetime accounts home act) (State.init disk₀) acts := Along.of_forall hacts
  have hkept := Along.invariant (I := Kept uuid parseDatetime accounts parent name home disk₀)
    (fun s act hact h => Kept.step h hact) acts halong (kept_init hsettled)
  obtain ⟨c, hstored, hfit⟩ := hkept.fit hhome hformer hf
  exact ⟨c, hstored, hfit.checked⟩

end Moments

/-! ### A call that nothing disturbs -/

section Alone

variable {parent name : PyStr} {account : Option Owner}

/-- The owner of a file after `_chown_service_file`. -/
def handedTo (account : Option Owner) (permitted : Bool) (owner : Owner) : Owner :=
  if permitted then account.getD owner else owner

/-- `_chown_service_file` raises: there is the account, and the superuser may not hand the file over. -/
def chownRaises (account : Option Owner) (user : Owner) (permitted : Bool) : Bool :=
  account.isSome && user.1 = 0 && !permitted

/-- A call with the name that leads to its file, and the file. -/
def Going (s : State) (p : ℕ) (c : Call) (n : PyStr) (f : File CodePoint Owner) : Prop :=
  s.calls p = some c ∧ s.disk.dir n = some c.inode ∧ s.disk.files c.inode = f

theorem going_attempt {s : State} {p : ℕ} {c : Call} {result : Option CredentialsDisk} {k : CredentialsDisk} {n : PyStr}
    {f : File CodePoint Owner} (hresult : result = some k) (hdir : k.dir n = some c.inode)
    (hfile : k.files c.inode = f) (pc : Pc) : Going (s.attempt p c result pc) p { c with pc := pc } n f := by
  subst hresult
  exact ⟨State.calls_goto_self _ _ _ _, hdir, hfile⟩

theorem Going.modify {s : State} {p : ℕ} {c : Call} {n : PyStr} {f : File CodePoint Owner} (h : Going s p c n f)
    (g : File CodePoint Owner → File CodePoint Owner) (pc : Pc) :
    Going (s.attempt p c (some (s.disk.modify c.inode g)) pc) p { c with pc := pc } n (g f) := by
  obtain ⟨-, hdir, rfl⟩ := h
  exact going_attempt (k := s.disk.modify c.inode g) rfl hdir (Disk.files_modify_self s.disk c.inode g) pc

theorem step_turn {s : State} {p : ℕ} {c : Call} (hc : s.calls p = some c) (written : ℕ) (permitted : Bool) :
    CredentialsFile.step parent name account s (.turn p written permitted) =
      CredentialsFile.turn parent name account s p c written permitted := by
  simp only [CredentialsFile.step, hc]

variable (account) in
theorem chown_spec {k : CredentialsDisk} {n : PyStr} {i : ℕ} {user : Owner} {permitted : Bool} (hdir : k.dir n = some i)
    (hallowed : chownRaises account user permitted = false) :
    ∃ k', chownServiceFile account n user permitted k = some k' ∧ k'.dir = k.dir ∧
      k'.files i = { k.files i with owner := handedTo account permitted (k.files i).owner } := by
  unfold chownServiceFile handedTo
  rcases account with _ | owner
  · exact ⟨k, rfl, rfl, by split <;> rfl⟩
  · rw [hdir]
    cases permitted with
    | true => exact ⟨_, rfl, rfl, Disk.files_modify_self k i _⟩
    | false =>
      have huser : user.1 ≠ 0 := by simpa [chownRaises] using hallowed
      exact ⟨k, by simp [huser], rfl, rfl⟩

variable {s : State} {p : ℕ} {c : Call} {n : PyStr} {f : File CodePoint Owner}
variable (parent name account) (permitted : Bool)

theorem Going.opened (h : Going s p c n f) (hpc : c.pc = .opened) (written : ℕ) :
    Going (CredentialsFile.step parent name account s (.turn p written permitted)) p
      { c with pc := .writing (writeCredentials c.credentials) } n { f with mode := 0o600 } := by
  rw [step_turn h.1, CredentialsFile.turn, hpc]
  exact h.modify _ _

theorem Going.wrote {rest : PyStr} (h : Going s p c n f) (hpc : c.pc = .writing rest) (hrest : rest ≠ []) :
    Going (CredentialsFile.step parent name account s (.turn p rest.length permitted)) p
      { c with pc := .writing [] } n { f with content := f.content ++ rest } := by
  obtain ⟨x, xs, rfl⟩ := List.exists_cons_of_ne_nil hrest
  rw [step_turn h.1, CredentialsFile.turn, hpc]
  dsimp only
  rw [List.take_length, List.drop_length]
  exact h.modify _ _

theorem Going.synced (h : Going s p c n f) (hpc : c.pc = .writing []) (written : ℕ) :
    Going (CredentialsFile.step parent name account s (.turn p written permitted)) p
      { c with pc := .chowning } n { f with synced := f.content } := by
  rw [step_turn h.1, CredentialsFile.turn, hpc]
  exact h.modify _ _

theorem Going.chowned (h : Going s p c c.temporary f) (hpc : c.pc = .chowning)
    (hallowed : chownRaises account c.user permitted = false) (written : ℕ) :
    Going (CredentialsFile.step parent name account s (.turn p written permitted)) p { c with pc := .replacing }
      c.temporary { f with owner := handedTo account permitted f.owner } := by
  obtain ⟨hc, hdir, rfl⟩ := h
  obtain ⟨k, hk, hdirs, hfile⟩ := chown_spec account hdir hallowed
  rw [step_turn hc, CredentialsFile.turn, hpc]
  exact going_attempt hk (by rw [hdirs]; exact hdir) hfile _

theorem Going.renamed (h : Going s p c c.temporary f) (hpc : c.pc = .replacing) (written : ℕ) :
    Going (CredentialsFile.step parent name account s (.turn p written permitted)) p { c with pc := .replaced }
      (destination parent name) f := by
  obtain ⟨hc, hdir, rfl⟩ := h
  rw [step_turn hc, CredentialsFile.turn, hpc]
  dsimp only
  rw [hdir, Option.map_some]
  have hdir' : (s.disk.rename c.temporary (destination parent name)).dir (destination parent name) = some c.inode :=
    (Function.update_self _ _ _).trans hdir
  exact going_attempt rfl hdir' rfl _

theorem Going.chmodded (h : Going s p c (destination parent name) f) (hpc : c.pc = .replaced) (written : ℕ) :
    Going (CredentialsFile.step parent name account s (.turn p written permitted)) p { c with pc := .rechowning }
      (destination parent name) { f with mode := 0o600 } := by
  obtain ⟨hc, hdir, rfl⟩ := h
  rw [step_turn hc, CredentialsFile.turn, hpc]
  dsimp only
  rw [hdir, Option.map_some]
  exact Going.modify ⟨hc, hdir, rfl⟩ _ _

theorem Going.rechowned (h : Going s p c (destination parent name) f) (hpc : c.pc = .rechowning)
    (hallowed : chownRaises account c.user permitted = false) (written : ℕ) :
    Going (CredentialsFile.step parent name account s (.turn p written permitted)) p { c with pc := .cleaning }
      (destination parent name) { f with owner := handedTo account permitted f.owner } := by
  obtain ⟨hc, hdir, rfl⟩ := h
  obtain ⟨k, hk, hdirs, hfile⟩ := chown_spec account hdir hallowed
  rw [step_turn hc, CredentialsFile.turn, hpc]
  exact going_attempt hk (by rw [hdirs]; exact hdir) hfile _

theorem Going.unlinked (h : Going s p c (destination parent name) f) (hpc : c.pc = .cleaning)
    (hne : c.temporary ≠ destination parent name) (written : ℕ) :
    Going (CredentialsFile.step parent name account s (.turn p written permitted)) p { c with pc := .ended }
      (destination parent name) f := by
  obtain ⟨hc, hdir, rfl⟩ := h
  rw [step_turn hc, CredentialsFile.turn, hpc]
  have hdir' : (s.disk.unlink c.temporary).dir (destination parent name) = some c.inode :=
    (Function.update_of_ne hne.symm _ _).trans hdir
  exact going_attempt rfl hdir' rfl _

variable {parent name account permitted}

theorem handedTo_handedTo (owner : Owner) :
    handedTo account permitted (handedTo account permitted owner) = handedTo account permitted owner := by
  unfold handedTo
  cases permitted <;> rcases account with _ | _ <;> rfl

/-- The file is left to its owner. -/
theorem handedTo_eq_iff {owner : Owner} :
    handedTo account permitted owner = owner ↔ (permitted = true → ∀ other ∈ account, other = owner) := by
  unfold handedTo
  rcases account with _ | other <;> cases permitted <;> simp

theorem writeCredentials_ne_nil (c : EngineCredentials) : writeCredentials c ≠ [] := by
  rw [writeCredentials_eq]
  intro hnil
  have hline := (List.flatMap_eq_nil_iff.mp hnil) _ (List.mem_cons_self (a := (py "engine_id", c.engineId)))
  simp [Toml.line] at hline

/-- The system calls of a call of `write_credentials` with no exception. -/
def undisturbed (p : ℕ) (credentials : EngineCredentials) (user : Owner) (drawn : PyStr) (permitted : Bool) :
    List Action :=
  .call p credentials user drawn :: .turn p 0 permitted :: .turn p (writeCredentials credentials).length permitted ::
    List.replicate 6 (.turn p 0 permitted)

/-- **What such a call leaves at the destination.** -/
theorem undisturbed_spec {disk₀ : CredentialsDisk} (p : ℕ) (credentials : EngineCredentials) {user : Owner}
    {drawn : PyStr} (hfree : disk₀.dir (temporaryName parent name drawn) = none)
    (hallowed : chownRaises account user permitted = false) :
    (run (CredentialsFile.step parent name account) (State.init disk₀)
      (undisturbed p credentials user drawn permitted)).disk.lookup (destination parent name) =
    some ⟨writeCredentials credentials, writeCredentials credentials, 0o600, handedTo account permitted user⟩ := by
  let call : Call := ⟨credentials, user, temporaryName parent name drawn, disk₀.next, .opened⟩
  have hstart : Going (CredentialsFile.step parent name account (State.init disk₀) (.call p credentials user drawn)) p
      call call.temporary ⟨[], [], 0o600, user⟩ := by
    simp only [CredentialsFile.step]
    rw [if_pos ⟨rfl, List.not_mem_nil, hfree⟩]
    exact ⟨Function.update_self _ _ _, Disk.dir_create_self _ _ _ _, Disk.files_create_self _ _ _ _⟩
  have hne : call.temporary ≠ destination parent name := temporaryName_ne drawn
  have hopened := hstart.opened parent name account permitted rfl 0
  have hwrote := hopened.wrote parent name account permitted rfl (writeCredentials_ne_nil credentials)
  have hsynced := hwrote.synced parent name account permitted rfl 0
  have hchowned := hsynced.chowned parent name account permitted rfl hallowed 0
  have hrenamed := hchowned.renamed parent name account permitted rfl 0
  have hchmodded := hrenamed.chmodded parent name account permitted rfl 0
  have hrechowned := hchmodded.rechowned parent name account permitted rfl hallowed 0
  obtain ⟨-, hdir, hfile⟩ := hrechowned.unlinked parent name account permitted rfl hne 0
  rw [handedTo_handedTo] at hfile
  refine (congrArg (Option.map _) hdir).trans ?_
  exact congrArg some hfile

end Alone

/-! ### `register_engine` -/

section Register

/-- What is used of a value of the response: its truth value and its `str`. -/
structure Field where
  truthy : Bool
  text : PyStr

/-- What `register_engine` raises of its own. -/
inductive RegisterFailure where
  | noBackendUrl
  | noName
  | missing (keys : List PyStr)
  | permission
  | auth (e : AuthFailure)
  deriving DecidableEq

/-- The text of an `AuthError`; the `PermissionError` of `chown` has a text of its own. -/
def RegisterFailure.text? (path : PyStr) : RegisterFailure → Option PyStr
  | .noBackendUrl => some (py "backend_url is required to register")
  | .noName => some (py "name is required to register")
  | .missing keys => some (py "Registration response missing required keys: " ++ (py ", ").intercalate keys)
  | .permission => none
  | .auth e => e.text? path

/-- `RegistrationResult`, without the path. -/
structure RegistrationResult where
  engineId : PyStr
  sessionJwtExpiresAt : Instant

/-- `str(payload[key])` -/
def text (payload : PyStr → Option Field) (key : PyStr) : PyStr := ((payload key).map Field.text).getD []

/-- The required keys whose value is not there or falsy. -/
def missingKeys (payload : PyStr → Option Field) : List PyStr :=
  required.filter fun key => !(payload key).any Field.truthy

/-- The credentials of a response with all keys. -/
def responseCredentials (payload : PyStr → Option Field) (backendUrl engineName : Option PyStr) :
    EngineCredentials where
  engineId := text payload (py "engine_id")
  engineSecret := text payload (py "engine_secret")
  sessionJwt := text payload (py "session_jwt")
  sessionJwtExpiresAt := text payload (py "session_jwt_expires_at")
  backendUrl := backendUrl
  name := engineName

/-- `_credentials_from_registration_response` -/
def credentialsFromRegistrationResponse (payload : PyStr → Option Field) (backendUrl engineName : Option PyStr) :
    Except RegisterFailure EngineCredentials :=
  if missingKeys payload ≠ [] then .error (.missing (missingKeys payload))
  else .ok (responseCredentials payload backendUrl engineName)

variable (uuid : PyStr → Bool) (parseDatetime : PyStr → Option Instant) (accounts : Accounts) (parent name : PyStr)

/-- `register_engine` with the response of the backend, and a call of `write_credentials` that nothing disturbs. -/
def registerEngine (payload : PyStr → Option Field) (backendUrl engineName : Option PyStr) (process : Owner)
    (drawn : PyStr) (permitted : Bool) (disk₀ : CredentialsDisk) : Except RegisterFailure RegistrationResult :=
  if orEmpty backendUrl = [] then .error .noBackendUrl
  else if orEmpty engineName = [] then .error .noName
  else do
    let credentials ← credentialsFromRegistrationResponse payload backendUrl engineName
    if chownRaises accounts.service process permitted then .error .permission
    else do
      let written := run (CredentialsFile.step parent name accounts.service) (State.init disk₀)
        (undisturbed 0 credentials process drawn permitted)
      let _ ← (registerCheck uuid parseDatetime accounts process
        (written.disk.lookup (destination parent name))).mapError .auth
      match parseDatetime credentials.sessionJwtExpiresAt with
      | none => .error (.auth .datetime)
      | some expiresAt => .ok ⟨credentials.engineId, expiresAt⟩

variable {uuid parseDatetime accounts parent name}

/-- Only the credentials of a registration are read back. -/
theorem of_loadCredentials_write {c c' : EngineCredentials} (hurl : Proper c.backendUrl) (hname : Proper c.name)
    (h : loadCredentials uuid (writeCredentials c) = .ok c') : Registered uuid c ∧ BasicPlane c := by
  unfold loadCredentials at h
  rw [loads_entries] at h
  by_cases hplain : ∀ kv ∈ c.entries, Toml.Plain kv.2
  · rw [if_pos hplain] at h
    dsimp only at h
    split_ifs at h with hmissing huuid
    have hget : ∀ key ∈ required, get c.entries key ≠ [] := by
      intro key hkey hnil
      have hmem : key ∈ required.filter fun key => decide (get c.entries key = []) :=
        List.mem_filter.mpr ⟨hkey, decide_eq_true hnil⟩
      rw [not_not.mp hmissing] at hmem
      exact List.not_mem_nil hmem
    have hidentity : uuid c.engineId = true := by
      rw [Bool.not_eq_true', Bool.not_eq_false] at huuid
      exact huuid
    have hengineId : c.engineId ≠ [] := hget (py "engine_id") (by decide)
    have hengineSecret : c.engineSecret ≠ [] := hget (py "engine_secret") (by decide)
    have hsessionJwt : c.sessionJwt ≠ [] := hget (py "session_jwt") (by decide)
    have hexpires : c.sessionJwtExpiresAt ≠ [] := hget (py "session_jwt_expires_at") (by decide)
    exact ⟨⟨hengineId, hengineSecret, hsessionJwt, hexpires, hidentity, hurl, hname,
      fun kv hkv x hx => (hplain kv hkv x hx).2⟩, fun kv hkv x hx => (hplain kv hkv x hx).1⟩
  · rw [if_neg hplain] at h
    cases h

/-- The check of a registration passes exactly for acceptable credentials in a file of the process. -/
theorem registerCheck_ok_iff {c : EngineCredentials} (hurl : Proper c.backendUrl) (hname : Proper c.name)
    (process owner : Owner) :
    (∃ c', registerCheck uuid parseDatetime accounts process
      (some ⟨writeCredentials c, writeCredentials c, 0o600, owner⟩) = .ok c') ↔
      Acceptable uuid parseDatetime c ∧ owner = process := by
  constructor
  · rintro ⟨c', h⟩
    have haccepted := accepted_of_validate h
    obtain ⟨hregistered, hbasic⟩ := of_loadCredentials_write hurl hname haccepted.loads
    have hload := loadCredentials_write hregistered
    rw [if_pos hbasic] at hload
    obtain rfl := Except.ok.inj (hload.symm.trans haccepted.loads)
    exact ⟨⟨hregistered, hbasic, haccepted.ascii, haccepted.long, haccepted.expires⟩, haccepted.owner.symm⟩
  · rintro ⟨hacceptable, rfl⟩
    have hfit : Fit uuid parseDatetime owner ⟨writeCredentials c, writeCredentials c, 0o600, owner⟩ c :=
      hacceptable.fit rfl rfl rfl
    exact ⟨c, by rw [hfit.checked.register owner (Or.inr rfl), if_pos rfl]⟩

variable {payload : PyStr → Option Field} {backendUrl engineName : Option PyStr} {process : Owner} {drawn : PyStr}
  {permitted : Bool} {disk₀ : CredentialsDisk}

/-- The last steps of a registration, once the credentials are written. -/
theorem register_written_iff {c : EngineCredentials} (hurl : Proper c.backendUrl) (hname : Proper c.name)
    (hfree : disk₀.dir (temporaryName parent name drawn) = none)
    (hallowed : chownRaises accounts.service process permitted = false) :
    (∃ c', registerCheck uuid parseDatetime accounts process
      ((run (CredentialsFile.step parent name accounts.service) (State.init disk₀)
        (undisturbed 0 c process drawn permitted)).disk.lookup (destination parent name)) = .ok c') ↔
      Acceptable uuid parseDatetime c ∧ (permitted = true → ∀ owner ∈ accounts.service, owner = process) := by
  rw [undisturbed_spec 0 c hfree hallowed, registerCheck_ok_iff hurl hname, handedTo_eq_iff]

/-- **When a registration returns.** With a response of the backend and a call of `write_credentials` that nothing
disturbs, `register_engine` returns exactly if there are a URL and a name, no key of the response is missing, the
credentials can be written, read back and checked, and the file is left to the user of the process: so not to a
service account that is another. -/
theorem register_returns_iff (hfree : disk₀.dir (temporaryName parent name drawn) = none) :
    (∃ result, registerEngine uuid parseDatetime accounts parent name payload backendUrl engineName process drawn
      permitted disk₀ = .ok result) ↔
    orEmpty backendUrl ≠ [] ∧ orEmpty engineName ≠ [] ∧ missingKeys payload = [] ∧
      chownRaises accounts.service process permitted = false ∧
      Acceptable uuid parseDatetime (responseCredentials payload backendUrl engineName) ∧
      (permitted = true → ∀ owner ∈ accounts.service, owner = process) := by
  unfold registerEngine credentialsFromRegistrationResponse
  by_cases hurl : orEmpty backendUrl = []
  · rw [if_pos hurl]
    exact iff_of_false (fun ⟨_, h⟩ => by cases h) (fun h => h.1 hurl)
  by_cases hname : orEmpty engineName = []
  · rw [if_neg hurl, if_pos hname]
    exact iff_of_false (fun ⟨_, h⟩ => by cases h) (fun h => h.2.1 hname)
  rw [if_neg hurl, if_neg hname]
  by_cases hmissing : missingKeys payload = []
  · rw [if_neg (not_not.mpr hmissing)]
    have hok : ∀ {f : EngineCredentials → Except RegisterFailure RegistrationResult} {c}, (.ok c >>= f) = f c := rfl
    rw [hok]
    cases hallowed : chownRaises accounts.service process permitted with
    | true =>
      rw [if_pos rfl]
      exact iff_of_false (fun ⟨_, h⟩ => by cases h) (fun h => by cases h.2.2.2.1)
    | false =>
      rw [if_neg (by decide)]
      have hwritten : (∃ c', registerCheck uuid parseDatetime accounts process _ = .ok c') ↔ _ :=
        register_written_iff (c := responseCredentials payload backendUrl engineName)
          (fun heq => hurl (congrArg orEmpty heq)) (fun heq => hname (congrArg orEmpty heq)) hfree hallowed
      simp only [bind_ok_iff, mapError_ok_iff]
      constructor
      · rintro ⟨c', hcheck, -⟩
        exact ⟨hurl, hname, hmissing, trivial, hwritten.mp ⟨c', hcheck⟩⟩
      · rintro ⟨-, -, -, -, hacceptable, howner⟩
        obtain ⟨c', hcheck⟩ := hwritten.mpr ⟨hacceptable, howner⟩
        obtain ⟨expiresAt, hexpires⟩ := Option.isSome_iff_exists.mp hacceptable.expires
        exact ⟨c', hcheck, _, by rw [hexpires]⟩
  · rw [if_pos hmissing]
    exact iff_of_false (fun ⟨_, h⟩ => by cases h) (fun h => hmissing h.2.2.1)

/-- **What a registration leaves.** `register_engine` returns exactly under the conditions of `register_returns_iff`;
if it gets to its check, acceptable credentials are in the file, whether it returns or raises then, and the start of
the service accepts them. -/
theorem registration_outcome (hfree : disk₀.dir (temporaryName parent name drawn) = none) :
    ((∃ result, registerEngine uuid parseDatetime accounts parent name payload backendUrl engineName process drawn
      permitted disk₀ = .ok result) ↔
    orEmpty backendUrl ≠ [] ∧ orEmpty engineName ≠ [] ∧ missingKeys payload = [] ∧
      chownRaises accounts.service process permitted = false ∧
      Acceptable uuid parseDatetime (responseCredentials payload backendUrl engineName) ∧
      (permitted = true → ∀ owner ∈ accounts.service, owner = process)) ∧
    (chownRaises accounts.service process permitted = false → ∀ credentials, Acceptable uuid parseDatetime credentials →
      ∃ f, (run (CredentialsFile.step parent name accounts.service) (State.init disk₀)
        (undisturbed 0 credentials process drawn permitted)).disk.lookup (destination parent name) = some f ∧
      Checked uuid parseDatetime accounts (handedTo accounts.service permitted process) f credentials) := by
  refine ⟨register_returns_iff hfree, fun hallowed credentials hacceptable => ?_⟩
  have hfit : Fit uuid parseDatetime (handedTo accounts.service permitted process)
      ⟨writeCredentials credentials, writeCredentials credentials, 0o600, handedTo accounts.service permitted process⟩
      credentials := hacceptable.fit rfl rfl rfl
  exact ⟨_, undisturbed_spec 0 credentials hfree hallowed, hfit.checked⟩

end Register

/-! ### A registration by the superuser -/

/-- A host with the service account. -/
def packaged : Accounts := ⟨fun _ => some 990, fun _ => some 990⟩

/-- A response of the backend. -/
def samplePayload (key : PyStr) : Option Field :=
  if key = py "engine_id" then some ⟨true, py "00000000-0000-4000-8000-000000000001"⟩
  else if key = py "engine_secret" then some ⟨true, py "0123456789abcdef0123456789abcdef"⟩
  else if key = py "session_jwt" then some ⟨true, py "jwt"⟩
  else if key = py "session_jwt_expires_at" then some ⟨true, py "2030-01-01T00:00:00Z"⟩
  else none

/-- Its credentials. -/
def sampleRegistration : EngineCredentials :=
  responseCredentials samplePayload (some (py "https://agent.example")) (some (py "engine"))

theorem acceptable_sampleRegistration : Acceptable isUuid (fun _ => some 0) sampleRegistration where
  registered :=
    { engineId := List.cons_ne_nil _ _
      engineSecret := List.cons_ne_nil _ _
      sessionJwt := List.cons_ne_nil _ _
      sessionJwtExpiresAt := List.cons_ne_nil _ _
      identity := by decide +kernel
      backendUrl := fun heq => by cases heq
      name := fun heq => by cases heq
      scalar := by
        have hascii : ∀ kv ∈ sampleRegistration.entries, Ascii kv.2 := by decide +kernel
        exact fun kv hkv => scalar_of_ascii (hascii kv hkv) }
  basicPlane := by decide +kernel
  ascii := by decide +kernel
  long := by decide +kernel
  expires := rfl

/-- The superuser registers on a host with the service account. -/
theorem registration_checked_root :
    ∃ c, Stored isUuid (fun _ => some 0) (py "/etc/") (py "c.toml") (990, 990) emptyDisk
        (run (CredentialsFile.step (py "/etc/") (py "c.toml") packaged.service) (State.init emptyDisk)
          (undisturbed 0 sampleRegistration (0, 0) (py "a") true)) c ∧
      Checked isUuid (fun _ => some 0) packaged (990, 990)
        ⟨writeCredentials sampleRegistration, writeCredentials sampleRegistration, 0o600, (990, 990)⟩ c := by
  have hacts : ∀ act ∈ undisturbed 0 sampleRegistration (0, 0) (py "a") true,
      Authorized isUuid (fun _ => some 0) packaged (990, 990) act := by
    intro act hact
    rcases List.mem_cons.mp hact with rfl | hact
    · exact ⟨acceptable_sampleRegistration, Or.inr ⟨rfl, rfl⟩⟩
    rcases List.mem_cons.mp hact with rfl | hact
    · trivial
    rcases List.mem_cons.mp hact with rfl | hact
    · trivial
    rw [List.eq_of_mem_replicate hact]
    trivial
  have hhome : ∀ owner ∈ packaged.service, owner = (990, 990) := by
    intro owner howner
    have hservice : packaged.service = some (990, 990) := rfl
    rw [hservice] at howner
    exact (Option.mem_some.mp howner).symm
  refine registration_checked settled_emptyDisk hhome (fun f hf => by cases hf) _ hacts _ ?_
  exact undisturbed_spec 0 sampleRegistration rfl rfl

/-- It raises, with the credentials in the file. -/
theorem registration_outcome_root :
    (¬ ∃ result, registerEngine isUuid (fun _ => some 0) packaged (py "/etc/") (py "c.toml") samplePayload
      (some (py "https://agent.example")) (some (py "engine")) (0, 0) (py "a") true emptyDisk = .ok result) ∧
    ∃ f, (run (CredentialsFile.step (py "/etc/") (py "c.toml") packaged.service) (State.init emptyDisk)
        (undisturbed 0 sampleRegistration (0, 0) (py "a") true)).disk.lookup
          (destination (py "/etc/") (py "c.toml")) = some f ∧
      Checked isUuid (fun _ => some 0) packaged (990, 990) f sampleRegistration := by
  have hfree : emptyDisk.dir (temporaryName (py "/etc/") (py "c.toml") (py "a")) = none := rfl
  obtain ⟨hiff, hchecked⟩ := @registration_outcome isUuid (fun _ => some 0) packaged (py "/etc/") (py "c.toml")
    samplePayload (some (py "https://agent.example")) (some (py "engine")) (0, 0) (py "a") true emptyDisk hfree
  refine ⟨fun h => ?_, hchecked rfl sampleRegistration acceptable_sampleRegistration⟩
  have howner := (hiff.mp h).2.2.2.2.2 rfl (990, 990) rfl
  cases howner

end BuildEngine.Agent.Registration
