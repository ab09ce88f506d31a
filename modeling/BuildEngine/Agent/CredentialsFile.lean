import BuildEngine.Agent.Credentials
import BuildEngine.Base.FileSystem
import BuildEngine.Base.Run

/-! # Writing the credentials file

`write_credentials` of `config.py` as a protocol on the file system: `registration` and `refresh_session` call it,
from the service and from the command line, and a call may be interrupted at every system call, by an exception, by
the death of its process, or by a loss of power. A call writes a file of its own, syncs it, and gives it the
destination's name in one step (`Action.turn`). So the destination has at every moment its former text or the
complete text of one call, and no file that was ever given a secret can be read by another user. -/

namespace BuildEngine.Agent.CredentialsFile

open BuildEngine.Base BuildEngine.Base.Json BuildEngine.Base.Run BuildEngine.Base.FileSystem
open BuildEngine.Agent.Credentials

/-- A user and a group. -/
abbrev Owner := ℕ × ℕ

/-- The disk, its names paths and its texts those of the files. -/
abbrev CredentialsDisk := Disk PyStr CodePoint Owner

/-- Where a call is in `write_credentials`. -/
inductive Pc where
  /-- `mkstemp` has returned; at `fchmod`. -/
  | opened
  /-- At `write`, or at `fsync` when nothing is left to be written. -/
  | writing (rest : PyStr)
  /-- At `_chown_service_file(temporary)`. -/
  | chowning
  /-- At `temporary.replace(destination)`. -/
  | replacing
  /-- At `destination.chmod`. -/
  | replaced
  /-- At `_chown_service_file(destination)`. -/
  | rechowning
  /-- At the `unlink` of the `finally` clause. -/
  | cleaning
  /-- The call has returned or raised. -/
  | ended
  /-- Its process is dead. -/
  | killed
  deriving DecidableEq

/-- A call of `write_credentials`: its credentials, the user of its process, and the file `mkstemp` gave it. -/
structure Call where
  credentials : EngineCredentials
  user : Owner
  temporary : PyStr
  inode : ℕ
  pc : Pc

/-- The calls are numbered; `random` holds what `mkstemp` has drawn for its names. -/
structure State where
  disk : CredentialsDisk
  calls : ℕ → Option Call
  random : List PyStr

/-- Before any call. -/
def State.init (disk : CredentialsDisk) : State := ⟨disk, fun _ => none, []⟩

/-- What happens to the calls. -/
inductive Action where
  /-- A call begins, and `mkstemp` draws a name. -/
  | call (p : ℕ) (credentials : EngineCredentials) (user : Owner) (drawn : PyStr)
  /-- The system call a call is at succeeds; a `write` takes some of the text, and a `chown` may not be permitted. -/
  | turn (p : ℕ) (written : ℕ) (permitted : Bool)
  /-- It raises. -/
  | raised (p : ℕ)
  | kill (p : ℕ)
  | powerLoss (age : ℕ) (torn : ℕ → PyStr)

section Machine

-- the parent directory with its separator, the name of the destination, and the service account if there is one
variable (parent name : PyStr) (account : Option Owner)

/-- The path of the file. -/
def destination : PyStr := parent ++ name

/-- The names `mkstemp` makes. -/
def temporaryName (drawn : PyStr) : PyStr := parent ++ (py "." ++ name ++ py "." ++ drawn ++ py ".tmp")

/-- The call goes on. -/
def State.goto (s : State) (p : ℕ) (c : Call) (pc : Pc) : State :=
  { s with calls := Function.update s.calls p (some { c with pc := pc }) }

theorem State.calls_goto_self (s : State) (p : ℕ) (c : Call) (pc : Pc) :
    (s.goto p c pc).calls p = some { c with pc := pc } := Function.update_self _ _ _

theorem State.calls_goto_of_ne (s : State) {p q : ℕ} (c : Call) (pc : Pc) (h : q ≠ p) :
    (s.goto p c pc).calls q = s.calls q := Function.update_of_ne h _ _

/-- `_chown_service_file`, with `none` for an exception. -/
def chownServiceFile (path : PyStr) (user : Owner) (permitted : Bool) (disk : CredentialsDisk) :
    Option CredentialsDisk :=
  match account with
  | none => some disk
  | some owner =>
    match disk.dir path with
    | none => none
    | some i =>
      if permitted then some (disk.fchown i owner)
      -- a `PermissionError` is only raised again by the superuser
      else if user.1 = 0 then none
      else some disk

/-- A call goes on with what a system call has done, or to its `finally` clause. -/
def State.attempt (s : State) (p : ℕ) (c : Call) (result : Option CredentialsDisk) (pc : Pc) : State :=
  match result with
  | some disk => { s with disk := disk }.goto p c pc
  | none => s.goto p c .cleaning

/-- The system call a call is at succeeds. -/
def turn (s : State) (p : ℕ) (c : Call) (written : ℕ) (permitted : Bool) : State :=
  match c.pc with
  | .opened =>
    s.attempt p c (some (s.disk.fchmod c.inode 0o600)) (.writing (writeCredentials c.credentials))
  | .writing [] => s.attempt p c (some (s.disk.fsync c.inode)) .chowning
  | .writing rest => s.attempt p c (some (s.disk.write c.inode (rest.take written))) (.writing (rest.drop written))
  | .chowning => s.attempt p c (chownServiceFile account c.temporary c.user permitted s.disk) .replacing
  | .replacing =>
    s.attempt p c ((s.disk.dir c.temporary).map fun _ => s.disk.rename c.temporary (destination parent name))
      .replaced
  | .replaced =>
    s.attempt p c ((s.disk.dir (destination parent name)).map (s.disk.fchmod · 0o600)) .rechowning
  | .rechowning =>
    s.attempt p c (chownServiceFile account (destination parent name) c.user permitted s.disk) .cleaning
  | .cleaning => s.attempt p c (some (s.disk.unlink c.temporary)) .ended
  | .ended | .killed => s

/-- The system call a call is at raises. -/
def raised (s : State) (p : ℕ) (c : Call) : State :=
  match c.pc with
  | .cleaning => s.goto p c .killed
  | .ended | .killed => s
  | _ => s.goto p c .cleaning

/-- What an action does. A name that is there, or was drawn before, is not drawn. -/
def step (s : State) : Action → State
  | .call p credentials user drawn =>
    let temporary := temporaryName parent name drawn
    if (s.calls p).isNone ∧ drawn ∉ s.random ∧ s.disk.dir temporary = none then
      { disk := s.disk.create temporary 0o600 user
        calls := Function.update s.calls p (some ⟨credentials, user, temporary, s.disk.next, .opened⟩)
        random := drawn :: s.random }
    else s
  | .turn p written permitted =>
    match s.calls p with
    | some c => turn parent name account s p c written permitted
    | none => s
  | .raised p =>
    match s.calls p with
    | some c => raised s p c
    | none => s
  | .kill p =>
    match s.calls p with
    | some c => if c.pc = .ended then s else s.goto p c .killed
    | none => s
  | .powerLoss age torn =>
    { s with
      disk := s.disk.powerLoss age torn
      calls := fun p => (s.calls p).map fun c => { c with pc := .killed } }

/-! ### The invariant -/

/-- The call still writes its file. -/
def Pc.writes : Pc → Bool
  | .opened | .writing _ => true
  | _ => false

/-- The file of the call has the whole text, and it is synced. -/
def Complete (k : CredentialsDisk) (c : Call) : Prop :=
  (k.files c.inode).content = writeCredentials c.credentials ∧
    (k.files c.inode).synced = writeCredentials c.credentials

/-- The file of a call of the superuser is the service account's, if there is one. -/
def Handed (k : CredentialsDisk) (c : Call) : Prop :=
  c.user.1 = 0 → ∀ owner, account = some owner → (k.files c.inode).owner = owner

/-- The file of the call stays complete. -/
def Sealed (k : CredentialsDisk) (c : Call) : Prop :=
  c.pc.writes = false ∧ Complete k c ∧ Handed account k c

/-- What the call has written. -/
def Written (k : CredentialsDisk) (c : Call) : Prop :=
  match c.pc with
  | .opened => (k.files c.inode).content = []
  | .writing rest => (k.files c.inode).content ++ rest = writeCredentials c.credentials
  | .chowning => Complete k c
  | .replacing | .replaced | .rechowning => Complete k c ∧ Handed account k c
  | .cleaning | .ended | .killed => True

/-- A call has a file of its own, with no text of a secret under other permissions. -/
structure CallInv (disk₀ k : CredentialsDisk) (c : Call) : Prop where
  own : disk₀.next ≤ c.inode
  used : c.inode < k.next
  mode : (k.files c.inode).mode = 0o600
  written : Written account k c

/-- A directory: a temporary name leads to the file of its call or nowhere, the destination to its former file or a
complete one, and the other names are as they were. -/
structure DirInv (disk₀ : CredentialsDisk) (s : State) (d : PyStr → Option ℕ) : Prop where
  temporary : ∀ p c i, s.calls p = some c → d c.temporary = some i → i = c.inode
  other : ∀ n, n ≠ destination parent name → (∀ p c, s.calls p = some c → n ≠ c.temporary) → d n = disk₀.dir n
  complete : ∀ i, d (destination parent name) = some i → disk₀.dir (destination parent name) = some i ∨
    ∃ p c, s.calls p = some c ∧ c.inode = i ∧ Sealed account s.disk c
  present : (disk₀.dir (destination parent name)).isSome → (d (destination parent name)).isSome

/-- The invariant of the protocol, over the disk it starts from. -/
structure Inv (disk₀ : CredentialsDisk) (s : State) : Prop where
  call : ∀ p c, s.calls p = some c → CallInv account disk₀ s.disk c
  apart : ∀ p q c c', s.calls p = some c → s.calls q = some c' → p ≠ q →
    c.inode ≠ c'.inode ∧ c.temporary ≠ c'.temporary
  drawn : ∀ p c, s.calls p = some c → ∃ r ∈ s.random, c.temporary = temporaryName parent name r
  bound : disk₀.next ≤ s.disk.next
  former : ∀ i < disk₀.next, (s.disk.files i).content = (disk₀.files i).content ∧
    (s.disk.files i).synced = (disk₀.files i).content
  dirs : ∀ d ∈ s.disk.dirs, DirInv parent name account disk₀ s d
  gone : ∀ p c, s.calls p = some c → c.pc = .ended → s.disk.dir c.temporary = none

variable {parent name account}

theorem temporaryName_ne (drawn : PyStr) : temporaryName parent name drawn ≠ destination parent name := by
  intro h
  have hname : py "." ++ name ++ py "." ++ drawn ++ py ".tmp" = name := List.append_cancel_left h
  have hlength := congrArg List.length hname
  simp only [List.length_append] at hlength
  have : (py ".").length = 1 := by decide
  omega

theorem temporaryName_injective {r r' : PyStr} (h : temporaryName parent name r = temporaryName parent name r') :
    r = r' := by
  have hname := List.append_cancel_left h
  have hdrawn := List.append_cancel_right hname
  exact List.append_cancel_left hdrawn

variable {disk₀ : CredentialsDisk}

theorem Inv.temporary_ne {s : State} (h : Inv parent name account disk₀ s) {p : ℕ} {c : Call} (hc : s.calls p = some c) :
    c.temporary ≠ destination parent name := by
  obtain ⟨r, -, hr⟩ := h.drawn p c hc
  rw [hr]
  exact temporaryName_ne r

theorem Written.transfer {k k' : CredentialsDisk} {c : Call} (h : Written account k c)
    (hcontent : (k'.files c.inode).content = (k.files c.inode).content)
    (hsynced : (k'.files c.inode).synced = (k.files c.inode).synced)
    (hhanded : Handed account k c → Handed account k' c) : Written account k' c := by
  unfold Written Complete at h ⊢
  rw [hcontent, hsynced]
  generalize c.pc = pc at h ⊢
  cases pc with
  | replacing | replaced | rechowning => exact ⟨h.1, hhanded h.2⟩
  | _ => exact h

variable (account) in
/-- Calls keep their files and names, and sealed files stay sealed. -/
structure Continues (s t : State) : Prop where
  before : ∀ p c, t.calls p = some c → ∃ c', s.calls p = some c' ∧ c'.temporary = c.temporary ∧ c'.inode = c.inode
  after : ∀ p c, s.calls p = some c → ∃ c', t.calls p = some c' ∧ c'.temporary = c.temporary ∧
    c'.inode = c.inode ∧ (Sealed account s.disk c → Sealed account t.disk c')

theorem DirInv.continues {s t : State} {d : PyStr → Option ℕ} (h : DirInv parent name account disk₀ s d)
    (hst : Continues account s t) : DirInv parent name account disk₀ t d := by
  refine ⟨fun p c i hc hi => ?_, fun n hn hother => ?_, fun i hi => ?_, h.present⟩
  · obtain ⟨c', hc', ht, hi'⟩ := hst.before p c hc
    rw [← ht] at hi
    rw [← hi']
    exact h.temporary p c' i hc' hi
  · refine h.other n hn fun p c hc => ?_
    obtain ⟨c', hc', ht, -⟩ := hst.after p c hc
    rw [← ht]
    exact hother p c' hc'
  · refine (h.complete i hi).imp_right ?_
    rintro ⟨p, c, hc, hci, hsealed⟩
    obtain ⟨c', hc', -, hi', hs⟩ := hst.after p c hc
    exact ⟨p, c', hc', hi'.trans hci, hs hsealed⟩

/-- One call goes on, with what its system call has done to the disk. -/
theorem Inv.advance {s : State} (h : Inv parent name account disk₀ s) {p : ℕ} {c : Call} (hc : s.calls p = some c)
    {k : CredentialsDisk} {pc : Pc} (hnext : k.next = s.disk.next)
    (hfiles : ∀ i, i ≠ c.inode ∨ c.pc.writes = false →
      (k.files i).content = (s.disk.files i).content ∧ (k.files i).synced = (s.disk.files i).synced)
    (hmode : ∀ i, (k.files i).mode = (s.disk.files i).mode ∨ (k.files i).mode = 0o600)
    (howner : ∀ i, (k.files i).owner = (s.disk.files i).owner ∨ account = some (k.files i).owner)
    (hpc : c.pc.writes = false → pc.writes = false) (hwritten : Written account k { c with pc := pc })
    (hdirs : ∀ d ∈ k.dirs, d ∈ s.disk.dirs ∨ DirInv parent name account disk₀ s d)
    (hgone : pc = .ended → k.dir c.temporary = none)
    (hkeep : ∀ n, n ≠ destination parent name → s.disk.dir n = none → k.dir n = none) :
    Inv parent name account disk₀ ({ s with disk := k }.goto p c pc) := by
  -- a call after the step is the one that went on, or was there before
  have hcalls : ∀ q c', ({ s with disk := k }.goto p c pc).calls q = some c' →
      (q = p ∧ c' = { c with pc := pc }) ∨ (q ≠ p ∧ s.calls q = some c') := by
    intro q c' hq
    by_cases hqp : q = p
    · subst hqp
      rw [State.calls_goto_self] at hq
      exact Or.inl ⟨rfl, (Option.some.inj hq).symm⟩
    · rw [State.calls_goto_of_ne _ _ _ hqp] at hq
      exact Or.inr ⟨hqp, hq⟩
  have hself : ({ s with disk := k }.goto p c pc).calls p = some { c with pc := pc } :=
    State.calls_goto_self _ _ _ _
  have hother : ∀ q, q ≠ p → ({ s with disk := k }.goto p c pc).calls q = s.calls q :=
    fun q hq => State.calls_goto_of_ne _ _ _ hq
  have hhanded : ∀ c' : Call, Handed account s.disk c' → Handed account k c' := by
    intro c' hh hroot owner ho
    rcases howner c'.inode with he | he
    · exact he.trans (hh hroot owner ho)
    · exact Option.some.inj (he.symm.trans ho)
  have hsealed : ∀ q c', s.calls q = some c' → Sealed account s.disk c' → c'.inode ≠ c.inode ∨ c.pc.writes = false := by
    intro q c' hq hs
    by_cases hqp : q = p
    · subst hqp
      cases hc.symm.trans hq
      exact Or.inr hs.1
    · exact Or.inl (h.apart q p c' c hq hc hqp).1
  have hcomplete : ∀ q c', s.calls q = some c' → Sealed account s.disk c' →
      Complete k c' ∧ Handed account k c' := by
    intro q c' hq hs
    obtain ⟨h1, h2⟩ := hfiles c'.inode (hsealed q c' hq hs)
    exact ⟨⟨h1.trans hs.2.1.1, h2.trans hs.2.1.2⟩, hhanded c' hs.2.2⟩
  have hcont : Continues account s ({ s with disk := k }.goto p c pc) := by
    refine ⟨fun q c' hq => ?_, fun q c' hq => ?_⟩
    · rcases hcalls q c' hq with ⟨rfl, rfl⟩ | ⟨-, hq'⟩
      · exact ⟨c, hc, rfl, rfl⟩
      · exact ⟨c', hq', rfl, rfl⟩
    · by_cases hqp : q = p
      · subst hqp
        cases hc.symm.trans hq
        exact ⟨_, hself, rfl, rfl, fun hs => ⟨hpc hs.1, hcomplete q c hq hs⟩⟩
      · exact ⟨c', (hother q hqp).trans hq, rfl, rfl, fun hs => ⟨hs.1, hcomplete q c' hq hs⟩⟩
  have hmodes : ∀ i, (s.disk.files i).mode = 0o600 → (k.files i).mode = 0o600 :=
    fun i hi => (hmode i).elim (fun he => he.trans hi) id
  refine ⟨fun q c' hq => ?_, fun q r c' c'' hq hr hne => ?_, fun q c' hq => ?_, ?_, fun i hi => ?_, fun d hd => ?_,
    fun q c' hq hended => ?_⟩
  · rcases hcalls q c' hq with ⟨rfl, rfl⟩ | ⟨hqp, hq'⟩
    · have hci := h.call q c hc
      exact ⟨hci.own, lt_of_lt_of_eq hci.used hnext.symm, hmodes _ hci.mode, hwritten⟩
    · have hci := h.call q c' hq'
      refine ⟨hci.own, hnext.symm ▸ hci.used, hmodes _ hci.mode, ?_⟩
      obtain ⟨h1, h2⟩ := hfiles c'.inode (Or.inl (h.apart q p c' c hq' hc hqp).1)
      exact hci.written.transfer h1 h2 (hhanded c')
  · obtain ⟨d, hd, ht, hi⟩ := hcont.before q c' hq
    obtain ⟨d', hd', ht', hi'⟩ := hcont.before r c'' hr
    rw [← ht, ← ht', ← hi, ← hi']
    exact h.apart q r d d' hd hd' hne
  · obtain ⟨d, hd, ht, -⟩ := hcont.before q c' hq
    rw [← ht]
    exact h.drawn q d hd
  · show disk₀.next ≤ k.next
    rw [hnext]
    exact h.bound
  · have hne : i ≠ c.inode := by
      have := (h.call p c hc).own
      omega
    obtain ⟨h1, h2⟩ := hfiles i (Or.inl hne)
    obtain ⟨hf, hf'⟩ := h.former i hi
    exact ⟨h1.trans hf, h2.trans hf'⟩
  · rcases hdirs d hd with hd | hd
    · exact (h.dirs d hd).continues hcont
    · exact hd.continues hcont
  · rcases hcalls q c' hq with ⟨rfl, rfl⟩ | ⟨hqp, hq'⟩
    · exact hgone hended
    · exact hkeep _ (h.temporary_ne hq') (h.gone q c' hq' hended)

/-- One call goes on, and the disk stays as it is. -/
theorem Inv.goto {s : State} (h : Inv parent name account disk₀ s) {p : ℕ} {c : Call} (hc : s.calls p = some c) {pc : Pc}
    (hpc : c.pc.writes = false → pc.writes = false) (hwritten : Written account s.disk { c with pc := pc })
    (hended : pc ≠ .ended) : Inv parent name account disk₀ (s.goto p c pc) :=
  h.advance hc (k := s.disk) rfl (fun _ _ => ⟨rfl, rfl⟩) (fun _ => Or.inl rfl) (fun _ => Or.inl rfl) hpc hwritten
    (fun _ hd => Or.inl hd)
    (fun he => absurd he hended) (fun _ _ hn => hn)

/-- One call goes on, and the bits or the owner of a file change. -/
theorem Inv.inPlace {s : State} (h : Inv parent name account disk₀ s) {p : ℕ} {c : Call} (hc : s.calls p = some c)
    {pc : Pc} (i : ℕ) {f : File CodePoint Owner → File CodePoint Owner}
    (hf : ∀ x, (f x).content = x.content ∧ (f x).synced = x.synced ∧
      ((f x).mode = x.mode ∨ (f x).mode = 0o600) ∧ ((f x).owner = x.owner ∨ account = some (f x).owner))
    (hpc : c.pc.writes = false → pc.writes = false)
    (hwritten : Written account (s.disk.modify i f) { c with pc := pc }) (hended : pc ≠ .ended) :
    Inv parent name account disk₀ ({ s with disk := s.disk.modify i f }.goto p c pc) := by
  have hfile : ∀ j, ((s.disk.modify i f).files j).content = (s.disk.files j).content ∧
      ((s.disk.modify i f).files j).synced = (s.disk.files j).synced ∧
      (((s.disk.modify i f).files j).mode = (s.disk.files j).mode ∨ ((s.disk.modify i f).files j).mode = 0o600) ∧
      (((s.disk.modify i f).files j).owner = (s.disk.files j).owner ∨
        account = some ((s.disk.modify i f).files j).owner) := by
    intro j
    by_cases hj : j = i
    · subst hj
      rw [Disk.files_modify_self]
      exact hf _
    · rw [Disk.files_modify_of_ne _ hj]
      exact ⟨rfl, rfl, Or.inl rfl, Or.inl rfl⟩
  exact h.advance hc (k := s.disk.modify i f) rfl (fun j _ => ⟨(hfile j).1, (hfile j).2.1⟩)
    (fun j => (hfile j).2.2.1) (fun j => (hfile j).2.2.2) hpc hwritten (fun _ hd => Or.inl hd)
    (fun he => absurd he hended) (fun _ _ hn => hn)

/-- A change of bits leaves what was written. -/
theorem Written.fchmod {k : CredentialsDisk} {c : Call} (h : Written account k c) (i mode : ℕ) :
    Written account (k.fchmod i mode) c := by
  have hfile : ((k.fchmod i mode).files c.inode).content = (k.files c.inode).content ∧
      ((k.fchmod i mode).files c.inode).synced = (k.files c.inode).synced ∧
      ((k.fchmod i mode).files c.inode).owner = (k.files c.inode).owner := by
    unfold Disk.fchmod
    by_cases hi : c.inode = i
    · rw [hi, Disk.files_modify_self]
      exact ⟨rfl, rfl, rfl⟩
    · rw [Disk.files_modify_of_ne _ hi]
      exact ⟨rfl, rfl, rfl⟩
  refine h.transfer hfile.1 hfile.2.1 fun hh hroot owner ho => ?_
  rw [hfile.2.2]
  exact hh hroot owner ho

/-- The call raises, and goes on with its `finally` clause. -/
theorem Inv.clean {s : State} (h : Inv parent name account disk₀ s) {p : ℕ} {c : Call} (hc : s.calls p = some c) :
    Inv parent name account disk₀ (s.goto p c .cleaning) := h.goto hc (fun _ => rfl) trivial (by simp)

/-- `_chown_service_file` leaves the texts and the bits alone. -/
theorem Inv.chown {s : State} (h : Inv parent name account disk₀ s) {p : ℕ} {c : Call} (hc : s.calls p = some c)
    {pc : Pc} (path : PyStr) (user : Owner) (permitted : Bool) (hpc : c.pc.writes = false → pc.writes = false)
    (hwritten : ∀ k, chownServiceFile account path user permitted s.disk = some k →
      Written account k { c with pc := pc }) (hended : pc ≠ .ended) :
    Inv parent name account disk₀ (s.attempt p c (chownServiceFile account path user permitted s.disk) pc) := by
  unfold chownServiceFile at hwritten ⊢
  cases account with
  | none => exact h.goto hc hpc (hwritten _ rfl) hended
  | some owner =>
    dsimp only at hwritten ⊢
    split at hwritten
    · exact h.clean hc
    · split_ifs at hwritten ⊢
      · exact h.inPlace hc _ (fun x => ⟨rfl, rfl, Or.inl rfl, Or.inr rfl⟩) hpc (hwritten _ rfl) hended
      · exact h.clean hc
      · exact h.goto hc hpc (hwritten _ rfl) hended

/-- The temporary file is handed to the service account before it is given its name. -/
theorem Inv.handed {s : State} (h : Inv parent name account disk₀ s) {p : ℕ} {c : Call} (hc : s.calls p = some c)
    {permitted : Bool} (hcomplete : Complete s.disk c) {k : CredentialsDisk}
    (hk : chownServiceFile account c.temporary c.user permitted s.disk = some k) :
    Complete k c ∧ Handed account k c := by
  unfold chownServiceFile at hk
  cases account with
  | none =>
    cases hk
    exact ⟨hcomplete, fun _ owner ho => (by cases ho)⟩
  | some owner =>
    dsimp only at hk
    split at hk
    · cases hk
    · next i hi =>
      have hinode : i = c.inode := (h.dirs s.disk.dir List.mem_cons_self).temporary p c i hc hi
      split_ifs at hk with hpermitted hroot
      · cases hk
        unfold Complete Handed Disk.fchown
        rw [hinode, Disk.files_modify_self]
        exact ⟨hcomplete, fun _ _ ho => Option.some.inj ho⟩
      · cases hk
        exact ⟨hcomplete, fun hr => absurd hr hroot⟩

/-- The call writes some of its text, or syncs it. -/
theorem Inv.write {s : State} (h : Inv parent name account disk₀ s) {p : ℕ} {c : Call} (hc : s.calls p = some c) {pc : Pc}
    (hwrites : c.pc.writes = true) (f : File CodePoint Owner → File CodePoint Owner)
    (hmode : ∀ x, (f x).mode = x.mode ∧ (f x).owner = x.owner)
    (hwritten : Written account (s.disk.modify c.inode f) { c with pc := pc })
    (hended : pc ≠ .ended) : Inv parent name account disk₀ ({ s with disk := s.disk.modify c.inode f }.goto p c pc) := by
  have hne : ∀ i, i ≠ c.inode ∨ c.pc.writes = false → i ≠ c.inode := by
    rintro i (hi | hi)
    · exact hi
    · rw [hwrites] at hi
      cases hi
  have hsame : ∀ i, ((s.disk.modify c.inode f).files i).mode = (s.disk.files i).mode ∧
      ((s.disk.modify c.inode f).files i).owner = (s.disk.files i).owner := by
    intro i
    by_cases hi : i = c.inode
    · subst hi
      rw [Disk.files_modify_self]
      exact hmode _
    · rw [Disk.files_modify_of_ne _ hi]
      exact ⟨rfl, rfl⟩
  refine h.advance hc (k := s.disk.modify c.inode f) rfl (fun i hi => ?_) (fun i => Or.inl (hsame i).1)
    (fun i => Or.inl (hsame i).2) (fun hw => by rw [hwrites] at hw; cases hw) hwritten (fun _ hd => Or.inl hd) (fun he => absurd he hended)
    (fun _ _ hn => hn)
  rw [Disk.files_modify_of_ne _ (hne i hi)]
  exact ⟨rfl, rfl⟩

theorem mem_dirs (k : CredentialsDisk) : k.dir ∈ k.dirs := List.mem_cons_self

/-- The temporary file gets the name of the destination. -/
theorem Inv.replace {s : State} (h : Inv parent name account disk₀ s) {p : ℕ} {c : Call} (hc : s.calls p = some c)
    (hpc : c.pc = .replacing) {i : ℕ} (hi : s.disk.dir c.temporary = some i) :
    Inv parent name account disk₀
      ({ s with disk := s.disk.rename c.temporary (destination parent name) }.goto p c .replaced) := by
  have hdir := h.dirs s.disk.dir (mem_dirs _)
  have hinode : i = c.inode := hdir.temporary p c i hc hi
  have hcomplete : Complete s.disk c ∧ Handed account s.disk c := by
    have hw := (h.call p c hc).written
    unfold Written at hw
    rw [hpc] at hw
    exact hw
  have hne := h.temporary_ne hc
  have hold : ∀ n, n ≠ destination parent name → n ≠ c.temporary →
      (s.disk.rename c.temporary (destination parent name)).dir n = s.disk.dir n := by
    intro n hn hn'
    show Function.update (Function.update _ _ _) _ _ n = _
    rw [Function.update_of_ne hn, Function.update_of_ne hn']
  have htemporary : (s.disk.rename c.temporary (destination parent name)).dir c.temporary = none := by
    show Function.update (Function.update _ _ _) _ _ c.temporary = _
    rw [Function.update_of_ne hne, Function.update_self]
  have hdestination : (s.disk.rename c.temporary (destination parent name)).dir (destination parent name) =
      some i := by
    show Function.update _ _ _ _ = _
    rw [Function.update_self, hi]
  refine h.advance hc (k := s.disk.rename c.temporary (destination parent name)) rfl (fun _ _ => ⟨rfl, rfl⟩)
    (fun _ => Or.inl rfl) (fun _ => Or.inl rfl) (fun _ => rfl) hcomplete (fun d hd => ?_) (fun he => (by cases he)) (fun n hn hnone => ?_)
  · rcases List.mem_cons.mp hd with rfl | hd
    · refine Or.inr ⟨fun q c' j hq hj => ?_, fun n hn hn' => ?_, fun j hj => ?_, fun _ => ?_⟩
      · by_cases hq' : c'.temporary = c.temporary
        · rw [hq', htemporary] at hj
          cases hj
        · rw [hold _ (h.temporary_ne hq) hq'] at hj
          exact hdir.temporary q c' j hq hj
      · rw [hold n hn (hn' p c hc)]
        exact hdir.other n hn hn'
      · rw [hdestination] at hj
        cases hj
        exact Or.inr ⟨p, c, hc, hinode.symm, by rw [hpc]; rfl, hcomplete⟩
      · rw [hdestination]
        rfl
    · exact Or.inl hd
  · by_cases hn' : n = c.temporary
    · rw [hn', htemporary]
    · rw [hold n hn hn', hnone]

/-- The `finally` clause removes the temporary name. -/
theorem Inv.unlink {s : State} (h : Inv parent name account disk₀ s) {p : ℕ} {c : Call} (hc : s.calls p = some c) :
    Inv parent name account disk₀ ({ s with disk := s.disk.unlink c.temporary }.goto p c .ended) := by
  have hdir := h.dirs s.disk.dir (mem_dirs _)
  have hne := h.temporary_ne hc
  have hold : ∀ n, n ≠ c.temporary → (s.disk.unlink c.temporary).dir n = s.disk.dir n :=
    fun n hn => Function.update_of_ne hn _ _
  have htemporary : (s.disk.unlink c.temporary).dir c.temporary = none := Function.update_self _ _ _
  refine h.advance hc (k := s.disk.unlink c.temporary) rfl (fun _ _ => ⟨rfl, rfl⟩) (fun _ => Or.inl rfl)
    (fun _ => Or.inl rfl) (fun _ => rfl) trivial (fun d hd => ?_) (fun _ => htemporary) (fun n hn hnone => ?_)
  · rcases List.mem_cons.mp hd with rfl | hd
    · refine Or.inr ⟨fun q c' j hq hj => ?_, fun n hn hn' => ?_, fun j hj => ?_, fun hp => ?_⟩
      · by_cases hq' : c'.temporary = c.temporary
        · rw [hq', htemporary] at hj
          cases hj
        · rw [hold _ hq'] at hj
          exact hdir.temporary q c' j hq hj
      · rw [hold n (hn' p c hc)]
        exact hdir.other n hn hn'
      · rw [hold _ hne.symm] at hj
        exact hdir.complete j hj
      · rw [hold _ hne.symm]
        exact hdir.present hp
    · exact Or.inl hd
  · by_cases hn' : n = c.temporary
    · rw [hn', htemporary]
    · rw [hold n hn', hnone]

/-- The system call a call is at succeeds. -/
theorem Inv.turn {s : State} (h : Inv parent name account disk₀ s) {p : ℕ} {c : Call} (hc : s.calls p = some c)
    (written : ℕ) (permitted : Bool) :
    Inv parent name account disk₀ (CredentialsFile.turn parent name account s p c written permitted) := by
  have hw := (h.call p c hc).written
  unfold CredentialsFile.turn
  unfold Written at hw
  generalize hpc : c.pc = pc at hw ⊢
  cases pc with
  | opened =>
    refine h.inPlace hc c.inode (fun x => ⟨rfl, rfl, Or.inr rfl, Or.inl rfl⟩)
      (fun he => (by rw [hpc] at he; cases he)) ?_ (by simp)
    show ((s.disk.modify c.inode _).files c.inode).content ++ _ = _
    rw [Disk.files_modify_self, hw, List.nil_append]
  | writing rest =>
    cases rest with
    | nil =>
      refine h.write hc (by rw [hpc]; rfl) _ (fun _ => ⟨rfl, rfl⟩) ?_ (by simp)
      have hall : (s.disk.files c.inode).content = writeCredentials c.credentials := by
        rw [← hw, List.append_nil]
      show Complete _ _
      unfold Complete
      rw [Disk.files_modify_self]
      exact ⟨hall, hall⟩
    | cons x rest =>
      refine h.write hc (by rw [hpc]; rfl) _ (fun _ => ⟨rfl, rfl⟩) ?_ (by simp)
      show ((s.disk.modify c.inode _).files c.inode).content ++ _ = _
      rw [Disk.files_modify_self, List.append_assoc, List.take_append_drop]
      exact hw
  | chowning =>
    exact h.chown hc c.temporary c.user permitted (fun _ => rfl) (fun k hk => h.handed hc hw hk) (by simp)
  | replacing =>
    generalize hi : s.disk.dir c.temporary = i
    cases i with
    | none => exact h.clean hc
    | some i => exact h.replace hc hpc hi
  | replaced =>
    generalize s.disk.dir (destination parent name) = i
    cases i with
    | none => exact h.clean hc
    | some i =>
      have hkept : Written account (s.disk.fchmod i 0o600) { c with pc := .rechowning } :=
        Written.fchmod (c := { c with pc := .rechowning }) hw i 0o600
      exact h.inPlace hc i (fun x => ⟨rfl, rfl, Or.inr rfl, Or.inl rfl⟩) (fun _ => rfl) hkept (by simp)
  | rechowning => exact h.chown hc _ c.user permitted (fun _ => rfl) (fun _ _ => trivial) (by simp)
  | cleaning => exact h.unlink hc
  | ended => exact h
  | killed => exact h

/-- A call begins with a file of its own. -/
theorem Inv.create {s : State} (h : Inv parent name account disk₀ s) {p : ℕ} (hp : s.calls p = none)
    (credentials : EngineCredentials) (user : Owner) {drawn : PyStr} (hdrawn : drawn ∉ s.random)
    (hfree : s.disk.dir (temporaryName parent name drawn) = none) : Inv parent name account disk₀
      { disk := s.disk.create (temporaryName parent name drawn) 0o600 user
        calls := Function.update s.calls p
          (some ⟨credentials, user, temporaryName parent name drawn, s.disk.next, .opened⟩)
        random := drawn :: s.random } := by
  generalize hc : (⟨credentials, user, temporaryName parent name drawn, s.disk.next, .opened⟩ : Call) = c
  generalize ht : (⟨s.disk.create (temporaryName parent name drawn) 0o600 user, Function.update s.calls p (some c),
    drawn :: s.random⟩ : State) = t
  have hupdate : t.calls = Function.update s.calls p (some c) := by rw [← ht]
  have hcalls : ∀ q c', t.calls q = some c' → (q = p ∧ c' = c) ∨ (q ≠ p ∧ s.calls q = some c') := by
    intro q c' hq
    rw [hupdate] at hq
    by_cases hqp : q = p
    · subst hqp
      rw [Function.update_self] at hq
      exact Or.inl ⟨rfl, (Option.some.inj hq).symm⟩
    · rw [Function.update_of_ne hqp] at hq
      exact Or.inr ⟨hqp, hq⟩
  have hkept : ∀ q c', s.calls q = some c' → t.calls q = some c' := by
    intro q c' hq
    have hqp : q ≠ p := by
      rintro rfl
      cases hp.symm.trans hq
    rw [hupdate, Function.update_of_ne hqp, hq]
  have hnew : t.calls p = some c := by rw [hupdate, Function.update_self]
  have hfiles : ∀ i, i < s.disk.next → t.disk.files i = s.disk.files i := by
    intro i hi
    rw [← ht]
    exact Function.update_of_ne (Nat.ne_of_lt hi) _ _
  have hfresh : ∀ q c', s.calls q = some c' → c'.inode < s.disk.next ∧ c'.temporary ≠ c.temporary := by
    intro q c' hq
    refine ⟨(h.call q c' hq).used, fun he => ?_⟩
    obtain ⟨r, hr, hname⟩ := h.drawn q c' hq
    rw [hname, ← hc] at he
    exact hdrawn (temporaryName_injective he ▸ hr)
  have hhanded : ∀ c' : Call, c'.inode < s.disk.next → Handed account s.disk c' → Handed account t.disk c' := by
    intro c' hi hh
    unfold Handed
    rw [hfiles _ hi]
    exact hh
  -- the drawn name has led nowhere in any directory
  have hnever : ∀ d ∈ s.disk.dirs, d c.temporary = none := by
    intro d hd
    have hn : c.temporary ≠ destination parent name := by
      rw [← hc]
      exact temporaryName_ne drawn
    have hother : ∀ q c', s.calls q = some c' → c.temporary ≠ c'.temporary := fun q c' hq =>
      (hfresh q c' hq).2.symm
    rw [(h.dirs d hd).other _ hn hother, ← (h.dirs _ (mem_dirs _)).other _ hn hother, ← hc]
    exact hfree
  have hdirs : ∀ d ∈ s.disk.dirs, DirInv parent name account disk₀ t d := by
    intro d hd
    have hdir := h.dirs d hd
    refine ⟨fun q c' i hq hi => ?_, fun n hn hother => ?_, fun i hi => ?_, hdir.present⟩
    · rcases hcalls q c' hq with ⟨-, rfl⟩ | ⟨-, hq'⟩
      · rw [hnever d hd] at hi
        cases hi
      · exact hdir.temporary q c' i hq' hi
    · exact hdir.other n hn fun q c' hq => hother q c' (hkept q c' hq)
    · refine (hdir.complete i hi).imp_right ?_
      rintro ⟨q, c', hq, hi', hw, hcomplete, hh⟩
      refine ⟨q, c', hkept q c' hq, hi', hw, ?_, hhanded c' (hfresh q c' hq).1 hh⟩
      unfold Complete
      rw [hfiles _ (hfresh q c' hq).1]
      exact hcomplete
  have hdir := hdirs _ (mem_dirs s.disk)
  refine ⟨fun q c' hq => ?_, fun q r c' c'' hq hr hne => ?_, fun q c' hq => ?_, ?_, fun i hi => ?_, fun d hd => ?_,
    fun q c' hq hended => ?_⟩
  · rcases hcalls q c' hq with ⟨-, rfl⟩ | ⟨-, hq'⟩
    · rw [← ht, ← hc]
      refine ⟨h.bound, Nat.lt_succ_self _, ?_, ?_⟩
      · show ((s.disk.create _ 0o600 user).files s.disk.next).mode = _
        rw [Disk.files_create_self]
      · show ((s.disk.create _ 0o600 user).files s.disk.next).content = _
        rw [Disk.files_create_self]
    · have hci := h.call q c' hq'
      refine ⟨hci.own, ?_, by rw [hfiles _ hci.used]; exact hci.mode, ?_⟩
      · rw [← ht]
        exact Nat.lt_succ_of_lt hci.used
      · have hsame := hfiles _ hci.used
        exact hci.written.transfer (congrArg File.content hsame) (congrArg File.synced hsame) (hhanded c' hci.used)
  · have hnext : c.inode = s.disk.next := by rw [← hc]
    rcases hcalls q c' hq with ⟨rfl, rfl⟩ | ⟨-, hq'⟩ <;> rcases hcalls r c'' hr with ⟨rfl, rfl⟩ | ⟨-, hr'⟩
    · exact absurd rfl hne
    · obtain ⟨hi, hn⟩ := hfresh r c'' hr'
      exact ⟨by omega, hn.symm⟩
    · obtain ⟨hi, hn⟩ := hfresh q c' hq'
      exact ⟨by omega, hn⟩
    · exact h.apart q r c' c'' hq' hr' hne
  · rw [← ht]
    rcases hcalls q c' hq with ⟨-, rfl⟩ | ⟨-, hq'⟩
    · exact ⟨drawn, List.mem_cons_self, by rw [← hc]⟩
    · obtain ⟨r, hr, hname⟩ := h.drawn q c' hq'
      exact ⟨r, List.mem_cons_of_mem _ hr, hname⟩
  · rw [← ht]
    exact Nat.le_succ_of_le h.bound
  · rw [hfiles i (lt_of_lt_of_le hi h.bound)]
    exact h.former i hi
  · rw [← ht] at hd
    rcases List.mem_cons.mp hd with rfl | hd
    · have hold : ∀ n, n ≠ c.temporary →
          (s.disk.create (temporaryName parent name drawn) 0o600 user).dir n = s.disk.dir n := by
        intro n hn
        rw [← hc] at hn
        exact Disk.dir_create_of_ne s.disk hn 0o600 user
      have hn : destination parent name ≠ c.temporary := by
        rw [← hc]
        exact (temporaryName_ne drawn).symm
      refine ⟨fun q c' i hq hi => ?_, fun n hn hother => ?_, fun i hi => ?_, fun hpresent => ?_⟩
      · rcases hcalls q c' hq with ⟨-, rfl⟩ | ⟨-, hq'⟩
        · rw [← hc] at hi ⊢
          have hself := Disk.dir_create_self s.disk (temporaryName parent name drawn) 0o600 user
          exact (Option.some.inj (hself.symm.trans hi)).symm
        · refine hdir.temporary q c' i hq ?_
          rw [← hold _ (hfresh q c' hq').2]
          exact hi
      · exact (hold n (hother p c hnew)).trans (hdir.other n hn hother)
      · exact hdir.complete i ((hold _ hn).symm.trans hi)
      · exact (congrArg Option.isSome (hold _ hn)).trans (hdir.present hpresent)
    · exact hdirs d hd
  · rcases hcalls q c' hq with ⟨-, rfl⟩ | ⟨-, hq'⟩
    · rw [← hc] at hended
      cases hended
    · rw [← ht]
      have hne := (hfresh q c' hq').2
      rw [← hc] at hne
      exact (Disk.dir_create_of_ne s.disk hne 0o600 user).trans (h.gone q c' hq' hended)

/-- The power is lost, and all calls with it. -/
theorem Inv.powerLoss {s : State} (h : Inv parent name account disk₀ s) (age : ℕ) (torn : ℕ → PyStr) :
    Inv parent name account disk₀ { s with
      disk := s.disk.powerLoss age torn
      calls := fun p => (s.calls p).map fun c => { c with pc := .killed } } := by
  generalize ht : (⟨s.disk.powerLoss age torn, fun p => (s.calls p).map fun c => { c with pc := .killed },
    s.random⟩ : State) = t
  have hcalls : ∀ p c, t.calls p = some c → ∃ c', s.calls p = some c' ∧ c = { c' with pc := .killed } := by
    intro p c hc
    rw [← ht] at hc
    obtain ⟨c', hc', rfl⟩ := Option.map_eq_some_iff.mp hc
    exact ⟨c', hc', rfl⟩
  have hcont : Continues account s t := by
    refine ⟨fun p c hc => ?_, fun p c hc => ?_⟩
    · obtain ⟨c', hc', rfl⟩ := hcalls p c hc
      exact ⟨c', hc', rfl, rfl⟩
    · refine ⟨{ c with pc := .killed }, ?_, rfl, rfl, fun hs => ⟨rfl, ?_, ?_⟩⟩
      · rw [← ht]
        show (s.calls p).map _ = _
        rw [hc]
        rfl
      · have hsynced : (s.disk.files c.inode).content = (s.disk.files c.inode).synced :=
          hs.2.1.1.trans hs.2.1.2.symm
        rw [← ht]
        unfold Complete
        rw [Disk.files_powerLoss hsynced]
        exact hs.2.1
      · rw [← ht]
        intro hroot owner ho
        rw [Disk.owner_powerLoss]
        exact hs.2.2 hroot owner ho
  refine ⟨fun p c hc => ?_, fun p q c c' hc hc' hne => ?_, fun p c hc => ?_, ?_, fun i hi => ?_, fun d hd => ?_,
    fun p c hc hended => ?_⟩
  · obtain ⟨c', hc', rfl⟩ := hcalls p c hc
    have hci := h.call p c' hc'
    rw [← ht]
    exact ⟨hci.own, hci.used, (Disk.mode_powerLoss _ _ _ _).trans hci.mode, trivial⟩
  · obtain ⟨d, hd, rfl⟩ := hcalls p c hc
    obtain ⟨d', hd', rfl⟩ := hcalls q c' hc'
    exact h.apart p q d d' hd hd' hne
  · obtain ⟨c', hc', rfl⟩ := hcalls p c hc
    rw [← ht]
    exact h.drawn p c' hc'
  · rw [← ht]
    exact h.bound
  · obtain ⟨hf, hf'⟩ := h.former i hi
    rw [← ht, Disk.files_powerLoss (hf.trans hf'.symm)]
    exact ⟨hf, hf'⟩
  · rw [← ht] at hd
    exact (h.dirs d (Disk.dirs_powerLoss _ _ _ d hd)).continues hcont
  · obtain ⟨c', hc', rfl⟩ := hcalls p c hc
    cases hended

theorem Inv.raised {s : State} (h : Inv parent name account disk₀ s) {p : ℕ} {c : Call} (hc : s.calls p = some c) :
    Inv parent name account disk₀ (CredentialsFile.raised s p c) := by
  unfold CredentialsFile.raised
  split
  · exact h.goto hc (fun _ => rfl) trivial (by simp)
  · exact h
  · exact h
  · exact h.clean hc

/-- Every action keeps the invariant. -/
theorem Inv.step {s : State} (h : Inv parent name account disk₀ s) (act : Action) :
    Inv parent name account disk₀ (CredentialsFile.step parent name account s act) := by
  cases act with
  | call p credentials user drawn =>
    simp only [CredentialsFile.step]
    split_ifs with hnew
    · exact h.create (Option.isNone_iff_eq_none.mp hnew.1) credentials user hnew.2.1 hnew.2.2
    · exact h
  | turn p written permitted =>
    simp only [CredentialsFile.step]
    split
    · next c hc => exact h.turn hc written permitted
    · exact h
  | raised p =>
    simp only [CredentialsFile.step]
    split
    · next c hc => exact h.raised hc
    · exact h
  | kill p =>
    simp only [CredentialsFile.step]
    split
    · next c hc =>
      split_ifs
      · exact h
      · exact h.goto hc (fun _ => rfl) trivial (by simp)
    · exact h
  | powerLoss age torn => exact h.powerLoss age torn

/-! ### Every moment of every run -/

/-- The disk before the first call: what there is has been synced. -/
structure Settled (disk₀ : CredentialsDisk) : Prop where
  past : disk₀.past = []
  synced : ∀ i, (disk₀.files i).synced = (disk₀.files i).content

theorem inv_init (hsettled : Settled disk₀) : Inv parent name account disk₀ (State.init disk₀) := by
  refine ⟨fun p c hc => (by cases hc), fun p q c c' hc => (by cases hc), fun p c hc => (by cases hc), le_rfl,
    fun i _ => ⟨rfl, hsettled.synced i⟩, fun d hd => ?_, fun p c hc => (by cases hc)⟩
  have hd' : d = disk₀.dir := by
    have hmem : d ∈ disk₀.dir :: disk₀.past := hd
    rw [hsettled.past] at hmem
    exact List.mem_singleton.mp hmem
  subst hd'
  exact ⟨fun p c i hc => (by cases hc), fun _ _ _ => rfl, fun i hi => Or.inl hi, id⟩

variable (parent name account disk₀)

/-- The file is there if it was there before, and it has its former text, or the whole text of one call, for its
owner only, and for the service account if the superuser wrote it. -/
structure Whole (s : State) : Prop where
  present : (disk₀.lookup (destination parent name)).isSome → (s.disk.lookup (destination parent name)).isSome
  text : ∀ f, s.disk.lookup (destination parent name) = some f →
    (∃ f₀, disk₀.lookup (destination parent name) = some f₀ ∧ f.content = f₀.content) ∨
    ∃ p c, s.calls p = some c ∧ f.content = writeCredentials c.credentials ∧ f.mode = 0o600 ∧
      (c.user.1 = 0 → ∀ owner, account = some owner → f.owner = owner)

/-- The file of every call is open to its owner only. -/
def Private (s : State) : Prop := ∀ p c, s.calls p = some c → (s.disk.files c.inode).mode = 0o600

/-- A call that has returned or raised has left no temporary file. -/
def Tidy (s : State) : Prop := ∀ p c, s.calls p = some c → c.pc = .ended → s.disk.dir c.temporary = none

variable {parent name account disk₀}

theorem Inv.whole {s : State} (h : Inv parent name account disk₀ s) :
    Whole parent name account disk₀ s := by
  have hdir := h.dirs s.disk.dir (mem_dirs _)
  refine ⟨fun hp => ?_, fun f hf => ?_⟩
  · rw [Disk.lookup, Option.isSome_map] at hp ⊢
    exact hdir.present hp
  · obtain ⟨i, hi, rfl⟩ := Option.map_eq_some_iff.mp hf
    rcases hdir.complete i hi with hi₀ | ⟨p, c, hc, rfl, -, hcomplete, hh⟩
    · refine Or.inl ⟨disk₀.files i, ?_, ?_⟩
      · rw [Disk.lookup, hi₀]
        rfl
      · exact (h.former i (disk₀.used disk₀.dir List.mem_cons_self _ i hi₀)).1
    · exact Or.inr ⟨p, c, hc, hcomplete.1, (h.call p c hc).mode, hh⟩

end Machine

/-! ### A registration and an interrupted refresh -/

/-- A directory with no file in it. -/
def emptyDisk : CredentialsDisk := ⟨fun _ => ⟨[], [], 0, (0, 0)⟩, 0, fun _ => none, [], by simp⟩

theorem settled_emptyDisk : Settled emptyDisk := ⟨rfl, fun _ => rfl⟩

def firstCredentials : EngineCredentials :=
  ⟨py "00000000-0000-4000-8000-000000000001", py "secret", py "jwt", py "2030-01-01", none, none⟩

/-- The superuser registers; then a refresh of the service is killed after a part of its text. -/
def refreshKilled : List Action :=
  .call 0 firstCredentials (0, 0) (py "a") :: .turn 0 0 true :: .turn 0 1000 true ::
    List.replicate 6 (.turn 0 0 true) ++
  [.call 1 { firstCredentials with sessionJwt := py "new" } (990, 990) (py "b"), .turn 1 0 true,
    .turn 1 10 true, .kill 1, .powerLoss 0 fun _ => []]

theorem refreshKilled_file :
    (((run (step (py "/etc/") (py "c.toml") (some (990, 990))) (State.init emptyDisk) refreshKilled).disk.lookup
      (py "/etc/c.toml")).map fun f => (f.content, f.mode, f.owner)) =
    some (writeCredentials firstCredentials, 0o600, (990, 990)) := by
  decide +kernel

end BuildEngine.Agent.CredentialsFile
