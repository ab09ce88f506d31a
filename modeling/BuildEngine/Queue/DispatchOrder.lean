import BuildEngine.Queue.LeaseSelection
import BuildEngine.Queue.StateMachine

/-! # The queue after an interruption

Whatever has happened to the engine, an attempt whose row is not terminal is `QUEUED` or has a lease that runs
out (`Expires`), so that once the leases have run out `acquire_lease` finds every live attempt. Calls of
`acquire_lease` in a row then hand the attempts out one by one: each call takes the head of one and the same list
(`waiting`), which is sorted by creation time, and leaves the tail. -/

namespace BuildEngine.Queue.DispatchOrder

open BuildEngine.Base BuildEngine.Base.Json BuildEngine.Base.Run BuildEngine.Agent.Protocol
open BuildEngine.Queue.Schema BuildEngine.Queue BuildEngine.Queue.Store BuildEngine.Queue.Ops
open BuildEngine.Queue.StateMachine BuildEngine.Queue.LeaseSelection

/-- A call of `acquire_lease`, with its clock reading and the token it draws. -/
structure Acquire where
  now : Instant
  token : PyStr
  owner : PyStr
  timeout : ℤ

namespace Acquire

def op (c : Acquire) : Op := .acquireLease c.now c.token c.owner c.timeout

def stamp (c : Acquire) : Stamp := formatDatetime c.now

/-- When the lease the call gives runs out. -/
def expiry (c : Acquire) : Stamp := formatDatetime (c.now + seconds c.timeout)

/-- The row the call leaves when it leases the row. -/
def lease (c : Acquire) (r : JobRow) : JobRow := leaseRow c.owner c.token c.expiry c.stamp r

end Acquire

/-- The attempt whose record the call returns. -/
def returned (s : Store) (c : Acquire) : Option PyStr :=
  match (s.acquireLease c.now c.token c.owner c.timeout).1 with
  | .ok (some job) => some job.attemptId
  | _ => none

/-- What calls in a row return. -/
def dispatched : List Acquire → Store → List (Option PyStr)
  | [], _ => []
  | c :: cs, s => returned s c :: dispatched cs (apply s c.op)

/-- The store after calls in a row. -/
def after (calls : List Acquire) (s : Store) : Store := run apply s (calls.map Acquire.op)

/-- The rows that satisfy `p` without a cancellation request, `ORDER BY created_at, attempt_id`. -/
def waiting (p : JobRow → Bool) (s : Store) : List JobRow :=
  s.db.jobs.select (fun r => p r && !r.cancelRequested) leaseOrder

/-- The calls find the same rows eligible as a call at `start` would. -/
def Alike (start : Stamp) (calls : List Acquire) (s : Store) : Prop :=
  ∀ c ∈ calls, ∀ r ∈ s.db.jobs.rows, eligible c.stamp r = eligible start r

/-- No lease the calls give runs out before the last of them. -/
def Lasting (start : Stamp) (calls : List Acquire) : Prop :=
  ∀ c ∈ calls, start < c.expiry ∧ ∀ d ∈ calls, d.stamp < c.expiry

/-! ### One call -/

/-- What a call returns, and the store after it. -/
theorem acquires (s : Store) (c : Acquire) : ∃ found,
    Acquires c.now c.token c.owner c.timeout s (apply s c.op) found ∧
      returned s c = found.map (·.attemptId) := by
  obtain ⟨db, found, hloop⟩ := acquireLoop_ends (formatDatetime c.now) s.db
  obtain ⟨s', hs', hacq⟩ := acquireLease_of_loop c.token c.owner c.timeout (hloop _ (Nat.lt_succ_self _))
  have hafter : apply s c.op = s' := congrArg Prod.snd hs'
  refine ⟨found, hafter.symm ▸ hacq, ?_⟩
  rw [returned, hs']
  rcases found with _ | f
  · rfl
  · exact congrArg some (attemptId_record _ _)

theorem not_eligible_lease {now : Stamp} {c : Acquire} (h : now < c.expiry) (r : JobRow) :
    eligible now (c.lease r) = false := by
  refine not_eligible_of_unexpired rfl ?_
  rintro x ⟨⟩
  exact h

theorem not_eligible_cancelRow (now now' : Stamp) (r : JobRow) : eligible now (cancelRow now' r) = false := rfl

/-- Two rows that stand before each other are one row. -/
theorem eq_of_leaseOrder {s : Store} {a b : JobRow} (ha : a ∈ s.db.jobs.rows) (hb : b ∈ s.db.jobs.rows)
    (hab : leaseOrder a b) (hba : leaseOrder b a) : a = b := by
  by_contra hne
  have hid : a.attemptId ≠ b.attemptId := fun he => hne (Table.eq_of_mem_of_key ha hb he)
  exact not_leaseOrder_of_leaseBefore (leaseBefore_of_leaseOrder hab hid) hba

section OneCall
variable {start : Stamp} {s : Store} {c : Acquire} {found : Option JobRow}
  (h : Acquires c.now c.token c.owner c.timeout s (apply s c.op) found)
  (halike : ∀ r ∈ s.db.jobs.rows, eligible c.stamp r = eligible start r)
include h halike

/-- The call leases the head of the list. -/
theorem found_eq : found = (waiting (eligible start) s).head? := by
  show found = s.db.jobs.selectFirst _ leaseOrder
  rcases hfirst : s.db.jobs.selectFirst (fun r => eligible start r && !r.cancelRequested) leaseOrder with _ | w
  · rw [Table.selectFirst_eq_none] at hfirst
    refine h.none_iff.mpr fun r hr he => ?_
    have hnot := hfirst r hr
    rw [← halike r hr, Acquire.stamp, he] at hnot
    simpa using hnot
  · obtain ⟨hw, hwait⟩ := Table.of_selectFirst hfirst
    rw [Bool.and_eq_true, Bool.not_eq_true', ← halike w hw] at hwait
    rcases found with _ | f
    · have hc := h.none_iff.mp rfl w hw hwait.1
      rw [hwait.2] at hc; cases hc
    · obtain ⟨hf, hfe, hfc, hleast⟩ := h.selected f rfl
      have hfwait : (eligible start f && !f.cancelRequested) = true := by
        rw [← halike f hf, Bool.and_eq_true, Bool.not_eq_true']
        exact ⟨hfe, hfc⟩
      have hle : leaseOrder w f := Table.le_of_selectFirst hfirst hf hfwait
      rw [eq_of_leaseOrder hf hw (hleast w hw hwait.1 hwait.2) hle]

theorem waiting_after (hstart : start < c.expiry) :
    waiting (eligible start) (apply s c.op) = (waiting (eligible start) s).tail := by
  have hfound := found_eq h halike
  refine Table.select_eq_tail (fun a ha b hb => eq_of_leaseOrder ha hb) ?_
  show (apply s c.op).db.jobs.rows.filter _ =
    (s.db.jobs.rows.filter _).filter fun r => (waiting (eligible start) s).head? ≠ some r
  rw [← hfound, h.rows, List.filter_map, List.filter_filter]
  -- a row still waits after the call if it has waited and is not the one leased; then it is as it was
  have hkeep : ∀ r ∈ s.db.jobs.rows, ((fun r => eligible start r && !r.cancelRequested) ∘ fun r =>
      if found = some r then c.lease r else if swept c.stamp found r then cancelRow c.stamp r else r) r =
        (decide (found ≠ some r) && (eligible start r && !r.cancelRequested)) := by
    intro r hr
    simp only [Function.comp_apply]
    by_cases hf : found = some r
    · rw [if_pos hf, not_eligible_lease hstart r]
      simp [hf]
    · rw [if_neg hf]
      by_cases hs : swept c.stamp found r = true
      · have hc := (swept_iff.mp hs).2.1
        rw [if_pos hs, not_eligible_cancelRow, hc]
        simp
      · rw [if_neg hs]
        simp [hf]
  refine (congrArg (List.map _) (List.filter_congr hkeep)).trans ?_
  conv_rhs => rw [← List.map_id (List.filter _ _)]
  refine List.map_congr_left fun r hr => ?_
  obtain ⟨-, hr⟩ := List.mem_filter.mp hr
  rw [Bool.and_eq_true, Bool.and_eq_true, decide_eq_true_eq, Bool.not_eq_true'] at hr
  obtain ⟨hne, -, hc⟩ := hr
  have hs : swept (formatDatetime c.now) found r = false := by simp [swept, hc]
  rw [if_neg hne, if_neg (by simp [hs])]
  rfl

omit halike in
/-- The rows after the call. -/
theorem mem_after {r : JobRow} (hr : r ∈ (apply s c.op).db.jobs.rows) :
    r ∈ s.db.jobs.rows ∨ (∃ f, r = c.lease f) ∨ ∃ x, r = cancelRow c.stamp x := by
  rw [h.rows, List.mem_map] at hr
  obtain ⟨x, hx, hr⟩ := hr
  split_ifs at hr
  · exact Or.inr (Or.inl ⟨x, hr.symm⟩)
  · exact Or.inr (Or.inr ⟨x, hr.symm⟩)
  · exact Or.inl (hr ▸ hx)

end OneCall

/-! ### Calls in a row -/

theorem Lasting.tail {start : Stamp} {c : Acquire} {cs : List Acquire} (h : Lasting start (c :: cs)) :
    Lasting start cs := fun d hd =>
  ⟨(h d (List.mem_cons_of_mem _ hd)).1, fun e he => (h d (List.mem_cons_of_mem _ hd)).2 e (List.mem_cons_of_mem _ he)⟩

/-- The calls after the first find the same rows eligible, too. -/
theorem Alike.tail {start : Stamp} {c : Acquire} {cs : List Acquire} {s : Store} (h : Alike start (c :: cs) s)
    (hl : Lasting start (c :: cs)) : Alike start cs (apply s c.op) := by
  intro d hd r hr
  obtain ⟨found, hacq, -⟩ := acquires s c
  rcases mem_after hacq hr with hr | ⟨f, rfl⟩ | ⟨x, rfl⟩
  · exact h d (List.mem_cons_of_mem _ hd) r hr
  · obtain ⟨hstart, hlater⟩ := hl c List.mem_cons_self
    rw [not_eligible_lease hstart, not_eligible_lease (hlater d (List.mem_cons_of_mem _ hd))]
  · rfl

theorem Alike.head {start : Stamp} {c : Acquire} {cs : List Acquire} {s : Store} (h : Alike start (c :: cs) s) :
    ∀ r ∈ s.db.jobs.rows, eligible c.stamp r = eligible start r := h c List.mem_cons_self

/-- A row no call finds eligible stays. -/
theorem kept : ∀ (calls : List Acquire) {s : Store} {r : JobRow}, r ∈ s.db.jobs.rows →
    (∀ c ∈ calls, eligible c.stamp r = false) → r ∈ (after calls s).db.jobs.rows
  | [], _, _, hr, _ => hr
  | c :: cs, s, r, hr, he => by
    obtain ⟨found, hacq, -⟩ := acquires s c
    have hstay : r ∈ (apply s c.op).db.jobs.rows :=
      hacq.unchanged_of_not_eligible hr (he c List.mem_cons_self)
    exact kept cs hstay fun d hd => he d (List.mem_cons_of_mem _ hd)

/-- Each call returns the next attempt of the list, and the calls after the last one return none. -/
theorem dispatched_eq {start : Stamp} : ∀ {calls : List Acquire} {s : Store}, Alike start calls s →
    Lasting start calls → dispatched calls s =
      List.takeD calls.length ((waiting (eligible start) s).map fun r => some r.attemptId) none
  | [], _, _, _ => rfl
  | c :: cs, s, halike, hlast => by
    obtain ⟨found, hacq, hret⟩ := acquires s c
    have hhead := found_eq hacq halike.head
    have htail := waiting_after hacq halike.head (hlast c List.mem_cons_self).1
    have hrest := dispatched_eq (halike.tail hlast) hlast.tail
    rw [htail] at hrest
    rw [dispatched, hret, hhead, hrest, List.length_cons, List.takeD_succ, List.map_tail]
    congr 1
    rcases waiting (eligible start) s with _ | ⟨w, ws⟩ <;> rfl

/-- The row the `i`th call leases has its lease after all of them. -/
theorem leased_eq {start : Stamp} : ∀ {calls : List Acquire} {s : Store}, Alike start calls s → Lasting start calls →
    ∀ {i : ℕ} {c : Acquire} {r : JobRow}, calls[i]? = some c → (waiting (eligible start) s)[i]? = some r →
      c.lease r ∈ (after calls s).db.jobs.rows
  | [], _, _, _, i, c, _, hc, _ => by simp at hc
  | d :: cs, s, halike, hlast, i, c, r, hc, hr => by
    obtain ⟨found, hacq, -⟩ := acquires s d
    have hhead := found_eq hacq halike.head
    have htail := waiting_after hacq halike.head (hlast d List.mem_cons_self).1
    rcases i with _ | i
    · obtain rfl : d = c := by simpa using hc
      rw [List.head?_eq_getElem?, hr] at hhead
      have hmem := (hacq.selected r (by rw [hhead]; rfl)).mem
      have hleased : d.lease r ∈ (apply s d.op).db.jobs.rows := by
        rw [hacq.rows, List.mem_map]
        exact ⟨r, hmem, by rw [if_pos hhead]; rfl⟩
      refine kept cs hleased fun e he => not_eligible_lease ?_ r
      exact (hlast d List.mem_cons_self).2 e (List.mem_cons_of_mem _ he)
    · rw [List.getElem?_cons_succ] at hc
      refine leased_eq (halike.tail hlast) hlast.tail hc ?_
      rw [htail, List.getElem?_tail, hr]

/-- Once there is nothing left to lease, the requested cancellations are committed. -/
theorem cancelled_of_lt {start : Stamp} : ∀ {calls : List Acquire} {s : Store}, Alike start calls s →
    Lasting start calls → (waiting (eligible start) s).length < calls.length → ∀ {r : JobRow},
      r ∈ s.db.jobs.rows → eligible start r = true → r.cancelRequested = true →
        ∃ c ∈ calls, cancelRow c.stamp r ∈ (after calls s).db.jobs.rows
  | [], _, _, _, hlt, _, _, _, _ => absurd hlt (Nat.not_lt_zero _)
  | c :: cs, s, halike, hlast, hlt, r, hr, he, hc => by
    obtain ⟨found, hacq, -⟩ := acquires s c
    have hhead := found_eq hacq halike.head
    have htail := waiting_after hacq halike.head (hlast c List.mem_cons_self).1
    have hnot : found ≠ some r := by
      rintro rfl
      have hcancel := (hacq.selected r rfl).uncancelled
      rw [hc] at hcancel; cases hcancel
    by_cases hs : swept c.stamp found r = true
    · have hcancelled : cancelRow c.stamp r ∈ (apply s c.op).db.jobs.rows := by
        rw [hacq.rows, List.mem_map]
        exact ⟨r, hr, (if_neg hnot).trans (if_pos hs)⟩
      exact ⟨c, List.mem_cons_self, kept cs hcancelled fun _ _ => rfl⟩
    · -- the call has leased a row, so that there are fewer left to lease
      rw [Bool.not_eq_true] at hs
      have hfound : found ≠ none := by
        rintro rfl
        have hswept : swept c.stamp none r = true :=
          swept_iff.mpr ⟨(halike.head r hr).trans he, hc, by simp⟩
        rw [hs] at hswept; cases hswept
      have hlen : 0 < (waiting (eligible start) s).length := by
        rw [List.length_pos_iff]
        rintro hnil
        rw [hnil] at hhead
        exact hfound hhead
      have hlt' : (waiting (eligible start) (apply s c.op)).length < cs.length := by
        rw [htail, List.length_tail]
        rw [List.length_cons] at hlt
        omega
      obtain ⟨d, hd, hmem⟩ :=
        cancelled_of_lt (halike.tail hlast) hlast.tail hlt' (hacq.unchanged hr hnot hs) he hc
      exact ⟨d, List.mem_cons_of_mem _ hd, hmem⟩

/-! ### Leases run out -/

/-- The call leases no attempt by `transition`. -/
def LeasesByAcquire : Op → Prop
  | .transition _ _ state _ _ _ _ => state ≠ py "LEASED"
  | _ => True

/-- A lease runs out at some time. -/
def Expires (s : Store) : Prop :=
  ∀ a r, s.db.job? a = some r → r.state.isLeased = true → r.leaseExpiresAt.isSome = true

theorem Expires.step {s : Store} {op : Op} (hop : LeasesByAcquire op) (h : Expires s) : Expires (apply s op) := by
  intro a r' hr' hl
  have hstep := rowStep s op a
  rw [hr'] at hstep
  generalize hx : s.db.job? a = x at hstep
  cases hstep with
  | keep => exact h a r' hx hl
  | insert => cases hl
  | lease => rfl
  | cancel => cases hl
  | refresh => rfl
  | @transition now a' state error expected owner token r target ha hs hc =>
    have hlegal := (of_transitionCheck hc).2.2.2
    simp only [transitionRow] at hl ⊢
    cases target with
    | queued | succeeded | failed | cancelled | timedOut => cases hl
    | leased => exact absurd (JobState.text_of_ofText? hs).symm hop
    | running =>
      have hstate : r.state = .leased := List.mem_singleton.mp hlegal
      exact h a r hx (by rw [hstate]; rfl)
  | @requestCancel now b a' r => exact h a r hx hl
  | @cursor cfg clock e r => exact h a r hx hl
  | crash =>
    simp only [crashRow] at hl
    split_ifs at hl <;> cases hl

theorem expires_run {ops : List Op} (hops : ∀ op ∈ ops, LeasesByAcquire op) : Expires (run apply Store.empty ops) := by
  have halong : Along apply (fun _ op => LeasesByAcquire op) Store.empty ops := Along.of_forall hops
  have hempty : Expires Store.empty := fun a r hr => by cases hr
  exact Along.invariant (I := Expires) (fun s op hop h => h.step hop) ops halong hempty

/-! ### The queue -/

/-- The row is not terminal. -/
def live (r : JobRow) : Bool := !r.state.isTerminal

/-- What calls of `acquire_lease` in a row make of a store. -/
structure Dispatches (calls : List Acquire) (s : Store) : Prop where
  /-- They return the live attempts without a cancellation request once each, the oldest first, and no other. -/
  order : dispatched calls s = List.takeD calls.length ((waiting live s).map fun r => some r.attemptId) none
  /-- Each of these attempts has the lease of its call. -/
  leased : ∀ (i : ℕ) (c : Acquire) (r : JobRow), calls[i]? = some c → (waiting live s)[i]? = some r →
    (after calls s).db.job? r.attemptId = some (c.lease r)
  /-- With a call to spare, every live attempt with a cancellation request is cancelled. -/
  cancelled : (waiting live s).length < calls.length → ∀ a r, s.db.job? a = some r → live r = true →
    r.cancelRequested = true → ∃ c ∈ calls, (after calls s).db.job? a = some (cancelRow c.stamp r)
  /-- A terminal attempt stays as it is. -/
  ended : ∀ a r, s.db.job? a = some r → live r = false → (after calls s).db.job? a = some r

theorem eligible_eq_live {now : Stamp} {s : Store} (h : Expires s)
    (hlate : ∀ r ∈ s.db.jobs.rows, r.state.isLeased = true → ∀ x ∈ r.leaseExpiresAt, x ≤ now) {r : JobRow}
    (hr : r ∈ s.db.jobs.rows) : eligible now r = live r := by
  have hrow : s.db.job? r.attemptId = some r := Table.find?_of_mem hr
  rw [Bool.eq_iff_iff]
  constructor
  · intro he
    rw [live, isTerminal_of_eligible he]
    rfl
  · intro hlive
    by_cases hl : r.state.isLeased = true
    · obtain ⟨x, hx⟩ := Option.isSome_iff_exists.mp (h _ r hrow hl)
      have hle := hlate r hr hl x hx
      simp [eligible, hl, hx, hle]
    · have hq : r.state = .queued := by
        unfold live at hlive
        generalize r.state = st at hl hlive ⊢
        cases st <;> simp_all [JobState.isLeased, JobState.isTerminal]
      simp [eligible, hq]

theorem waiting_congr {p q : JobRow → Bool} {s : Store} (h : ∀ r ∈ s.db.jobs.rows, p r = q r) :
    waiting p s = waiting q s := by
  have hfilter : s.db.jobs.rows.filter (fun r => p r && !r.cancelRequested) =
      s.db.jobs.rows.filter fun r => q r && !r.cancelRequested :=
    List.filter_congr fun r hr => by rw [h r hr]
  exact congrArg (List.insertionSort leaseOrder) hfilter

/-- **The queue after an interruption.** Let any calls of the store be made, crashes and restarts among them, in
which attempts are leased by `acquire_lease` only. Once the leases they have left have run out, calls of
`acquire_lease` hand out the live attempts whose cancellation is not requested, each of them once and in the
order in which they were created, as long as their own leases last; then they return none, and every live attempt
whose cancellation is requested is cancelled. No live attempt is lost, and no terminal one comes back. -/
theorem dispatched_in_order {ops : List Op} (hops : ∀ op ∈ ops, LeasesByAcquire op) {calls : List Acquire}
    (hlate : ∀ c ∈ calls, ∀ r ∈ (run apply Store.empty ops).db.jobs.rows, r.state.isLeased = true →
      ∀ x ∈ r.leaseExpiresAt, x ≤ c.stamp)
    (hlast : ∀ c ∈ calls, ∀ d ∈ calls, d.stamp < c.expiry) :
    Dispatches calls (run apply Store.empty ops) := by
  have hexp := expires_run hops
  generalize run apply Store.empty ops = s at hlate hexp ⊢
  rcases calls with _ | ⟨c₀, cs⟩
  · exact ⟨rfl, by simp, by simp, fun a r hr _ => hr⟩
  · have hlive : ∀ c ∈ c₀ :: cs, ∀ r ∈ s.db.jobs.rows, eligible c.stamp r = live r :=
      fun c hc r hr => eligible_eq_live hexp (hlate c hc) hr
    have hstart := hlive c₀ List.mem_cons_self
    have halike : Alike c₀.stamp (c₀ :: cs) s := fun c hc r hr => (hlive c hc r hr).trans (hstart r hr).symm
    have hlasting : Lasting c₀.stamp (c₀ :: cs) := fun c hc => ⟨hlast c hc c₀ List.mem_cons_self, hlast c hc⟩
    have hwaiting : waiting (eligible c₀.stamp) s = waiting live s := waiting_congr hstart
    refine ⟨?_, fun i c r hc hr => ?_, fun hlt a r hr hl hc => ?_, fun a r hr hl => ?_⟩
    · rw [dispatched_eq halike hlasting, hwaiting]
    · rw [← hwaiting] at hr
      exact Table.find?_of_mem (leased_eq halike hlasting hc hr)
    · rw [← hwaiting] at hlt
      have hmem : r ∈ s.db.jobs.rows := Table.mem_of_find? hr
      obtain ⟨c, hcall, hrow⟩ := cancelled_of_lt halike hlasting hlt hmem ((hstart r hmem).trans hl) hc
      refine ⟨c, hcall, ?_⟩
      rw [← Db.attemptId_of_job? hr]
      exact Table.find?_of_mem hrow
    · have hmem : r ∈ s.db.jobs.rows := Table.mem_of_find? hr
      have hrow := kept (c₀ :: cs) hmem fun c hc => (hlive c hc r hmem).trans hl
      rw [← Db.attemptId_of_job? hr]
      exact Table.find?_of_mem hrow

/-- An attempt is leased and another one waits when the process dies. -/
def interrupted : List Op :=
  [.enqueue 1000 [(py "build_job_id", .str sampleBuild),
      (py "attempt_id", .str (py "00000000-0000-4000-8000-00000000000c"))],
    .enqueue 2000 samplePayload, .acquireLease 3000 (py "token-1") (py "worker-1") 120, .restart]

/-- The workers of the next process, after the lease has run out. -/
def resumed : List Acquire :=
  [⟨200000000, py "token-2", py "worker-1", 120⟩, ⟨200001000, py "token-3", py "worker-2", 120⟩,
    ⟨200002000, py "token-4", py "worker-3", 120⟩]

theorem dispatched_in_order_resumed : Dispatches resumed (run apply Store.empty interrupted) :=
  dispatched_in_order (by simp [interrupted, LeasesByAcquire]) (by decide) (by decide)

end BuildEngine.Queue.DispatchOrder
