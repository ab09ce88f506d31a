import BuildEngine.Base.Run

/-! # The reconnect loop

`BackoffPolicy` and `run_forever` of `agent/uplink.py`. The delay is capped after the power is taken, and a
power of floats raises `OverflowError` from `2 ^ 1024` on; the power is taken in the exception handler of the
loop, so the error leaves the loop. An outage of 1024 failing connections is survived, one more ends
`run_forever` (`uplink_survives_iff`). -/

namespace BuildEngine.Agent.Reconnect

open BuildEngine.Base.Run

/-- `OverflowError` -/
inductive FloatError where
  | overflow
  deriving DecidableEq

/-- `x ** n` for a float `x` whose power is exact: it raises when the result is out of range. -/
def floatPow (x : ℚ) (n : ℕ) : Except FloatError ℚ :=
  if 2 ^ 1024 ≤ |x ^ n| then .error .overflow else .ok (x ^ n)

/-- `BackoffPolicy` -/
structure BackoffPolicy where
  initialSeconds : ℚ
  multiplier : ℚ
  maxSeconds : ℚ

/-- `BackoffPolicy()` -/
def BackoffPolicy.default : BackoffPolicy := ⟨1, 2, 30⟩

/-- `delay` -/
def BackoffPolicy.delay (p : BackoffPolicy) (failures : ℕ) : Except FloatError ℚ :=
  if failures ≤ 1 then .ok p.initialSeconds
  else do
    let power ← floatPow p.multiplier (failures - 1)
    return min (p.initialSeconds * power) p.maxSeconds

/-! ### The loop -/

/-- What a turn of the loop meets: `connect_once` returns, or raises; or `stop` was called before it, or the
task is cancelled. -/
inductive Turn where
  | returned
  | raised
  | stopped
  | cancelled
  deriving DecidableEq

/-- How `run_forever` ends. -/
inductive Exit where
  | stopped
  | cancelled
  | raised (e : FloatError)
  deriving DecidableEq

/-- The loop: its counter, and the delays it has slept, each with the counter at that moment. -/
structure Loop where
  failures : ℕ
  slept : List (ℕ × ℚ)
  exit : Option Exit

/-- `run_forever` at its start. -/
def Loop.start : Loop := ⟨0, [], none⟩

/-- The handler of an exception: count it, and `_sleep_backoff`. -/
def backOff (p : BackoffPolicy) (l : Loop) : Loop :=
  match p.delay (l.failures + 1) with
  | .ok d => { l with failures := l.failures + 1, slept := l.slept ++ [(l.failures + 1, d)] }
  | .error e => { l with failures := l.failures + 1, exit := some (.raised e) }

/-- One turn of `run_forever`. -/
def runForever (p : BackoffPolicy) (l : Loop) (t : Turn) : Loop :=
  match l.exit, t with
  | some _, _ => l
  | none, .stopped => { l with exit := some .stopped }
  | none, .cancelled => { l with exit := some .cancelled }
  | none, .returned => { l with failures := 0 }
  | none, .raised => backOff p l

/-! ### The delay -/

/-- The delay that is meant: the exact power, capped. -/
def cappedDelay (n : ℕ) : ℚ := min (1 * 2 ^ (n - 1)) 30

theorem floatPow_two (n : ℕ) : floatPow 2 n = if 1024 ≤ n then .error .overflow else .ok (2 ^ n) := by
  have habs : |(2 : ℚ) ^ n| = 2 ^ n := abs_of_pos (by positivity)
  have hle : (2 : ℚ) ^ 1024 ≤ 2 ^ n ↔ 1024 ≤ n := pow_le_pow_iff_right₀ (by norm_num)
  unfold floatPow
  rw [habs]
  simp only [hle]

/-- The delay is as meant up to the failure number 1024, and raises from then on. -/
theorem delay_default {n : ℕ} (hn : 1 ≤ n) :
    BackoffPolicy.default.delay n = if n ≤ 1024 then .ok (cappedDelay n) else .error .overflow := by
  unfold BackoffPolicy.delay cappedDelay
  rcases hn.eq_or_lt with rfl | hlt
  · norm_num [BackoffPolicy.default]
  · rw [if_neg (by omega)]
    show (floatPow 2 (n - 1)).bind (fun power => .ok (min (1 * power) 30)) = _
    rw [floatPow_two]
    by_cases h : n ≤ 1024
    · rw [if_neg (by omega), if_pos h]
      rfl
    · rw [if_pos (by omega), if_neg h]
      rfl

theorem cappedDelay_le (n : ℕ) : cappedDelay n ≤ 30 := min_le_right _ _

theorem cappedDelay_mono {m n : ℕ} (h : m ≤ n) : cappedDelay m ≤ cappedDelay n := by
  have hpow : (2 : ℚ) ^ (m - 1) ≤ 2 ^ (n - 1) := pow_le_pow_right₀ (by norm_num) (by omega)
  unfold cappedDelay
  rw [one_mul, one_mul]
  exact min_le_min_right 30 hpow

/-! ### Runs of the loop -/

/-- The loop of the default policy. -/
abbrev turn : Loop → Turn → Loop := runForever BackoffPolicy.default

theorem turn_raised {l : Loop} (hl : l.exit = none) (hf : l.failures < 1024) :
    turn l .raised = { l with
      failures := l.failures + 1
      slept := l.slept ++ [(l.failures + 1, cappedDelay (l.failures + 1))] } := by
  unfold turn runForever backOff
  rw [delay_default (by omega), if_pos (by omega), hl]

theorem turn_raised_overflow {l : Loop} (hl : l.exit = none) (hf : 1024 ≤ l.failures) :
    turn l .raised = { l with failures := l.failures + 1, exit := some (.raised .overflow) } := by
  unfold turn runForever backOff
  rw [delay_default (by omega), if_neg (by omega), hl]

theorem turn_returned {l : Loop} (hl : l.exit = none) : turn l .returned = { l with failures := 0 } := by
  unfold turn runForever
  rw [hl]

theorem turn_of_exit {l : Loop} {x : Exit} (hl : l.exit = some x) (t : Turn) : turn l t = l := by
  unfold turn runForever
  rw [hl]

/-- The turns neither stop the loop nor cancel it. -/
def Undisturbed (ts : List Turn) : Prop := ∀ t ∈ ts, t = .returned ∨ t = .raised

/-- The counter is the number of failures in a row, and no turn has ended the loop. -/
def InLoop (ts : List Turn) (l : Loop) : Prop :=
  l.exit = none → l.failures ≤ 1024 ∧ Undisturbed ts ∧ List.replicate l.failures .raised <:+ ts

/-- The loop was left by an exception after 1025 failures in a row. -/
def Overflowed (ts : List Turn) (l : Loop) : Prop :=
  ∀ e, l.exit = some (.raised e) → ∃ before after,
    ts = before ++ List.replicate 1025 .raised ++ after ∧ Undisturbed before

/-- Every delay is as meant. -/
def Timed (l : Loop) : Prop := ∀ s ∈ l.slept, s.2 = cappedDelay s.1

theorem Undisturbed.concat {ts : List Turn} (h : Undisturbed ts) {t : Turn} (ht : t = .returned ∨ t = .raised) :
    Undisturbed (ts ++ [t]) := by
  intro u hu
  rcases List.mem_append.mp hu with hu | hu
  · exact h u hu
  · rw [List.mem_singleton.mp hu]
    exact ht

theorem Overflowed.concat {ts : List Turn} {l : Loop} (h : Overflowed ts l) (t : Turn) {x : Exit}
    (hl : l.exit = some x) : Overflowed (ts ++ [t]) (turn l t) := by
  rw [turn_of_exit hl]
  intro e he
  obtain ⟨before, after, rfl, hbefore⟩ := h e he
  exact ⟨before, after ++ [t], List.append_assoc _ _ _, hbefore⟩

/-- One turn. -/
theorem loop_step {ts : List Turn} {l : Loop} (hin : InLoop ts l) (hover : Overflowed ts l) (htimed : Timed l)
    (t : Turn) : InLoop (ts ++ [t]) (turn l t) ∧ Overflowed (ts ++ [t]) (turn l t) ∧ Timed (turn l t) := by
  rcases hx : l.exit with _ | x
  · obtain ⟨hf, hcalm, hsuffix⟩ := hin hx
    rcases t with _ | _ | _ | _
    · rw [turn_returned hx]
      exact ⟨fun _ => ⟨by norm_num, hcalm.concat (Or.inl rfl), by simp⟩,
        fun e he => absurd (hx.symm.trans he) (by simp), htimed⟩
    · rcases hf.lt_or_eq with hlt | heq
      · rw [turn_raised hx hlt]
        refine ⟨fun _ => ⟨hlt, hcalm.concat (Or.inr rfl), ?_⟩, fun e he => absurd (hx.symm.trans he) (by simp), ?_⟩
        · obtain ⟨rest, hrest⟩ := hsuffix
          exact ⟨rest, by rw [List.replicate_succ', ← List.append_assoc, hrest]⟩
        · intro s hs
          rcases List.mem_append.mp hs with hs | hs
          · exact htimed s hs
          · rw [List.mem_singleton.mp hs]
      · rw [turn_raised_overflow hx heq.ge]
        refine ⟨fun hnone => (by cases hnone), fun e _ => ?_, htimed⟩
        obtain ⟨rest, hrest⟩ := hsuffix
        rw [heq] at hrest
        refine ⟨rest, [], ?_, fun u hu => hcalm u (hrest ▸ List.mem_append_left _ hu)⟩
        rw [List.append_nil, List.replicate_succ', ← List.append_assoc, hrest]
    · have hturn : turn l .stopped = { l with exit := some .stopped } := by
        unfold turn runForever
        rw [hx]
      rw [hturn]
      exact ⟨fun hnone => (by cases hnone), fun e he => (by cases he), htimed⟩
    · have hturn : turn l .cancelled = { l with exit := some .cancelled } := by
        unfold turn runForever
        rw [hx]
      rw [hturn]
      exact ⟨fun hnone => (by cases hnone), fun e he => (by cases he), htimed⟩
  · refine ⟨?_, hover.concat t hx, ?_⟩
    · rw [turn_of_exit hx]
      intro hnone
      rw [hx] at hnone
      cases hnone
    · rw [turn_of_exit hx]
      exact htimed

theorem loop_run (ts : List Turn) : InLoop ts (run turn .start ts) ∧
    Overflowed ts (run turn .start ts) ∧ Timed (run turn .start ts) := by
  induction ts using List.reverseRecOn with
  | nil => exact ⟨fun _ => ⟨by norm_num [Loop.start], by simp [Undisturbed], by simp [Loop.start]⟩,
      fun e he => (by cases he), by simp [Timed, Loop.start]⟩
  | append_singleton ts t ih =>
    rw [run_concat]
    exact loop_step ih.1 ih.2.1 ih.2.2 t

theorem exit_kept {l : Loop} {x : Exit} (hl : l.exit = some x) : ∀ ts : List Turn, run turn l ts = l
  | [] => rfl
  | t :: ts => by
    rw [run_cons, turn_of_exit hl, exit_kept hl ts]

/-- A loop that has counted `n` failures survives no more than `1024 - n` further ones in a row. -/
theorem overflow_of_replicate : ∀ (n : ℕ) {l : Loop}, l.exit = none → 1024 < l.failures + n →
    (run turn l (List.replicate n .raised)).exit = some (.raised .overflow) ∨ l.failures > 1024
  | 0, l, _, hlt => Or.inr (by omega)
  | n + 1, l, hl, hlt => by
    rw [List.replicate_succ, run_cons]
    rcases Nat.lt_or_ge l.failures 1024 with hf | hf
    · rw [turn_raised hl hf]
      rcases overflow_of_replicate n (l := { l with
        failures := l.failures + 1
        slept := l.slept ++ [(l.failures + 1, cappedDelay (l.failures + 1))] }) hl
        (by dsimp only; omega) with h | h
      · exact Or.inl h
      · dsimp only at h
        omega
    · rw [turn_raised_overflow hl hf, exit_kept rfl]
      exact Or.inl rfl

/-- A loop that nothing disturbs is still running, or was left by an exception. -/
theorem exit_of_undisturbed {ts : List Turn} (h : Undisturbed ts) :
    (run turn .start ts).exit = none ∨ (run turn .start ts).exit = some (.raised .overflow) := by
  induction ts using List.reverseRecOn with
  | nil => exact Or.inl rfl
  | append_singleton ts t ih =>
    rw [run_concat]
    rcases ih fun u hu => h u (List.mem_append_left _ hu) with hnone | hover
    · rcases h t (List.mem_append_right _ (List.mem_singleton.mpr rfl)) with rfl | rfl
      · rw [turn_returned hnone]
        exact Or.inl hnone
      · rcases Nat.lt_or_ge (run turn Loop.start ts).failures 1024 with hf | hf
        · rw [turn_raised hnone hf]
          exact Or.inl hnone
        · rw [turn_raised_overflow hnone hf]
          exact Or.inr rfl
    · rw [turn_of_exit hover]
      exact Or.inr hover

/-- There are 1025 failing connections in a row while the loop is neither stopped nor cancelled. -/
def LongOutage (ts : List Turn) : Prop :=
  ∃ before after, ts = before ++ List.replicate 1025 .raised ++ after ∧ Undisturbed before

/-- The loop was not left by an exception; every delay is the capped power for the failures counted, at
most the maximum, and does not fall as they grow. -/
structure Survives (l : Loop) : Prop where
  in_loop : ∀ e, l.exit ≠ some (.raised e)
  delay_eq : ∀ s ∈ l.slept, s.2 = min (1 * 2 ^ (s.1 - 1)) 30
  delay_le : ∀ s ∈ l.slept, s.2 ≤ 30
  delay_mono : ∀ s ∈ l.slept, ∀ t ∈ l.slept, s.1 ≤ t.1 → s.2 ≤ t.2

/-- **Outages.** Whatever `connect_once` does, the loop survives if and only if it meets no outage of 1025
failing connections in a row. -/
theorem uplink_survives_iff (ts : List Turn) : Survives (run turn .start ts) ↔ ¬ LongOutage ts := by
  obtain ⟨-, hover, htimed⟩ := loop_run ts
  constructor
  · rintro hsurvives ⟨before, after, rfl, hbefore⟩
    refine hsurvives.in_loop .overflow ?_
    rw [run_append, run_append]
    rcases exit_of_undisturbed hbefore with hnone | hoverflow
    · obtain ⟨hf, -⟩ := (loop_run before).1 hnone
      rcases overflow_of_replicate 1025 hnone (by omega) with h | h
      · rw [exit_kept h]
        exact h
      · omega
    · rw [exit_kept hoverflow, exit_kept hoverflow]
      exact hoverflow
  · intro hshort
    refine ⟨fun e he => hshort (hover e he), htimed, fun s hs => ?_, fun s hs t ht hst => ?_⟩
    · rw [htimed s hs]
      exact cappedDelay_le s.1
    · rw [htimed s hs, htimed t ht]
      exact cappedDelay_mono hst

/-- The failing connection number 1025 in a row ends `run_forever` with an `OverflowError`. -/
theorem uplink_lost : (run turn .start (List.replicate 1025 .raised)).exit = some (.raised .overflow) ∧
    ¬ Survives (run turn .start (List.replicate 1025 .raised)) := by
  have hexit : (run turn .start (List.replicate 1025 .raised)).exit = some (.raised .overflow) := by
    rcases overflow_of_replicate 1025 (l := Loop.start) rfl (by norm_num [Loop.start]) with h | h
    · exact h
    · norm_num [Loop.start] at h
  exact ⟨hexit, fun hsurvives => hsurvives.in_loop .overflow hexit⟩

end BuildEngine.Agent.Reconnect
