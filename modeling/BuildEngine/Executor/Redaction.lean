import BuildEngine.Base.Alignment
import BuildEngine.Executor.Stream

/-! # Redaction of one text

`SecretRedactor.redact` replaces one secret after the other in the text as it is by then. For secrets that the token
does not spell, that takes the occurrences of the secrets out of the text (`Stream.blank`) and shows a token for each
part that is taken out; so no secret is left, and the positions that no secret of the text covers are shown as they
are (`redact_hides_secrets`). -/

namespace BuildEngine.Executor.Redaction

open BuildEngine.Base BuildEngine.Executor.Stream

/-- The position of the text belongs to an occurrence of one of the secrets. -/
def Covered (secrets : List PyStr) (text : PyStr) (i : ℕ) : Prop :=
  ∃ s ∈ secrets, ∃ start, s <+: text.drop start ∧ start ≤ i ∧ i < start + s.length

/-- The parts of the text that overlap no occurrence of a secret are in what is shown: each position has a place with
the same character, positions next to each other have places next to each other, and the order is the same. -/
structure ShowsRest (secrets : List PyStr) (text shown : PyStr) (place : ℕ → ℕ) : Prop where
  same : ∀ i < text.length, ¬ Covered secrets text i → shown[place i]? = text[i]?
  neighbours : ∀ i, i + 1 < text.length → ¬ Covered secrets text i → ¬ Covered secrets text (i + 1) →
    place (i + 1) = place i + 1
  ordered : ∀ i j, i < j → j < text.length → ¬ Covered secrets text i → ¬ Covered secrets text j → place i < place j

theorem covers_of_mem {s text : PyStr} {secrets : List PyStr} (h : s ∈ secrets) :
    Covers s (Covered secrets text) text :=
  fun start hs _ hle hlt => ⟨s, h, start, hs, hle, hlt⟩

/-- Taking out secrets of the text keeps the alignment with it. -/
theorem aligned_blank {covered : ℕ → Prop} {text : PyStr} {secrets : List PyStr} {m : List (Option CodePoint)}
    (hs : ∀ s ∈ secrets, s ≠ [] ∧ Covers s covered text) (h : Aligned covered text m) :
    Aligned covered text (blank secrets m) := by
  induction secrets generalizing m with
  | nil => exact h
  | cons s secrets ih =>
    obtain ⟨hne, hcovers⟩ := hs s List.mem_cons_self
    exact ih (fun t ht => hs t (List.mem_cons_of_mem s ht)) (h.replace hne hcovers)

section Redact
variable {values : List PyStr} (r : SecretRedactor values)

theorem redact_eq_render (hplain : ∀ s ∈ values, Plain s) (text : PyStr) :
    r.redact text = render SecretRedactor.token (blank r.secrets (text.map some)) := by
  have hsecrets : ∀ s ∈ r.secrets, Plain s := fun s hs => hplain s ((r.mem_iff s).mp hs).1
  rw [render_blank hsecrets, render_map_some]
  rfl

theorem aligned_redact (text : PyStr) :
    Aligned (Covered values text) text (blank r.secrets (text.map some)) :=
  aligned_blank (fun s hs => ⟨((r.mem_iff s).mp hs).2, covers_of_mem ((r.mem_iff s).mp hs).1⟩)
    (aligned_map_some _ text)

end Redact

/-- **Redaction of a text**: no secret is in the redacted text, and what overlaps no secret is in it, unchanged and in
order. -/
theorem redact_hides_secrets (values : List PyStr) (r : SecretRedactor values) (hplain : ∀ s ∈ values, Plain s)
    (text : PyStr) :
    (∀ s ∈ values, ¬ s <:+: r.redact text) ∧ ∃ place, ShowsRest values text (r.redact text) place := by
  rw [redact_eq_render r hplain]
  constructor
  · intro s hs
    have hbracketed := (hplain s hs).bracketed
    have hmem : s ∈ r.secrets := (r.mem_iff s).mpr ⟨hs, hbracketed.nonempty⟩
    rw [infix_render_iff hbracketed]
    exact not_infix_blank hbracketed.nonempty hmem
  · obtain ⟨place, hplace⟩ := (aligned_redact r text).places SecretRedactor.token
    exact ⟨place, hplace.same, hplace.neighbours, hplace.ordered⟩

/-- A redactor of secrets that overlap and lie in each other. -/
def overlapRedactor : SecretRedactor [py "abc", py "cd", py "b"] where
  secrets := [py "abc", py "cd", py "b"]
  mem_iff s := by
    have hempty : ([] : PyStr) ∉ [py "abc", py "cd", py "b"] := by decide
    exact ⟨fun h => ⟨h, fun heq => hempty (heq ▸ h)⟩, And.left⟩
  nodup := by decide
  sorted := by decide

theorem redact_hides_overlap :
    overlapRedactor.redact (py "xabcdy b") = py "x[REDACTED]dy [REDACTED]" ∧
    (∀ s ∈ [py "abc", py "cd", py "b"], ¬ s <:+: overlapRedactor.redact (py "xabcdy b")) ∧
    ∃ place, ShowsRest [py "abc", py "cd", py "b"] (py "xabcdy b") (overlapRedactor.redact (py "xabcdy b")) place :=
  ⟨by decide +kernel, redact_hides_secrets _ overlapRedactor (by decide) _⟩

end BuildEngine.Executor.Redaction
