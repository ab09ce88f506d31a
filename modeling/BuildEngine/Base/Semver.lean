import Mathlib.Data.Prod.Lex
import Mathlib.Tactic

/-! # Ranges of versions

Versions of three numbers, in their lexicographic order, and the ranges of npm: every comparator stands for a lower
bound that belongs to it and an upper bound that does not. The bounds themselves are about any linear order:
`exists_mem_iff` says that finitely many of them have a common element exactly if every lower bound is below every
upper bound. -/

namespace BuildEngine.Base.Semver

/-! ### Half-open bounds -/

/-- From `lower` on, and below `upper` if there is one. -/
structure Bounds (α : Type*) where
  lower : α
  upper : Option α
  deriving DecidableEq

section
variable {α : Type*} [LinearOrder α]

/-- The element is within the bounds. -/
def Bounds.Mem (b : Bounds α) (v : α) : Prop := b.lower ≤ v ∧ ∀ u ∈ b.upper, v < u

instance Bounds.decidableMem (b : Bounds α) (v : α) : Decidable (b.Mem v) := inferInstanceAs (Decidable (_ ∧ _))

/-- Every lower bound is below every upper bound. -/
def Compatible (bs : List (Bounds α)) : Prop := ∀ b ∈ bs, ∀ b' ∈ bs, ∀ u ∈ b'.upper, b.lower < u

instance decidableCompatible (bs : List (Bounds α)) : Decidable (Compatible bs) :=
  inferInstanceAs (Decidable (∀ b ∈ bs, ∀ b' ∈ bs, ∀ u ∈ b'.upper, b.lower < u))

/-- **Common elements**: bounds have one if and only if they are compatible; the greatest lower bound is one. -/
theorem exists_mem_iff {bs : List (Bounds α)} (hne : bs ≠ []) :
    (∃ v, ∀ b ∈ bs, b.Mem v) ↔ Compatible bs := by
  constructor
  · rintro ⟨v, hv⟩ b hb b' hb' u hu
    exact lt_of_le_of_lt (hv b hb).1 ((hv b' hb').2 u hu)
  · intro h
    obtain ⟨b, hb, hmax⟩ := Set.exists_max_image {b | b ∈ bs} Bounds.lower (List.finite_toSet bs)
      (List.exists_mem_of_ne_nil bs hne)
    exact ⟨b.lower, fun b' hb' => ⟨hmax b' hb', fun u hu => h b hb b' hb' u hu⟩⟩

end

/-! ### Versions -/

/-- A version. -/
structure Version where
  major : ℕ
  minor : ℕ
  patch : ℕ
  deriving DecidableEq

/-- The numbers of a version, in lexicographic order. -/
def Version.key (v : Version) : ℕ ×ₗ ℕ ×ₗ ℕ := toLex (v.major, toLex (v.minor, v.patch))

theorem Version.key_injective : Function.Injective Version.key := by
  rintro ⟨a, b, c⟩ ⟨a', b', c'⟩ h
  simpa [Version.key] using h

instance Version.linearOrder : LinearOrder Version := LinearOrder.lift' Version.key Version.key_injective

theorem version_lt {a b c a' b' c' : ℕ} : Version.mk a b c < Version.mk a' b' c' ↔
    a < a' ∨ a = a' ∧ (b < b' ∨ b = b' ∧ c < c') := by
  have hkey : Version.mk a b c < Version.mk a' b' c' ↔ Version.key ⟨a, b, c⟩ < Version.key ⟨a', b', c'⟩ := Iff.rfl
  rw [hkey, Version.key, Version.key, Prod.Lex.toLex_lt_toLex, Prod.Lex.toLex_lt_toLex]

theorem version_le {a b c a' b' c' : ℕ} : Version.mk a b c ≤ Version.mk a' b' c' ↔
    a < a' ∨ a = a' ∧ (b < b' ∨ b = b' ∧ c ≤ c') := by
  rw [← not_lt, version_lt]
  omega

theorem zero_le (v : Version) : Version.mk 0 0 0 ≤ v := by
  obtain ⟨a, b, c⟩ := v
  rw [version_le]
  omega

/-! ### Comparators -/

/-- A version of one to three numbers, which stands for all versions that begin with them. -/
inductive Partial where
  | major (a : ℕ)
  | minor (a b : ℕ)
  | full (a b c : ℕ)
  deriving DecidableEq

/-- The numbers that are given. -/
def Partial.numbers : Partial → List ℕ
  | .major a => [a]
  | .minor a b => [a, b]
  | .full a b c => [a, b, c]

/-- The first version of a sub-range. -/
def Partial.first : Partial → Version
  | .major a => ⟨a, 0, 0⟩
  | .minor a b => ⟨a, b, 0⟩
  | .full a b c => ⟨a, b, c⟩

/-- The first version after a sub-range. -/
def Partial.next : Partial → Version
  | .major a => ⟨a + 1, 0, 0⟩
  | .minor a b => ⟨a, b + 1, 0⟩
  | .full a b c => ⟨a, b, c + 1⟩

/-- `^`: where the first number that is not zero changes, or the last one that is given. -/
def Partial.caretEnd : Partial → Version
  | .major a => ⟨a + 1, 0, 0⟩
  | .minor a b => if a = 0 then ⟨0, b + 1, 0⟩ else ⟨a + 1, 0, 0⟩
  | .full a b c => if a = 0 then if b = 0 then ⟨0, 0, c + 1⟩ else ⟨0, b + 1, 0⟩ else ⟨a + 1, 0, 0⟩

/-- `~`: where the minor version changes, or the major version if it is the only one that is given. -/
def Partial.tildeEnd : Partial → Version
  | .major a => ⟨a + 1, 0, 0⟩
  | .minor a b => ⟨a, b + 1, 0⟩
  | .full a b _ => ⟨a, b + 1, 0⟩

/-- The operators of comparators; `exact` is `=` or none. -/
inductive Operator where
  | exact
  | ge
  | le
  | gt
  | lt
  | caret
  | tilde
  deriving DecidableEq

/-- All versions. -/
def everything : Bounds Version := ⟨⟨0, 0, 0⟩, none⟩

/-- The versions a comparator of npm allows. -/
def Operator.bounds (op : Operator) (p : Partial) : Bounds Version :=
  match op with
  | .exact => ⟨p.first, some p.next⟩
  | .ge => ⟨p.first, none⟩
  | .le => ⟨⟨0, 0, 0⟩, some p.next⟩
  | .gt => ⟨p.next, none⟩
  | .lt => ⟨⟨0, 0, 0⟩, some p.first⟩
  | .caret => ⟨p.first, some p.caretEnd⟩
  | .tilde => ⟨p.first, some p.tildeEnd⟩

/-- The versions that begin with a number. -/
def majorBounds (m : ℕ) : Bounds Version := Operator.exact.bounds (.major m)

theorem mem_everything (v : Version) : everything.Mem v := ⟨zero_le v, by simp [everything]⟩

theorem mem_majorBounds {m : ℕ} {v : Version} : (majorBounds m).Mem v ↔ v.major = m := by
  obtain ⟨a, b, c⟩ := v
  simp only [majorBounds, Operator.bounds, Partial.first, Partial.next, Bounds.Mem, Option.mem_some_iff,
    forall_eq', version_le, version_lt]
  omega

/-- **Majors of a clause**: a conjunction of bounds allows a version of a major if and only if the bounds and those of
the major are compatible. -/
theorem exists_major_iff {m : ℕ} {bs : List (Bounds Version)} :
    (∃ minor patch, ∀ b ∈ bs, b.Mem ⟨m, minor, patch⟩) ↔ Compatible (majorBounds m :: bs) := by
  rw [← exists_mem_iff (List.cons_ne_nil _ _)]
  simp only [List.forall_mem_cons, mem_majorBounds]
  constructor
  · rintro ⟨b, c, h⟩
    exact ⟨⟨m, b, c⟩, rfl, h⟩
  · rintro ⟨⟨a, b, c⟩, rfl, h⟩
    exact ⟨b, c, h⟩

end BuildEngine.Base.Semver
