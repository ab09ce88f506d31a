import Mathlib.Tactic

/-! # Lexical paths

A path is a list of parts, `..` or a name, and a directory the list of the names from the root to it. `walk base parts`
is where the parts lead from `base`, each `..` one level up. A relative path climbs some levels and then goes down some
names (`climb`); whether it stays below a directory from which it is walked depends on these two only
(`inside_walk_iff`). -/

namespace BuildEngine.Base.LexicalPath

variable {α : Type*}

/-- A part of a path. -/
inductive PathPart (α : Type*) where
  | up
  | name (n : α)
  deriving DecidableEq

/-- One part. -/
def move (dir : List α) : PathPart α → List α
  | .up => dir.dropLast
  | .name n => dir ++ [n]

/-- Where the parts lead. -/
def walk (base : List α) (parts : List (PathPart α)) : List α := parts.foldl move base

/-- The directory or what is below it. -/
def Inside (dir path : List α) : Prop := dir <+: path

instance [DecidableEq α] (dir path : List α) : Decidable (Inside dir path) :=
  inferInstanceAs (Decidable (_ <+: _))

/-- One part of a relative path that climbs some levels and then goes down some names. -/
def climbPart (c : ℕ × List α) : PathPart α → ℕ × List α
  | .up =>
    match c.2 with
    | [] => (c.1 + 1, [])
    | n :: names => (c.1, (n :: names).dropLast)
  | .name n => (c.1, c.2 ++ [n])

/-- How many levels a relative path climbs, and the names it then goes down. -/
def climb (parts : List (PathPart α)) : ℕ × List α := parts.foldl climbPart (0, [])

theorem walk_append (base : List α) (parts parts' : List (PathPart α)) :
    walk base (parts ++ parts') = walk (walk base parts) parts' := by
  unfold walk
  rw [List.foldl_append]

/-- Names lead down. -/
theorem walk_names (base : List α) : ∀ names : List α, walk base (names.map .name) = base ++ names
  | [] => (List.append_nil base).symm
  | n :: names => by
    have hrest := walk_names (base ++ [n]) names
    rw [List.append_assoc, List.singleton_append] at hrest
    exact hrest

/-- The directory some levels up. -/
def ancestor (base : List α) (levels : ℕ) : List α := base.take (base.length - levels)

theorem dropLast_ancestor (base : List α) (levels : ℕ) : (ancestor base levels).dropLast = ancestor base (levels + 1) := by
  unfold ancestor
  rw [List.dropLast_eq_take, List.length_take, List.take_take]
  congr 1
  omega

/-- A relative path leads to an ancestor and from there down. -/
theorem walk_from (base : List α) (parts : List (PathPart α)) : ∀ c : ℕ × List α,
    walk (ancestor base c.1 ++ c.2) parts =
      ancestor base (parts.foldl climbPart c).1 ++ (parts.foldl climbPart c).2 := by
  induction parts with
  | nil => exact fun _ => rfl
  | cons p parts ih =>
    rintro ⟨levels, names⟩
    have hmove : move (ancestor base levels ++ names) p =
        ancestor base (climbPart (levels, names) p).1 ++ (climbPart (levels, names) p).2 := by
      rcases p with _ | n
      · rcases names with _ | ⟨m, names⟩
        · simp only [move, climbPart, List.append_nil]
          exact dropLast_ancestor base levels
        · simp only [move, climbPart]
          exact List.dropLast_append_of_ne_nil (List.cons_ne_nil m names)
      · simp only [move, climbPart, List.append_assoc]
    have hfirst : walk (ancestor base levels ++ names) (p :: parts) =
        walk (move (ancestor base levels ++ names) p) parts := rfl
    rw [hfirst, hmove, List.foldl_cons]
    exact ih (climbPart (levels, names) p)

theorem walk_eq_climb (base : List α) (parts : List (PathPart α)) :
    walk base parts = ancestor base (climb parts).1 ++ (climb parts).2 := by
  have hfrom := walk_from base parts (0, [])
  have hself : ancestor base 0 = base := List.take_length
  dsimp only at hfrom
  rwa [hself, List.append_nil] at hfrom

/-- **A path stays below the directory it is walked from** if it does not climb, or goes down again by the last names
of the directory. -/
theorem inside_walk_iff (dir : List α) (parts : List (PathPart α)) :
    Inside dir (walk dir parts) ↔ dir.drop (dir.length - (climb parts).1) <+: (climb parts).2 := by
  have hsplit : ancestor dir (climb parts).1 ++ dir.drop (dir.length - (climb parts).1) = dir :=
    List.take_append_drop _ dir
  rw [walk_eq_climb]
  unfold Inside
  nth_rewrite 1 [← hsplit]
  exact List.prefix_append_right_inj _

/-- A path that does not climb stays below. -/
theorem inside_of_no_climb (dir : List α) {parts : List (PathPart α)} (h : (climb parts).1 = 0) :
    Inside dir (walk dir parts) := by
  rw [inside_walk_iff, h, Nat.sub_zero, List.drop_length]
  exact List.nil_prefix

/-! ### Known directories -/

/-- The walk meets only directories that satisfy `known`. -/
def Meets (known : List α → Prop) : List α → List (PathPart α) → Prop
  | _, [] => True
  | base, p :: parts => known (move base p) ∧ Meets known (move base p) parts

theorem Meets.append {known : List α → Prop} : ∀ {parts parts' : List (PathPart α)} {base : List α},
    Meets known base parts → Meets known (walk base parts) parts' → Meets known base (parts ++ parts')
  | [], _, _, _, h => h
  | _ :: _, _, _, ⟨hfirst, hrest⟩, h => ⟨hfirst, hrest.append h⟩

/-- Names below a directory are met there. -/
theorem meets_names {known : List α → Prop} : ∀ {names base : List α},
    (∀ front back, names = front ++ back → known (base ++ front)) → Meets known base (names.map .name)
  | [], _, _ => trivial
  | n :: names, base, h => by
    refine ⟨h [n] names rfl, meets_names fun front back heq => ?_⟩
    have hknown := h (n :: front) back (by rw [heq]; rfl)
    rwa [List.append_cons] at hknown

end BuildEngine.Base.LexicalPath
