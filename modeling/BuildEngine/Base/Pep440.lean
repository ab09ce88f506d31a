import BuildEngine.Base.JsonRoundTrip
import BuildEngine.Base.Semver
import BuildEngine.Base.Words

/-! # Version specifiers

The version specifiers of PEP 440 for final releases: releases are compared after both are padded with zeros to one
length, and `==release.*` looks at as many numbers as it has. On releases of three numbers the specifiers are half-open
bounds. -/

namespace BuildEngine.Base.Pep440

open BuildEngine.Base BuildEngine.Base.Json BuildEngine.Base.Semver

/-- The comparisons; `starts` is `==` of a release that ends in `.*`. -/
inductive Comparison where
  | eq
  | starts
  | ge
  | le
  | gt
  | lt
  deriving DecidableEq

/-- A specifier; the numbers of its release are texts. -/
structure Specifier where
  comparison : Comparison
  release : List PyStr
  deriving DecidableEq

/-- The operator of a comparison. -/
def Comparison.text : Comparison → PyStr
  | .eq | .starts => py "=="
  | .ge => py ">="
  | .le => py "<="
  | .gt => py ">"
  | .lt => py "<"

/-- The text of a specifier. -/
def Specifier.text (spec : Specifier) : PyStr :=
  spec.comparison.text ++ join (py ".") spec.release ++ if spec.comparison = .starts then py ".*" else []

/-- The text of a set of specifiers. -/
def setText (specs : List Specifier) : PyStr := join (py ",") (specs.map Specifier.text)

/-- The text of a version. -/
def releaseText (release : List ℕ) : PyStr := join (py ".") (release.map natText)

/-- The text is a number. -/
def IsNumber (part : PyStr) : Prop := part ≠ [] ∧ part.all isDigit = true

instance decidableIsNumber (part : PyStr) : Decidable (IsNumber part) := inferInstanceAs (Decidable (_ ∧ _))

/-- The release is one or more numbers. -/
def Specifier.Formed (spec : Specifier) : Prop := spec.release ≠ [] ∧ ∀ part ∈ spec.release, IsNumber part

/-- The release with zeros after it. -/
def pad (n : ℕ) (release : List ℕ) : List ℕ := release ++ List.replicate (n - release.length) 0

/-- The release is before the other one. -/
def Before (v w : List ℕ) : Prop := pad (max v.length w.length) v < pad (max v.length w.length) w

/-- The two releases are the same version. -/
def Same (v w : List ℕ) : Prop := pad (max v.length w.length) v = pad (max v.length w.length) w

instance decidableBefore (v w : List ℕ) : Decidable (Before v w) := inferInstanceAs (Decidable (_ < _))

instance decidableSame (v w : List ℕ) : Decidable (Same v w) := inferInstanceAs (Decidable (_ = _))

/-- A version meets a specifier whose release has these numbers. -/
def Comparison.Holds (comparison : Comparison) (release v : List ℕ) : Prop :=
  match comparison with
  | .eq => Same v release
  | .starts => (pad (max v.length release.length) v).take release.length = release
  | .ge => ¬ Before v release
  | .le => ¬ Before release v
  | .gt => Before release v
  | .lt => Before v release

instance Comparison.decidableHolds (comparison : Comparison) (release v : List ℕ) :
    Decidable (comparison.Holds release v) :=
  match comparison with
  | .eq => decidableSame v release
  | .starts => inferInstanceAs (Decidable (_ = _))
  | .ge => inferInstanceAs (Decidable (¬ _))
  | .le => inferInstanceAs (Decidable (¬ _))
  | .gt => decidableBefore release v
  | .lt => decidableBefore v release

/-- A version meets a specifier. -/
def Specifier.Matches (spec : Specifier) (v : List ℕ) : Prop := spec.comparison.Holds (spec.release.map decimal) v

/-- A version meets all specifiers of a set. -/
def Satisfies (specs : List Specifier) (v : List ℕ) : Prop := ∀ spec ∈ specs, spec.Matches v

instance decidableSatisfies (specs : List Specifier) (v : List ℕ) : Decidable (Satisfies specs v) :=
  inferInstanceAs (Decidable (∀ spec ∈ specs, spec.comparison.Holds (spec.release.map decimal) v))

/-! ### Texts -/

/-- The text of a set is joined from the texts of its parts. -/
theorem join_setText : ∀ {groups : List (List Specifier)}, (∀ specs ∈ groups, specs ≠ []) →
    join (py ",") (groups.map setText) = setText groups.flatten
  | [], _ => rfl
  | [specs], _ => by simp [join]
  | specs :: specs' :: groups, h => by
    have hhead : specs ≠ [] := h specs List.mem_cons_self
    have hnext : specs' ≠ [] := h specs' (by simp)
    have hrest := join_setText fun g hg => h g (List.mem_cons_of_mem specs hg)
    have hflat : (specs' :: groups).flatten.map Specifier.text ≠ [] := by simp [hnext]
    have hall : setText (specs :: specs' :: groups).flatten =
        setText specs ++ py "," ++ setText (specs' :: groups).flatten := by
      rw [List.flatten_cons, setText, List.map_append, join_append (by simpa using hhead) hflat, setText, setText]
    rw [hall, ← hrest, List.map_cons, ← List.singleton_append, join_append (List.cons_ne_nil _ _) (by simp), join_singleton]

theorem text_ne_nil (spec : Specifier) : spec.text ≠ [] := by
  obtain ⟨comparison, release⟩ := spec
  rcases comparison <;> simp [Specifier.text, Comparison.text, py]

theorem setText_ne_nil {specs : List Specifier} (h : specs ≠ []) : setText specs ≠ [] := by
  rcases specs with _ | ⟨spec, _ | ⟨spec', specs⟩⟩
  · exact absurd rfl h
  · simpa [setText, join] using text_ne_nil spec
  · simp [setText, join, List.intercalate_cons_cons, text_ne_nil]

theorem isNumber_natText (n : ℕ) : IsNumber (natText n) := by
  have h := isWhole_natText n
  simp only [isWhole, Bool.and_eq_true, decide_eq_true_eq] at h
  exact ⟨h.1.2, h.1.1⟩

/-- A digit has the value of its place after `0`. -/
theorem decimalValue_digit {c : CodePoint} (h : isDigit c = true) : decimalValue c = some (digitVal c) := by
  have hc : 48 ≤ c.val ∧ c.val < 58 := by
    simp only [isDigit, Bool.and_eq_true, decide_eq_true_eq] at h
    omega
  rw [decimalValue, decimalZeros, List.find?_cons_of_pos (by simp [hc.1]; omega)]
  rfl

theorem isDecimal_digit {c : CodePoint} (h : isDigit c = true) : isDecimal c = true := by
  rw [isDecimal, decimalValue_digit h]
  rfl

/-- `int` of the digits `0` to `9`. -/
theorem digitsValue_digits {s : PyStr} (h : s.all isDigit = true) : digitsValue s = decimal s := by
  unfold digitsValue decimal
  refine List.foldl_ext _ _ 0 fun n c hc => ?_
  rw [decimalValue_digit (List.all_eq_true.mp h c hc), Option.getD_some]

/-! ### Releases of three numbers -/

/-- The numbers of a version. -/
def numbers (v : Version) : List ℕ := [v.major, v.minor, v.patch]

theorem before_iff {v w : Version} : Before (numbers v) (numbers w) ↔ v < w := by
  obtain ⟨a, b, c⟩ := v
  obtain ⟨a', b', c'⟩ := w
  have hlex : Before [a, b, c] [a', b', c'] ↔ [a, b, c] < [a', b', c'] := by simp [Before, pad]
  rw [numbers, numbers, hlex, version_lt]
  simp [List.cons_lt_cons_iff]

theorem same_iff {v w : Version} : Same (numbers v) (numbers w) ↔ v = w := by
  obtain ⟨a, b, c⟩ := v
  obtain ⟨a', b', c'⟩ := w
  simp [Same, numbers, pad]

theorem holds_eq {v w : Version} : Comparison.eq.Holds (numbers w) (numbers v) ↔
    (Operator.exact.bounds (.full w.major w.minor w.patch)).Mem v := by
  obtain ⟨a, b, c⟩ := v
  obtain ⟨a', b', c'⟩ := w
  simp only [Comparison.Holds, same_iff, Version.mk.injEq, Operator.bounds, Partial.first, Partial.next, Bounds.Mem,
    Option.mem_some_iff, forall_eq', version_le, version_lt]
  omega

theorem holds_ge {v w : Version} : Comparison.ge.Holds (numbers w) (numbers v) ↔ (Bounds.mk w none).Mem v := by
  simp [Comparison.Holds, before_iff, Bounds.Mem]

theorem holds_lt {v w : Version} : Comparison.lt.Holds (numbers w) (numbers v) ↔
    (Bounds.mk ⟨0, 0, 0⟩ (some w)).Mem v := by
  simp [Comparison.Holds, before_iff, Bounds.Mem, zero_le]

theorem holds_le {v w : Version} : Comparison.le.Holds (numbers w) (numbers v) ↔
    (Operator.le.bounds (.full w.major w.minor w.patch)).Mem v := by
  obtain ⟨a, b, c⟩ := v
  obtain ⟨a', b', c'⟩ := w
  simp only [Comparison.Holds, before_iff, Operator.bounds, Partial.next, Bounds.Mem, Option.mem_some_iff, forall_eq',
    version_le, version_lt]
  omega

theorem holds_gt {v w : Version} : Comparison.gt.Holds (numbers w) (numbers v) ↔
    (Operator.gt.bounds (.full w.major w.minor w.patch)).Mem v := by
  obtain ⟨a, b, c⟩ := v
  obtain ⟨a', b', c'⟩ := w
  simp only [Comparison.Holds, before_iff, Operator.bounds, Partial.next, Bounds.Mem, Option.mem_def, reduceCtorEq,
    false_implies, implies_true, and_true, version_le, version_lt]
  omega

/-- `==release.*` is the sub-range of a partial version. -/
theorem holds_starts {v : Version} {p : Partial} :
    Comparison.starts.Holds p.numbers (numbers v) ↔ (Operator.exact.bounds p).Mem v := by
  obtain ⟨a, b, c⟩ := v
  rcases p with x | ⟨x, y⟩ | ⟨x, y, z⟩ <;>
    simp [Comparison.Holds, numbers, Partial.numbers, pad, Operator.bounds, Partial.first, Partial.next, Bounds.Mem,
      version_le, version_lt] <;> omega

/-! ### Reading the texts -/

/-- The comparisons in the order they are looked for. -/
def comparisons : List Comparison := [.ge, .le, .eq, .gt, .lt]

/-- The numbers between the points. -/
def readRelease (parts : List PyStr) : Option (List PyStr) := if parts.all fun p => IsNumber p then some parts else none

/-- The specifier of a text. -/
def readSpecifier (text : PyStr) : Option Specifier :=
  (comparisons.find? fun comparison => comparison.text.isPrefixOf text).bind fun comparison =>
    let parts := splitOn (py ".") (text.drop comparison.text.length)
    if comparison = .eq ∧ parts.getLastD [] = py "*" then (readRelease parts.dropLast).map (Specifier.mk .starts)
    else (readRelease parts).map (Specifier.mk comparison)

/-- The specifiers of a text; the empty text has none. -/
def readSet (text : PyStr) : Option (List Specifier) :=
  if text = [] then some [] else (splitOn (py ",") text).mapM readSpecifier

/-- The numbers of the text of a version. -/
def readVersion (text : PyStr) : List ℕ := (splitOn (py ".") text).map decimal

theorem not_mem_of_isNumber {part : PyStr} (h : IsNumber part) {c : CodePoint} (hc : isDigit c = false) : c ∉ part := by
  intro hmem
  rw [List.all_eq_true.mp h.2 c hmem] at hc
  exact absurd hc (by simp)

theorem splitOn_release {release : List PyStr} (hne : release ≠ []) (h : ∀ part ∈ release, IsNumber part) :
    splitOn (py ".") (join (py ".") release) = release :=
  splitOn_join (ch '.') hne fun part hpart => not_mem_of_isNumber (h part hpart) (by decide)

/-- The text of a version is read back. -/
theorem readVersion_releaseText {v : List ℕ} (h : v ≠ []) : readVersion (releaseText v) = v := by
  have hsplit : splitOn (py ".") (join (py ".") (v.map natText)) = v.map natText := by
    refine splitOn_release (by simpa using h) fun part hpart => ?_
    obtain ⟨n, -, rfl⟩ := List.mem_map.mp hpart
    exact isNumber_natText n
  rw [readVersion, releaseText, hsplit, List.map_map]
  exact List.map_id'' (fun n => decimal_natText n) v

theorem readRelease_of_formed {release : List PyStr} (h : ∀ part ∈ release, IsNumber part) :
    readRelease release = some release := by
  rw [readRelease, if_pos (by simpa using h)]

/-- The comparison at the head of a text: what follows begins with a digit. -/
theorem find_comparison {comparison : Comparison} (hne : comparison ≠ .starts) {d : CodePoint} (hd : isDigit d = true)
    (rest : PyStr) : (comparisons.find? fun c => c.text.isPrefixOf (comparison.text ++ d :: rest)) = some comparison := by
  have heq : (ch '=' == d) = false := by
    rw [beq_eq_false_iff_ne]
    rintro rfl
    exact absurd hd (by decide)
  have hgl : (ch '>' == ch '<') = false := by decide
  have hge : (ch '>' == ch '=') = false := by decide
  have hle : (ch '<' == ch '=') = false := by decide
  have hlg : (ch '<' == ch '>') = false := by decide
  rcases comparison with _ | _ | _ | _ | _ | _
  · simp [comparisons, Comparison.text, py, List.isPrefixOf, hge, hle]
  · exact absurd rfl hne
  · simp [comparisons, Comparison.text, py, List.isPrefixOf]
  · simp [comparisons, Comparison.text, py, List.isPrefixOf, hgl]
  · simp [comparisons, Comparison.text, py, List.isPrefixOf, heq, hlg]
  · simp [comparisons, Comparison.text, py, List.isPrefixOf, heq, hgl]

theorem drop_text (comparison : Comparison) (rest : PyStr) :
    (comparison.text ++ rest).drop comparison.text.length = rest := List.drop_left

/-- The numbers of a release begin with a digit. -/
theorem head_release {release : List PyStr} (hne : release ≠ []) (h : ∀ part ∈ release, IsNumber part) :
    ∃ d rest, isDigit d = true ∧ join (py ".") release = d :: rest := by
  obtain ⟨part, parts, rfl⟩ := List.exists_cons_of_ne_nil hne
  obtain ⟨hpart, hdigits⟩ := h part List.mem_cons_self
  obtain ⟨d, s, rfl⟩ := List.exists_cons_of_ne_nil hpart
  have hd : isDigit d = true := List.all_eq_true.mp hdigits d List.mem_cons_self
  rcases parts with _ | ⟨part', parts⟩
  · exact ⟨d, s, hd, join_singleton _ _⟩
  · have happend := @join_append (py ".") [d :: s] (part' :: parts) (List.cons_ne_nil _ _) (List.cons_ne_nil _ _)
    rw [join_singleton, List.append_assoc] at happend
    exact ⟨d, _, hd, happend⟩

/-- A well-formed specifier is read back. -/
theorem readSpecifier_text {spec : Specifier} (h : spec.Formed) : readSpecifier spec.text = some spec := by
  obtain ⟨comparison, release⟩ := spec
  obtain ⟨hne, hparts⟩ := h
  obtain ⟨d, rest, hd, hhead⟩ := head_release hne hparts
  have hsplit := splitOn_release hne hparts
  have hlast : release.getLastD [] ≠ py "*" := by
    intro hstar
    have hmem : release.getLastD [] ∈ release := by
      rw [List.getLastD_eq_getLast?, List.getLast?_eq_some_getLast hne, Option.getD_some]
      exact List.getLast_mem hne
    rw [hstar] at hmem
    exact absurd (hparts _ hmem) (by decide)
  by_cases hstarts : comparison = .starts
  · subst hstarts
    have hstar : splitOn (py ".") (join (py ".") release ++ py ".*") = release ++ [py "*"] := by
      have hjoin := @join_append (py ".") release [py "*"] hne (List.cons_ne_nil _ _)
      rw [join_singleton, List.append_assoc] at hjoin
      have hparts' : ∀ part ∈ release ++ [py "*"], ch '.' ∉ part := by
        intro part hpart
        rcases List.mem_append.mp hpart with hpart | hpart
        · exact not_mem_of_isNumber (hparts part hpart) (by decide)
        · rw [List.mem_singleton.mp hpart]
          decide
      have hdots : py ".*" = py "." ++ py "*" := by decide
      rw [hdots, ← hjoin]
      exact splitOn_join (ch '.') (by simp) hparts'
    have hfind := @find_comparison .eq (by decide) d hd (rest ++ py ".*")
    have htext : Specifier.text ⟨.starts, release⟩ = Comparison.eq.text ++ (join (py ".") release ++ py ".*") := by
      rw [Specifier.text, if_pos rfl, List.append_assoc]
      rfl
    have hcons : join (py ".") release ++ py ".*" = d :: (rest ++ py ".*") := by rw [hhead, List.cons_append]
    rw [readSpecifier, htext, hcons, hfind, Option.bind_some]
    dsimp only
    rw [← hcons, drop_text, hstar, if_pos ⟨rfl, by simp⟩, List.dropLast_concat, readRelease_of_formed hparts]
    rfl
  · have hfind := find_comparison hstarts hd rest
    have htext : Specifier.text ⟨comparison, release⟩ = comparison.text ++ join (py ".") release := by
      rw [Specifier.text, if_neg hstarts, List.append_nil]
    rw [readSpecifier, htext, hhead, hfind, Option.bind_some]
    dsimp only
    rw [← hhead, drop_text, hsplit, if_neg fun hand => hlast hand.2, readRelease_of_formed hparts]
    rfl

/-- The text of a specifier has no comma. -/
theorem comma_not_mem_text {spec : Specifier} (h : spec.Formed) : ch ',' ∉ spec.text := by
  have hjoin : ∀ parts : List PyStr, (∀ part ∈ parts, IsNumber part) → ch ',' ∉ join (py ".") parts := by
    intro parts hparts hmem
    induction parts with
    | nil => exact absurd hmem (by simp [join])
    | cons part parts ih =>
      have hpart := not_mem_of_isNumber (hparts part List.mem_cons_self) (c := ch ',') (by decide)
      rcases parts with _ | ⟨part', parts⟩
      · rw [join_singleton] at hmem
        exact hpart hmem
      · have happend := @join_append (py ".") [part] (part' :: parts) (List.cons_ne_nil _ _) (List.cons_ne_nil _ _)
        rw [join_singleton, List.singleton_append] at happend
        rw [happend, List.mem_append, List.mem_append] at hmem
        rcases hmem with (hmem | hmem) | hmem
        · exact hpart hmem
        · exact absurd hmem (by decide)
        · exact ih (fun p hp => hparts p (List.mem_cons_of_mem _ hp)) hmem
  rw [Specifier.text, List.mem_append, List.mem_append, not_or, not_or]
  refine ⟨⟨?_, hjoin _ h.2⟩, ?_⟩
  · rcases spec.comparison <;> decide
  · split_ifs <;> decide

/-- **The text of a set of specifiers is read back.** -/
theorem readSet_setText {specs : List Specifier} (h : ∀ spec ∈ specs, spec.Formed) :
    readSet (setText specs) = some specs := by
  by_cases hne : specs = []
  · subst hne
    rfl
  · have hsplit : splitOn (py ",") (setText specs) = specs.map Specifier.text := by
      refine splitOn_join (ch ',') (by simpa using hne) fun part hpart => ?_
      obtain ⟨spec, hspec, rfl⟩ := List.mem_map.mp hpart
      exact comma_not_mem_text (h spec hspec)
    have hread : ∀ specs : List Specifier, (∀ spec ∈ specs, spec.Formed) →
        (specs.map Specifier.text).mapM readSpecifier = some specs := by
      intro specs hspecs
      induction specs with
      | nil => rfl
      | cons spec specs ih =>
        obtain ⟨hhead, htail⟩ := List.forall_mem_cons.mp hspecs
        rw [List.map_cons, List.mapM_cons, readSpecifier_text hhead, ih htail]
        rfl
    rw [readSet, if_neg (setText_ne_nil hne), hsplit, hread specs h]

end BuildEngine.Base.Pep440
