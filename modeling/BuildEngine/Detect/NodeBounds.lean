import BuildEngine.Base.Pep440
import BuildEngine.Detect.NodeRange

/-! # What the tokens of a range stand for

A token of `engines.node` is a comparator of npm, and `_node_token_to_specifier` turns it into version specifiers.
Both are bounds: `npmBounds` those of the comparator, `specifierBounds` those of the specifiers, which complete a
partial version with zeros and let `^` end at the next major version. -/

namespace BuildEngine.Detect

open BuildEngine.Base BuildEngine.Base.Json BuildEngine.Base.Semver BuildEngine.Base.Pep440

/-! ### Tokens -/

/-- The numbers of a token. -/
def NodeToken.values (t : NodeToken) : List ℕ := t.version.map decimal

/-- The version of a token. -/
def NodeToken.partialVersion (t : NodeToken) : Partial :=
  match t.values with
  | [a] => .major a
  | [a, b] => .minor a b
  | _ => .full (t.values.getD 0 0) (t.values.getD 1 0) (t.values.getD 2 0)

/-- The operator of a token. -/
def NodeToken.comparator (t : NodeToken) : Operator :=
  if t.operator = py ">=" then .ge
  else if t.operator = py "<=" then .le
  else if t.operator = py ">" then .gt
  else if t.operator = py "<" then .lt
  else if t.operator = py "^" then .caret
  else if t.operator = py "~" then .tilde
  else .exact

/-- The version with zeros for the numbers that are not given. -/
def completed (p : Partial) : Partial := .full p.first.major p.first.minor p.first.patch

/-- The bounds of a comparator of npm. -/
def NodeToken.npmBounds (t : NodeToken) : Bounds Version := t.comparator.bounds t.partialVersion

/-- The bounds of the specifiers of a token. -/
def NodeToken.specifierBounds (t : NodeToken) : Bounds Version :=
  if t.comparator = .caret then ⟨t.partialVersion.first, some ⟨t.partialVersion.first.major + 1, 0, 0⟩⟩
  else if t.comparator = .exact ∧ t.wildcard then Operator.exact.bounds t.partialVersion
  else t.comparator.bounds (completed t.partialVersion)

/-- The token allows nothing. -/
def nothing : Bounds Version := ⟨⟨0, 0, 0⟩, some ⟨0, 0, 0⟩⟩

/-- What a token of a range allows under npm. -/
def npmBounds (token : PyStr) : Bounds Version :=
  if isWildcard token then everything else (matchNodeToken token).elim nothing NodeToken.npmBounds

/-- What the specifiers of a token allow. -/
def specifierBounds (token : PyStr) : Bounds Version :=
  if isWildcard token then everything else (matchNodeToken token).elim nothing NodeToken.specifierBounds

/-- A bare `*`, or an optional operator with one to three numbers and an optional `.x`. -/
def AcceptedToken (token : PyStr) : Prop :=
  isWildcard token = true ∨ ∃ t, matchNodeToken token = some t ∧ ∀ part ∈ t.version, part.all isDigit = true

/-! ### The specifiers of a token -/

/-- The comparison of a token without `^` and `~`. -/
def NodeToken.comparison (t : NodeToken) : Comparison :=
  if t.operator = py ">=" then .ge
  else if t.operator = py "<=" then .le
  else if t.operator = py ">" then .gt
  else if t.operator = py "<" then .lt
  else .eq

/-- The specifiers of a token. -/
def NodeToken.specs (t : NodeToken) : List Specifier :=
  let version := completeNodeVersion t.version
  if t.operator = py "^" then
    [⟨.ge, version⟩, ⟨.lt, [natText (decimal (version.getD 0 []) + 1), py "0", py "0"]⟩]
  else if t.operator = py "~" then
    [⟨.ge, version⟩, ⟨.lt, [version.getD 0 [], natText (decimal (version.getD 1 []) + 1), py "0"]⟩]
  else if t.operator = py "==" && t.wildcard then [⟨.starts, t.version⟩]
  else [⟨t.comparison, version⟩]

/-- The specifiers of a token of a range. -/
def tokenSpecs (token : PyStr) : List Specifier :=
  if isWildcard token then [⟨.ge, [py "0"]⟩] else (matchNodeToken token).elim [] NodeToken.specs

/-! ### Tokens that match -/

theorem splitOnFrom_ne_nil (separator : PyStr) : ∀ (skip : ℕ) (part s : PyStr), splitOnFrom separator skip part s ≠ []
  | _, _, [] => by simp [splitOnFrom]
  | skip + 1, part, _ :: s => by rw [splitOnFrom]; exact splitOnFrom_ne_nil separator skip part s
  | 0, part, c :: s => by
    rw [splitOnFrom]
    split_ifs
    · simp
    · exact splitOnFrom_ne_nil separator 0 (part ++ [c]) s

theorem splitOperator_spec (token : PyStr) :
    (splitOperator token).1 = none ∨ ∃ op ∈ nodeOperators, (splitOperator token).1 = some op := by
  unfold splitOperator
  split
  · next op hop => exact Or.inr ⟨op, List.mem_of_find?_eq_some hop, rfl⟩
  · exact Or.inl rfl

/-- What the regular expression says about a token. -/
structure NodeToken.Matched (t : NodeToken) : Prop where
  op : t.op = none ∨ ∃ op ∈ nodeOperators, t.op = some op
  one : t.version ≠ []
  three : t.version.length ≤ 3
  parts : ∀ part ∈ t.version, part ≠ []

theorem matched_of_match {token : PyStr} {t : NodeToken} (h : matchNodeToken token = some t) : t.Matched := by
  have hop := splitOperator_spec token
  unfold matchNodeToken at h
  rcases hsplit : splitOperator token with ⟨op, rest⟩
  rw [hsplit] at h hop
  dsimp only at h hop
  have hparts : splitOn (py ".") rest ≠ [] := splitOnFrom_ne_nil _ _ _ _
  split_ifs at h with hwild hall hall
  · obtain rfl := Option.some.inj h
    simp only [Bool.and_eq_true, decide_eq_true_eq, List.all_eq_true] at hwild hall
    have hlonger := hwild.1
    have hlength : (splitOn (py ".") rest).dropLast.length = (splitOn (py ".") rest).length - 1 := List.length_dropLast
    have hpos : 0 < (splitOn (py ".") rest).dropLast.length := by omega
    exact ⟨hop, List.ne_nil_of_length_pos hpos, hall.1, fun part hpart => (hall.2 part hpart).1⟩
  · obtain rfl := Option.some.inj h
    simp only [Bool.and_eq_true, decide_eq_true_eq, List.all_eq_true] at hall
    exact ⟨hop, hparts, hall.1, fun part hpart => (hall.2 part hpart).1⟩

theorem operator_cases {t : NodeToken} (h : t.Matched) :
    t.operator = py "==" ∨ t.operator = py ">=" ∨ t.operator = py "<=" ∨ t.operator = py ">" ∨
      t.operator = py "<" ∨ t.operator = py "^" ∨ t.operator = py "~" := by
  unfold NodeToken.operator
  rcases h.op with hnone | ⟨op, hop, hsome⟩
  · rw [hnone]
    exact Or.inl rfl
  · rw [hsome]
    simp only [nodeOperators, List.mem_cons, List.not_mem_nil, or_false] at hop
    rcases hop with rfl | rfl | rfl | rfl | rfl | rfl | rfl <;> decide

/-- The version of a token has one, two or three parts. -/
theorem version_cases {t : NodeToken} (h : t.Matched) :
    (∃ x, t.version = [x]) ∨ (∃ x y, t.version = [x, y]) ∨ ∃ x y z, t.version = [x, y, z] := by
  have hone := List.length_pos_of_ne_nil h.one
  have hthree := h.three
  rcases hversion : t.version with _ | ⟨x, _ | ⟨y, _ | ⟨z, _ | ⟨w, rest⟩⟩⟩⟩
  · rw [hversion] at hone
    exact absurd hone (by simp)
  · exact Or.inl ⟨x, rfl⟩
  · exact Or.inr (Or.inl ⟨x, y, rfl⟩)
  · exact Or.inr (Or.inr ⟨x, y, z, rfl⟩)
  · rw [hversion] at hthree
    simp only [List.length_cons] at hthree
    omega

theorem numbers_partialVersion {t : NodeToken} (h : t.Matched) : t.partialVersion.numbers = t.version.map decimal := by
  rcases version_cases h with ⟨x, hx⟩ | ⟨x, y, hx⟩ | ⟨x, y, z, hx⟩ <;>
    simp [NodeToken.partialVersion, NodeToken.values, hx, Partial.numbers]

/-- The parts of a version that is completed are the numbers of the first version of the sub-range. -/
theorem completed_numbers {t : NodeToken} (h : t.Matched) :
    (completeNodeVersion t.version).map decimal = Pep440.numbers t.partialVersion.first := by
  have hzero : decimal (py "0") = 0 := rfl
  rcases version_cases h with ⟨x, hx⟩ | ⟨x, y, hx⟩ | ⟨x, y, z, hx⟩ <;>
    simp [NodeToken.partialVersion, NodeToken.values, hx, completeNodeVersion, Partial.first, Pep440.numbers, hzero,
      List.replicate]

theorem completed_getD {t : NodeToken} (h : t.Matched) :
    decimal ((completeNodeVersion t.version).getD 0 []) = t.partialVersion.first.major ∧
      decimal ((completeNodeVersion t.version).getD 1 []) = t.partialVersion.first.minor := by
  have hzero : decimal (py "0") = 0 := rfl
  rcases version_cases h with ⟨x, hx⟩ | ⟨x, y, hx⟩ | ⟨x, y, z, hx⟩ <;>
    simp [NodeToken.partialVersion, NodeToken.values, hx, completeNodeVersion, Partial.first, hzero, List.replicate]

/-- The parts of a version are numbers. -/
def NodeToken.Numeric (t : NodeToken) : Prop := ∀ part ∈ t.version, IsNumber part

theorem numeric_of_match {t : NodeToken} (h : t.Matched) (hdigits : ∀ part ∈ t.version, part.all isDigit = true) :
    t.Numeric := fun part hpart => ⟨h.parts part hpart, hdigits part hpart⟩

theorem isNumber_completed {t : NodeToken} (h : t.Numeric) : ∀ part ∈ completeNodeVersion t.version, IsNumber part := by
  intro part hpart
  rcases List.mem_append.mp hpart with hpart | hpart
  · exact h part hpart
  · rw [List.eq_of_mem_replicate hpart]
    decide

theorem length_completed {t : NodeToken} (h : t.Matched) : (completeNodeVersion t.version).length = 3 := by
  have hone := List.length_pos_of_ne_nil h.one
  have hthree := h.three
  simp only [completeNodeVersion, List.length_append, List.length_replicate]
  omega

theorem isNumber_getD {t : NodeToken} (h : t.Matched) (hnum : t.Numeric) {i : ℕ} (hi : i < 3) :
    IsNumber ((completeNodeVersion t.version).getD i []) := by
  have hlt : i < (completeNodeVersion t.version).length := by
    rw [length_completed h]
    exact hi
  rw [List.getD_eq_getElem?_getD, List.getElem?_eq_getElem hlt, Option.getD_some]
  exact isNumber_completed hnum _ (List.getElem_mem hlt)

theorem formed_completed {t : NodeToken} (h : t.Matched) (hnum : t.Numeric) (comparison : Comparison) :
    Specifier.Formed ⟨comparison, completeNodeVersion t.version⟩ := by
  refine ⟨List.ne_nil_of_length_pos ?_, isNumber_completed hnum⟩
  rw [length_completed h]
  omega

/-- The specifiers of a token are well formed. -/
theorem specs_formed {t : NodeToken} (h : t.Matched) (hnum : t.Numeric) : ∀ spec ∈ t.specs, spec.Formed := by
  have hzero : IsNumber (py "0") := by decide
  have hge := formed_completed h hnum .ge
  unfold NodeToken.specs
  dsimp only
  split_ifs
  · refine List.forall_mem_cons.mpr ⟨hge, List.forall_mem_singleton.mpr ⟨List.cons_ne_nil _ _, ?_⟩⟩
    simpa using ⟨isNumber_natText _, hzero⟩
  · refine List.forall_mem_cons.mpr ⟨hge, List.forall_mem_singleton.mpr ⟨List.cons_ne_nil _ _, ?_⟩⟩
    simpa using ⟨isNumber_getD h hnum (by omega), isNumber_natText _, hzero⟩
  · exact List.forall_mem_singleton.mpr ⟨h.one, hnum⟩
  · exact List.forall_mem_singleton.mpr (formed_completed h hnum t.comparison)

theorem specs_ne_nil (t : NodeToken) : t.specs ≠ [] := by
  unfold NodeToken.specs
  dsimp only
  split_ifs
  · exact List.cons_ne_nil _ _
  · exact List.cons_ne_nil _ _
  · exact List.cons_ne_nil _ _
  · exact List.cons_ne_nil _ _

theorem successor_ok {part text : PyStr} (hnum : IsNumber part) (h : successor part = .ok text) :
    text = natText (decimal part + 1) := by
  unfold successor intOfDigits strOfNat at h
  rw [digitsValue_digits hnum.2] at h
  split at h
  · next found hfound =>
    obtain rfl := Except.ok.inj h
    split_ifs at hfound with hlong
    · rw [Option.bind_some] at hfound
      split_ifs at hfound
      exact (Option.some.inj hfound).symm
    · exact absurd hfound (by simp)
  · exact absurd h (by simp)

theorem specifier_text (comparison : Comparison) (release : List PyStr) (h : comparison ≠ .starts) :
    Specifier.text ⟨comparison, release⟩ = comparison.text ++ join (py ".") release := by
  rw [Specifier.text, if_neg h, List.append_nil]

theorem setText_pair (spec spec' : Specifier) : setText [spec, spec'] = spec.text ++ py "," ++ spec'.text := by
  simp [setText, join, List.intercalate_cons_cons]

theorem setText_one (spec : Specifier) : setText [spec] = spec.text := join_singleton _ _

theorem join_three (x y z : PyStr) : join (py ".") [x, y, z] = x ++ py "." ++ y ++ py "." ++ z := by
  simp [join, List.intercalate_cons_cons]

/-- The text of the operator of a token without `^` and `~`. -/
theorem comparison_text {t : NodeToken} (h : t.Matched) (hcaret : t.operator ≠ py "^") (htilde : t.operator ≠ py "~") :
    t.comparison.text = t.operator ∧ t.comparison ≠ .starts := by
  unfold NodeToken.comparison
  rcases operator_cases h with hop | hop | hop | hop | hop | hop | hop
  · rw [hop]; decide
  · rw [hop]; decide
  · rw [hop]; decide
  · rw [hop]; decide
  · rw [hop]; decide
  · exact absurd hop hcaret
  · exact absurd hop htilde

/-- The text `_node_token_to_specifier` returns is that of the specifiers. -/
theorem specifier_eq {t : NodeToken} (h : t.Matched) (hnum : t.Numeric) {text : PyStr} (ht : t.specifier = .ok text) :
    text = setText t.specs := by
  have hzeros : py ".0.0" = py "." ++ py "0" ++ py "." ++ py "0" := by decide
  have hcomma : py ",<" = py "," ++ py "<" := by decide
  have hzero : py ".0" = py "." ++ py "0" := by decide
  unfold NodeToken.specifier at ht
  unfold NodeToken.specs
  dsimp only at ht ⊢
  split_ifs at ht ⊢ with hcaret htilde hstarts
  · rcases hnext : successor ((completeNodeVersion t.version).getD 0 []) with e | major
    · rw [hnext] at ht
      exact absurd ht (by simp [bind, Except.bind])
    · rw [hnext] at ht
      have hmajor := successor_ok (isNumber_getD h hnum (by omega)) hnext
      obtain rfl := Except.ok.inj ht
      rw [setText_pair, specifier_text _ _ (by decide), specifier_text _ _ (by decide), join_three, hmajor, hzeros, hcomma]
      simp only [Comparison.text, List.append_assoc]
  · rcases hnext : successor ((completeNodeVersion t.version).getD 1 []) with e | minor
    · rw [hnext] at ht
      exact absurd ht (by simp [bind, Except.bind])
    · rw [hnext] at ht
      have hminor := successor_ok (isNumber_getD h hnum (by omega)) hnext
      obtain rfl := Except.ok.inj ht
      rw [setText_pair, specifier_text _ _ (by decide), specifier_text _ _ (by decide), join_three, hminor, hzero, hcomma]
      simp only [Comparison.text, List.append_assoc]
  · obtain rfl := Except.ok.inj ht
    rw [setText_one, Specifier.text, if_pos rfl]
    rfl
  · obtain rfl := Except.ok.inj ht
    obtain ⟨htext, hne⟩ := comparison_text h hcaret htilde
    rw [setText_one, specifier_text _ _ hne, htext]

theorem specifier_ne_invalid (t : NodeToken) : t.specifier ≠ .error .invalid := by
  have hsuccessor : ∀ part, successor part ≠ .error .invalid := by
    intro part h
    unfold successor at h
    split at h
    · exact absurd h (by simp)
    · exact absurd h (by simp)
  have hmap : ∀ (part : PyStr) (f : PyStr → PyStr), (do let next ← successor part; return f next) ≠
      (.error .invalid : Except SpecifierError PyStr) := by
    intro part f h
    rcases hnext : successor part with e | next
    · rw [hnext] at h
      have he : e = .invalid := Except.error.inj h
      exact hsuccessor part (by rw [hnext, he])
    · rw [hnext] at h
      exact absurd h (by simp [bind, Except.bind, pure, Except.pure])
  unfold NodeToken.specifier
  dsimp only
  split_ifs
  · exact hmap _ _
  · exact hmap _ _
  · simp
  · simp

/-! ### The bounds of a token -/

theorem matches_completed {t : NodeToken} (h : t.Matched) (comparison : Comparison) (v : List ℕ) :
    Specifier.Matches ⟨comparison, completeNodeVersion t.version⟩ v ↔
      comparison.Holds (Pep440.numbers t.partialVersion.first) v := by
  rw [Specifier.Matches, completed_numbers h]

theorem satisfies_one {spec : Specifier} {v : List ℕ} : Satisfies [spec] v ↔ spec.Matches v :=
  List.forall_mem_singleton

/-- `>=w,<u` are the bounds from `w` to `u`. -/
theorem satisfies_between {w u v : Version} {spec spec' : Specifier}
    (hge : spec.Matches (Pep440.numbers v) ↔ Comparison.ge.Holds (Pep440.numbers w) (Pep440.numbers v))
    (hlt : spec'.Matches (Pep440.numbers v) ↔ Comparison.lt.Holds (Pep440.numbers u) (Pep440.numbers v)) :
    Satisfies [spec, spec'] (Pep440.numbers v) ↔ (Bounds.mk w (some u)).Mem v := by
  have hboth : Satisfies [spec, spec'] (Pep440.numbers v) ↔
      spec.Matches (Pep440.numbers v) ∧ spec'.Matches (Pep440.numbers v) := by simp [Satisfies]
  rw [hboth, hge, hlt, holds_ge, holds_lt]
  simp [Bounds.Mem, Semver.zero_le]

theorem matches_three (comparison : Comparison) {x y z : PyStr} {a b c : ℕ} (hx : decimal x = a) (hy : decimal y = b)
    (hz : decimal z = c) (v : List ℕ) :
    Specifier.Matches ⟨comparison, [x, y, z]⟩ v ↔ comparison.Holds (Pep440.numbers ⟨a, b, c⟩) v := by
  subst hx hy hz
  rfl

/-- **The bounds of a token are those of its specifiers.** -/
theorem satisfies_specs {t : NodeToken} (h : t.Matched) (v : Version) :
    Satisfies t.specs (Pep440.numbers v) ↔ t.specifierBounds.Mem v := by
  have hzero : decimal (py "0") = 0 := rfl
  have hcompleted : ∀ comparison, Satisfies [⟨comparison, completeNodeVersion t.version⟩] (Pep440.numbers v) ↔
      comparison.Holds (Pep440.numbers t.partialVersion.first) (Pep440.numbers v) := fun comparison => by
    rw [satisfies_one, matches_completed h]
  have hge := matches_completed h .ge (Pep440.numbers v)
  obtain ⟨hmajor, hminor⟩ := completed_getD h
  unfold NodeToken.specs NodeToken.specifierBounds NodeToken.comparator NodeToken.comparison
  rcases operator_cases h with hop | hop | hop | hop | hop | hop | hop <;> simp only [hop]
  · by_cases hwild : t.wildcard = true
    · have hspecs : Satisfies [⟨.starts, t.version⟩] (Pep440.numbers v) ↔
          (Operator.exact.bounds t.partialVersion).Mem v := by
        rw [satisfies_one, Specifier.Matches, ← numbers_partialVersion h, holds_starts]
      rw [hwild]
      exact hspecs
    · rw [Bool.eq_false_iff.mpr hwild]
      exact (hcompleted .eq).trans holds_eq
  · exact (hcompleted .ge).trans holds_ge
  · exact (hcompleted .le).trans holds_le
  · exact (hcompleted .gt).trans holds_gt
  · exact (hcompleted .lt).trans holds_lt
  · have hlt := matches_three .lt (decimal_natText (decimal ((completeNodeVersion t.version).getD 0 []) + 1)) hzero hzero
      (Pep440.numbers v)
    rw [hmajor] at hlt ⊢
    exact satisfies_between hge hlt
  · have hlt := matches_three .lt hmajor (decimal_natText (decimal ((completeNodeVersion t.version).getD 1 []) + 1)) hzero
      (Pep440.numbers v)
    rw [hminor] at hlt ⊢
    exact satisfies_between hge hlt

/-! ### Tokens of a range -/

/-- A property of all accepted tokens: of the bare `*`, and of those that match with numbers. -/
theorem accepted_induction {P : PyStr → Prop} (hwild : ∀ token, isWildcard token = true → P token)
    (hmatch : ∀ token t, isWildcard token ≠ true → matchNodeToken token = some t → t.Matched → t.Numeric → P token)
    {token : PyStr} (h : AcceptedToken token) : P token := by
  by_cases hw : isWildcard token = true
  · exact hwild token hw
  · rcases h with h | ⟨t, ht, hdigits⟩
    · exact absurd h hw
    · have hmatched := matched_of_match ht
      exact hmatch token t hw ht hmatched (numeric_of_match hmatched hdigits)

theorem tokenSpecs_formed {token : PyStr} (h : AcceptedToken token) :
    tokenSpecs token ≠ [] ∧ ∀ spec ∈ tokenSpecs token, spec.Formed := by
  refine accepted_induction (P := fun token => tokenSpecs token ≠ [] ∧ ∀ spec ∈ tokenSpecs token, spec.Formed) ?_ ?_ h
  · intro token hw
    rw [tokenSpecs, if_pos hw]
    exact ⟨List.cons_ne_nil _ _, List.forall_mem_singleton.mpr
      ⟨List.cons_ne_nil _ _, List.forall_mem_singleton.mpr (by decide)⟩⟩
  · intro token t hw ht hmatched hnum
    rw [tokenSpecs, if_neg hw, ht]
    exact ⟨specs_ne_nil t, specs_formed hmatched hnum⟩

/-- An accepted token has the text of its specifiers, unless a number is too long. -/
theorem tokenSpecs_text {token : PyStr} (h : AcceptedToken token) :
    nodeTokenToSpecifier token = .ok (setText (tokenSpecs token)) ∨ nodeTokenToSpecifier token = .error .value := by
  refine accepted_induction (P := fun token => nodeTokenToSpecifier token = .ok (setText (tokenSpecs token)) ∨
    nodeTokenToSpecifier token = .error .value) ?_ ?_ h
  · intro token hw
    rw [nodeTokenToSpecifier, tokenSpecs, if_pos hw, if_pos hw, setText_one]
    exact Or.inl rfl
  · intro token t hw ht hmatched hnum
    rw [nodeTokenToSpecifier, tokenSpecs, if_neg hw, if_neg hw, ht]
    dsimp only
    rcases hspec : t.specifier with e | text
    · cases e with
      | invalid => exact absurd hspec (specifier_ne_invalid t)
      | value => exact Or.inr rfl
    · left
      rw [specifier_eq hmatched hnum hspec, Option.elim_some]

/-- `>=0` holds of every version. -/
theorem holds_ge_zero (v : Version) : Comparison.ge.Holds [0] (Pep440.numbers v) := by
  obtain ⟨a, b, c⟩ := v
  simp [Comparison.Holds, Before, Pep440.numbers, pad, List.cons_lt_cons_iff]

/-- **The bounds of a token of a range are those of its specifiers.** -/
theorem tokenSpecs_satisfies {token : PyStr} (h : AcceptedToken token) (v : Version) :
    Satisfies (tokenSpecs token) (Pep440.numbers v) ↔ (specifierBounds token).Mem v := by
  refine accepted_induction (P := fun token => Satisfies (tokenSpecs token) (Pep440.numbers v) ↔
    (specifierBounds token).Mem v) ?_ ?_ h
  · intro token hw
    rw [tokenSpecs, specifierBounds, if_pos hw, if_pos hw, satisfies_one]
    exact iff_of_true (holds_ge_zero v) (mem_everything v)
  · intro token t hw ht hmatched _
    rw [tokenSpecs, specifierBounds, if_neg hw, if_neg hw, ht]
    exact satisfies_specs hmatched v

end BuildEngine.Detect
