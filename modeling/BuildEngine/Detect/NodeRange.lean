import BuildEngine.Base.Words
import BuildEngine.Detect.PackageJson

/-! # Ranges of Node versions

The part of `detect/framework.py` that reads `engines.node`. The version sets of the `packaging` library are the
parameter `pk`: what it accepts, and what its sets contain. -/

namespace BuildEngine.Detect

open BuildEngine.Base

/-- What reading a clause may raise: `InvalidSpecifier`, or a `ValueError` for an integer of too many digits. -/
inductive SpecifierError where
  | invalid
  | value
  deriving DecidableEq

/-- `packaging.specifiers`: `SpecifierSet(text)`, and `contains` with pre-releases, for the text of a version; `none`
where it raises `ValueError`. -/
structure Packaging (S : Type) where
  specifierSet : PyStr → Except SpecifierError S
  contains : S → PyStr → Option Bool

/-! ### Tokens -/

/-- The groups of the regular expression: the operator, the numbers of the version, and whether `.x` follows. -/
structure NodeToken where
  op : Option PyStr
  version : List PyStr
  wildcard : Bool
  deriving DecidableEq

/-- `x`, `X` and `*` -/
def isWildcard (s : PyStr) : Bool := s = py "*" || s = py "x" || s = py "X"

/-- The operators, where the longer one goes first. -/
def nodeOperators : List PyStr := [py ">=", py "<=", py ">", py "<", py "=", py "^", py "~"]

/-- The operator of a token, and what follows it. -/
def splitOperator (token : PyStr) : Option PyStr × PyStr :=
  match nodeOperators.find? fun op => op.isPrefixOf token with
  | some op => (some op, token.drop op.length)
  | none => (none, token)

/-- `re.fullmatch` of a token: one to three numbers, and a wildcard after them. -/
def matchNodeToken (token : PyStr) : Option NodeToken :=
  let (op, rest) := splitOperator token
  let parts := splitOn (py ".") rest
  let wildcard := decide (1 < parts.length) && isWildcard (parts.getLastD [])
  let version := if wildcard then parts.dropLast else parts
  if version.length ≤ 3 && version.all fun part => part ≠ [] && part.all isDecimal then some ⟨op, version, wildcard⟩
  else none

/-- `_complete_node_version`, of the numbers between the points. -/
def completeNodeVersion (parts : List PyStr) : List PyStr := parts ++ List.replicate (3 - parts.length) (py "0")

/-- `str(int(part) + 1)` -/
def successor (part : PyStr) : Except SpecifierError PyStr :=
  match (intOfDigits part).bind fun n => strOfNat (n + 1) with
  | some text => .ok text
  | none => .error .value

/-- The operator of the specifier. -/
def NodeToken.operator (t : NodeToken) : PyStr :=
  match t.op with
  | none => py "=="
  | some op => if op = py "=" then py "==" else op

/-- The specifier of a token that matches. -/
def NodeToken.specifier (t : NodeToken) : Except SpecifierError PyStr :=
  let version := completeNodeVersion t.version
  let text := join (py ".") version
  if t.operator = py "^" then do
    let major ← successor (version.getD 0 [])
    return py ">=" ++ text ++ py ",<" ++ major ++ py ".0.0"
  else if t.operator = py "~" then do
    let minor ← successor (version.getD 1 [])
    return py ">=" ++ text ++ py ",<" ++ version.getD 0 [] ++ py "." ++ minor ++ py ".0"
  else if t.operator = py "==" && t.wildcard then .ok (py "==" ++ join (py ".") t.version ++ py ".*")
  else .ok (t.operator ++ text)

/-- `_node_token_to_specifier` -/
def nodeTokenToSpecifier (token : PyStr) : Except SpecifierError PyStr :=
  if isWildcard token then .ok (py ">=0")
  else match matchNodeToken token with
    | none => .error .invalid
    | some t => t.specifier

/-! ### Clauses and ranges -/

/-- The specifiers of the tokens of a clause. -/
def nodeSpecifiers : List PyStr → Except SpecifierError (List PyStr)
  | [] => .ok []
  | token :: tokens => do
    let part ← nodeTokenToSpecifier token
    let parts ← nodeSpecifiers tokens
    return part :: parts

/-- The text a clause is turned into. -/
def nodeClauseText (clause : PyStr) : Except SpecifierError PyStr :=
  if isWildcard (strip clause) then .ok (py ">=0")
  else do
    let parts ← nodeSpecifiers (splitSpace (strip clause))
    return join (py ",") (parts.filter (· ≠ []))

/-- `any(f(a) for a in l)`; `none` where an `f(a)` raises before one is true. -/
def anyLazy {α : Type} (f : α → Option Bool) : List α → Option Bool
  | [] => some false
  | a :: l =>
    match f a with
    | none => none
    | some true => some true
    | some false => anyLazy f l

section
variable {S : Type} (pk : Packaging S)

/-- `_node_clause_to_specifier_set` -/
def nodeClauseToSpecifierSet (clause : PyStr) : Except SpecifierError S := do
  let text ← nodeClauseText clause
  pk.specifierSet text

/-- The versions a major version is tried with. -/
def nodeCandidates (major : ℕ) : List PyStr := [natText major ++ py ".0.0", natText major ++ py ".999.999"]

/-- `_node_clause_satisfies`; `none` where it raises `ValueError`. -/
def nodeClauseSatisfies (major : ℕ) (clause : PyStr) : Option Bool :=
  match nodeClauseToSpecifierSet pk clause with
  | .error .invalid => some false
  | .error .value => none
  | .ok specifier => anyLazy (pk.contains specifier) (nodeCandidates major)

/-- The alternatives of a range that are not empty. -/
def nodeAlternatives (rangeText : PyStr) : List PyStr :=
  ((splitOn (py "||") rangeText).map strip).filter (· ≠ [])

/-- `_node_major_satisfies`; `none` where it raises `ValueError`. -/
def nodeMajorSatisfies (major : ℕ) (rangeText : PyStr) : Option Bool :=
  anyLazy (nodeClauseSatisfies pk major) (nodeAlternatives rangeText)

/-- `SUPPORTED_NODE_MAJORS` -/
def supportedNodeMajors : List ℕ := [22]

/-- `NodeSelection` -/
structure NodeSelection where
  major : ℕ
  image : PyStr
  source : PyStr
  requested : Option PyStr
  deriving DecidableEq

/-- The supported versions that satisfy a range. -/
def satisfyingMajors (requested : PyStr) : List ℕ → Option (List ℕ)
  | [] => some []
  | major :: majors => do
    let satisfied ← nodeMajorSatisfies pk major requested
    let rest ← satisfyingMajors requested majors
    return if satisfied then major :: rest else rest

/-- The image of a version. -/
def nodeImage (major : ℕ) : PyStr := py "node:" ++ natText major

/-- The range that is asked for. -/
def requestedNode (pkg : Option PackageJson) (override : Option PyStr) : Option PyStr :=
  match override with
  | some version => some version
  | none => pkg.bind PackageJson.enginesNode

/-- `select_node_version`; `override` is `str(override)`. -/
def selectNodeVersion (pkg : Option PackageJson) (override : Option PyStr) : Except Exc NodeSelection :=
  let newest := supportedNodeMajors.foldl max 0
  match (requestedNode pkg override).map strip with
  | none | some [] => .ok ⟨newest, nodeImage newest, py "default", none⟩
  | some requested =>
    match satisfyingMajors pk requested supportedNodeMajors with
    | none => .error (.builtin .intDigits)
    | some [] => .error (.detection (.nodeUnsupported (join (py ", ") (supportedNodeMajors.map natText))))
    | some majors =>
      let major := majors.foldl max 0
      .ok ⟨major, nodeImage major, if override.isSome then py "override" else py "engines.node", some requested⟩

end

/-! ### What a range must be -/

/-- The number after some digits has few enough digits to be converted, there and back. -/
def HasSuccessor (part : PyStr) : Prop :=
  part.length ≤ Json.maxDigits ∧ (natText (digitsValue part + 1)).length ≤ Json.maxDigits

/-- A caret raises the major version, a tilde the minor version. -/
def TokenSound (token : PyStr) : Prop :=
  isWildcard token = true ∨ ∀ t, matchNodeToken token = some t →
    (t.operator = py "^" → HasSuccessor ((completeNodeVersion t.version).getD 0 [])) ∧
      (t.operator = py "~" → HasSuccessor ((completeNodeVersion t.version).getD 1 []))

/-- The tokens are sound, up to the first malformed one. -/
def TokensSound : List PyStr → Prop
  | [] => True
  | token :: tokens => TokenSound token ∧ (nodeTokenToSpecifier token ≠ .error .invalid → TokensSound tokens)

/-! ### What is raised -/

theorem successor_raises (part : PyStr) : Raises (· = .invalid) (successor part) ↔ HasSuccessor part := by
  unfold successor intOfDigits strOfNat HasSuccessor
  by_cases h : part.length ≤ Json.maxDigits
  · by_cases h' : (natText (digitsValue part + 1)).length ≤ Json.maxDigits
    · simp [h, h']
    · simp [h, h']
  · simp [h]

theorem specifier_raises (t : NodeToken) : Raises (· = .invalid) t.specifier ↔
    (t.operator = py "^" → HasSuccessor ((completeNodeVersion t.version).getD 0 [])) ∧
      (t.operator = py "~" → HasSuccessor ((completeNodeVersion t.version).getD 1 [])) := by
  have hne : py "^" ≠ py "~" := by decide
  unfold NodeToken.specifier
  dsimp only
  split_ifs with hcaret htilde hwild
  · rw [raises_map, successor_raises]
    simp [hcaret, hne]
  · rw [raises_map, successor_raises]
    simp [htilde, hne.symm]
  · simp [hcaret, htilde, raises_ok]
  · simp [hcaret, htilde, raises_ok]

theorem token_raises (token : PyStr) : Raises (· = .invalid) (nodeTokenToSpecifier token) ↔ TokenSound token := by
  unfold nodeTokenToSpecifier TokenSound
  split_ifs with hwild
  · simp [hwild, raises_ok]
  · rcases matchNodeToken token with _ | t
    · simp [hwild]
    · have ht := specifier_raises t
      simp [hwild, ht]

theorem specifiers_raises : ∀ tokens : List PyStr, Raises (· = .invalid) (nodeSpecifiers tokens) ↔ TokensSound tokens
  | [] => by simp [nodeSpecifiers, TokensSound, raises_ok]
  | token :: tokens => by
    have htoken := token_raises token
    have hrest := specifiers_raises tokens
    rw [nodeSpecifiers, TokensSound, raises_bind, htoken]
    simp only [raises_map, hrest]
    rcases hparsed : nodeTokenToSpecifier token with e | part
    · cases e with
      | invalid => simp
      | value =>
        have hnot : ¬ TokenSound token := fun h => by cases htoken.mpr h _ hparsed
        simp [hnot]
    · simp

section
variable {S : Type} (pk : Packaging S)

/-- The library decides whether a version set holds one of the versions that stand for a major version. -/
def SetSound (major : ℕ) (text : PyStr) : Prop :=
  Raises (· = .invalid) (pk.specifierSet text) ∧
    ∀ s, pk.specifierSet text = .ok s → anyLazy (pk.contains s) (nodeCandidates major) ≠ none

/-- A clause is read, and its versions compared, without an integer of too many digits. -/
def ClauseSound (major : ℕ) (clause : PyStr) : Prop :=
  (isWildcard (strip clause) = true ∨ TokensSound (splitSpace (strip clause))) ∧
    ∀ text, nodeClauseText clause = .ok text → SetSound pk major text

/-- The clauses of a range are sound, up to the first that is satisfied. -/
def RangeSound (major : ℕ) (rangeText : PyStr) : Prop :=
  ∀ before clause after, nodeAlternatives rangeText = before ++ clause :: after →
    (∀ c ∈ before, nodeClauseSatisfies pk major c = some false) → ClauseSound pk major clause

theorem clauseText_raises (clause : PyStr) : Raises (· = .invalid) (nodeClauseText clause) ↔
    isWildcard (strip clause) = true ∨ TokensSound (splitSpace (strip clause)) := by
  unfold nodeClauseText
  split_ifs with hwild
  · simp [hwild, raises_ok]
  · rw [raises_map, specifiers_raises]
    simp [hwild]

/-- A clause raises nothing exactly if it is sound. -/
theorem clause_ne_none (major : ℕ) (clause : PyStr) :
    nodeClauseSatisfies pk major clause ≠ none ↔ ClauseSound pk major clause := by
  have htext := clauseText_raises clause
  unfold nodeClauseSatisfies nodeClauseToSpecifierSet ClauseSound SetSound
  rw [← htext]
  rcases nodeClauseText clause with e | text
  · cases e <;> simp [bind, Except.bind]
  · rcases hset : pk.specifierSet text with e | s
    · cases e <;> simp [bind, Except.bind, hset]
    · simp [bind, Except.bind, hset]

/-- `any` raises nothing exactly if nothing up to the first true value does. -/
theorem anyLazy_ne_none {α : Type} (f : α → Option Bool) : ∀ l : List α, anyLazy f l ≠ none ↔
    ∀ before a after, l = before ++ a :: after → (∀ b ∈ before, f b = some false) → f a ≠ none
  | [] => by simp [anyLazy]
  | x :: l => by
    have hrest := anyLazy_ne_none f l
    rw [anyLazy]
    constructor
    · intro h before a after heq hbefore
      rcases before with _ | ⟨b, before⟩
      · obtain ⟨rfl, rfl⟩ := List.cons.inj heq
        intro hnone
        rw [hnone] at h
        exact h rfl
      · obtain ⟨rfl, rfl⟩ := List.cons.inj heq
        rw [hbefore x List.mem_cons_self] at h
        exact hrest.mp h before a after rfl fun b hb => hbefore b (List.mem_cons_of_mem _ hb)
    · intro h
      have hx := h [] x l rfl (by simp)
      rcases hf : f x with _ | b
      · exact absurd hf hx
      · cases b with
        | true => simp
        | false =>
          refine hrest.mpr fun before a after heq hbefore => h (x :: before) a after (by rw [heq]; rfl) ?_
          exact List.forall_mem_cons.mpr ⟨hf, hbefore⟩

theorem major_ne_none (major : ℕ) (rangeText : PyStr) :
    nodeMajorSatisfies pk major rangeText ≠ none ↔ RangeSound pk major rangeText := by
  unfold nodeMajorSatisfies RangeSound
  rw [anyLazy_ne_none]
  simp only [clause_ne_none]

/-- The range that is asked for is sound for every supported version. -/
def NodeSound (pkg : Option PackageJson) (override : Option PyStr) : Prop :=
  ∀ requested, (requestedNode pkg override).map strip = some requested → requested ≠ [] →
    ∀ major ∈ supportedNodeMajors, RangeSound pk major requested

theorem satisfyingMajors_ne_none (requested : PyStr) : ∀ majors : List ℕ,
    satisfyingMajors pk requested majors ≠ none ↔ ∀ major ∈ majors, RangeSound pk major requested
  | [] => by simp [satisfyingMajors]
  | major :: majors => by
    have hrest := satisfyingMajors_ne_none requested majors
    rw [List.forall_mem_cons, ← hrest, ← major_ne_none, satisfyingMajors]
    rcases nodeMajorSatisfies pk major requested with _ | satisfied
    · simp
    · rcases satisfyingMajors pk requested majors with _ | rest
      · simp
      · simp

end

end BuildEngine.Detect
