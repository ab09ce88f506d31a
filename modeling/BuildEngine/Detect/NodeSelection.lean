import BuildEngine.Detect.NodeBounds

/-! # Selecting a Node version

`select_node_version` for any supported versions, against the ranges of npm. The code tries a range with two versions
for each major version, `m.0.0` and `m.999.999`; `selection_iff` says when that is enough. -/

namespace BuildEngine.Detect

open BuildEngine.Base BuildEngine.Base.Json BuildEngine.Base.Semver BuildEngine.Base.Pep440

/-! ### Ranges -/

/-- The alternatives of a range. -/
def rangeClauses (text : PyStr) : List PyStr := (splitOn (py "||") (strip text)).map strip

/-- The tokens of an alternative. -/
def clauseTokens (clause : PyStr) : List PyStr := splitSpace (strip clause)

/-- Every token of the range is accepted. -/
def AcceptedRange (text : PyStr) : Prop :=
  ∀ clause ∈ rangeClauses text, ∀ token ∈ clauseTokens clause, AcceptedToken token

/-- Under npm, a version of the major satisfies the range. -/
def NpmAllows (text : PyStr) (m : ℕ) : Prop :=
  ∃ clause ∈ rangeClauses text, ∃ minor patch, ∀ token ∈ clauseTokens clause, (npmBounds token).Mem ⟨m, minor, patch⟩

/-! ### The selection -/

section
variable {S : Type} (pk : Packaging S) (supported : List ℕ)

/-- `select_node_version` with the argument `supported`; `override` is `str(override)`. -/
def selectNodeVersionOf (pkg : Option PackageJson) (override : Option PyStr) : Except Exc NodeSelection :=
  let newest := supported.foldl max 0
  match (requestedNode pkg override).map strip with
  | none | some [] => .ok ⟨newest, nodeImage newest, py "default", none⟩
  | some requested =>
    match satisfyingMajors pk requested supported with
    | none => .error (.builtin .intDigits)
    | some [] => .error (.detection (.nodeUnsupported (join (py ", ") (supported.map natText))))
    | some majors =>
      let major := majors.foldl max 0
      .ok ⟨major, nodeImage major, if override.isSome then py "override" else py "engines.node", some requested⟩

/-- `SUPPORTED_NODE_MAJORS` is the default. -/
theorem selectNodeVersion_eq : selectNodeVersion pk = selectNodeVersionOf pk supportedNodeMajors := rfl

/-- The outcome is the largest supported major version that npm allows, or an error where there is none. -/
def SelectsByNpm (text : PyStr) (outcome : Except Exc NodeSelection) : Prop :=
  match outcome with
  | .ok selection => IsGreatest {m | m ∈ supported ∧ NpmAllows text m} selection.major
  | .error (.detection _) => ∀ m ∈ supported, ¬ NpmAllows text m
  | .error _ => False

/-! ### The condition -/

/-- The bounds of npm reach the major version: in some alternative every lower bound is below every upper bound, those
of the major among them. -/
def Reached (text : PyStr) (m : ℕ) : Prop :=
  ∃ clause ∈ rangeClauses text, Compatible (majorBounds m :: (clauseTokens clause).map npmBounds)

/-- One of the two samples of a major version is within the bounds of the specifiers. -/
def Sampled (clause : PyStr) (m : ℕ) : Prop :=
  (∀ token ∈ clauseTokens clause, (specifierBounds token).Mem ⟨m, 0, 0⟩) ∨
    ∀ token ∈ clauseTokens clause, (specifierBounds token).Mem ⟨m, 999, 999⟩

/-- A sample of the major version is within the bounds of an alternative that is not empty, or the range is blank. -/
def SampleAllowed (text : PyStr) (m : ℕ) : Prop :=
  strip text = [] ∨ ∃ clause ∈ nodeAlternatives (strip text), Sampled clause m

/-- The samples decide: the largest supported major version that the bounds of npm reach has a sample in the range, and
no larger one has. -/
def SamplesDecide (text : PyStr) : Prop :=
  ∀ m ∈ supported,
    (Reached text m → (∀ m' ∈ supported, Reached text m' → m' ≤ m) → SampleAllowed text m) ∧
    ((∀ m' ∈ supported, Reached text m' → m' < m) → ¬ SampleAllowed text m)

/-- No number is too long to be converted in an alternative that is tried. -/
def RangeReadable (text : PyStr) : Prop :=
  ∀ m ∈ supported, ∀ before clause after, nodeAlternatives (strip text) = before ++ clause :: after →
    (∀ c ∈ before, ¬ Sampled c m) → ClauseSound pk m clause

/-- The library implements PEP 440: it accepts well-formed specifiers, and what it says of a version is what they
say. -/
structure Packaging.Implements (pk : Packaging S) : Prop where
  accepts : ∀ specs : List Specifier, (∀ spec ∈ specs, spec.Formed) → pk.specifierSet (setText specs) ≠ .error .invalid
  compares : ∀ (specs : List Specifier) (s : S), (∀ spec ∈ specs, spec.Formed) →
    pk.specifierSet (setText specs) = .ok s → ∀ (v : List ℕ) (b : Bool), v ≠ [] →
      pk.contains s (releaseText v) = some b → (b = true ↔ Satisfies specs v)

end

/-! ### Alternatives -/

section
variable {S : Type} {pk : Packaging S}

/-- The specifiers of an alternative. -/
def clauseSpecs (clause : PyStr) : List Specifier := ((clauseTokens clause).map tokenSpecs).flatten

theorem nodeSpecifiers_texts : ∀ {tokens : List PyStr}, (∀ token ∈ tokens, AcceptedToken token) →
    nodeSpecifiers tokens = .ok (tokens.map fun token => setText (tokenSpecs token)) ∨
      nodeSpecifiers tokens = .error .value
  | [], _ => Or.inl rfl
  | token :: tokens, h => by
    obtain ⟨hhead, htail⟩ := List.forall_mem_cons.mp h
    rw [nodeSpecifiers]
    rcases tokenSpecs_text hhead with hok | hvalue
    · rcases nodeSpecifiers_texts htail with hrest | hrest
      · rw [hok, hrest]
        exact Or.inl rfl
      · rw [hok, hrest]
        exact Or.inr rfl
    · rw [hvalue]
      exact Or.inr rfl

/-- The text of an alternative is that of its specifiers, unless a number is too long. -/
theorem clauseSpecs_text {clause : PyStr} (h : ∀ token ∈ clauseTokens clause, AcceptedToken token) :
    nodeClauseText clause = .ok (setText (clauseSpecs clause)) ∨ nodeClauseText clause = .error .value := by
  unfold nodeClauseText
  split_ifs with hwild
  · left
    have htokens : clauseTokens clause = [strip clause] := by
      unfold clauseTokens
      simp only [isWildcard, Bool.or_eq_true, decide_eq_true_eq] at hwild
      rcases hwild with (hw | hw) | hw <;> rw [hw] <;> decide
    rw [clauseSpecs, htokens, List.map_singleton, List.flatten_singleton, tokenSpecs, if_pos hwild, setText_one]
    rfl
  · rcases nodeSpecifiers_texts h with hok | hvalue
    · left
      unfold clauseTokens at hok
      rw [hok]
      have hkept : ∀ part ∈ (splitSpace (strip clause)).map fun token => setText (tokenSpecs token), part ≠ [] := by
        intro part hpart
        obtain ⟨token, htoken, rfl⟩ := List.mem_map.mp hpart
        exact setText_ne_nil (tokenSpecs_formed (h token htoken)).1
      have hfilter : (((splitSpace (strip clause)).map fun token => setText (tokenSpecs token)).filter (· ≠ [])) =
          ((splitSpace (strip clause)).map tokenSpecs).map setText := by
        rw [List.filter_eq_self.mpr (by simpa using hkept), List.map_map]
        rfl
      have hjoin : join (py ",") (((splitSpace (strip clause)).map tokenSpecs).map setText) =
          setText (clauseSpecs clause) := by
        rw [clauseSpecs, clauseTokens]
        refine join_setText fun specs hspecs => ?_
        obtain ⟨token, htoken, rfl⟩ := List.mem_map.mp hspecs
        exact (tokenSpecs_formed (h token htoken)).1
      rw [← hjoin, ← hfilter]
      rfl
    · right
      unfold clauseTokens at hvalue
      rw [hvalue]
      rfl

theorem clauseSpecs_formed {clause : PyStr} (h : ∀ token ∈ clauseTokens clause, AcceptedToken token) :
    ∀ spec ∈ clauseSpecs clause, spec.Formed := by
  intro spec hspec
  obtain ⟨specs, hspecs, hmem⟩ := List.mem_flatten.mp hspec
  obtain ⟨token, htoken, rfl⟩ := List.mem_map.mp hspecs
  exact (tokenSpecs_formed (h token htoken)).2 spec hmem

theorem clauseSpecs_satisfies {clause : PyStr} (h : ∀ token ∈ clauseTokens clause, AcceptedToken token) (v : Version) :
    Satisfies (clauseSpecs clause) (Pep440.numbers v) ↔ ∀ token ∈ clauseTokens clause, (specifierBounds token).Mem v := by
  have htoken : ∀ token ∈ clauseTokens clause, (Satisfies (tokenSpecs token) (Pep440.numbers v) ↔
      (specifierBounds token).Mem v) := fun token hmem => tokenSpecs_satisfies (h token hmem) v
  constructor
  · intro hall token hmem
    exact (htoken token hmem).mp fun spec hspec =>
      hall spec (List.mem_flatten.mpr ⟨_, List.mem_map_of_mem hmem, hspec⟩)
  · intro hall spec hspec
    obtain ⟨specs, hspecs, hmem⟩ := List.mem_flatten.mp hspec
    obtain ⟨token, hin, rfl⟩ := List.mem_map.mp hspecs
    exact (htoken token hin).mpr (hall token hin) spec hmem

/-! ### What `any` says -/

/-- What `any` returns, if what it asks says whether a property holds. -/
theorem anyLazy_some {α : Type} {f : α → Option Bool} {P : α → Prop} : ∀ {l : List α} {r : Bool},
    (∀ a ∈ l, ∀ b, f a = some b → (b = true ↔ P a)) → anyLazy f l = some r → (r = true ↔ ∃ a ∈ l, P a)
  | [], r, _, h => by
    rw [anyLazy] at h
    obtain rfl := Option.some.inj h
    simp
  | a :: l, r, hf, h => by
    obtain ⟨hhead, htail⟩ := List.forall_mem_cons.mp hf
    rw [anyLazy] at h
    simp only [List.mem_cons, exists_eq_or_imp]
    rcases ha : f a with _ | b
    · rw [ha] at h
      exact absurd h (by simp)
    · rw [ha] at h
      have hP := hhead b ha
      cases b with
      | true =>
        obtain rfl := Option.some.inj h
        exact iff_of_true rfl (Or.inl (hP.mp rfl))
      | false =>
        have hnot : ¬ P a := fun hPa => Bool.false_ne_true (hP.mpr hPa)
        rw [anyLazy_some htail h, or_iff_right hnot]

/-- `any` raises nothing exactly if nothing up to the first element with the property does. -/
theorem anyLazy_ne_none_of {α : Type} {f : α → Option Bool} {P : α → Prop} : ∀ {l : List α},
    (∀ a ∈ l, ∀ b, f a = some b → (b = true ↔ P a)) → (anyLazy f l ≠ none ↔
      ∀ before a after, l = before ++ a :: after → (∀ b ∈ before, ¬ P b) → f a ≠ none)
  | [], _ => by simp [anyLazy]
  | x :: l, hf => by
    obtain ⟨hhead, htail⟩ := List.forall_mem_cons.mp hf
    have hrest := anyLazy_ne_none_of htail
    rw [anyLazy]
    rcases hx : f x with _ | r
    · simp only [ne_eq, not_true_eq_false, false_iff]
      intro hall
      exact hall [] x l rfl (by simp) hx
    · have hP := hhead r hx
      cases r with
      | true =>
        refine iff_of_true (by simp) fun before a after heq hnot => ?_
        rcases before with _ | ⟨b, before⟩
        · obtain ⟨rfl, rfl⟩ := List.cons.inj heq
          rw [hx]
          exact Option.some_ne_none _
        · obtain ⟨rfl, rfl⟩ := List.cons.inj heq
          exact absurd (hP.mp rfl) (hnot x List.mem_cons_self)
      | false =>
        have hnotx : ¬ P x := fun hPx => Bool.false_ne_true (hP.mpr hPx)
        refine hrest.trans ⟨fun hall before a after heq hnot => ?_, fun hall before a after heq hnot => ?_⟩
        · rcases before with _ | ⟨b, before⟩
          · obtain ⟨rfl, rfl⟩ := List.cons.inj heq
            rw [hx]
            exact Option.some_ne_none _
          · obtain ⟨rfl, rfl⟩ := List.cons.inj heq
            exact hall before a after rfl fun b hb => hnot b (List.mem_cons_of_mem _ hb)
        · refine hall (x :: before) a after (by rw [heq, List.cons_append]) ?_
          exact List.forall_mem_cons.mpr ⟨hnotx, hnot⟩

/-! ### What the code says of a major version -/

theorem nodeCandidates_eq (m : ℕ) :
    nodeCandidates m = [releaseText (Pep440.numbers ⟨m, 0, 0⟩), releaseText (Pep440.numbers ⟨m, 999, 999⟩)] := by
  have hzeros : py ".0.0" = py "." ++ natText 0 ++ py "." ++ natText 0 := by decide
  have hnines : py ".999.999" = py "." ++ natText 999 ++ py "." ++ natText 999 := by decide
  have htext : ∀ v : Version, releaseText (Pep440.numbers v) =
      natText v.major ++ py "." ++ natText v.minor ++ py "." ++ natText v.patch := fun v => by
    simp only [releaseText, Pep440.numbers, List.map_cons, List.map_nil, join_three]
  rw [nodeCandidates, htext, htext, hzeros, hnines]
  simp only [List.append_assoc]

/-- The answer for an alternative is whether a sample is within its bounds. -/
theorem clauseSatisfies_iff (hpk : pk.Implements) {m : ℕ} {clause : PyStr}
    (h : ∀ token ∈ clauseTokens clause, AcceptedToken token) {b : Bool}
    (hb : nodeClauseSatisfies pk m clause = some b) : b = true ↔ Sampled clause m := by
  have hformed := clauseSpecs_formed h
  unfold nodeClauseSatisfies nodeClauseToSpecifierSet at hb
  rcases clauseSpecs_text h with hok | hvalue
  · rw [hok] at hb
    rcases hset : pk.specifierSet (setText (clauseSpecs clause)) with e | s
    · cases e with
      | invalid => exact absurd hset (hpk.accepts _ hformed)
      | value =>
        simp only [bind, Except.bind, hset] at hb
        exact absurd hb (by simp)
    · simp only [bind, Except.bind, hset] at hb
      have hsample : ∀ v : Version, ∀ b, pk.contains s (releaseText (Pep440.numbers v)) = some b →
          (b = true ↔ ∀ token ∈ clauseTokens clause, (specifierBounds token).Mem v) := fun v b hv =>
        (hpk.compares _ _ hformed hset _ _ (List.cons_ne_nil _ _) hv).trans (clauseSpecs_satisfies h v)
      rw [nodeCandidates_eq, anyLazy, anyLazy, anyLazy] at hb
      unfold Sampled
      rcases hfirst : pk.contains s (releaseText (Pep440.numbers ⟨m, 0, 0⟩)) with _ | _ | _ <;> rw [hfirst] at hb
      · exact absurd hb (by simp)
      · have hnot := hsample _ _ hfirst
        rcases hsecond : pk.contains s (releaseText (Pep440.numbers ⟨m, 999, 999⟩)) with _ | _ | _ <;>
          rw [hsecond] at hb
        · exact absurd hb (by simp)
        · obtain rfl := Option.some.inj hb
          rw [← hnot, ← hsample _ _ hsecond, or_self]
        · obtain rfl := Option.some.inj hb
          exact iff_of_true rfl (Or.inr ((hsample _ _ hsecond).mp rfl))
      · obtain rfl := Option.some.inj hb
        exact iff_of_true rfl (Or.inl ((hsample _ _ hfirst).mp rfl))
  · rw [hvalue] at hb
    exact absurd hb (by simp [bind, Except.bind])

/-- An alternative that is not empty is one of the range. -/
theorem accepted_alternative {text : PyStr} (hacc : AcceptedRange text) {clause : PyStr}
    (h : clause ∈ nodeAlternatives (strip text)) : ∀ token ∈ clauseTokens clause, AcceptedToken token :=
  hacc clause (List.mem_of_mem_filter h)

theorem majorSatisfies_iff (hpk : pk.Implements) {text : PyStr} (hacc : AcceptedRange text) {m : ℕ} {b : Bool}
    (hb : nodeMajorSatisfies pk m (strip text) = some b) :
    b = true ↔ ∃ clause ∈ nodeAlternatives (strip text), Sampled clause m :=
  anyLazy_some (fun _ hclause _ hb => clauseSatisfies_iff hpk (accepted_alternative hacc hclause) hb) hb

theorem majorSatisfies_ne_none (hpk : pk.Implements) {text : PyStr} (hacc : AcceptedRange text) (m : ℕ) :
    nodeMajorSatisfies pk m (strip text) ≠ none ↔
      ∀ before clause after, nodeAlternatives (strip text) = before ++ clause :: after →
        (∀ c ∈ before, ¬ Sampled c m) → ClauseSound pk m clause := by
  unfold nodeMajorSatisfies
  rw [anyLazy_ne_none_of fun _ hclause _ hb => clauseSatisfies_iff hpk (accepted_alternative hacc hclause) hb]
  simp only [clause_ne_none]

/-- The list comprehension keeps the supported versions that are satisfied. -/
theorem satisfyingMajors_some {requested : PyStr} {P : ℕ → Prop}
    (hP : ∀ m b, nodeMajorSatisfies pk m requested = some b → (b = true ↔ P m)) : ∀ {supported majors : List ℕ},
    satisfyingMajors pk requested supported = some majors → ∀ m, m ∈ majors ↔ m ∈ supported ∧ P m
  | [], majors, h, m => by
    rw [satisfyingMajors] at h
    obtain rfl := Option.some.inj h
    simp
  | major :: supported, majors, h, m => by
    rw [satisfyingMajors] at h
    rcases hmajor : nodeMajorSatisfies pk major requested with _ | satisfied
    · rw [hmajor] at h
      exact absurd h (by simp)
    · rcases hrest : satisfyingMajors pk requested supported with _ | rest
      · rw [hmajor, hrest] at h
        exact absurd h (by simp)
      · rw [hmajor, hrest] at h
        have hiff := hP major satisfied hmajor
        have htail := satisfyingMajors_some hP hrest m
        have hmajors : (if satisfied = true then major :: rest else rest) = majors := Option.some.inj h
        rw [← hmajors, List.mem_cons]
        split_ifs with hsatisfied
        · have hPm : P major := hiff.mp hsatisfied
          rw [List.mem_cons, htail]
          constructor
          · rintro (rfl | ⟨hm, hPm'⟩)
            · exact ⟨Or.inl rfl, hPm⟩
            · exact ⟨Or.inr hm, hPm'⟩
          · rintro ⟨rfl | hm, hPm'⟩
            · exact Or.inl rfl
            · exact Or.inr ⟨hm, hPm'⟩
        · have hnot : ¬ P major := fun hPm => hsatisfied (hiff.mpr hPm)
          rw [htail]
          constructor
          · exact fun hm => ⟨Or.inr hm.1, hm.2⟩
          · rintro ⟨rfl | hm, hPm'⟩
            · exact absurd hPm' hnot
            · exact ⟨hm, hPm'⟩

/-! ### The largest version -/

theorem foldl_max_spec : ∀ (l : List ℕ) (acc : ℕ),
    (l.foldl max acc = acc ∨ l.foldl max acc ∈ l) ∧ acc ≤ l.foldl max acc ∧ ∀ m ∈ l, m ≤ l.foldl max acc
  | [], acc => by simp
  | a :: l, acc => by
    obtain ⟨hmem, hacc, hall⟩ := foldl_max_spec l (max acc a)
    rw [List.foldl_cons]
    refine ⟨?_, le_trans (le_max_left acc a) hacc, ?_⟩
    · rcases hmem with heq | hmem
      · rw [heq]
        rcases le_total acc a with hle | hle
        · right
          rw [max_eq_right hle]
          exact List.mem_cons_self
        · left
          exact max_eq_left hle
      · exact Or.inr (List.mem_cons_of_mem a hmem)
    · intro m hm
      rcases List.mem_cons.mp hm with rfl | hm
      · exact le_trans (le_max_right acc m) hacc
      · exact hall m hm

/-- `max` of a list that is not empty. -/
theorem foldl_max_mem {l : List ℕ} (h : l ≠ []) : l.foldl max 0 ∈ l := by
  obtain ⟨m, hm⟩ := List.exists_mem_of_ne_nil l h
  obtain ⟨hmem, -, hall⟩ := foldl_max_spec l 0
  rcases hmem with hzero | hmem
  · have hle := hall m hm
    have heq : m = l.foldl max 0 := by omega
    rw [← heq]
    exact hm
  · exact hmem

/-- In a list, a property that holds of some element holds of a largest one. -/
theorem exists_largest {supported : List ℕ} {N : ℕ → Prop} {m : ℕ} (hm : m ∈ supported) (hN : N m) :
    ∃ g ∈ supported, N g ∧ ∀ m' ∈ supported, N m' → m' ≤ g := by
  obtain ⟨g, hg, hmax⟩ := Set.exists_max_image {m | m ∈ supported ∧ N m} id
    ((List.finite_toSet supported).subset fun _ h => h.1) ⟨m, hm, hN⟩
  exact ⟨g, hg.1, hg.2, fun m' hm' hN' => hmax m' ⟨hm', hN'⟩⟩

/-- **Two selections agree**: where `C` selects nothing, it agrees with `N` if the largest of `N` and all larger ones
behave; where `C` selects its largest element, likewise. -/
theorem largest_iff {supported : List ℕ} {N C : ℕ → Prop} {g : ℕ} (hg : g ∈ supported) (hC : C g)
    (hmax : ∀ m ∈ supported, C m → m ≤ g) : IsGreatest {m | m ∈ supported ∧ N m} g ↔
      ∀ m ∈ supported, (N m → (∀ m' ∈ supported, N m' → m' ≤ m) → C m) ∧
        ((∀ m' ∈ supported, N m' → m' < m) → ¬ C m) := by
  constructor
  · rintro ⟨⟨-, hN⟩, hub⟩ m hm
    refine ⟨fun hNm hall => ?_, fun hall hCm => ?_⟩
    · have hle := hall g hg hN
      have hge : m ≤ g := hub ⟨hm, hNm⟩
      have heq : m = g := by omega
      rw [heq]
      exact hC
    · have hlt := hall g hg hN
      have hle := hmax m hm hCm
      omega
  · intro h
    have hsome : ∃ m ∈ supported, N m ∧ g ≤ m := by
      by_contra hnone
      refine (h g hg).2 (fun m' hm' hN' => ?_) hC
      by_contra hge
      exact hnone ⟨m', hm', hN', by omega⟩
    obtain ⟨m, hm, hNm, hgm⟩ := hsome
    obtain ⟨top, htop, hNtop, hall⟩ := exists_largest hm hNm
    have hCtop := (h top htop).1 hNtop hall
    have hle := hmax top htop hCtop
    have hge := hall m hm hNm
    have heq : top = g := by omega
    rw [← heq]
    exact ⟨⟨htop, hNtop⟩, fun m' hm' => hall m' hm'.1 hm'.2⟩

theorem none_iff {supported : List ℕ} {N C : ℕ → Prop} (hnone : ∀ m ∈ supported, ¬ C m) :
    (∀ m ∈ supported, ¬ N m) ↔
      ∀ m ∈ supported, (N m → (∀ m' ∈ supported, N m' → m' ≤ m) → C m) ∧
        ((∀ m' ∈ supported, N m' → m' < m) → ¬ C m) := by
  constructor
  · exact fun h m hm => ⟨fun hN => absurd hN (h m hm), fun _ => hnone m hm⟩
  · intro h m hm hN
    obtain ⟨top, htop, hNtop, hall⟩ := exists_largest hm hN
    exact hnone top htop ((h top htop).1 hNtop hall)

/-! ### The selection against npm -/

/-- The bounds reach a major version exactly if npm allows a version of it. -/
theorem reached_iff {text : PyStr} {m : ℕ} : Reached text m ↔ NpmAllows text m := by
  unfold Reached NpmAllows
  refine exists_congr fun clause => and_congr_right fun _ => ?_
  rw [← exists_major_iff]
  simp only [List.forall_mem_map]

/-- In a blank range every version is allowed. -/
theorem npmAllows_blank {text : PyStr} (h : strip text = []) (m : ℕ) : NpmAllows text m := by
  have hclauses : rangeClauses text = [[]] := by
    rw [rangeClauses, h]
    decide
  refine ⟨[], by rw [hclauses]; exact List.mem_cons_self, 0, 0, fun token htoken => ?_⟩
  exact absurd htoken (by simp [clauseTokens, strip, splitSpace, splitSpaceFrom])

theorem nodeAlternatives_blank {text : PyStr} (h : strip text = []) : nodeAlternatives (strip text) = [] := by
  rw [h]
  decide

/-- What the selection says of a range that is not blank. -/
theorem selectNodeVersionOf_eq {supported : List ℕ} {pkg : Option PackageJson} {override : Option PyStr} {text : PyStr}
    (hreq : requestedNode pkg override = some text) (hblank : strip text ≠ []) :
    selectNodeVersionOf pk supported pkg override =
      match satisfyingMajors pk (strip text) supported with
      | none => .error (.builtin .intDigits)
      | some [] => .error (.detection (.nodeUnsupported (join (py ", ") (supported.map natText))))
      | some majors => .ok ⟨majors.foldl max 0, nodeImage (majors.foldl max 0),
          if override.isSome then py "override" else py "engines.node", some (strip text)⟩ := by
  unfold selectNodeVersionOf
  rw [hreq, Option.map_some]
  obtain ⟨c, s, hstrip⟩ := List.exists_cons_of_ne_nil hblank
  rw [hstrip]

/-- **Node range selection**: for a range of accepted tokens, `select_node_version` selects the largest supported major
version that npm allows, or raises `DetectionError` where there is none, if and only if the numbers it reads can be
converted and the two samples decide. -/
theorem selection_iff (hpk : pk.Implements) {supported : List ℕ} (hne : supported ≠ []) {pkg : Option PackageJson}
    {override : Option PyStr} {text : PyStr} (hreq : requestedNode pkg override = some text)
    (hacc : AcceptedRange text) :
    SelectsByNpm supported text (selectNodeVersionOf pk supported pkg override) ↔
      RangeReadable pk supported text ∧ SamplesDecide supported text := by
  by_cases hblank : strip text = []
  · -- a blank range selects the newest version
    have hok : selectNodeVersionOf pk supported pkg override =
        .ok ⟨supported.foldl max 0, nodeImage (supported.foldl max 0), py "default", none⟩ := by
      unfold selectNodeVersionOf
      rw [hreq, Option.map_some, hblank]
    have hselects : SelectsByNpm supported text (selectNodeVersionOf pk supported pkg override) := by
      rw [hok]
      exact ⟨⟨foldl_max_mem hne, npmAllows_blank hblank _⟩, fun m hm => (foldl_max_spec supported 0).2.2 m hm.1⟩
    refine iff_of_true hselects ⟨?_, fun m hm => ⟨fun _ _ => Or.inl hblank, fun hall => ?_⟩⟩
    · intro m _ before clause after heq
      rw [nodeAlternatives_blank hblank] at heq
      exact absurd heq (by simp)
    · exact absurd (hall m hm (reached_iff.mpr (npmAllows_blank hblank m))) (lt_irrefl m)
  have hallowed : ∀ m, SampleAllowed text m ↔ ∃ clause ∈ nodeAlternatives (strip text), Sampled clause m :=
    fun m => or_iff_right hblank
  have hreadable : RangeReadable pk supported text ↔ satisfyingMajors pk (strip text) supported ≠ none := by
    rw [satisfyingMajors_ne_none]
    refine forall₂_congr fun m _ => ?_
    rw [← majorSatisfies_ne_none hpk hacc m, major_ne_none]
  rw [selectNodeVersionOf_eq hreq hblank, hreadable]
  unfold SamplesDecide
  simp only [reached_iff, hallowed]
  rcases hmajors : satisfyingMajors pk (strip text) supported with _ | majors
  · simp [SelectsByNpm]
  have hmem := satisfyingMajors_some (fun m b hb => majorSatisfies_iff hpk hacc hb) hmajors
  rw [and_iff_right (Option.some_ne_none majors)]
  rcases hlist : majors with _ | ⟨first, rest⟩
  · have hnone : ∀ m ∈ supported, ¬ ∃ clause ∈ nodeAlternatives (strip text), Sampled clause m := by
      intro m hm hC
      have := (hmem m).mpr ⟨hm, hC⟩
      rw [hlist] at this
      exact absurd this List.not_mem_nil
    exact none_iff hnone
  · rw [← hlist]
    have hcons : majors ≠ [] := by
      rw [hlist]
      exact List.cons_ne_nil _ _
    have htop := (hmem _).mp (foldl_max_mem hcons)
    have hmax : ∀ m ∈ supported, (∃ clause ∈ nodeAlternatives (strip text), Sampled clause m) →
        m ≤ majors.foldl max 0 := fun m hm hC => (foldl_max_spec majors 0).2.2 m ((hmem m).mpr ⟨hm, hC⟩)
    have hselect : SelectsByNpm supported text (match some majors with
        | none => .error (.builtin .intDigits)
        | some [] => .error (.detection (.nodeUnsupported (join (py ", ") (supported.map natText))))
        | some majors => .ok ⟨majors.foldl max 0, nodeImage (majors.foldl max 0),
            if override.isSome then py "override" else py "engines.node", some (strip text)⟩) ↔
        IsGreatest {m | m ∈ supported ∧ NpmAllows text m} (majors.foldl max 0) := by
      rw [hlist]
      exact Iff.rfl
    rw [hselect]
    exact largest_iff htop.1 htop.2 hmax

end

/-! ### An implementation of the library -/

/-- PEP 440 for final releases. -/
def pep440 : Packaging (List Specifier) where
  specifierSet text := (readSet text).elim (.error .invalid) .ok
  contains specs text := some (decide (Satisfies specs (readVersion text)))

theorem pep440_implements : pep440.Implements := by
  have hread : ∀ specs : List Specifier, (∀ spec ∈ specs, spec.Formed) →
      pep440.specifierSet (setText specs) = .ok specs := fun specs h => by
    have hset : pep440.specifierSet (setText specs) = (readSet (setText specs)).elim (.error .invalid) .ok := rfl
    rw [hset, readSet_setText h, Option.elim_some]
  constructor
  · intro specs h hinvalid
    rw [hread specs h] at hinvalid
    exact absurd hinvalid (by simp)
  · intro specs s h hs v b hv hb
    rw [hread specs h] at hs
    obtain rfl := Except.ok.inj hs
    have hvalue : some (decide (Satisfies specs (readVersion (releaseText v)))) = some b := hb
    rw [← Option.some.inj hvalue, readVersion_releaseText hv, decide_eq_true_iff]

instance decidableAcceptedToken (token : PyStr) : Decidable (AcceptedToken token) :=
  decidable_of_iff (isWildcard token = true ∨
    ((matchNodeToken token).any fun t => t.version.all fun part => part.all isDigit) = true)
    (by simp [AcceptedToken, Option.any_eq_true])

instance decidableAcceptedRange (text : PyStr) : Decidable (AcceptedRange text) :=
  inferInstanceAs (Decidable (∀ clause ∈ rangeClauses text, ∀ token ∈ clauseTokens clause, AcceptedToken token))

/-- A range of several major versions is selected as npm does. -/
theorem selection_majors : RangeReadable pep440 [20, 22] (py ">=20 <23") ∧ SamplesDecide [20, 22] (py ">=20 <23") := by
  have hselects : SelectsByNpm [20, 22] (py ">=20 <23")
      (selectNodeVersionOf pep440 [20, 22] none (some (py ">=20 <23"))) := by
    have hok : selectNodeVersionOf pep440 [20, 22] none (some (py ">=20 <23")) =
        .ok ⟨22, py "node:22", py "override", some (py ">=20 <23")⟩ := by decide +kernel
    rw [hok]
    refine ⟨⟨by simp, py ">=20 <23", by decide +kernel, 0, 0, by decide +kernel⟩, ?_⟩
    rintro m ⟨hm, -⟩
    simp only [List.mem_cons, List.not_mem_nil, or_false] at hm
    show m ≤ 22
    omega
  exact (selection_iff pep440_implements (by decide) rfl (by decide +kernel)).mp hselects

/-- A range between two minor versions is refused, although npm allows 22.5.0. -/
theorem minor_range_refused :
    selectNodeVersionOf pep440 [22] none (some (py ">=22.5.0 <22.6.0")) =
        .error (.detection (.nodeUnsupported (py "22"))) ∧
      NpmAllows (py ">=22.5.0 <22.6.0") 22 ∧
      ¬ SelectsByNpm [22] (py ">=22.5.0 <22.6.0")
        (selectNodeVersionOf pep440 [22] none (some (py ">=22.5.0 <22.6.0"))) := by
  have herror : selectNodeVersionOf pep440 [22] none (some (py ">=22.5.0 <22.6.0")) =
      .error (.detection (.nodeUnsupported (py "22"))) := by decide +kernel
  have hallows : NpmAllows (py ">=22.5.0 <22.6.0") 22 :=
    ⟨py ">=22.5.0 <22.6.0", by decide +kernel, 5, 0, by decide +kernel⟩
  refine ⟨herror, hallows, fun h => ?_⟩
  rw [herror] at h
  exact h 22 List.mem_cons_self hallows

end BuildEngine.Detect
