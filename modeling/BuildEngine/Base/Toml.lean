import BuildEngine.Base.JsonRoundTrip
import BuildEngine.Base.JsonSize
import BuildEngine.Base.Replace
import BuildEngine.Base.Utf8

/-! # TOML documents of strings

The part of `tomllib` that reads lines `key = "value"` of a bare key and a one-line basic string. The reader
reports every other construct (comments, tables, dotted and quoted keys, values of other types) as
`unmodelled`, so that `decode` always stands for a `TOMLDecodeError`.

A JSON literal is a basic string as long as its characters are below `0x10000` and no surrogates: JSON writes the
characters from there on as two escaped surrogates, and TOML wants every escape to be a scalar value
(`scanString_strText`). -/

namespace BuildEngine.Base.Toml

open BuildEngine.Base BuildEngine.Base.Json

/-- Why a document is refused: `decode` is a `TOMLDecodeError`. -/
inductive Error where
  | decode
  | unmodelled
  deriving DecidableEq

/-- `TOML_WS` -/
def isWs (c : CodePoint) : Bool := c = ch ' ' || c = ch '\t'

/-- `BARE_KEY_CHARS` -/
def isBareKey (c : CodePoint) : Bool :=
  isDigit c || (65 ≤ c.val && c.val ≤ 90) || (97 ≤ c.val && c.val ≤ 122) || c = ch '-' || c = ch '_'

/-- `ILLEGAL_BASIC_STR_CHARS`: the control characters, except the tab. -/
def isIllegal (c : CodePoint) : Bool := (c.val < 32 && c ≠ ch '\t') || c.val = 127

/-- `BASIC_STR_ESCAPE_REPLACEMENTS` -/
def unescapeLetter (c : CodePoint) : Option CodePoint :=
  if c = ch '"' ∨ c = ch '\\' then some c
  else if c = ch 'b' then some 8 else if c = ch 't' then some 9 else if c = ch 'n' then some 10
  else if c = ch 'f' then some 12 else if c = ch 'r' then some 13 else none

/-- `is_unicode_scalar_value` -/
def isScalarValue (n : ℕ) : Bool := n ≤ 55295 || (57344 ≤ n && n ≤ 1114111)

/-! ### Strings -/

/-- Where `parse_basic_str` stands: between characters, after a backslash, or after some digits of a `\uXXXX`
or a `\UXXXXXXXX`, `left + 1` of which are to come. -/
inductive Scan where
  | plain
  | slash
  | hex (left acc : ℕ)
  deriving DecidableEq

/-- Put a character in front of what a scan has read. -/
def consChar (c : CodePoint) : Except Error (PyStr × PyStr) → Except Error (PyStr × PyStr)
  | .ok (s, rest) => .ok (c :: s, rest)
  | .error e => .error e

/-- `parse_basic_str` after the opening quote. -/
def scanString : Scan → PyStr → Except Error (PyStr × PyStr)
  | _, [] => .error .decode
  | .plain, c :: s =>
    if c = ch '"' then .ok ([], s)
    else if c = ch '\\' then scanString .slash s
    else if isIllegal c then .error .decode
    else consChar c (scanString .plain s)
  | .slash, c :: s =>
    if c = ch 'u' then scanString (.hex 3 0) s
    else if c = ch 'U' then scanString (.hex 7 0) s
    else match unescapeLetter c with
      | some d => consChar d (scanString .plain s)
      | none => .error .decode
  | .hex left acc, c :: s =>
    match hexVal c with
    | none => .error .decode
    | some d =>
      match left with
      | left + 1 => scanString (.hex left (16 * acc + d)) s
      | 0 =>
        if isScalarValue (16 * acc + d) then consChar (Fin.ofNat _ (16 * acc + d)) (scanString .plain s)
        else .error .decode

/-! ### Documents -/

/-- `parse_value` -/
def parseValue : PyStr → Except Error (PyStr × PyStr)
  | [] => .error .decode
  | c :: s =>
    if c ≠ ch '"' then .error .unmodelled
    else if (py "\"\"").isPrefixOf s then .error .unmodelled
    else scanString .plain s

/-- `parse_key_value_pair` -/
def parsePair (s : PyStr) : Except Error ((PyStr × PyStr) × PyStr) :=
  match (s.dropWhile isBareKey).dropWhile isWs with
  | [] => .error .decode
  | c :: rest =>
    if c = ch '.' then .error .unmodelled
    else if c ≠ ch '=' then .error .decode
    else match parseValue (rest.dropWhile isWs) with
      | .error e => .error e
      | .ok (v, rest) => .ok ((s.takeWhile isBareKey, v), rest)

/-- The statements of a document, after those that have given `table`; every line uses one unit of fuel. A
statement that starts with a quote, of either kind, has a quoted key. -/
def statements : ℕ → List (PyStr × PyStr) → PyStr → Except Error (List (PyStr × PyStr))
  | 0, _, _ => .error .decode
  | fuel + 1, table, s =>
    match s.dropWhile isWs with
    | [] => .ok table
    | c :: rest =>
      if c = ch '\n' then statements fuel table rest
      else if c = ch '"' || c.val = 39 || c = ch '[' || c = ch '#' then .error .unmodelled
      else if !isBareKey c then .error .decode
      else match parsePair (c :: rest) with
        | .error e => .error e
        | .ok (kv, rest) =>
          if kv.1 ∈ table.map Prod.fst then .error .decode
          else match rest.dropWhile isWs with
            | [] => .ok (table ++ [kv])
            | d :: rest =>
              if d = ch '#' then .error .unmodelled
              else if d = ch '\n' then statements fuel (table ++ [kv]) rest
              else .error .decode

/-- `tomllib.loads(text)` -/
def loads (text : PyStr) : Except Error (List (PyStr × PyStr)) :=
  statements (text.length + 1) [] (replace (py "\r\n") (py "\n") text)

/-- `key = <value>` and the end of the line. -/
def line (kv : PyStr × PyStr) : PyStr := kv.1 ++ py " = " ++ strText kv.2 ++ [ch '\n']

/-! ### Reading a JSON literal -/

/-- Every character of the text has an escape of TOML: no surrogate pair is written for it. -/
def Basic (s : PyStr) : Prop := ∀ c ∈ s, c.val < 0x10000

instance (s : PyStr) : Decidable (Basic s) :=
  decidable_of_iff (s.all (·.val < 0x10000) = true) (by simp [Basic])

/-- Every character of the text is written as an escape of TOML, or as itself. -/
def Plain (s : PyStr) : Prop := ∀ c ∈ s, c.val < 0x10000 ∧ Scalar c

instance decidablePlain (s : PyStr) : Decidable (Plain s) :=
  decidable_of_iff (s.all (fun c => decide (c.val < 0x10000) && decide (Scalar c)) = true) (by simp [Plain])

/-- A text without surrogates is written with escapes of TOML exactly if it is in the basic plane. -/
theorem plain_iff {s : PyStr} (h : ∀ c ∈ s, Scalar c) : Plain s ↔ Basic s :=
  ⟨fun hplain c hc => (hplain c hc).1, fun hbasic c hc => ⟨hbasic c hc, h c hc⟩⟩

theorem scanString_escapeUnit {n : ℕ} (hn : n < 0x10000) (s : PyStr) :
    scanString .plain (escapeUnit n ++ s) =
      if isScalarValue n then consChar (Fin.ofNat _ n) (scanString .plain s) else .error .decode := by
  have hlt : ∀ m : ℕ, m % 16 < 16 := fun m => Nat.mod_lt _ (by norm_num)
  have hq : ch '\\' ≠ ch '"' := by decide
  have hval : 16 * (16 * (16 * (16 * 0 + n / 4096 % 16) + n / 256 % 16) + n / 16 % 16) + n % 16 = n := by
    omega
  simp only [escapeUnit, List.cons_append, List.nil_append, scanString, if_neg hq, if_true,
    hexVal_hexDigit _ (hlt _), hval]

/-- The letter of an escape is one of TOML's, for the same character. -/
theorem unescape_escape {c l : CodePoint} (h : escapeLetter c.val = some l) :
    l ≠ ch 'u' ∧ l ≠ ch 'U' ∧ unescapeLetter l = some c := by
  have hall : shortEscapes.all (fun p => p.2 ≠ ch 'u' && p.2 ≠ ch 'U' && unescapeLetter p.2 = some p.1) = true := by
    decide
  simpa [and_assoc] using List.all_eq_true.mp hall (c, l) (mem_shortEscapes h)

/-- One character: read back, or refused if it is written as a surrogate or as two. -/
theorem scanString_escape (c : CodePoint) (s : PyStr) : scanString .plain (escape c ++ s) =
    if c.val < 0x10000 ∧ Scalar c then consChar c (scanString .plain s) else .error .decode := by
  have hq : ch '\\' ≠ ch '"' := by decide
  have hscalar := scalar_iff (c := c)
  have hlt := c.isLt
  unfold escape
  rcases he : escapeLetter c.val with _ | l
  · dsimp only
    by_cases hplain : 32 ≤ c.val ∧ c.val ≤ 126
    · -- neither the quote nor the backslash: both have a letter
      have h1 : c ≠ ch '"' := by rintro rfl; exact absurd he (by decide)
      have h2 : c ≠ ch '\\' := by rintro rfl; exact absurd he (by decide)
      have h3 : isIllegal c = false := by
        simp only [isIllegal, Bool.or_eq_false_iff, Bool.and_eq_false_iff, decide_eq_false_iff_not]
        omega
      rw [if_pos hplain, if_pos ⟨by omega, hscalar.mpr (by omega)⟩]
      simp only [List.cons_append, List.nil_append, scanString, if_neg h1, if_neg h2, h3]
      rfl
    · rw [if_neg hplain]
      by_cases hbasic : c.val < 0x10000
      · have hval : isScalarValue c.val = true ↔ Scalar c := by
          simp only [isScalarValue, Bool.or_eq_true, Bool.and_eq_true, decide_eq_true_eq, hscalar]
          omega
        have hsame : Fin.ofNat 0x110000 c.val = c := by
          ext; exact Nat.mod_eq_of_lt hlt
        rw [if_pos hbasic, scanString_escapeUnit hbasic, hsame]
        simp only [hval, hbasic, true_and]
      · -- the first half of the pair is a surrogate
        have hhigh : ¬ isScalarValue (0xd800 + (c.val - 0x10000) / 1024) = true := by
          simp only [isScalarValue, Bool.or_eq_true, Bool.and_eq_true, decide_eq_true_eq]
          omega
        rw [if_neg hbasic, if_neg fun h => hbasic h.1, List.append_assoc, scanString_escapeUnit (by omega),
          if_neg hhigh]
  · obtain ⟨hu, hU, hl⟩ := unescape_escape he
    have hsmall : c.val < 0x100 := by
      unfold escapeLetter at he
      split_ifs at he <;> omega
    have hplain : c.val < 0x10000 ∧ Scalar c := ⟨by omega, hscalar.mpr (by omega)⟩
    simp only [List.cons_append, List.nil_append, scanString, if_neg hq, if_true, if_neg hu, if_neg hU, hl,
      if_pos hplain]

/-- **A JSON literal as a basic string**: it is read as the text it was written for, or refused, if a character
of the text is written as a surrogate or as two. -/
theorem scanString_strText : ∀ s rest : PyStr,
    scanString .plain (s.flatMap escape ++ ch '"' :: rest) =
      if Plain s then .ok (s, rest) else .error .decode
  | [], rest => by simp [scanString, Plain]
  | c :: s, rest => by
    have hsplit : Plain (c :: s) ↔ (c.val < 0x10000 ∧ Scalar c) ∧ Plain s := List.forall_mem_cons
    rw [List.flatMap_cons, List.append_assoc, scanString_escape c, scanString_strText s rest]
    by_cases hhead : c.val < 0x10000 ∧ Scalar c
    · by_cases htail : Plain s
      · rw [if_pos hhead, if_pos htail, if_pos (hsplit.mpr ⟨hhead, htail⟩)]
        rfl
      · rw [if_pos hhead, if_neg htail, if_neg fun h => htail (hsplit.mp h).2]
        rfl
    · rw [if_neg hhead, if_neg fun h => hhead (hsplit.mp h).1]

/-! ### Reading lines -/

theorem escape_head (c : CodePoint) (s : PyStr) : ∃ d t, escape c ++ s = d :: t ∧ d ≠ ch '"' := by
  unfold escape
  split
  · exact ⟨ch '\\', _, rfl, by decide⟩
  · next hnone =>
    split_ifs
    · refine ⟨c, s, rfl, ?_⟩
      rintro rfl
      exact absurd hnone (by decide)
    · exact ⟨ch '\\', _, rfl, by decide⟩
    · exact ⟨ch '\\', _, rfl, by decide⟩

/-- A literal at the end of a line does not start with three quotes. -/
theorem not_multiline (s rest : PyStr) :
    (py "\"\"").isPrefixOf (s.flatMap escape ++ ch '"' :: ch '\n' :: rest) = false := by
  rcases s with _ | ⟨c, s⟩
  · show (ch '"' == ch '"' && (ch '"' == ch '\n' && _)) = false
    rw [show (ch '"' == ch '\n') = false by decide]
    simp
  · obtain ⟨d, t, heq, hd⟩ := escape_head c (s.flatMap escape ++ ch '"' :: ch '\n' :: rest)
    rw [List.flatMap_cons, List.append_assoc, heq]
    show (ch '"' == d && _) = false
    rw [beq_eq_false_iff_ne.mpr hd.symm, Bool.false_and]

/-- A bare key. -/
structure BareKey (k : PyStr) : Prop where
  nonempty : k ≠ []
  chars : k.all isBareKey = true

theorem takeWhile_bare {k : PyStr} (h : BareKey k) (rest : PyStr) :
    (k ++ ch ' ' :: rest).takeWhile isBareKey = k ∧
      (k ++ ch ' ' :: rest).dropWhile isBareKey = ch ' ' :: rest := by
  have hspace : ∀ c ∈ (ch ' ' :: rest).head?, isBareKey c = false := by
    rintro c ⟨⟩
    decide
  exact ⟨takeWhile_delim h.chars hspace, dropWhile_delim h.chars hspace⟩

/-- The pair of a line. -/
theorem parsePair_line {kv : PyStr × PyStr} (hk : BareKey kv.1) (rest : PyStr) :
    parsePair (line kv ++ rest) =
      if Plain kv.2 then .ok (kv, ch '\n' :: rest) else .error .decode := by
  have htext : line kv ++ rest =
      kv.1 ++ ch ' ' :: ch '=' :: ch ' ' :: ch '"' :: (kv.2.flatMap escape ++ ch '"' :: ch '\n' :: rest) := by
    show kv.1 ++ [ch ' ', ch '=', ch ' '] ++ (ch '"' :: (kv.2.flatMap escape ++ [ch '"'])) ++ [ch '\n'] ++ rest = _
    simp
  obtain ⟨htake, hdrop⟩ := takeWhile_bare hk
    (ch '=' :: ch ' ' :: ch '"' :: (kv.2.flatMap escape ++ ch '"' :: ch '\n' :: rest))
  have hws : ∀ t : PyStr, (ch ' ' :: ch '=' :: t).dropWhile isWs = ch '=' :: t := fun t => rfl
  have hws' : ∀ t : PyStr, (ch ' ' :: ch '"' :: t).dropWhile isWs = ch '"' :: t := fun t => rfl
  unfold parsePair
  rw [htext, hdrop, htake, hws]
  dsimp only
  rw [if_neg (by decide), if_neg (by decide), hws']
  unfold parseValue
  dsimp only
  rw [if_neg (by decide), not_multiline, if_neg Bool.false_ne_true, scanString_strText]
  split_ifs
  · rfl
  · rfl

/-- The first line of a document. -/
theorem statements_line {kv : PyStr × PyStr} (hk : BareKey kv.1) (fuel : ℕ)
    {table : List (PyStr × PyStr)} (hnew : kv.1 ∉ table.map Prod.fst) (rest : PyStr) :
    statements (fuel + 1) table (line kv ++ rest) =
      if Plain kv.2 then statements fuel (table ++ [kv]) rest else .error .decode := by
  obtain ⟨c, k, hkey⟩ := List.exists_cons_of_ne_nil hk.nonempty
  have hc : isBareKey c = true := by
    have := hk.chars
    rw [hkey, List.all_cons, Bool.and_eq_true] at this
    exact this.1
  have hcons : ∃ t, line kv ++ rest = c :: t := by
    refine ⟨k ++ py " = " ++ strText kv.2 ++ [ch '\n'] ++ rest, ?_⟩
    show kv.1 ++ py " = " ++ strText kv.2 ++ [ch '\n'] ++ rest = _
    rw [hkey]
    rfl
  obtain ⟨t, ht⟩ := hcons
  have hne : ∀ d : CodePoint, isBareKey d = false → c ≠ d := by
    rintro d hd rfl
    rw [hc] at hd
    cases hd
  have hws : isWs c = false := by
    simp only [isWs, Bool.or_eq_false_iff, decide_eq_false_iff_not]
    exact ⟨hne _ (by decide), hne _ (by decide)⟩
  have h39 : c.val ≠ 39 := fun h => hne 39 (by decide) (Fin.ext h)
  have hstart : (c = ch '"' || c.val = 39 || c = ch '[' || c = ch '#') = false := by
    simp only [Bool.or_eq_false_iff, decide_eq_false_iff_not]
    exact ⟨⟨⟨hne _ (by decide), h39⟩, hne _ (by decide)⟩, hne _ (by decide)⟩
  have hdrop : (c :: t).dropWhile isWs = c :: t := by rw [List.dropWhile_cons, hws]; rfl
  have hpair := parsePair_line hk rest
  rw [ht] at hpair ⊢
  rw [statements, hdrop]
  dsimp only
  rw [if_neg (hne _ (by decide)), hstart, if_neg Bool.false_ne_true, hc, hpair]
  by_cases hplain : Plain kv.2
  · rw [if_pos hplain, if_pos hplain]
    dsimp only
    rw [if_neg (by decide), if_neg hnew]
    rfl
  · rw [if_neg hplain, if_neg hplain]
    rfl

/-- **Documents of lines**: they are read as the pairs they were written for, or refused, if a character of a
value is written as a surrogate or as two. -/
theorem statements_lines : ∀ {kvs : List (PyStr × PyStr)} {table : List (PyStr × PyStr)} {fuel : ℕ},
    (∀ kv ∈ kvs, BareKey kv.1) → ((table ++ kvs).map Prod.fst).Nodup →
    kvs.length < fuel →
    statements fuel table (kvs.flatMap line) =
      if ∀ kv ∈ kvs, Plain kv.2 then .ok (table ++ kvs) else .error .decode
  | [], table, fuel + 1, _, _, _ => by simp [statements]
  | kv :: kvs, table, fuel + 1, hkvs, hnodup, hfuel => by
    obtain ⟨hk, hrest⟩ := List.forall_mem_cons.mp hkvs
    have hassoc : table ++ kv :: kvs = (table ++ [kv]) ++ kvs := by simp
    have hnew : kv.1 ∉ table.map Prod.fst := by
      rw [List.map_append, List.map_cons] at hnodup
      exact fun hmem => (List.disjoint_of_nodup_append hnodup) hmem List.mem_cons_self
    rw [List.flatMap_cons, statements_line hk fuel hnew, hassoc]
    rw [hassoc] at hnodup
    rw [statements_lines hrest hnodup (by simpa using hfuel)]
    by_cases hhead : Plain kv.2
    · rw [if_pos hhead]
      simp only [List.forall_mem_cons, hhead, true_and]
    · rw [if_neg hhead, if_neg fun h => hhead (h kv List.mem_cons_self)]

/-! ### Whole documents -/

theorem printable_hexDigit {n : ℕ} (h : n < 16) : 32 ≤ (hexDigit n).val := by
  unfold hexDigit
  show 32 ≤ (if n < 10 then 48 + n else 87 + n) % 0x110000
  split_ifs <;> omega

theorem printable_escapeUnit (n : ℕ) : ∀ c ∈ escapeUnit n, 32 ≤ c.val := by
  have hlt : ∀ m : ℕ, m % 16 < 16 := fun m => Nat.mod_lt _ (by norm_num)
  intro c hc
  simp only [escapeUnit, List.mem_cons, List.not_mem_nil, or_false] at hc
  rcases hc with rfl | rfl | rfl | rfl | rfl | rfl
  · decide
  · decide
  · exact printable_hexDigit (hlt _)
  · exact printable_hexDigit (hlt _)
  · exact printable_hexDigit (hlt _)
  · exact printable_hexDigit (hlt _)

theorem printable_escape (c : CodePoint) : ∀ d ∈ escape c, 32 ≤ d.val := by
  intro d hd
  unfold escape at hd
  split at hd
  · next l hl =>
    rcases List.mem_cons.mp hd with rfl | hd
    · decide
    · rw [List.mem_singleton.mp hd]
      unfold escapeLetter at hl
      split_ifs at hl <;> · rw [← Option.some.inj hl]; decide
  · split_ifs at hd
    · rw [List.mem_singleton.mp hd]
      omega
    · exact printable_escapeUnit _ d hd
    · rcases List.mem_append.mp hd with hd | hd
      · exact printable_escapeUnit _ d hd
      · exact printable_escapeUnit _ d hd

/-- A JSON literal has no control characters. -/
theorem printable_strText (s : PyStr) : ∀ c ∈ strText s, 32 ≤ c.val := by
  intro c hc
  rcases List.mem_cons.mp hc with rfl | hc
  · decide
  · rcases List.mem_append.mp hc with hc | hc
    · obtain ⟨d, -, hd⟩ := List.mem_flatMap.mp hc
      exact printable_escape d c hd
    · rw [List.mem_singleton.mp hc]
      decide

theorem no_return_line {kv : PyStr × PyStr} (hk : BareKey kv.1) : ch '\r' ∉ line kv := by
  intro hmem
  rcases List.mem_append.mp hmem with hmem | hmem
  · rcases List.mem_append.mp hmem with hmem | hmem
    · rcases List.mem_append.mp hmem with hmem | hmem
      · exact absurd (List.all_eq_true.mp hk.chars _ hmem) (by decide)
      · exact absurd hmem (by decide)
    · exact absurd (printable_strText _ _ hmem) (by decide)
  · exact absurd hmem (by decide)

theorem length_lines : ∀ kvs : List (PyStr × PyStr), kvs.length ≤ (kvs.flatMap line).length
  | [] => le_refl _
  | kv :: kvs => by
    have hrest := length_lines kvs
    have hline : 1 ≤ (line kv).length := by
      simp only [line, List.length_append, List.length_singleton]
      omega
    rw [List.flatMap_cons, List.length_append, List.length_cons]
    omega

/-- **A document of lines** with different keys is read as the pairs it was written for, or refused, if a
character of a value is written as a surrogate or as two. -/
theorem loads_lines {kvs : List (PyStr × PyStr)} (hkvs : ∀ kv ∈ kvs, BareKey kv.1)
    (hnodup : (kvs.map Prod.fst).Nodup) :
    loads (kvs.flatMap line) = if ∀ kv ∈ kvs, Plain kv.2 then .ok kvs else .error .decode := by
  have hreturn : ch '\r' ∉ kvs.flatMap line := by
    intro hmem
    obtain ⟨kv, hkv, hmem⟩ := List.mem_flatMap.mp hmem
    exact no_return_line (hkvs kv hkv) hmem
  have hsame : replace (py "\r\n") (py "\n") (kvs.flatMap line) = kvs.flatMap line :=
    replace_of_not_mem (by decide) hreturn
  have hfuel := length_lines kvs
  unfold loads
  rw [hsame, statements_lines hkvs (by simpa using hnodup) (by omega), List.nil_append]

end BuildEngine.Base.Toml
