import BuildEngine.Base.Outcome
import BuildEngine.Base.Replace
import BuildEngine.Base.Words

/-! # The secret env file

`_format_env_file` writes one line `key=value` for each secret, sorted by key, and refuses a key that is no identifier
and a value with a line break. `readEnvFile` reads a file the way Docker does: a line ends at a newline, an empty line
and one that begins with `#` is skipped, and the first `=` ends the key. Reading what was written gives the secrets
(`formatEnvFile_read`), since neither `=` nor `#` nor a newline is a letter, a digit or an underscore. -/

namespace BuildEngine.Executor.EnvFile

open BuildEngine.Base

/-! ### The predicates of the interpreter -/

/-- What the Unicode tables of the interpreter say of the code points beyond ASCII: the letters and numbers, and the
digits. -/
structure CharTables where
  alnum : CodePoint → Bool
  digit : CodePoint → Bool

/-- An ASCII letter. -/
def isLetter (c : CodePoint) : Bool := (65 ≤ c.val && c.val ≤ 90) || (97 ≤ c.val && c.val ≤ 122)

namespace CharTables
variable (tables : CharTables)

/-- `c.isalnum()` -/
def isalnumChar (c : CodePoint) : Bool := if c.val < 0x80 then isDigit c || isLetter c else tables.alnum c

/-- `s.isalnum()` -/
def isalnum (s : PyStr) : Bool := s ≠ [] && s.all tables.isalnumChar

/-- `c.isdigit()` -/
def isdigit (c : CodePoint) : Bool := if c.val < 0x80 then isDigit c else tables.digit c

end CharTables

/-! ### Writing -/

/-- The `DockerError`s of the file. -/
inductive DockerError where
  | invalidName (key : PyStr)
  | newline (key : PyStr)
  deriving DecidableEq

/-- The text of an error, which spells the key as `repr` does. -/
def DockerError.text (repr : PyStr → PyStr) : DockerError → PyStr
  | invalidName key => py "Invalid secret env var name: " ++ repr key
  | newline key => py "Secret env var " ++ repr key ++ py " contains a newline"

/-- A mapping of strings to strings, in the order of its items. -/
structure SecretEnv where
  items : List (PyStr × PyStr)
  nodup : (items.map Prod.fst).Nodup

/-- The order of `sorted` on the items: by key, then by value. -/
def itemLe (a b : PyStr × PyStr) : Prop := a.1 < b.1 ∨ a.1 = b.1 ∧ a.2 ≤ b.2

instance (a b : PyStr × PyStr) : Decidable (itemLe a b) := inferInstanceAs (Decidable (_ ∨ _))

/-- `sorted(secret_env.items())` -/
def SecretEnv.sorted (env : SecretEnv) : List (PyStr × PyStr) := env.items.insertionSort itemLe

section Format
variable (tables : CharTables)

/-- `key.replace("_", "").isalnum() and not key[0].isdigit()` for a non-empty key -/
def isValidKey : PyStr → Bool
  | [] => false
  | c :: s => tables.isalnum (replace (py "_") [] (c :: s)) && !tables.isdigit c

/-- `_validate_secret_env_key` -/
def validateSecretEnvKey (key : PyStr) : Except DockerError Unit :=
  if isValidKey tables key then .ok () else .error (.invalidName key)

/-- The loop of `_format_env_file`. -/
def formatLines : List (PyStr × PyStr) → Except DockerError (List PyStr)
  | [] => .ok []
  | (key, value) :: items => do
    validateSecretEnvKey tables key
    if ch '\n' ∈ value ∨ ch '\r' ∈ value then throw (.newline key)
    let lines ← formatLines items
    return (key ++ py "=" ++ value) :: lines

/-- `_format_env_file` -/
def formatEnvFile (secretEnv : SecretEnv) : Except DockerError PyStr := do
  let lines ← formatLines tables secretEnv.sorted
  return join (py "\n") lines ++ if lines = [] then [] else py "\n"

end Format

/-! ### Reading -/

/-- The lines of a file: what follows the last newline is a line if it is not empty. -/
def fileLines (text : PyStr) : List PyStr :=
  let parts := splitOn (py "\n") text
  if parts.getLast? = some [] then parts.dropLast else parts

/-- A line up to its first `=`, and what follows it, if it has one. -/
def cut (line : PyStr) : PyStr × Option PyStr :=
  (line.takeWhile (· ≠ ch '='), (line.dropWhile (· ≠ ch '=')).tail?)

/-- A line that is read. -/
def isEntry (line : PyStr) : Bool := line ≠ [] && line.head? ≠ some (ch '#')

/-- The variables a file sets, in order; a line without `=` names one without a value. -/
def readEnvFile (text : PyStr) : List (PyStr × Option PyStr) := ((fileLines text).filter isEntry).map cut

/-! ### Keys -/

theorem replaceFrom_singleton (c : CodePoint) : ∀ s : PyStr, replaceFrom [c] [] 0 s = s.filter (· ≠ c)
  | [] => rfl
  | d :: s => by
    have hrest := replaceFrom_singleton c s
    by_cases hd : d = c
    · have hpresent : [c] <+: d :: s := hd ▸ ⟨s, rfl⟩
      rw [replaceFrom_of_present hpresent, List.nil_append, List.length_singleton, Nat.sub_self, hrest,
        List.filter_cons_of_neg (by simpa using hd)]
    · have habsent : ¬ [c] <+: d :: s := fun hp => hd (List.cons_prefix_cons.mp hp).1.symm
      rw [replaceFrom_of_absent habsent, hrest, List.filter_cons_of_pos (by simpa using hd)]

/-- Removing a character. -/
theorem replace_singleton (c : CodePoint) (s : PyStr) : replace [c] [] s = s.filter (· ≠ c) :=
  replaceFrom_singleton c s

section Keys
variable {tables : CharTables} {key : PyStr}

/-- The characters of a valid key are underscores, letters and numbers. -/
theorem mem_of_isValidKey (h : isValidKey tables key = true) {c : CodePoint} (hc : c ∈ key) :
    c = ch '_' ∨ tables.isalnumChar c = true := by
  rcases key with _ | ⟨d, s⟩
  · exact absurd hc List.not_mem_nil
  · have hall := (Bool.and_eq_true _ _).mp h |>.1
    have hmem := (Bool.and_eq_true _ _).mp hall |>.2
    by_cases heq : c = ch '_'
    · exact Or.inl heq
    · have hfilter : c ∈ replace (py "_") [] (d :: s) := by
        have hfrom := replace_singleton (ch '_') (d :: s)
        have hkept : c ∈ (d :: s).filter (· ≠ ch '_') := List.mem_filter.mpr ⟨hc, by simpa using heq⟩
        exact hfrom ▸ hkept
      exact Or.inr (List.all_eq_true.mp hmem c hfilter)

theorem notMem_of_isValidKey (h : isValidKey tables key = true) {c : CodePoint} (hne : c ≠ ch '_')
    (hlow : c.val < 0x80) (hother : (isDigit c || isLetter c) = false) : c ∉ key := by
  intro hc
  rcases mem_of_isValidKey h hc with heq | halnum
  · exact hne heq
  · rw [CharTables.isalnumChar, if_pos hlow, hother] at halnum
    exact Bool.false_ne_true halnum

theorem ne_nil_of_isValidKey (h : isValidKey tables key = true) : key ≠ [] := by
  rintro rfl
  exact Bool.false_ne_true h

/-- No valid key has a character that ends a key or a line or begins a comment. -/
theorem plain_of_isValidKey (h : isValidKey tables key = true) : ch '=' ∉ key ∧ ch '\n' ∉ key ∧ ch '#' ∉ key :=
  ⟨notMem_of_isValidKey h (by decide) (by decide) (by decide),
    notMem_of_isValidKey h (by decide) (by decide) (by decide),
    notMem_of_isValidKey h (by decide) (by decide) (by decide)⟩

end Keys

/-! ### Lines -/

/-- A secret that is written. -/
def Writable (tables : CharTables) (kv : PyStr × PyStr) : Prop :=
  isValidKey tables kv.1 = true ∧ ch '\n' ∉ kv.2 ∧ ch '\r' ∉ kv.2

/-- The line of a secret. -/
def line (kv : PyStr × PyStr) : PyStr := kv.1 ++ py "=" ++ kv.2

section Lines
variable {tables : CharTables}

/-- The loop writes the lines of secrets that can be written. -/
theorem formatLines_ok : ∀ {items : List (PyStr × PyStr)} {lines : List PyStr},
    formatLines tables items = .ok lines → (∀ kv ∈ items, Writable tables kv) ∧ lines = items.map line
  | [], lines, h => by
    obtain rfl : [] = lines := Except.ok.inj h
    exact ⟨by simp, rfl⟩
  | (key, value) :: items, lines, h => by
    rw [formatLines] at h
    obtain ⟨_, hkey, h⟩ := bind_ok h
    have hvalid : isValidKey tables key = true := by
      by_contra hno
      rw [validateSecretEnvKey, if_neg hno] at hkey
      cases hkey
    by_cases hbreak : ch '\n' ∈ value ∨ ch '\r' ∈ value
    · rw [if_pos hbreak] at h
      cases h
    · rw [if_neg hbreak] at h
      obtain ⟨rest, hrest, h⟩ := bind_ok h
      obtain ⟨hall, rfl⟩ := formatLines_ok hrest
      obtain rfl := Except.ok.inj h
      refine ⟨fun kv hmem => ?_, rfl⟩
      rcases List.mem_cons.mp hmem with rfl | hmem
      · exact ⟨hvalid, not_or.mp hbreak⟩
      · exact hall kv hmem

theorem formatLines_of_writable : ∀ {items : List (PyStr × PyStr)},
    (∀ kv ∈ items, Writable tables kv) → formatLines tables items = .ok (items.map line)
  | [], _ => rfl
  | (key, value) :: items, h => by
    obtain ⟨hkey, hn, hr⟩ := h (key, value) List.mem_cons_self
    have hrest := formatLines_of_writable fun kv hkv => h kv (List.mem_cons_of_mem _ hkv)
    rw [formatLines, validateSecretEnvKey, if_pos hkey, if_neg (not_or.mpr ⟨hn, hr⟩), hrest]
    rfl

variable {kv : PyStr × PyStr}

theorem newline_notMem_line (h : Writable tables kv) : ch '\n' ∉ line kv := by
  obtain ⟨hkey, hvalue, -⟩ := h
  have hequals : ch '\n' ∉ py "=" := by decide
  simp only [line, List.mem_append, not_or]
  exact ⟨⟨(plain_of_isValidKey hkey).2.1, hequals⟩, hvalue⟩

theorem isEntry_line (h : Writable tables kv) : isEntry (line kv) = true := by
  obtain ⟨key, value⟩ := kv
  have hhash := (plain_of_isValidKey h.1).2.2
  rcases key with _ | ⟨c, s⟩
  · exact absurd rfl (ne_nil_of_isValidKey h.1)
  · have hne : c ≠ ch '#' := fun heq => hhash (heq ▸ List.mem_cons_self)
    simp [isEntry, line, hne]

theorem cut_line (h : Writable tables kv) : cut (line kv) = (kv.1, some kv.2) := by
  have hequals := (plain_of_isValidKey h.1).1
  have hbefore : ∀ c ∈ kv.1, decide (c ≠ ch '=') = true := fun c hc =>
    decide_eq_true fun heq => hequals (heq ▸ hc)
  have hline : line kv = kv.1 ++ (ch '=' :: kv.2) := by simp [line, py]
  have hstop : ∀ s : PyStr, (ch '=' :: s).takeWhile (· ≠ ch '=') = [] := fun s => by simp
  have hstop' : ∀ s : PyStr, (ch '=' :: s).dropWhile (· ≠ ch '=') = ch '=' :: s := fun s => by simp
  rw [cut, hline, List.takeWhile_append_of_pos hbefore, List.dropWhile_append_of_pos hbefore, hstop, hstop',
    List.append_nil]
  rfl

end Lines

/-! ### The file -/

/-- Lines without a newline are the lines of the file that has each of them end with one. -/
theorem fileLines_join {lines : List PyStr} (hne : lines ≠ []) (h : ∀ l ∈ lines, ch '\n' ∉ l) :
    fileLines (join (py "\n") lines ++ py "\n") = lines := by
  have hjoin : join (py "\n") (lines ++ [[]]) = join (py "\n") lines ++ py "\n" := by
    rw [join_append hne (List.cons_ne_nil _ _), join_singleton, List.append_nil]
  have hsplit : splitOn (py "\n") (join (py "\n") (lines ++ [[]])) = lines ++ [[]] :=
    splitOn_join (ch '\n') (by simp) fun part hpart => by
      rcases List.mem_append.mp hpart with hpart | hpart
      · exact h part hpart
      · rw [List.mem_singleton.mp hpart]
        exact List.not_mem_nil
  rw [← hjoin, fileLines, hsplit]
  simp

theorem fileLines_nil : fileLines [] = [] := by decide

theorem readEnvFile_of_lines {text : PyStr} {items : List (PyStr × PyStr)} {tables : CharTables}
    (h : ∀ kv ∈ items, Writable tables kv) (hlines : fileLines text = items.map line) :
    readEnvFile text = items.map fun kv => (kv.1, some kv.2) := by
  have hall : ∀ l ∈ items.map line, isEntry l = true := by
    intro l hl
    obtain ⟨kv, hkv, rfl⟩ := List.mem_map.mp hl
    exact isEntry_line (h kv hkv)
  rw [readEnvFile, hlines, List.filter_eq_self.mpr hall, List.map_map]
  exact List.map_congr_left fun kv hkv => cut_line (h kv hkv)

/-- **The file cannot be injected**: writing the secrets raises a `DockerError`, or reading the file back gives each
secret once and nothing else. -/
theorem formatEnvFile_read (tables : CharTables) (secretEnv : SecretEnv) :
    (∃ e, formatEnvFile tables secretEnv = .error e) ∨
      ∃ text, formatEnvFile tables secretEnv = .ok text ∧
        (readEnvFile text).Perm (secretEnv.items.map fun kv => (kv.1, some kv.2)) ∧
        ((readEnvFile text).map Prod.fst).Nodup := by
  rcases hlines : formatLines tables secretEnv.sorted with e | lines
  · exact Or.inl ⟨e, by rw [formatEnvFile, hlines]; rfl⟩
  · have hformat : formatEnvFile tables secretEnv =
        .ok (join (py "\n") lines ++ if lines = [] then [] else py "\n") := by
      rw [formatEnvFile, hlines]
      rfl
    obtain ⟨hall, rfl⟩ := formatLines_ok hlines
    have hnewline : ∀ l ∈ secretEnv.sorted.map line, ch '\n' ∉ l := by
      intro l hl
      obtain ⟨kv, hkv, rfl⟩ := List.mem_map.mp hl
      exact newline_notMem_line (hall kv hkv)
    have hfile : fileLines (join (py "\n") (secretEnv.sorted.map line) ++
        if secretEnv.sorted.map line = [] then [] else py "\n") = secretEnv.sorted.map line := by
      by_cases hempty : secretEnv.sorted.map line = []
      · rw [if_pos hempty, hempty]
        exact fileLines_nil
      · rw [if_neg hempty]
        exact fileLines_join hempty hnewline
    have hread := readEnvFile_of_lines hall hfile
    have hperm : secretEnv.sorted.Perm secretEnv.items := List.perm_insertionSort itemLe secretEnv.items
    have hkeys : ((secretEnv.sorted.map fun kv => (kv.1, some kv.2)).map Prod.fst).Perm
        (secretEnv.items.map Prod.fst) := by
      rw [List.map_map]
      exact hperm.map Prod.fst
    refine Or.inr ⟨_, hformat, ?_, ?_⟩
    · rw [hread]
      exact hperm.map _
    · rw [hread]
      exact hkeys.nodup_iff.mpr secretEnv.nodup

/-- The secrets are written exactly if each key is an identifier and no value has a line break. -/
theorem formatEnvFile_isOk_iff {tables : CharTables} {secretEnv : SecretEnv} :
    (∃ text, formatEnvFile tables secretEnv = .ok text) ↔ ∀ kv ∈ secretEnv.items, Writable tables kv := by
  have hmem : ∀ kv, kv ∈ secretEnv.sorted ↔ kv ∈ secretEnv.items := fun kv => List.mem_insertionSort itemLe
  constructor
  · rintro ⟨text, htext⟩ kv hkv
    obtain ⟨lines, hlines, -⟩ := bind_ok htext
    exact (formatLines_ok hlines).1 kv ((hmem kv).mpr hkv)
  · intro h
    have hlines := formatLines_of_writable fun kv hkv => h kv ((hmem kv).mp hkv)
    exact ⟨_, by rw [formatEnvFile, hlines]; rfl⟩

end BuildEngine.Executor.EnvFile
