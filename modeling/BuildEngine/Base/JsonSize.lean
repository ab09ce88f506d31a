import BuildEngine.Base.JsonSort

/-! # The length of a text

`json.dumps` writes ASCII characters only (`ascii_dumps`), so the encoded length of a text is its number of
characters. `textSize` bounds it, and does not depend on the order of the members (`textSize_sortKeys`); neither
does the length itself, which for an object is the sum over its members (`length_dumps_obj`). -/

namespace BuildEngine.Base.Json

/-! ### ASCII -/

theorem ascii_cons {c : CodePoint} {s : PyStr} (hc : c.val < 0x80) (hs : Ascii s) : Ascii (c :: s) := by
  intro d hd
  rcases List.mem_cons.mp hd with rfl | hd
  · exact hc
  · exact hs d hd

theorem encodedLength_of_ascii : ∀ {s : PyStr}, Ascii s → encodedLength s = some s.length
  | [], _ => rfl
  | c :: s, h => by
    have hc : c.val < 0x80 := h c List.mem_cons_self
    have hsize : utf8Size c = some 1 := by
      have hhigh : isHigh c.val = false := by
        simp only [isHigh, Bool.and_eq_false_iff, decide_eq_false_iff_not]
        omega
      have hlow : isLow c.val = false := by
        simp only [isLow, Bool.and_eq_false_iff, decide_eq_false_iff_not]
        omega
      unfold utf8Size
      rw [hhigh, hlow]
      simp [hc]
    have hrest := encodedLength_of_ascii fun d hd => h d (List.mem_cons_of_mem _ hd)
    simp only [encodedLength, hsize, hrest, List.length_cons, Option.some.injEq]
    omega

theorem ascii_of_isNumberChar {s : PyStr} (h : s.all isNumberChar = true) : Ascii s := by
  intro c hc
  have hnumber := List.all_eq_true.mp h c hc
  simp only [isNumberChar, isDigit, Bool.or_eq_true, Bool.and_eq_true, decide_eq_true_eq] at hnumber
  rcases hnumber with ((((hd | rfl) | rfl) | rfl) | rfl) | rfl
  · omega
  all_goals decide

theorem ascii_floatText (t : FloatText) : Ascii t.1 := by
  obtain ⟨s, hs⟩ := t
  unfold isFloatText at hs
  rw [Bool.or_eq_true, Bool.and_eq_true, decide_eq_true_eq] at hs
  rcases hs with hconst | ⟨hall, -⟩
  · have hall : ∀ s ∈ floatConstants, Ascii s := by decide
    exact hall s hconst
  · exact ascii_of_isNumberChar hall

theorem ascii_intText (n : ℤ) : Ascii (intText n) := ascii_of_isNumberChar (all_intText n)

theorem ascii_hexDigit {n : ℕ} (h : n < 16) : (hexDigit n).val < 0x80 := by
  unfold hexDigit
  show (if n < 10 then 48 + n else 87 + n) % 0x110000 < 0x80
  split_ifs <;> omega

theorem ascii_escapeUnit (n : ℕ) : Ascii (escapeUnit n) := by
  unfold escapeUnit
  refine ascii_cons (by decide) (ascii_cons (by decide) (ascii_cons (ascii_hexDigit ?_)
    (ascii_cons (ascii_hexDigit ?_) (ascii_cons (ascii_hexDigit ?_) (ascii_cons (ascii_hexDigit ?_) ?_)))))
  · omega
  · omega
  · omega
  · omega
  · simp [Ascii]

theorem ascii_escapeLetter {n : ℕ} {l : CodePoint} (h : escapeLetter n = some l) : l.val < 0x80 := by
  unfold escapeLetter at h
  split_ifs at h <;> · rw [← Option.some.inj h]; decide

theorem ascii_escape (c : CodePoint) : Ascii (escape c) := by
  unfold escape
  split
  · next l hl => exact ascii_cons (by decide) (ascii_cons (ascii_escapeLetter hl) (by simp [Ascii]))
  · split_ifs with hplain hbmp
    · exact ascii_cons (by omega) (by simp [Ascii])
    · exact ascii_escapeUnit _
    · exact ascii_append (ascii_escapeUnit _) (ascii_escapeUnit _)

theorem ascii_strText (s : PyStr) : Ascii (strText s) := by
  refine ascii_cons (by decide) (ascii_append (fun c hc => ?_) (by decide))
  obtain ⟨d, -, hd⟩ := List.mem_flatMap.mp hc
  exact ascii_escape d c hd

mutual

/-- A text `dumps` writes is made of ASCII characters. -/
theorem ascii_dumps : ∀ j : Json, Ascii (dumps j)
  | .null => by rw [dumps]; decide
  | .bool true => by rw [dumps]; decide
  | .bool false => by rw [dumps]; decide
  | .int n => by rw [dumps]; exact ascii_intText n
  | .float t => by rw [dumps]; exact ascii_floatText t
  | .str s => by rw [dumps]; exact ascii_strText s
  | .arr [] => by rw [dumps]; decide
  | .arr (x :: xs) => by
    rw [dumps]
    exact ascii_cons (by decide) (ascii_append (ascii_dumps x) (ascii_dumpsElems xs))
  | .obj [] => by rw [dumps]; decide
  | .obj ((k, v) :: kvs) => by
    rw [dumps]
    exact ascii_cons (by decide) (ascii_append (ascii_strText k)
      (ascii_cons (by decide) (ascii_append (ascii_dumps v) (ascii_dumpsMembers kvs))))

theorem ascii_dumpsElems : ∀ xs : List Json, Ascii (dumpsElems xs)
  | [] => by rw [dumpsElems]; decide
  | x :: xs => by
    rw [dumpsElems]
    exact ascii_cons (by decide) (ascii_append (ascii_dumps x) (ascii_dumpsElems xs))

theorem ascii_dumpsMembers : ∀ kvs : List (PyStr × Json), Ascii (dumpsMembers kvs)
  | [] => by rw [dumpsMembers]; decide
  | (k, v) :: kvs => by
    rw [dumpsMembers]
    exact ascii_cons (by decide) (ascii_append (ascii_strText k)
      (ascii_cons (by decide) (ascii_append (ascii_dumps v) (ascii_dumpsMembers kvs))))

end

/-! ### Size -/

mutual

/-- A bound of the length of a text: a character of a string takes at most twelve. -/
def textSize : Json → ℕ
  | .null => 4
  | .bool _ => 5
  | .int n => (intText n).length
  | .float t => t.1.length
  | .str s => 12 * s.length + 2
  | .arr xs => elemsSize xs + 2
  | .obj kvs => membersSize kvs + 2

/-- The same for the elements of an array, each with its comma. -/
def elemsSize : List Json → ℕ
  | [] => 0
  | x :: xs => textSize x + 1 + elemsSize xs

/-- The same for the members of an object, each with its colon and its comma. -/
def membersSize : List (PyStr × Json) → ℕ
  | [] => 0
  | (k, v) :: kvs => 12 * k.length + 4 + textSize v + membersSize kvs

end

theorem length_escape (c : CodePoint) : (escape c).length ≤ 12 := by
  unfold escape escapeUnit
  split
  · simp
  · split_ifs <;> simp

theorem length_flatMap_escape : ∀ s : PyStr, (s.flatMap escape).length ≤ 12 * s.length
  | [] => by simp
  | c :: s => by
    have hc := length_escape c
    have hs := length_flatMap_escape s
    rw [List.flatMap_cons, List.length_append, List.length_cons]
    omega

theorem length_strText (s : PyStr) : (strText s).length ≤ 12 * s.length + 2 := by
  have hs := length_flatMap_escape s
  unfold strText
  rw [List.length_cons, List.length_append, List.length_singleton]
  omega

mutual

theorem length_dumps : ∀ j : Json, (dumps j).length ≤ textSize j
  | .null => by rw [dumps, textSize]; decide
  | .bool true => by rw [dumps, textSize]; decide
  | .bool false => by rw [dumps, textSize]; decide
  | .int n => by rw [dumps, textSize]
  | .float t => by rw [dumps, textSize]
  | .str s => by rw [dumps, textSize]; exact length_strText s
  | .arr [] => by rw [dumps, textSize, elemsSize]; simp
  | .arr (x :: xs) => by
    have hx := length_dumps x
    have hxs := length_dumpsElems xs
    rw [dumps, textSize, elemsSize, List.length_cons, List.length_append]
    omega
  | .obj [] => by rw [dumps, textSize, membersSize]; simp
  | .obj ((k, v) :: kvs) => by
    have hk := length_strText k
    have hv := length_dumps v
    have hkvs := length_dumpsMembers kvs
    rw [dumps, textSize, membersSize, List.length_cons, List.length_append, List.length_cons,
      List.length_append]
    omega

theorem length_dumpsElems : ∀ xs : List Json, (dumpsElems xs).length ≤ elemsSize xs + 1
  | [] => by rw [dumpsElems, elemsSize]; simp
  | x :: xs => by
    have hx := length_dumps x
    have hxs := length_dumpsElems xs
    rw [dumpsElems, elemsSize, List.length_cons, List.length_append]
    omega

theorem length_dumpsMembers : ∀ kvs : List (PyStr × Json), (dumpsMembers kvs).length ≤ membersSize kvs + 1
  | [] => by rw [dumpsMembers, membersSize]; simp
  | (k, v) :: kvs => by
    have hk := length_strText k
    have hv := length_dumps v
    have hkvs := length_dumpsMembers kvs
    rw [dumpsMembers, membersSize, List.length_cons, List.length_append, List.length_cons,
      List.length_append]
    omega

end

theorem membersSize_eq : ∀ kvs : List (PyStr × Json),
    membersSize kvs = (kvs.map fun kv => 12 * kv.1.length + 4 + textSize kv.2).sum
  | [] => by rw [membersSize]; rfl
  | (k, v) :: kvs => by rw [membersSize, membersSize_eq kvs, List.map_cons, List.sum_cons]

mutual

/-- Sorting keeps the bound. -/
theorem textSize_sortKeys : ∀ j : Json, textSize (sortKeys j) = textSize j
  | .null => by rw [sortKeys]
  | .bool _ => by rw [sortKeys]
  | .int _ => by rw [sortKeys]
  | .float _ => by rw [sortKeys]
  | .str _ => by rw [sortKeys]
  | .arr xs => by rw [sortKeys, textSize, textSize, elemsSize_sortKeys xs]
  | .obj kvs => by
    have hperm := ((sortMembers_perm (sortKeysMembers kvs)).map
      fun kv : PyStr × Json => 12 * kv.1.length + 4 + textSize kv.2).sum_eq
    rw [sortKeys, textSize, textSize, membersSize_eq, hperm, ← membersSize_eq, membersSize_sortKeys kvs]

theorem elemsSize_sortKeys : ∀ xs : List Json, elemsSize (sortKeysElems xs) = elemsSize xs
  | [] => by rw [sortKeysElems]
  | x :: xs => by
    rw [sortKeysElems, elemsSize, elemsSize, textSize_sortKeys x, elemsSize_sortKeys xs]

theorem membersSize_sortKeys : ∀ kvs : List (PyStr × Json),
    membersSize (sortKeysMembers kvs) = membersSize kvs
  | [] => by rw [sortKeysMembers]
  | (k, v) :: kvs => by
    rw [sortKeysMembers, membersSize, membersSize, textSize_sortKeys v, membersSize_sortKeys kvs]

end

/-- **The encoded length of a text** is within the bound. -/
theorem encodedLength_dumpsSorted (j : Json) :
    ∃ n, encodedLength (dumpsSorted j) = some n ∧ n ≤ textSize j := by
  refine ⟨_, encodedLength_of_ascii (ascii_dumps _), ?_⟩
  rw [← textSize_sortKeys j]
  exact length_dumps _

/-! ### Exact lengths -/

/-- The length of a member, with its colon and one comma. -/
def memberLength (kv : PyStr × Json) : ℕ := (strText kv.1).length + (dumps kv.2).length + 2

theorem length_dumpsMembers_eq : ∀ kvs : List (PyStr × Json),
    (dumpsMembers kvs).length = (kvs.map memberLength).sum + 1
  | [] => by rw [dumpsMembers]; rfl
  | (k, v) :: kvs => by
    have hkvs := length_dumpsMembers_eq kvs
    rw [dumpsMembers, List.map_cons, List.sum_cons, memberLength, List.length_cons, List.length_append,
      List.length_cons, List.length_append]
    dsimp only
    omega

/-- The length of an object that has members. -/
theorem length_dumps_obj {kvs : List (PyStr × Json)} (h : kvs ≠ []) :
    (dumps (.obj kvs)).length = (kvs.map memberLength).sum + 1 := by
  obtain ⟨⟨k, v⟩, kvs, rfl⟩ := List.exists_cons_of_ne_nil h
  have hkvs := length_dumpsMembers_eq kvs
  rw [dumps, List.map_cons, List.sum_cons, memberLength, List.length_cons, List.length_append, List.length_cons,
    List.length_append]
  dsimp only
  omega

mutual

/-- Sorting keeps the length. -/
theorem length_dumps_sortKeys : ∀ j : Json, (dumps (sortKeys j)).length = (dumps j).length
  | .null => by rw [sortKeys]
  | .bool _ => by rw [sortKeys]
  | .int _ => by rw [sortKeys]
  | .float _ => by rw [sortKeys]
  | .str _ => by rw [sortKeys]
  | .arr [] => by rw [sortKeys, sortKeysElems]
  | .arr (x :: xs) => by
    have hx := length_dumps_sortKeys x
    have hxs := length_dumpsElems_sortKeys xs
    rw [sortKeys, sortKeysElems, dumps, dumps, List.length_cons, List.length_cons, List.length_append,
      List.length_append]
    omega
  | .obj [] => by rw [sortKeys, sortKeysMembers]; rfl
  | .obj (kv :: kvs) => by
    have hmembers := map_memberLength_sortKeys (kv :: kvs)
    have hperm := sortMembers_perm (sortKeysMembers (kv :: kvs))
    have hne : sortMembers (sortKeysMembers (kv :: kvs)) ≠ [] := by
      intro hnil
      have hlength := hperm.length_eq
      rw [hnil, sortKeysMembers_eq, List.length_map] at hlength
      cases hlength
    rw [sortKeys, length_dumps_obj hne, length_dumps_obj (List.cons_ne_nil _ _), (hperm.map memberLength).sum_eq,
      hmembers]

theorem length_dumpsElems_sortKeys : ∀ xs : List Json,
    (dumpsElems (sortKeysElems xs)).length = (dumpsElems xs).length
  | [] => by rw [sortKeysElems]
  | x :: xs => by
    have hx := length_dumps_sortKeys x
    have hxs := length_dumpsElems_sortKeys xs
    rw [sortKeysElems, dumpsElems, dumpsElems, List.length_cons, List.length_cons, List.length_append,
      List.length_append]
    omega

theorem map_memberLength_sortKeys : ∀ kvs : List (PyStr × Json),
    (sortKeysMembers kvs).map memberLength = kvs.map memberLength
  | [] => by rw [sortKeysMembers]
  | (k, v) :: kvs => by
    have hv := length_dumps_sortKeys v
    rw [sortKeysMembers, List.map_cons, List.map_cons, map_memberLength_sortKeys kvs, memberLength, memberLength, hv]

end

/-- **The encoded length of a text** is its number of characters, in whatever order the members are. -/
theorem encodedLength_dumpsSorted_eq (j : Json) : encodedLength (dumpsSorted j) = some (dumps j).length := by
  rw [dumpsSorted, encodedLength_of_ascii (ascii_dumps _), length_dumps_sortKeys]

/-- A byte of a character takes at most six characters of its escape. -/
theorem length_escape_le {c : CodePoint} {n : ℕ} (h : utf8Size c = some n) : (escape c).length ≤ 6 * n := by
  have hpos : 1 ≤ n ∧ (0x10000 ≤ c.val → n = 4) := by
    unfold utf8Size at h
    split_ifs at h <;> · cases h; omega
  unfold escape escapeUnit
  split
  · simp
    omega
  · split_ifs with hplain hbmp
    · simp
      omega
    · simp
      omega
    · simp
      omega

theorem length_flatMap_escape_le : ∀ {s : PyStr} {n : ℕ}, encodedLength s = some n →
    (s.flatMap escape).length ≤ 6 * n
  | [], n, h => by simp
  | c :: s, n, h => by
    rw [encodedLength] at h
    rcases hc : utf8Size c with _ | k
    · rw [hc] at h
      cases h
    rcases hs : encodedLength s with _ | m
    · rw [hc, hs] at h
      cases h
    rw [hc, hs] at h
    have hsum : k + m = n := Option.some.inj h
    have hchar := length_escape_le hc
    have hrest := length_flatMap_escape_le hs
    rw [List.flatMap_cons, List.length_append]
    omega

/-- The literal of a text of `n` bytes. -/
theorem length_strText_le {s : PyStr} {n : ℕ} (h : encodedLength s = some n) : (strText s).length ≤ 6 * n + 2 := by
  have hs := length_flatMap_escape_le h
  unfold strText
  rw [List.length_cons, List.length_append, List.length_singleton]
  omega

/-- A printable ASCII character other than the quote and the backslash, which is written as itself. -/
def isPlainChar (c : CodePoint) : Bool := 32 ≤ c.val && c.val ≤ 126 && c.val ≠ 34 && c.val ≠ 92

theorem escape_of_plain {c : CodePoint} (h : isPlainChar c = true) : escape c = [c] := by
  simp only [isPlainChar, Bool.and_eq_true, decide_eq_true_eq] at h
  have hletter : escapeLetter c.val = none := by
    unfold escapeLetter
    repeat rw [if_neg (by omega)]
  unfold escape
  rw [hletter]
  exact if_pos h.1.1

/-- The literal of a text of such characters. -/
theorem length_strText_of_plain {s : PyStr} (h : s.all isPlainChar = true) : (strText s).length = s.length + 2 := by
  have hsame : s.flatMap escape = s := by
    induction s with
    | nil => rfl
    | cons c s ih =>
      rw [List.all_cons, Bool.and_eq_true] at h
      rw [List.flatMap_cons, escape_of_plain h.1, ih h.2]
      rfl
  unfold strText
  rw [hsame, List.length_cons, List.length_append, List.length_singleton]

end BuildEngine.Base.Json
