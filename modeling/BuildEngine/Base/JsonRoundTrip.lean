import BuildEngine.Base.Json

/-! # `json.loads` inverts `json.dumps`

A value is *well formed* (`WF`) if its strings hold no high surrogate directly before a low one, the
names of the members of an object are pairwise different, and its integers have at most 4300 digits.
`loads_dumps`: reading back the text of a well-formed value gives the value. The scan of each kind of
token is inverted first (`scanNumber_int`, `scanNumber_float`, `scanString_strText`); the theorem is then
an induction on the value, for every text that may follow it. -/

namespace BuildEngine.Base.Json

/-! ### Decimal texts -/

theorem foldl_decimal (s : PyStr) : ∀ m : ℕ,
    s.foldl (fun n c => 10 * n + digitVal c) m = m * 10 ^ s.length + decimal s := by
  unfold decimal
  induction s with
  | nil => intro m; simp
  | cons c s ih =>
    intro m
    simp only [List.foldl_cons, List.length_cons]
    rw [ih, ih (10 * 0 + digitVal c), pow_succ]
    ring

theorem decimal_cons (c : CodePoint) (s : PyStr) :
    decimal (c :: s) = digitVal c * 10 ^ s.length + decimal s := by
  have := foldl_decimal s (digitVal c)
  unfold decimal at this ⊢
  simpa using this

/-- The digit `d`. -/
theorem digit_val {d : ℕ} (h : d < 10) : (Fin.ofNat 0x110000 (48 + d)).val = 48 + d :=
  Nat.mod_eq_of_lt (by omega)

theorem isDigit_digit {d : ℕ} (h : d < 10) : isDigit (Fin.ofNat 0x110000 (48 + d)) = true := by
  unfold isDigit; rw [digit_val h]; simp; omega

theorem decimal_digitsAux : ∀ (fuel n : ℕ) (acc : PyStr), n < fuel →
    decimal (digitsAux fuel n acc) = n * 10 ^ acc.length + decimal acc
  | 0, n, acc, h => by omega
  | fuel + 1, n, acc, h => by
    have hd : n % 10 < 10 := Nat.mod_lt _ (by norm_num)
    have hv : digitVal (Fin.ofNat 0x110000 (48 + n % 10)) = n % 10 := by
      unfold digitVal; rw [digit_val hd]; omega
    simp only [digitsAux]
    split_ifs with h10
    · rw [decimal_cons, hv, Nat.mod_eq_of_lt h10]
    · rw [decimal_digitsAux fuel (n / 10) _ (by omega), decimal_cons, hv, List.length_cons, pow_succ]
      calc n / 10 * (10 ^ acc.length * 10) + (n % 10 * 10 ^ acc.length + decimal acc)
          = (10 * (n / 10) + n % 10) * 10 ^ acc.length + decimal acc := by ring
        _ = n * 10 ^ acc.length + decimal acc := by rw [Nat.div_add_mod]

theorem decimal_natText (n : ℕ) : decimal (natText n) = n := by
  unfold natText
  rw [decimal_digitsAux (n + 1) n [] (by omega)]
  simp [decimal]

theorem all_digitsAux : ∀ (fuel n : ℕ) (acc : PyStr), acc.all isDigit = true →
    (digitsAux fuel n acc).all isDigit = true
  | 0, _, _, h => h
  | fuel + 1, n, acc, h => by
    have hd : n % 10 < 10 := Nat.mod_lt _ (by norm_num)
    have hc : (Fin.ofNat 0x110000 (48 + n % 10) :: acc).all isDigit = true := by
      rw [List.all_cons, isDigit_digit hd, h]; rfl
    simp only [digitsAux]
    split_ifs
    · exact hc
    · exact all_digitsAux fuel (n / 10) _ hc

/-- The digits of a positive number do not start with a zero. -/
theorem head_digitsAux : ∀ (fuel n : ℕ) (acc : PyStr), 0 < n → n < fuel →
    ∃ c s, digitsAux fuel n acc = c :: s ∧ c ≠ ch '0'
  | 0, n, acc, _, h => by omega
  | fuel + 1, n, acc, hn, h => by
    simp only [digitsAux]
    split_ifs with h10
    · refine ⟨_, _, rfl, fun he => ?_⟩
      have := congrArg Fin.val he
      rw [digit_val (Nat.mod_lt _ (by norm_num))] at this
      have h0 : (ch '0').val = 48 := rfl
      omega
    · exact head_digitsAux fuel (n / 10) _ (by omega) (by omega)

theorem isWhole_natText (n : ℕ) : isWhole (natText n) = true := by
  have hall : (natText n).all isDigit = true := all_digitsAux _ _ _ rfl
  rcases Nat.eq_zero_or_pos n with rfl | hn
  · decide
  · obtain ⟨c, s, he, hc⟩ := head_digitsAux (n + 1) n [] hn (by omega)
    unfold isWhole
    rw [hall]
    unfold natText
    rw [he]
    simp [hc]

/-! ### Number tokens -/

/-- What may follow a value: the end of the text, or a character no number contains. -/
def Delim (rest : PyStr) : Prop := ∀ c ∈ rest.head?, isNumberChar c = false

theorem delim_cons {c : CodePoint} {rest : PyStr} (h : isNumberChar c = false) : Delim (c :: rest) := by
  intro d hd
  simp at hd
  rw [← hd]; exact h

theorem takeWhile_delim {p : CodePoint → Bool} {s r : PyStr} (hs : s.all p = true)
    (hr : ∀ c ∈ r.head?, p c = false) : (s ++ r).takeWhile p = s := by
  have hs' : ∀ c ∈ s, p c = true := by simpa using hs
  rw [List.takeWhile_append_of_pos hs']
  cases r with
  | nil => simp
  | cons c r => simp [hr c (by simp)]

theorem dropWhile_delim {p : CodePoint → Bool} {s r : PyStr} (hs : s.all p = true)
    (hr : ∀ c ∈ r.head?, p c = false) : (s ++ r).dropWhile p = r := by
  have hs' : ∀ c ∈ s, p c = true := by simpa using hs
  rw [List.dropWhile_append_of_pos hs']
  cases r with
  | nil => simp
  | cons c r => simp [hr c (by simp)]

theorem all_number_of_digit {s : PyStr} (h : s.all isDigit = true) : s.all isNumberChar = true := by
  rw [List.all_eq_true] at h ⊢
  intro c hc
  simp [isNumberChar, h c hc]

theorem all_intText (n : ℤ) : (intText n).all isNumberChar = true := by
  have h : (natText n.natAbs).all isNumberChar = true :=
    all_number_of_digit (all_digitsAux _ _ _ rfl)
  unfold intText
  split_ifs
  · rw [List.all_cons, h]; rfl
  · exact h

/-- A digit is no minus sign. -/
theorem ne_minus_of_digit {c : CodePoint} (h : isDigit c = true) : c ≠ ch '-' := by
  rintro rfl
  exact absurd h (by decide)

theorem splitNumber_intText (n : ℤ) :
    splitNumber (intText n) = some ⟨decide (n < 0), natText n.natAbs, none, none⟩ := by
  have hd : (natText n.natAbs).all isDigit = true := all_digitsAux _ _ _ rfl
  have hw := isWhole_natText n.natAbs
  have htake : (natText n.natAbs).takeWhile isDigit = natText n.natAbs := by
    have := takeWhile_delim (r := []) hd (by simp)
    simpa using this
  have hdrop : (natText n.natAbs).dropWhile isDigit = [] := by
    have := dropWhile_delim (r := []) hd (by simp)
    simpa using this
  unfold intText
  split_ifs with hn
  · simp only [splitNumber, List.head?_cons, decide_true, if_true, List.drop_succ_cons, List.drop_zero,
      htake, hdrop, hw, splitTail, hn]
    simp
  · have hh : (natText n.natAbs).head? ≠ some (ch '-') := by
      intro he
      rw [List.all_eq_true] at hd
      exact ne_minus_of_digit (hd _ (List.mem_of_mem_head? he)) rfl
    simp only [splitNumber, hh, decide_false, if_false, htake, hdrop, hw, if_true,
      splitTail, hn]
    simp

theorem not_mem_floatConstants {s : PyStr} (h : s.all isNumberChar = true) : s ∉ floatConstants := by
  intro hm
  simp only [floatConstants, List.mem_cons, List.not_mem_nil, or_false] at hm
  rcases hm with rfl | rfl | rfl <;> exact absurd h (by decide)

theorem isFloatText_intText (n : ℤ) : isFloatText (intText n) = false := by
  have h1 := not_mem_floatConstants (all_intText n)
  unfold isFloatText
  rw [splitNumber_intText]
  simp [h1, NumberParts.isFloat]

/-- **Reading an integer.** -/
theorem scanNumber_int {n : ℤ} (hn : (natText n.natAbs).length ≤ maxDigits) {rest : PyStr}
    (hr : Delim rest) : scanNumber (intText n ++ rest) = .ok (.int n, rest) := by
  have hf := isFloatText_intText n
  simp only [scanNumber, takeWhile_delim (all_intText n) hr, dropWhile_delim (all_intText n) hr,
    splitNumber_intText, hf, Bool.false_eq_true, dif_neg, not_false_eq_true, decimal_natText]
  rw [if_neg (by omega)]
  congr 3
  by_cases h0 : n < 0
  · rw [decide_eq_true h0, if_pos rfl]; omega
  · rw [decide_eq_false h0, if_neg (by simp)]; omega

/-- **Reading a finite float.** -/
theorem scanNumber_float {t : FloatText} (ht : t.1 ∉ floatConstants) {rest : PyStr} (hr : Delim rest) :
    scanNumber (t.1 ++ rest) = .ok (.float t, rest) := by
  have h := t.2
  simp only [isFloatText, ht, decide_false, Bool.false_or, Bool.and_eq_true] at h
  obtain ⟨hall, hs⟩ := h
  obtain ⟨p, hp⟩ : ∃ p, splitNumber t.1 = some p := by
    rcases hsp : splitNumber t.1 with _ | p
    · rw [hsp] at hs; simp at hs
    · exact ⟨p, rfl⟩
  simp only [scanNumber, takeWhile_delim hall hr, dropWhile_delim hall hr, hp]
  rw [dif_pos t.2]

/-! ### Atoms -/

theorem eat_cons_ne {a c : CodePoint} (h : a ≠ c) (t s : PyStr) : eat (a :: t) (c :: s) = none := by
  simp [eat, h]

theorem eat_append : ∀ (t s : PyStr), eat t (t ++ s) = some s
  | [], _ => rfl
  | a :: t, s => by simp [eat, eat_append t s]

/-- A number literal starts with a digit, after an optional sign. -/
theorem splitNumber_head {s : PyStr} {p : NumberParts} (h : splitNumber s = some p) :
    ∃ c s', isDigit c = true ∧ (s = c :: s' ∨ s = ch '-' :: c :: s') := by
  have key : ∀ b : PyStr, isWhole (b.takeWhile isDigit) = true → ∃ c b', isDigit c = true ∧ b = c :: b' := by
    intro b hb
    cases b with
    | nil => simp [isWhole] at hb
    | cons c b =>
      by_cases hc : isDigit c = true
      · exact ⟨c, b, hc, rfl⟩
      · simp [isWhole, hc] at hb
  simp only [splitNumber] at h
  by_cases hneg : s.head? = some (ch '-')
  · simp only [hneg, decide_true, if_true] at h
    split_ifs at h with hw
    obtain ⟨c, b, hc, hb⟩ := key _ hw
    cases s with
    | nil => simp at hneg
    | cons m s =>
      simp only [List.head?_cons, Option.some.injEq] at hneg
      simp only [List.drop_succ_cons, List.drop_zero] at hb
      exact ⟨c, b, hc, Or.inr (by rw [hneg, hb])⟩
  · simp only [hneg, decide_false, if_false] at h
    split_ifs at h with hw
    obtain ⟨c, b, hc, hb⟩ := key _ hw
    exact ⟨c, b, hc, Or.inl hb⟩

/-- The text starts like no number: with a character of no number, or with a sign and no digit. -/
def startsPlain : PyStr → Bool
  | a :: b :: _ => !isNumberChar a || (a = ch '-' && !isDigit b)
  | _ => false

theorem startsPlain_constants : ∀ k ∈ constants, startsPlain k.1 = true := by decide

theorem eat_startsPlain {t s : PyStr} {c : CodePoint} {s' : PyStr} (ht : startsPlain t = true)
    (hc : isDigit c = true) (hs : s = c :: s' ∨ s = ch '-' :: c :: s') : eat t s = none := by
  match t, ht with
  | a :: b :: t, ht =>
    simp only [startsPlain, Bool.or_eq_true, Bool.not_eq_true', Bool.and_eq_true, decide_eq_true_eq] at ht
    have hcn : isNumberChar c = true := by simp [isNumberChar, hc]
    have hm : ch '-' ≠ c := fun h => ne_minus_of_digit hc h.symm
    rcases ht with ha | ⟨rfl, hb⟩
    · rcases hs with rfl | rfl
      · exact eat_cons_ne (by rintro rfl; simp [hcn] at ha) _ _
      · exact eat_cons_ne (by rintro rfl; exact absurd ha (by decide)) _ _
    · rcases hs with rfl | rfl
      · exact eat_cons_ne hm _ _
      · rw [eat, if_pos rfl]
        exact eat_cons_ne (by rintro rfl; simp [hc] at hb) _ _

theorem constants_none {s : PyStr} {c : CodePoint} {s' : PyStr} (hc : isDigit c = true)
    (hs : s = c :: s' ∨ s = ch '-' :: c :: s') :
    (constants.findSome? fun k => (eat k.1 s).map fun rest => (k.2, rest)) = none := by
  rw [List.findSome?_eq_none_iff]
  intro k hk
  rw [eat_startsPlain (startsPlain_constants k hk) hc hs]
  rfl

theorem scanAtom_number {s rest : PyStr} {p : NumberParts} (h : splitNumber s = some p) :
    scanAtom (s ++ rest) = scanNumber (s ++ rest) := by
  obtain ⟨c, s', hc, hs⟩ := splitNumber_head h
  have hs' : s ++ rest = c :: (s' ++ rest) ∨ s ++ rest = ch '-' :: c :: (s' ++ rest) := by
    rcases hs with rfl | rfl <;> simp
  unfold scanAtom
  rw [constants_none hc hs']

/-! ### Strings -/

/-- No high surrogate stands directly before a low one. -/
def noPair : PyStr → Bool
  | c :: d :: s => !(isHigh c.val && isLow d.val) && noPair (d :: s)
  | _ => true

/-- The items `escape` writes for a character. -/
def itemsOf (c : CodePoint) : List Item :=
  if (escapeLetter c.val).isSome || (32 ≤ c.val && c.val ≤ 126) then [.raw c]
  else if c.val < 0x10000 then [.unit (Fin.ofNat _ c.val)]
  else [.unit (Fin.ofNat _ (0xd800 + (c.val - 0x10000) / 1024)),
    .unit (Fin.ofNat _ (0xdc00 + (c.val - 0x10000) % 1024))]

theorem hexVal_hexDigit : ∀ d < 16, hexVal (hexDigit d) = some d := by decide

theorem scanItems_escapeUnit {n : ℕ} (hn : n < 0x10000) (s : PyStr) :
    scanItems .plain (escapeUnit n ++ s) = consItem (.unit (Fin.ofNat _ n)) (scanItems .plain s) := by
  have hlt : ∀ m : ℕ, m % 16 < 16 := fun m => Nat.mod_lt _ (by norm_num)
  have hq : ch '\\' ≠ ch '"' := by decide
  have hval : 16 * (16 * (16 * (16 * 0 + n / 4096 % 16) + n / 256 % 16) + n / 16 % 16) + n % 16 = n := by
    omega
  simp only [escapeUnit, List.cons_append, List.nil_append, scanItems, if_neg hq, if_true,
    hexVal_hexDigit _ (hlt _), hval]

/-- The characters that have a letter of their own in an escape, each with that letter. -/
def shortEscapes : List (CodePoint × CodePoint) :=
  [(ch '"', ch '"'), (ch '\\', ch '\\'), (10, ch 'n'), (13, ch 'r'), (9, ch 't'), (12, ch 'f'), (8, ch 'b')]

theorem mem_shortEscapes {c l : CodePoint} (h : escapeLetter c.val = some l) : (c, l) ∈ shortEscapes := by
  have hc : c = Fin.ofNat 0x110000 c.val := by
    ext; exact (Nat.mod_eq_of_lt c.isLt).symm
  unfold escapeLetter at h
  split_ifs at h with h1 h2 h3 h4 h5 h6 h7 <;> cases h <;> rw [hc]
  · rw [h1]; decide
  · rw [h2]; decide
  · rw [h3]; decide
  · rw [h4]; decide
  · rw [h5]; decide
  · rw [h6]; decide
  · rw [h7]; decide

/-- The letter of an escape stands for its character. -/
theorem unescape_escape {c l : CodePoint} (h : escapeLetter c.val = some l) :
    l ≠ ch 'u' ∧ unescapeLetter l = some c := by
  have hall : shortEscapes.all (fun p => p.2 ≠ ch 'u' && unescapeLetter p.2 = some p.1) = true := by decide
  simpa using List.all_eq_true.mp hall (c, l) (mem_shortEscapes h)

theorem scanItems_escape (c : CodePoint) (s : PyStr) :
    scanItems .plain (escape c ++ s) = (itemsOf c).foldr consItem (scanItems .plain s) := by
  have hq : ch '\\' ≠ ch '"' := by decide
  unfold escape itemsOf
  rcases he : escapeLetter c.val with _ | l
  · simp only [Option.isSome_none, Bool.false_or, Bool.and_eq_true, decide_eq_true_eq]
    by_cases h1 : 32 ≤ c.val ∧ c.val ≤ 126
    · -- neither the quote nor the backslash: both have a letter
      have h2 : c ≠ ch '"' := by rintro rfl; exact absurd he (by decide)
      have h3 : c ≠ ch '\\' := by rintro rfl; exact absurd he (by decide)
      rw [if_pos h1, if_pos h1]
      simp only [List.cons_append, List.nil_append, scanItems, if_neg h2, if_neg h3, List.foldr_cons,
        List.foldr_nil]
      rw [if_neg (by omega)]
    · rw [if_neg h1, if_neg h1]
      split_ifs with h4
      · rw [scanItems_escapeUnit h4]; rfl
      · have hlt := c.isLt
        rw [List.append_assoc, scanItems_escapeUnit (by omega), scanItems_escapeUnit (by omega)]
        rfl
  · obtain ⟨hu, hl⟩ := unescape_escape he
    simp only [Option.isSome_some, Bool.true_or, if_true, List.cons_append, List.nil_append, scanItems,
      if_neg hq, if_neg hu, hl, List.foldr_cons, List.foldr_nil]

theorem foldr_consItem (is js : List Item) (rest : PyStr) :
    is.foldr consItem (.ok (js, rest)) = .ok (is ++ js, rest) := by
  induction is with
  | nil => rfl
  | cons i is ih => simp [ih, consItem]

theorem scanItems_flatMap : ∀ (s rest : PyStr),
    scanItems .plain (s.flatMap escape ++ ch '"' :: rest) = .ok (s.flatMap itemsOf, rest)
  | [], rest => by simp [scanItems]
  | c :: s, rest => by
    rw [List.flatMap_cons, List.append_assoc, scanItems_escape, scanItems_flatMap s rest, foldr_consItem,
      List.flatMap_cons]

theorem unit_lt (h : Fin 0x10000) : h.val < 0x110000 := by omega

/-- A unit that is not the first half of a pair stands for itself. -/
theorem joinItems_unit {h : Fin 0x10000} {is : List Item}
    (hno : ∀ l, is.head? = some (.unit l) → ¬ (isHigh h.val = true ∧ isLow l.val = true)) :
    joinItems (.unit h :: is) = ⟨h.val, unit_lt h⟩ :: joinItems is := by
  cases is with
  | nil => simp [joinItems]
  | cons i is =>
    cases i with
    | raw c => simp [joinItems]
    | unit l =>
      have := hno l rfl
      rw [joinItems, if_neg (by simpa using this)]

theorem joinItems_pair {h l : Fin 0x10000} (hp : (isHigh h.val && isLow l.val) = true)
    (is : List Item) : joinItems (.unit h :: .unit l :: is) = joinPair h.val l.val :: joinItems is := by
  rw [joinItems, if_pos hp]

/-- The halves of a character outside the first plane. -/
theorem joinPair_halves {c : CodePoint} (hc : 0x10000 ≤ c.val) {h l : ℕ}
    (hh : h = 0xd800 + (c.val - 0x10000) / 1024) (hl : l = 0xdc00 + (c.val - 0x10000) % 1024) :
    (isHigh h && isLow l) = true ∧ joinPair h l = c := by
  have hlt := c.isLt
  constructor
  · simp only [isHigh, isLow, Bool.and_eq_true, decide_eq_true_eq]; omega
  · ext
    unfold joinPair
    rw [Fin.val_ofNat, Nat.mod_eq_of_lt] <;> omega

/-- The first item of a character is a low surrogate only if the character is. -/
theorem head_itemsOf {c : CodePoint} {l : Fin 0x10000} {is : List Item}
    (h : (itemsOf c ++ is).head? = some (.unit l)) (hl : isLow l.val = true) : isLow c.val = true := by
  have hlt := c.isLt
  unfold itemsOf at h
  split_ifs at h with h1 h2
  · simp at h
  · simp only [List.cons_append, List.nil_append, List.head?_cons, Option.some.injEq, Item.unit.injEq] at h
    rw [← h] at hl
    have : (Fin.ofNat 0x10000 c.val).val = c.val := Nat.mod_eq_of_lt h2
    rwa [this] at hl
  · simp only [List.cons_append, List.nil_append, List.head?_cons, Option.some.injEq, Item.unit.injEq] at h
    rw [← h] at hl
    have : (Fin.ofNat 0x10000 (0xd800 + (c.val - 0x10000) / 1024)).val =
        0xd800 + (c.val - 0x10000) / 1024 := Nat.mod_eq_of_lt (by omega)
    rw [this] at hl
    simp only [isLow, Bool.and_eq_true, decide_eq_true_eq] at hl
    omega

theorem joinItems_flatMap : ∀ {s : PyStr}, noPair s = true → joinItems (s.flatMap itemsOf) = s
  | [], _ => rfl
  | c :: s, h => by
    have hs : noPair s = true := by
      cases s with
      | nil => rfl
      | cons d s => simp only [noPair, Bool.and_eq_true] at h; exact h.2
    have ih := joinItems_flatMap hs
    have hlt := c.isLt
    rw [List.flatMap_cons]
    -- by the form of the items of `c`
    rcases hi : itemsOf c with _ | ⟨i, _ | ⟨j, is⟩⟩
    · unfold itemsOf at hi; split_ifs at hi
    · unfold itemsOf at hi
      split_ifs at hi with h1 h2
      · simp only [List.cons.injEq, and_true] at hi
        rw [← hi, List.singleton_append, joinItems, ih]
      · simp only [List.cons.injEq, and_true] at hi
        have hv : (Fin.ofNat 0x10000 c.val).val = c.val := Nat.mod_eq_of_lt h2
        rw [← hi, List.singleton_append, joinItems_unit, ih]
        · congr 1
          ext; exact hv
        · rintro l hl ⟨hh, hlow⟩
          rw [hv] at hh
          cases s with
          | nil => simp at hl
          | cons d s =>
            rw [List.flatMap_cons] at hl
            have := head_itemsOf hl hlow
            simp [noPair, hh, this] at h
      · simp at hi
    · unfold itemsOf at hi
      split_ifs at hi with h1 h2
      · simp at hi
      · simp at hi
      · simp only [List.cons.injEq] at hi
        obtain ⟨rfl, rfl, rfl⟩ := hi
        have hh : (Fin.ofNat 0x10000 (0xd800 + (c.val - 0x10000) / 1024)).val =
            0xd800 + (c.val - 0x10000) / 1024 := Nat.mod_eq_of_lt (by omega)
        have hl : (Fin.ofNat 0x10000 (0xdc00 + (c.val - 0x10000) % 1024)).val =
            0xdc00 + (c.val - 0x10000) % 1024 := Nat.mod_eq_of_lt (by omega)
        obtain ⟨hp, hj⟩ := joinPair_halves (not_lt.mp h2) hh hl
        rw [List.cons_append, List.cons_append, List.nil_append, joinItems_pair hp, hj, ih]

/-- **Reading a string literal.** -/
theorem scanString_strText {s : PyStr} (h : noPair s = true) (rest : PyStr) :
    scanString (s.flatMap escape ++ ch '"' :: rest) = .ok (s, rest) := by
  unfold scanString
  rw [scanItems_flatMap]
  simp only [joinItems_flatMap h]

/-! ### Values -/

mutual

/-- The value is one `json.dumps` writes and `json.loads` gives back. -/
def wf : Json → Bool
  | .int n => (natText n.natAbs).length ≤ maxDigits
  | .str s => noPair s
  | .arr xs => wfElems xs
  | .obj kvs => decide (kvs.map Prod.fst).Nodup && wfMembers kvs
  | .null => true
  | .bool _ => true
  | .float _ => true

/-- Every element is well formed. -/
def wfElems : List Json → Bool
  | [] => true
  | x :: xs => wf x && wfElems xs

/-- Every name and every value is well formed. -/
def wfMembers : List (PyStr × Json) → Bool
  | [] => true
  | (k, v) :: kvs => noPair k && wf v && wfMembers kvs

end

/-- The value is well formed. -/
def WF (j : Json) : Prop := wf j = true

/-- The first character of a value is neither white space nor a closing bracket. -/
def StartsValue (s : PyStr) : Prop := ∃ c s', s = c :: s' ∧ isSpace c = false ∧ c ≠ ch ']'

theorem startsValue_number {s : PyStr} {p : NumberParts} (h : splitNumber s = some p) :
    StartsValue s := by
  obtain ⟨c, s', hc, hs⟩ := splitNumber_head h
  rcases hs with rfl | rfl
  · refine ⟨c, s', rfl, ?_, by rintro rfl; exact absurd hc (by decide)⟩
    unfold isSpace isDigit at *
    by_contra hsp
    simp only [Bool.not_eq_false, Bool.or_eq_true, decide_eq_true_eq] at hsp
    rcases hsp with ((rfl | rfl) | rfl) | rfl <;> exact absurd hc (by decide)
  · exact ⟨ch '-', c :: s', rfl, by decide, by decide⟩

/-- A float is one of the constants or a number. -/
theorem float_cases (t : FloatText) :
    t.1 ∈ floatConstants ∨ (t.1 ∉ floatConstants ∧ ∃ p, splitNumber t.1 = some p) := by
  by_cases ht : t.1 ∈ floatConstants
  · exact Or.inl ht
  · have h := t.2
    simp only [isFloatText, ht, decide_false, Bool.false_or, Bool.and_eq_true] at h
    rcases hsp : splitNumber t.1 with _ | p
    · rw [hsp] at h; simp at h
    · exact Or.inr ⟨ht, p, rfl⟩

theorem startsValue_dumps : ∀ j : Json, StartsValue (dumps j)
  | .null => ⟨ch 'n', py "ull", rfl, by decide, by decide⟩
  | .bool true => ⟨ch 't', py "rue", rfl, by decide, by decide⟩
  | .bool false => ⟨ch 'f', py "alse", rfl, by decide, by decide⟩
  | .int n => startsValue_number (splitNumber_intText n)
  | .float t => by
    rcases float_cases t with h | ⟨-, p, hp⟩
    · simp only [floatConstants, List.mem_cons, List.not_mem_nil, or_false] at h
      simp only [dumps]
      rcases h with h | h | h <;> rw [h]
      · exact ⟨ch 'N', py "aN", rfl, by decide, by decide⟩
      · exact ⟨ch 'I', py "nfinity", rfl, by decide, by decide⟩
      · exact ⟨ch '-', py "Infinity", rfl, by decide, by decide⟩
    · exact startsValue_number hp
  | .str _ => ⟨ch '"', _, rfl, by decide, by decide⟩
  | .arr [] => ⟨ch '[', _, rfl, by decide, by decide⟩
  | .arr (_ :: _) => ⟨ch '[', _, rfl, by decide, by decide⟩
  | .obj [] => ⟨ch '\x7b', _, rfl, by decide, by decide⟩
  | .obj (_ :: _) => ⟨ch '\x7b', _, rfl, by decide, by decide⟩

theorem skipSpace_cons {c : CodePoint} (h : isSpace c = false) (s : PyStr) :
    skipSpace (c :: s) = c :: s := by
  simp [skipSpace, h]

theorem StartsValue.skipSpace_append {s : PyStr} (h : StartsValue s) (rest : PyStr) :
    skipSpace (s ++ rest) = s ++ rest := by
  obtain ⟨c, s', rfl, hc, -⟩ := h
  exact skipSpace_cons hc _

/-! ### Scanning atoms -/

theorem scanAtom_int {n : ℤ} (hn : wf (.int n) = true) {rest : PyStr} (hr : Delim rest) :
    scanAtom (intText n ++ rest) = .ok (.int n, rest) := by
  rw [scanAtom_number (splitNumber_intText n)]
  exact scanNumber_int (by simpa [wf] using hn) hr

theorem scanAtom_float (t : FloatText) {rest : PyStr} (hr : Delim rest) :
    scanAtom (t.1 ++ rest) = .ok (.float t, rest) := by
  rcases float_cases t with h | ⟨h, p, hp⟩
  · obtain ⟨s, hs⟩ := t
    simp only [floatConstants, List.mem_cons, List.not_mem_nil, or_false] at h
    rcases h with rfl | rfl | rfl <;> rfl
  · rw [scanAtom_number hp]
    exact scanNumber_float h hr

/-- A value that starts with neither a quote nor a bracket is an atom. -/
theorem scanValue_atom {fuel : ℕ} {c : CodePoint} {s : PyStr} (h1 : c ≠ ch '"') (h2 : c ≠ ch '[')
    (h3 : c ≠ ch '\x7b') : scanValue (fuel + 1) (c :: s) = scanAtom (c :: s) := by
  simp [scanValue, h1, h2, h3]

theorem scanValue_number {fuel : ℕ} {s rest : PyStr} {p : NumberParts} (h : splitNumber s = some p) :
    scanValue (fuel + 1) (s ++ rest) = scanAtom (s ++ rest) := by
  obtain ⟨c, s', hc, hs⟩ := splitNumber_head h
  have hne : ∀ l : Char, isDigit (ch l) = false → c ≠ ch l := by
    rintro l hl rfl
    rw [hc] at hl; exact absurd hl (by decide)
  rcases hs with rfl | rfl
  · exact scanValue_atom (hne '"' (by decide)) (hne '[' (by decide)) (hne '\x7b' (by decide))
  · exact scanValue_atom (by decide) (by decide) (by decide)

theorem scanValue_float {fuel : ℕ} (t : FloatText) {rest : PyStr} (hr : Delim rest) :
    scanValue (fuel + 1) (t.1 ++ rest) = .ok (.float t, rest) := by
  rw [← scanAtom_float t hr]
  rcases float_cases t with h | ⟨-, p, hp⟩
  · simp only [floatConstants, List.mem_cons, List.not_mem_nil, or_false] at h
    rcases h with h | h | h <;> rw [h] <;> exact scanValue_atom (by decide) (by decide) (by decide)
  · exact scanValue_number hp

theorem set_of_not_mem {kvs : List (PyStr × Json)} {k : PyStr} (h : k ∉ kvs.map Prod.fst) (v : Json) :
    set kvs k v = kvs ++ [(k, v)] := by
  have : kvs.any (fun kv => kv.1 = k) = false := by
    rw [List.any_eq_false]
    intro kv hkv he
    exact h (List.mem_map.mpr ⟨kv, hkv, by simpa using he⟩)
  simp [set, this]

/-! ### The induction -/

mutual

theorem scanValue_dumps : ∀ (j : Json), wf j = true → ∀ (fuel : ℕ) (rest : PyStr),
    (dumps j).length ≤ fuel → Delim rest → scanValue fuel (dumps j ++ rest) = .ok (j, rest)
  | .null, _, fuel + 1, _, _, _ => rfl
  | .bool true, _, fuel + 1, _, _, _ => rfl
  | .bool false, _, fuel + 1, _, _, _ => rfl
  | .int n, hj, fuel + 1, rest, _, hr => by
    rw [dumps, scanValue_number (splitNumber_intText n)]
    exact scanAtom_int hj hr
  | .float t, _, fuel + 1, rest, _, hr => by
    rw [dumps]; exact scanValue_float t hr
  | .str s, hj, fuel + 1, rest, _, _ => by
    have h := scanString_strText (s := s) (by simpa [wf] using hj) rest
    simp [dumps, strText, scanValue, h]
  | .arr [], _, fuel + 1, rest, _, _ => rfl
  | .arr (x :: xs), hj, fuel + 1, rest, hf, hr => by
    have hw : wfElems (x :: xs) = true := by simpa [wf] using hj
    obtain ⟨c, s, hc, hsp, hcb⟩ := startsValue_dumps x
    have ih := scanElems_dumps (x :: xs) x xs rfl hw fuel [] rest (by
      simp only [dumps, List.length_cons] at hf; omega)
    rw [hc, List.cons_append] at ih
    simp only [dumps, List.cons_append, scanValue, hc, List.append_assoc]
    rw [if_neg (by decide), if_pos trivial, skipSpace_cons hsp]
    simp only [if_neg hcb, ih, List.nil_append]
  | .obj [], _, fuel + 1, rest, _, _ => rfl
  | .obj ((k, v) :: kvs), hj, fuel + 1, rest, hf, hr => by
    simp only [wf, Bool.and_eq_true, decide_eq_true_eq] at hj
    have ih := scanMembers_dumps ((k, v) :: kvs) k v kvs rfl hj.2 fuel [] rest (by
      simp only [dumps, List.length_cons] at hf; omega) (by simpa using hj.1)
    simp only [strText, List.cons_append, List.append_assoc, List.nil_append] at ih
    simp only [dumps, List.cons_append, scanValue, strText, List.append_assoc, List.nil_append]
    rw [if_neg (by decide), if_neg (by decide), if_pos trivial, skipSpace_cons (by decide)]
    simp only [if_neg (show ch '"' ≠ ch '\x7d' by decide), ih]
  | j, _, 0, rest, hf, _ => by
    obtain ⟨c, s, hc, -, -⟩ := startsValue_dumps j
    rw [hc] at hf; simp at hf

theorem scanElems_dumps : ∀ (l : List Json) (x : Json) (xs : List Json), l = x :: xs →
    wfElems l = true → ∀ (fuel : ℕ) (acc : List Json) (rest : PyStr),
    (dumps x ++ dumpsElems xs).length ≤ fuel →
    scanElems fuel acc (dumps x ++ (dumpsElems xs ++ rest)) = .ok (.arr (acc ++ x :: xs), rest)
  | [], x, xs, hl, _, _, _, _, _ => by simp at hl
  | x :: l, _, _, hl, hw, 0, acc, rest, hf => by
    obtain ⟨rfl, rfl⟩ := List.cons.inj hl
    obtain ⟨c, s, hc, -, -⟩ := startsValue_dumps x
    rw [hc] at hf; simp at hf
  | x :: l, _, _, hl, hw, fuel + 1, acc, rest, hf => by
    obtain ⟨rfl, rfl⟩ := List.cons.inj hl
    simp only [wfElems, Bool.and_eq_true] at hw
    cases l with
    | nil =>
      have hx := scanValue_dumps x hw.1 fuel (ch ']' :: rest) (by simp [dumpsElems] at hf; omega)
        (delim_cons (by decide))
      simp only [dumpsElems, List.cons_append, List.nil_append, scanElems, hx]
      rw [skipSpace_cons (by decide)]
      simp
    | cons y ys =>
      have hx := scanValue_dumps x hw.1 fuel (ch ',' :: (dumps y ++ (dumpsElems ys ++ rest)))
        (by simp [dumpsElems] at hf ⊢; omega) (delim_cons (by decide))
      have ih := scanElems_dumps (y :: ys) y ys rfl hw.2 fuel (acc ++ [x]) rest
        (by simp [dumpsElems] at hf ⊢; omega)
      simp only [dumpsElems, List.cons_append, List.append_assoc, scanElems, hx]
      rw [skipSpace_cons (by decide)]
      simp only [if_neg (show ch ',' ≠ ch ']' by decide), if_true,
        (startsValue_dumps y).skipSpace_append, ih]
      simp

theorem scanMembers_dumps : ∀ (l : List (PyStr × Json)) (k : PyStr) (v : Json)
    (kvs : List (PyStr × Json)), l = (k, v) :: kvs → wfMembers l = true →
    ∀ (fuel : ℕ) (acc : List (PyStr × Json)) (rest : PyStr),
    (strText k ++ ch ':' :: (dumps v ++ dumpsMembers kvs)).length ≤ fuel →
    ((acc ++ (k, v) :: kvs).map Prod.fst).Nodup →
    scanMembers fuel acc (strText k ++ ch ':' :: (dumps v ++ (dumpsMembers kvs ++ rest))) =
      .ok (.obj (acc ++ (k, v) :: kvs), rest)
  | [], _, _, _, hl, _, _, _, _, _, _ => by simp at hl
  | (k, v) :: l, _, _, _, hl, hw, 0, acc, rest, hf, _ => by
    simp only [List.cons.injEq, Prod.mk.injEq] at hl
    obtain ⟨⟨rfl, rfl⟩, rfl⟩ := hl
    simp [strText] at hf
  | (k, v) :: l, _, _, _, hl, hw, fuel + 1, acc, rest, hf, hn => by
    simp only [List.cons.injEq, Prod.mk.injEq] at hl
    obtain ⟨⟨rfl, rfl⟩, rfl⟩ := hl
    simp only [wfMembers, Bool.and_eq_true] at hw
    have hk : k ∉ acc.map Prod.fst := by
      rw [List.map_append, List.map_cons, List.nodup_append] at hn
      intro hm
      exact hn.2.2 k hm k (by simp) rfl
    have hset := set_of_not_mem hk v
    cases l with
    | nil =>
      have hstr := scanString_strText hw.1.1 (ch ':' :: (dumps v ++ ch '\x7d' :: rest))
      have hv := scanValue_dumps v hw.1.2 fuel (ch '\x7d' :: rest)
        (by simp [dumpsMembers, strText] at hf; omega) (delim_cons (by decide))
      simp only [dumpsMembers, strText, List.cons_append, List.append_assoc, List.nil_append,
        scanMembers, if_true, hstr]
      rw [skipSpace_cons (by decide)]
      simp only [if_true, (startsValue_dumps v).skipSpace_append, hv]
      rw [skipSpace_cons (by decide)]
      simp [hset]
    | cons kv kvs =>
      obtain ⟨k', v'⟩ := kv
      have hstr := scanString_strText hw.1.1 (ch ':' :: (dumps v ++ ch ',' ::
        (strText k' ++ ch ':' :: (dumps v' ++ (dumpsMembers kvs ++ rest)))))
      have hv := scanValue_dumps v hw.1.2 fuel
        (ch ',' :: (strText k' ++ ch ':' :: (dumps v' ++ (dumpsMembers kvs ++ rest))))
        (by simp [dumpsMembers, strText] at hf; omega) (delim_cons (by decide))
      have ih := scanMembers_dumps ((k', v') :: kvs) k' v' kvs rfl hw.2 fuel (acc ++ [(k, v)]) rest
        (by simp [dumpsMembers, strText] at hf ⊢; omega) (by simpa using hn)
      have hsk : skipSpace (strText k' ++ ch ':' :: (dumps v' ++ (dumpsMembers kvs ++ rest))) =
          strText k' ++ ch ':' :: (dumps v' ++ (dumpsMembers kvs ++ rest)) :=
        skipSpace_cons (by decide) _
      have hd : dumpsMembers ((k', v') :: kvs) ++ rest =
          ch ',' :: (strText k' ++ ch ':' :: (dumps v' ++ (dumpsMembers kvs ++ rest))) := by
        simp [dumpsMembers]
      rw [hd]
      simp only [show strText k = ch '"' :: (k.flatMap escape ++ [ch '"']) from rfl, List.cons_append,
        List.append_assoc, List.nil_append, scanMembers, if_true, hstr]
      rw [skipSpace_cons (by decide)]
      simp only [if_true, (startsValue_dumps v).skipSpace_append, hv]
      rw [skipSpace_cons (by decide)]
      simp only [if_neg (show ch ',' ≠ ch '\x7d' by decide), if_true, hset, hsk, ih]
      simp

end

/-- **`json.loads` inverts `json.dumps`** on well-formed values. -/
theorem loads_dumps {j : Json} (h : j.WF) : loads (dumps j) = .ok j := by
  have hs := scanValue_dumps j h ((dumps j).length + 1) [] (by omega) (by simp [Delim])
  have hsk := (startsValue_dumps j).skipSpace_append []
  simp only [List.append_nil] at hs hsk
  simp only [loads, hsk, hs]
  rw [if_pos (by rfl)]

end BuildEngine.Base.Json
