import BuildEngine.Base.PyStr

/-! # Decoding UTF-8

`decodeReplace` is Python's `data.decode("utf-8", errors="replace")`: each byte that cannot start or continue
a character gives one U+FFFD, together with the bytes of the character it cuts short, and so does a character
that the end cuts short. The decoder is a machine that is fed one byte after the other; what it gives has
no surrogates (`scalar_decodeReplace`), so it can be encoded again. `decodeStrict` is `data.decode("utf-8")`,
which raises where the other gives U+FFFD. -/

namespace BuildEngine.Base

/-- A byte. -/
abbrev Byte := Fin 256

instance neZeroBytes : NeZero 256 := ⟨by decide⟩

/-- The character U+FFFD. -/
def replacement : CodePoint := ⟨0xfffd, by norm_num⟩

/-- A character cut short: the ranges of the bytes still to come, and the bits so far. -/
structure Pending where
  low : ℕ
  high : ℕ
  more : ℕ
  bits : ℕ

/-- What the first byte of a character gives: the characters it ends, and what is then pending. -/
def startByte (b : Byte) : PyStr × Option Pending :=
  let n := b.val
  if n < 0x80 then ([Fin.ofNat 0x110000 n], none)
  else if n < 0xc2 then ([replacement], none)
  else if n < 0xe0 then ([], some ⟨0x80, 0xbf, 0, n - 0xc0⟩)
  else if n = 0xe0 then ([], some ⟨0xa0, 0xbf, 1, 0⟩)
  else if n = 0xed then ([], some ⟨0x80, 0x9f, 1, 0xd⟩)
  else if n < 0xf0 then ([], some ⟨0x80, 0xbf, 1, n - 0xe0⟩)
  else if n = 0xf0 then ([], some ⟨0x90, 0xbf, 2, 0⟩)
  else if n < 0xf4 then ([], some ⟨0x80, 0xbf, 2, n - 0xf0⟩)
  else if n = 0xf4 then ([], some ⟨0x80, 0x8f, 2, 4⟩)
  else ([replacement], none)

/-- What a byte gives. A byte out of range cuts the pending character short and starts another. -/
def feedByte : Option Pending → Byte → PyStr × Option Pending
  | none, b => startByte b
  | some p, b =>
    if p.low ≤ b.val ∧ b.val ≤ p.high then
      let bits := p.bits * 64 + (b.val - 0x80)
      match p.more with
      | 0 => ([Fin.ofNat 0x110000 bits], none)
      | more + 1 => ([], some ⟨0x80, 0xbf, more, bits⟩)
    else (replacement :: (startByte b).1, (startByte b).2)

/-- The decoder. -/
def decodeFrom : Option Pending → List Byte → PyStr
  | none, [] => []
  | some _, [] => [replacement]
  | p, b :: bs => (feedByte p b).1 ++ decodeFrom (feedByte p b).2 bs

/-- `data.decode("utf-8", errors="replace")` -/
def decodeReplace (data : List Byte) : PyStr := decodeFrom none data

/-- What a byte gives to the strict decoder; `none` where it raises. -/
def feedStrict : Option Pending → Byte → Option (PyStr × Option Pending)
  | none, b => if (0x80 ≤ b.val ∧ b.val < 0xc2) ∨ 0xf5 ≤ b.val then none else some (startByte b)
  | some p, b => if p.low ≤ b.val ∧ b.val ≤ p.high then some (feedByte (some p) b) else none

/-- The strict decoder. -/
def decodeStrictFrom : Option Pending → List Byte → Option PyStr
  | none, [] => some []
  | some _, [] => none
  | p, b :: bs =>
    match feedStrict p b with
    | none => none
    | some (s, next) => (decodeStrictFrom next bs).map (s ++ ·)

/-- `data.decode("utf-8")`; `none` where it raises `UnicodeDecodeError`. -/
def decodeStrict (data : List Byte) : Option PyStr := decodeStrictFrom none data

/-! ### ASCII -/

/-- The bytes of an ASCII text. -/
def asciiBytes (s : PyStr) : List Byte := s.map fun c => Fin.ofNat 256 c.val

theorem decodeStrict_asciiBytes : ∀ {s : PyStr}, Ascii s → decodeStrict (asciiBytes s) = some s
  | [], _ => rfl
  | c :: s, h => by
    have hc : c.val < 0x80 := h c List.mem_cons_self
    have hval : (Fin.ofNat 256 c.val : Byte).val = c.val := Nat.mod_eq_of_lt (by omega)
    have hrest := decodeStrict_asciiBytes fun d hd => h d (List.mem_cons_of_mem c hd)
    have hchar : (Fin.ofNat 0x110000 c.val : CodePoint) = c := Fin.ext (Nat.mod_eq_of_lt c.isLt)
    have hfeed : feedStrict none (Fin.ofNat 256 c.val) = some ([c], none) := by
      have hno : ¬ ((0x80 ≤ c.val ∧ c.val < 0xc2) ∨ 0xf5 ≤ c.val) := by omega
      simp only [feedStrict, startByte, hval, if_neg hno, if_pos hc, hchar]
    unfold decodeStrict asciiBytes at hrest ⊢
    rw [List.map_cons, decodeStrictFrom, hfeed]
    dsimp only
    rw [hrest]
    rfl

/-! ### No surrogates -/

/-- The character has an encoding. -/
def Scalar (c : CodePoint) : Prop := (utf8Size c).isSome

instance (c : CodePoint) : Decidable (Scalar c) := inferInstanceAs (Decidable (_ = true))

theorem scalar_iff {c : CodePoint} : Scalar c ↔ ¬ (0xd800 ≤ c.val ∧ c.val < 0xe000) := by
  unfold Scalar utf8Size isHigh isLow
  by_cases h : 0xd800 ≤ c.val ∧ c.val < 0xe000
  · rw [if_pos (by simp only [Bool.or_eq_true, Bool.and_eq_true, decide_eq_true_eq]; omega)]
    simp [h]
  · rw [if_neg (by simp only [Bool.or_eq_true, Bool.and_eq_true, decide_eq_true_eq]; omega)]
    split_ifs <;> simp [h]

/-- ASCII characters have an encoding. -/
theorem scalar_of_ascii {s : PyStr} (h : Ascii s) : ∀ c ∈ s, Scalar c := by
  intro c hc
  have hlt := h c hc
  rw [scalar_iff]
  omega

/-- A pending character does not end as a surrogate, or above the last code point. -/
structure Pending.Sound (p : Pending) : Prop where
  low : 0x80 ≤ p.low
  high : p.high ≤ 0xbf
  more : p.more ≤ 2
  last : p.more = 0 → p.bits < 0x4400 ∧ ¬ (0x360 ≤ p.bits ∧ p.bits < 0x380)
  three : p.more = 1 → p.bits < 0x110 ∧ (p.bits = 0xd → p.high ≤ 0x9f)
  four : p.more = 2 → 0x10 ≤ p.bits * 64 + (p.low - 0x80) ∧ p.bits * 64 + (p.high - 0x80) < 0x110

/-- What a byte gives: characters that have an encoding, and then a sound character pending, if any. -/
structure GivesSound (r : PyStr × Option Pending) : Prop where
  chars : ∀ c ∈ r.1, Scalar c
  pending : ∀ p ∈ r.2, p.Sound

theorem givesSound_ended {c : CodePoint} (hc : Scalar c) : GivesSound ([c], none) := by
  refine ⟨fun d hd => ?_, fun p hp => (by cases hp)⟩
  rw [List.mem_singleton.mp hd]
  exact hc

theorem givesSound_pending {p : Pending} (hp : p.Sound) : GivesSound ([], some p) := by
  refine ⟨fun c hc => (by cases hc), ?_⟩
  rintro q ⟨⟩
  exact hp

theorem scalar_ofNat {n : ℕ} (hn : n < 0x110000) (hs : ¬ (0xd800 ≤ n ∧ n < 0xe000)) :
    Scalar (Fin.ofNat 0x110000 n) := by
  have hval : (Fin.ofNat 0x110000 n).val = n := Nat.mod_eq_of_lt hn
  rw [scalar_iff, hval]
  exact hs

theorem scalar_replacement : Scalar replacement := by decide

theorem startByte_sound (b : Byte) : GivesSound (startByte b) := by
  have hb := b.isLt
  unfold startByte
  dsimp only
  -- one case for each range of the byte
  refine iteInduction (fun h1 => givesSound_ended (scalar_ofNat (by omega) (by omega))) fun h1 => ?_
  refine iteInduction (fun h2 => givesSound_ended scalar_replacement) fun h2 => ?_
  refine iteInduction (fun h3 => givesSound_pending (by constructor <;> dsimp only <;> omega)) fun h3 => ?_
  refine iteInduction (fun h4 => givesSound_pending (by constructor <;> dsimp only <;> omega)) fun h4 => ?_
  refine iteInduction (fun h5 => givesSound_pending (by constructor <;> dsimp only <;> omega)) fun h5 => ?_
  refine iteInduction (fun h6 => givesSound_pending (by constructor <;> dsimp only <;> omega)) fun h6 => ?_
  refine iteInduction (fun h7 => givesSound_pending (by constructor <;> dsimp only <;> omega)) fun h7 => ?_
  refine iteInduction (fun h8 => givesSound_pending (by constructor <;> dsimp only <;> omega)) fun h8 => ?_
  refine iteInduction (fun h9 => givesSound_pending (by constructor <;> dsimp only <;> omega)) fun h9 => ?_
  exact givesSound_ended scalar_replacement

theorem feedByte_sound {p : Option Pending} (hp : ∀ q ∈ p, q.Sound) (b : Byte) : GivesSound (feedByte p b) := by
  rcases p with _ | ⟨low, high, more, bits⟩
  · exact startByte_sound b
  · obtain ⟨hlow, hhigh, hmore, hlast, hthree, hfour⟩ := hp _ rfl
    unfold feedByte
    dsimp only at hlow hhigh hmore hlast hthree hfour ⊢
    split_ifs with hr
    · rcases more with _ | more
      · exact givesSound_ended (scalar_ofNat (by omega) (by omega))
      · exact givesSound_pending (by constructor <;> dsimp only <;> omega)
    · obtain ⟨hc, hq⟩ := startByte_sound b
      refine ⟨fun c hmem => ?_, hq⟩
      rcases List.mem_cons.mp hmem with rfl | hmem
      · exact scalar_replacement
      · exact hc c hmem

theorem scalar_decodeFrom : ∀ {bs : List Byte} {p : Option Pending}, (∀ q ∈ p, q.Sound) →
    ∀ c ∈ decodeFrom p bs, Scalar c
  | [], none, _, c, hc => by cases hc
  | [], some _, _, c, hc => by
    rw [List.mem_singleton.mp hc]
    exact scalar_replacement
  | b :: bs, p, hp, c, hc => by
    obtain ⟨hchars, hnext⟩ := feedByte_sound hp b
    rw [decodeFrom, List.mem_append] at hc
    rcases hc with hc | hc
    · exact hchars c hc
    · exact scalar_decodeFrom hnext c hc

/-- **A decoded text has no surrogates.** -/
theorem scalar_decodeReplace (data : List Byte) : ∀ c ∈ decodeReplace data, Scalar c :=
  scalar_decodeFrom fun q hq => (by cases hq)

/-- A text of scalar values has an encoding. -/
theorem encodedLength_of_scalar : ∀ {s : PyStr}, (∀ c ∈ s, Scalar c) →
    ∃ n, encodedLength s = some n ∧ n ≤ 4 * s.length
  | [], _ => ⟨0, rfl, by simp⟩
  | c :: s, h => by
    obtain ⟨n, hn, hle⟩ := encodedLength_of_scalar fun d hd => h d (List.mem_cons_of_mem _ hd)
    obtain ⟨k, hk⟩ := Option.isSome_iff_exists.mp (h c List.mem_cons_self)
    have hk4 : k ≤ 4 := by
      unfold utf8Size at hk
      split_ifs at hk <;> · cases hk; omega
    refine ⟨k + n, by simp only [encodedLength, hk, hn], ?_⟩
    rw [List.length_cons]
    omega

end BuildEngine.Base
