import Mathlib.Tactic
import Mathlib.Data.List.Lex

/-! # Python strings

A Python `str` is a sequence of code points; surrogates are allowed and stand for themselves. Strings
are compared code point by code point, which is Mathlib's lexicographic order on lists. -/

namespace BuildEngine.Base

/-- A Unicode code point, surrogates included. -/
abbrev CodePoint := Fin 0x110000

/-- A Python `str`. -/
abbrev PyStr := List CodePoint

instance neZeroCodePoints : NeZero 0x110000 := ⟨by decide⟩

instance neZeroCodeUnits : NeZero 0x10000 := ⟨by decide⟩

instance lawfulBEqCodePoint : LawfulBEq CodePoint := inferInstance

instance lawfulBEqPyStr : LawfulBEq PyStr := List.instLawfulBEq

/-- The code point of a character. -/
def ch (c : Char) : CodePoint :=
  ⟨c.toNat, by
    rcases c.valid with h | ⟨_, h⟩
    · have : c.val.toNat < 0xd800 := h
      show c.val.toNat < _
      omega
    · exact h⟩

/-- The text of a literal. -/
def py (s : String) : PyStr := s.toList.map ch

/-- A high surrogate, the first half of a pair. -/
def isHigh (n : ℕ) : Bool := 0xd800 ≤ n && n < 0xdc00

/-- A low surrogate, the second half of a pair. -/
def isLow (n : ℕ) : Bool := 0xdc00 ≤ n && n < 0xe000

/-- The number of bytes of a code point in UTF-8; `none` for a surrogate, which has no encoding. -/
def utf8Size (c : CodePoint) : Option ℕ :=
  if isHigh c.val || isLow c.val then none
  else if c.val < 0x80 then some 1
  else if c.val < 0x800 then some 2
  else if c.val < 0x10000 then some 3
  else some 4

/-- `len(s.encode("utf-8"))`; `none` where `encode` raises. -/
def encodedLength : PyStr → Option ℕ
  | [] => some 0
  | c :: s =>
    match utf8Size c, encodedLength s with
    | some n, some m => some (n + m)
    | _, _ => none

/-- Every character is an ASCII character. -/
def Ascii (s : PyStr) : Prop := ∀ c ∈ s, c.val < 0x80

instance (s : PyStr) : Decidable (Ascii s) :=
  decidable_of_iff (s.all (·.val < 0x80) = true) (by simp [Ascii])

theorem ascii_append {s t : PyStr} (hs : Ascii s) (ht : Ascii t) : Ascii (s ++ t) := fun c hc =>
  (List.mem_append.mp hc).elim (hs c) (ht c)

/-- A decimal digit. -/
def isDigit (c : CodePoint) : Bool := 48 ≤ c.val && c.val ≤ 57

/-- A lower-case hexadecimal digit. -/
def isLowerHex (c : CodePoint) : Bool := isDigit c || (97 ≤ c.val && c.val ≤ 102)

/-- The text has one character for each of `mask`: a hyphen where `mask` is true, a lower-case
hexadecimal digit elsewhere. -/
def matchesMask : List Bool → PyStr → Bool
  | [], [] => true
  | hyphen :: mask, c :: s =>
    (if hyphen then c = ch '-' else isLowerHex c) && matchesMask mask s
  | _, _ => false

/-- The canonical spelling of a UUID, `8-4-4-4-12` lower-case hexadecimal digits: exactly the texts
`s` with `str(UUID(s)) == s`. -/
def isUuid (s : PyStr) : Bool :=
  matchesMask ((List.range 36).map fun i => i = 8 || i = 13 || i = 18 || i = 23) s

theorem ascii_of_matchesMask : ∀ {mask : List Bool} {s : PyStr}, matchesMask mask s = true → Ascii s
  | [], [], _ => by simp [Ascii]
  | [], _ :: _, h => by simp [matchesMask] at h
  | _ :: _, [], h => by simp [matchesMask] at h
  | hyphen :: mask, c :: s, h => by
    rw [matchesMask, Bool.and_eq_true] at h
    intro d hd
    rcases List.mem_cons.mp hd with rfl | hd
    · have hc := h.1
      split_ifs at hc
      · rw [of_decide_eq_true hc]; decide
      · simp only [isLowerHex, isDigit, Bool.or_eq_true, Bool.and_eq_true, decide_eq_true_eq] at hc
        omega
    · exact ascii_of_matchesMask h.2 d hd

theorem ascii_of_isUuid {s : PyStr} (h : isUuid s = true) : Ascii s := ascii_of_matchesMask h

end BuildEngine.Base
