import BuildEngine.Base.Json

/-! # Splitting texts into words

`str.strip`, `str.split` with and without a separator, `separator.join`, `shlex.split`, and the conversions of
decimal digits, which the interpreter limits to `Json.maxDigits` digits. -/

namespace BuildEngine.Base

/-- `str.isspace` for one character; also `\s` of `re`. -/
def isWhitespace (c : CodePoint) : Bool :=
  (9 ≤ c.val && c.val ≤ 13) || (28 ≤ c.val && c.val ≤ 32) || c.val = 0x85 || c.val = 0xa0 || c.val = 0x1680 ||
    (0x2000 ≤ c.val && c.val ≤ 0x200a) || c.val = 0x2028 || c.val = 0x2029 || c.val = 0x202f ||
    c.val = 0x205f || c.val = 0x3000

/-- `s.strip()` -/
def strip (s : PyStr) : PyStr :=
  (((s.dropWhile isWhitespace).reverse).dropWhile isWhitespace).reverse

/-- `s.split()`, after the characters `word` of a word. -/
def splitSpaceFrom : PyStr → PyStr → List PyStr
  | word, [] => if word = [] then [] else [word]
  | word, c :: s =>
    if isWhitespace c then (if word = [] then [] else [word]) ++ splitSpaceFrom [] s
    else splitSpaceFrom (word ++ [c]) s

/-- `s.split()` -/
def splitSpace (s : PyStr) : List PyStr := splitSpaceFrom [] s

/-- `s.split(separator)`: `skip` characters belong to a separator, `part` to the part that has begun. -/
def splitOnFrom (separator : PyStr) : ℕ → PyStr → PyStr → List PyStr
  | _, part, [] => [part]
  | skip + 1, part, _ :: s => splitOnFrom separator skip part s
  | 0, part, c :: s =>
    if separator.isPrefixOf (c :: s) then part :: splitOnFrom separator (separator.length - 1) [] s
    else splitOnFrom separator 0 (part ++ [c]) s

/-- `s.split(separator)` for a non-empty separator. -/
def splitOn (separator s : PyStr) : List PyStr := splitOnFrom separator 0 [] s

/-- `separator.join(parts)` -/
def join (separator : PyStr) (parts : List PyStr) : PyStr := separator.intercalate parts

theorem join_singleton (separator x : PyStr) : join separator [x] = x := List.intercalate_singleton

theorem join_append {separator : PyStr} {xs ys : List PyStr} (hx : xs ≠ []) (hy : ys ≠ []) :
    join separator (xs ++ ys) = join separator xs ++ separator ++ join separator ys := by
  induction xs with
  | nil => exact absurd rfl hx
  | cons x xs ih =>
    rcases xs with _ | ⟨x', xs⟩
    · rw [List.singleton_append, join, List.intercalate_cons_of_ne_nil hy, join, List.intercalate_singleton, join,
        List.append_assoc]
    · have hrest := ih (List.cons_ne_nil _ _)
      rw [join, join, join] at *
      rw [List.cons_append, List.cons_append, List.intercalate_cons_cons, ← List.cons_append, hrest,
        List.intercalate_cons_cons]
      simp only [List.append_assoc]

/-- Characters that are no separator are put into the part. -/
theorem splitOnFrom_append (c : CodePoint) : ∀ (s part rest : PyStr), c ∉ s →
    splitOnFrom [c] 0 part (s ++ rest) = splitOnFrom [c] 0 (part ++ s) rest
  | [], part, rest, _ => by rw [List.nil_append, List.append_nil]
  | d :: s, part, rest, h => by
    obtain ⟨hd, hs⟩ := not_or.mp (List.mem_cons.not.mp h)
    have hnot : ([c] : PyStr).isPrefixOf (d :: (s ++ rest)) = false := by simp [List.isPrefixOf, hd]
    rw [List.cons_append, splitOnFrom, hnot, if_neg Bool.false_ne_true, splitOnFrom_append c s _ rest hs,
      List.append_assoc, List.singleton_append]

/-- **Joined parts are split again**, if the separator is in none of them. -/
theorem splitOn_join (c : CodePoint) : ∀ {parts : List PyStr}, parts ≠ [] → (∀ part ∈ parts, c ∉ part) →
    splitOn [c] (join [c] parts) = parts
  | [], h, _ => absurd rfl h
  | [part], _, hc => by
    have hpart := splitOnFrom_append c part [] [] (hc part List.mem_cons_self)
    rw [List.append_nil, List.nil_append] at hpart
    rw [join_singleton, splitOn, hpart, splitOnFrom]
  | part :: part' :: parts, _, hc => by
    have hrest := splitOn_join c (List.cons_ne_nil part' parts) fun p hp => hc p (List.mem_cons_of_mem _ hp)
    have hpart := splitOnFrom_append c part [] ([c] ++ join [c] (part' :: parts)) (hc part List.mem_cons_self)
    have hprefix : ([c] : PyStr).isPrefixOf (c :: join [c] (part' :: parts)) = true := by simp
    have hjoin : join [c] (part :: part' :: parts) = part ++ ([c] ++ join [c] (part' :: parts)) := by
      have happend := @join_append [c] [part] (part' :: parts) (List.cons_ne_nil _ _) (List.cons_ne_nil _ _)
      rwa [join_singleton, List.append_assoc] at happend
    rw [hjoin, splitOn, hpart, List.nil_append, List.singleton_append, splitOnFrom, if_pos hprefix]
    exact congrArg (part :: ·) hrest

/-! ### Digits -/

/-- The zeros of Unicode 16: each begins ten code points, the decimal digits in order. -/
def decimalZeros : List ℕ :=
  [0x30, 0x660, 0x6f0, 0x7c0, 0x966, 0x9e6, 0xa66, 0xae6, 0xb66, 0xbe6, 0xc66, 0xce6, 0xd66, 0xde6, 0xe50, 0xed0, 0xf20,
    0x1040, 0x1090, 0x17e0, 0x1810, 0x1946, 0x19d0, 0x1a80, 0x1a90, 0x1b50, 0x1bb0, 0x1c40, 0x1c50, 0xa620, 0xa8d0,
    0xa900, 0xa9d0, 0xa9f0, 0xaa50, 0xabf0, 0xff10, 0x104a0, 0x10d30, 0x10d40, 0x11066, 0x110f0, 0x11136, 0x111d0,
    0x112f0, 0x11450, 0x114d0, 0x11650, 0x116c0, 0x116d0, 0x116da, 0x11730, 0x118e0, 0x11950, 0x11bf0, 0x11c50,
    0x11d50, 0x11da0, 0x11f50, 0x16130, 0x16a60, 0x16ac0, 0x16b50, 0x16d70, 0x1ccf0, 0x1d7ce, 0x1d7d8, 0x1d7e2,
    0x1d7ec, 0x1d7f6, 0x1e140, 0x1e2f0, 0x1e4f0, 0x1e5f1, 0x1e950, 0x1fbf0]

/-- The value of a decimal digit. -/
def decimalValue (c : CodePoint) : Option ℕ :=
  (decimalZeros.find? fun z => z ≤ c.val && c.val < z + 10).map (c.val - ·)

/-- `\d` of `re` -/
def isDecimal (c : CodePoint) : Bool := (decimalValue c).isSome

/-- The number some decimal digits stand for. -/
def digitsValue (s : PyStr) : ℕ := s.foldl (fun n c => 10 * n + (decimalValue c).getD 0) 0

/-- `int(s)` for decimal digits; `none` where it raises `ValueError`. -/
def intOfDigits (s : PyStr) : Option ℕ := if s.length ≤ Json.maxDigits then some (digitsValue s) else none

/-- `str(n)`; `none` where it raises `ValueError`. -/
def strOfNat (n : ℕ) : Option PyStr := if (natText n).length ≤ Json.maxDigits then some (natText n) else none

/-- The characters `int` drops at both ends. -/
def isIntSpace (c : CodePoint) : Bool := (9 ≤ c.val && c.val ≤ 13) || c.val = 32 || (127 ≤ c.val && isWhitespace c)

/-- Decimal digits, with single underscores between them. -/
def natOfText (s : PyStr) : Option ℕ :=
  let groups := splitOn (py "_") s
  if groups.all fun group => !group.isEmpty && group.all isDecimal then intOfDigits groups.flatten else none

/-- `int(s)`; `none` where it raises `ValueError`. -/
def intOfText (s : PyStr) : Option ℤ :=
  match ((s.dropWhile isIntSpace).reverse.dropWhile isIntSpace).reverse with
  | [] => none
  | c :: rest =>
    if c = ch '-' then (natOfText rest).map fun n => -(n : ℤ)
    else if c = ch '+' then (natOfText rest).map fun n => (n : ℤ)
    else (natOfText (c :: rest)).map fun n => (n : ℤ)

example : [py " 5_0", py "-07", py "5__0", py "+ 5", py "+"].map intOfText = [some 50, some (-7), none, none, none] := by
  decide

/-! ### Shell words -/

/-- Where `shlex` stands: outside of quotes, in quotes, or after a backslash outside or inside of them. -/
inductive Lex where
  | plain
  | quoted (quote : CodePoint)
  | escaped (quote : Option CodePoint)
  deriving DecidableEq

/-- The characters `shlex` takes for white space. -/
def isShellSpace (c : CodePoint) : Bool := c = ch ' ' || c = ch '\t' || c = ch '\r' || c = ch '\n'

/-- A quote of either kind. -/
def isQuote (c : CodePoint) : Bool := c = ch '"' || c.val = 39

/-- `shlex.split`, after the token that has begun, if any; `none` where it raises `ValueError`. A quoted token may
be empty. -/
def shlexFrom : Lex → Option PyStr → PyStr → Option (List PyStr)
  | .plain, token, [] => some token.toList
  | .plain, token, c :: s =>
    if isShellSpace c then (shlexFrom .plain none s).map (token.toList ++ ·)
    else if c = ch '\\' then shlexFrom (.escaped none) token s
    else if isQuote c then shlexFrom (.quoted c) (some (token.getD [])) s
    else shlexFrom .plain (some (token.getD [] ++ [c])) s
  | .quoted _, _, [] => none
  | .quoted q, token, c :: s =>
    if c = q then shlexFrom .plain token s
    -- only double quotes know the backslash
    else if c = ch '\\' && q = ch '"' then shlexFrom (.escaped (some q)) token s
    else shlexFrom (.quoted q) (some (token.getD [] ++ [c])) s
  | .escaped _, _, [] => none
  | .escaped none, token, c :: s => shlexFrom .plain (some (token.getD [] ++ [c])) s
  | .escaped (some q), token, c :: s =>
    if c = ch '\\' || c = q then shlexFrom (.quoted q) (some (token.getD [] ++ [c])) s
    else shlexFrom (.quoted q) (some (token.getD [] ++ [ch '\\', c])) s

/-- `shlex.split(s)`; `none` where it raises `ValueError`. -/
def shlexSplit (s : PyStr) : Option (List PyStr) := shlexFrom .plain none s

example : shlexSplit (py "a 'b c'\"\" d\\ e") = some [py "a", py "b c", py "d e"] := by decide

end BuildEngine.Base
