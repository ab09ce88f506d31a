import BuildEngine.Base.PyStr

/-! # JSON values, `json.dumps` and `json.loads`

The values Python's `json` module reads and writes. An object keeps its members in insertion order,
as a Python dict does; a float is kept as the literal that spells it. `dumps` writes the compact form
(`separators=(",", ":")`) with the default ASCII escapes, `dumpsSorted` the same with
`sort_keys=True`, and `loads` reads a text back: white space is skipped between tokens, an escaped
surrogate pair is joined, the last of two members with one name wins, and an integer of more than
4300 digits is refused by `int` rather than by the decoder. -/

namespace BuildEngine.Base

/-! ### Numbers -/

/-- The characters of a number. -/
def isNumberChar (c : CodePoint) : Bool :=
  isDigit c || c = ch '-' || c = ch '+' || c = ch '.' || c = ch 'e' || c = ch 'E'

/-- The value of a digit. -/
def digitVal (c : CodePoint) : ℕ := c.val - 48

/-- The number a text of digits spells. -/
def decimal (s : PyStr) : ℕ := s.foldl (fun n c => 10 * n + digitVal c) 0

/-- The digits of `n`, with fuel at least the number of them. -/
def digitsAux : ℕ → ℕ → PyStr → PyStr
  | 0, _, acc => acc
  | fuel + 1, n, acc =>
    let acc := Fin.ofNat 0x110000 (48 + n % 10) :: acc
    if n < 10 then acc else digitsAux fuel (n / 10) acc

/-- `str(n)` for a natural number. -/
def natText (n : ℕ) : PyStr := digitsAux (n + 1) n []

/-- `str(n)` for an integer. -/
def intText (n : ℤ) : PyStr := if n < 0 then ch '-' :: natText n.natAbs else natText n.natAbs

/-- The parts of a number literal. -/
structure NumberParts where
  neg : Bool
  whole : PyStr
  frac : Option PyStr
  exp : Option (Bool × PyStr)
  deriving DecidableEq

/-- A digit string with no leading zero. -/
def isWhole (s : PyStr) : Bool :=
  s.all isDigit && s ≠ [] && (s.head? ≠ some (ch '0') || s.length = 1)

/-- The exponent of a literal: what follows the `e`. -/
def splitExp (s : PyStr) : Option (Bool × PyStr) :=
  let (neg, digits) :=
    if s.head? = some (ch '-') then (true, s.drop 1)
    else if s.head? = some (ch '+') then (false, s.drop 1) else (false, s)
  if digits.all isDigit && digits ≠ [] then some (neg, digits) else none

/-- What follows the whole part of a literal: an optional fraction and an optional exponent. -/
def splitTail (s : PyStr) : Option (Option PyStr × Option (Bool × PyStr)) :=
  let isE := fun c => c = ch 'e' || c = ch 'E'
  let (frac, rest) :=
    if s.head? = some (ch '.') then
      (some ((s.drop 1).takeWhile isDigit), (s.drop 1).dropWhile isDigit)
    else (none, s)
  if frac = some [] then none
  else match rest with
    | [] => some (frac, none)
    | c :: rest => if isE c then (splitExp rest).map fun e => (frac, some e) else none

/-- The parts of a number literal of JSON's grammar; `none` for any other text. -/
def splitNumber (s : PyStr) : Option NumberParts :=
  let neg := s.head? = some (ch '-')
  let body := if neg then s.drop 1 else s
  let whole := body.takeWhile isDigit
  if isWhole whole then
    (splitTail (body.dropWhile isDigit)).map fun p => ⟨neg, whole, p.1, p.2⟩
  else none

/-- The literals of the non-finite floats. -/
def floatConstants : List PyStr := [py "NaN", py "Infinity", py "-Infinity"]

/-- The literal has a fraction or an exponent. -/
def NumberParts.isFloat (p : NumberParts) : Bool := p.frac.isSome || p.exp.isSome

/-- The text spells a float. -/
def isFloatText (s : PyStr) : Bool :=
  decide (s ∈ floatConstants) || (s.all isNumberChar && (splitNumber s).any NumberParts.isFloat)

/-- The literal of a float. -/
abbrev FloatText := { s : PyStr // isFloatText s = true }

/-- The value of a finite literal; `none` for `NaN` and the infinities. -/
def FloatText.value? (t : FloatText) : Option ℚ :=
  (splitNumber t.1).map fun p =>
    let frac := p.frac.getD []
    let e : ℤ := match p.exp with
      | none => 0
      | some (neg, digits) => if neg then -(decimal digits : ℤ) else decimal digits
    (if p.neg then -1 else 1) * (decimal (p.whole ++ frac) : ℚ) * (10 : ℚ) ^ (e - frac.length)

/-! ### Values -/

/-- A JSON value. -/
inductive Json where
  | null
  | bool (b : Bool)
  | int (n : ℤ)
  | float (t : FloatText)
  | str (s : PyStr)
  | arr (xs : List Json)
  | obj (kvs : List (PyStr × Json))

namespace Json

/-- Python's `value == n` for an integer `n`: booleans and floats are numbers too. -/
def eqInt (j : Json) (n : ℤ) : Bool :=
  match j with
  | .int m => m = n
  | .bool b => (if b then 1 else 0) = n
  | .float t => t.value? = some (n : ℚ)
  | _ => false

/-- `data.get(key)` on the members of an object. -/
def get? (kvs : List (PyStr × Json)) (key : PyStr) : Option Json :=
  (kvs.find? fun kv => kv.1 = key).map Prod.snd

/-- `data[key] = value`. -/
def set (kvs : List (PyStr × Json)) (key : PyStr) (value : Json) : List (PyStr × Json) :=
  if kvs.any (fun kv => kv.1 = key) then
    kvs.map fun kv => if kv.1 = key then (kv.1, value) else kv
  else kvs ++ [(key, value)]

/-- `data.setdefault(key, value)`. -/
def setDefault (kvs : List (PyStr × Json)) (key : PyStr) (value : Json) : List (PyStr × Json) :=
  if kvs.any (fun kv => kv.1 = key) then kvs else kvs ++ [(key, value)]

/-! ### Writing -/

/-- A hexadecimal digit. -/
def hexDigit (n : ℕ) : CodePoint := Fin.ofNat 0x110000 (if n < 10 then 48 + n else 87 + n)

/-- A code unit written as `\uXXXX`. -/
def escapeUnit (n : ℕ) : PyStr :=
  [ch '\\', ch 'u', hexDigit (n / 4096 % 16), hexDigit (n / 256 % 16), hexDigit (n / 16 % 16),
    hexDigit (n % 16)]

/-- The letter of a two-character escape. -/
def escapeLetter (n : ℕ) : Option CodePoint :=
  if n = 34 then some (ch '"') else if n = 92 then some (ch '\\')
  else if n = 10 then some (ch 'n') else if n = 13 then some (ch 'r')
  else if n = 9 then some (ch 't') else if n = 12 then some (ch 'f')
  else if n = 8 then some (ch 'b') else none

/-- One character of a string literal. -/
def escape (c : CodePoint) : PyStr :=
  match escapeLetter c.val with
  | some l => [ch '\\', l]
  | none =>
    if 32 ≤ c.val ∧ c.val ≤ 126 then [c]
    else if c.val < 0x10000 then escapeUnit c.val
    else escapeUnit (0xd800 + (c.val - 0x10000) / 1024) ++
      escapeUnit (0xdc00 + (c.val - 0x10000) % 1024)

/-- A string literal. -/
def strText (s : PyStr) : PyStr := ch '"' :: (s.flatMap escape ++ [ch '"'])

mutual

/-- `json.dumps(value, separators=(",", ":"))`. -/
def dumps : Json → PyStr
  | .null => py "null"
  | .bool true => py "true"
  | .bool false => py "false"
  | .int n => intText n
  | .float t => t.1
  | .str s => strText s
  | .arr [] => [ch '[', ch ']']
  | .arr (x :: xs) => ch '[' :: (dumps x ++ dumpsElems xs)
  | .obj [] => [ch '\x7b', ch '\x7d']
  | .obj ((k, v) :: kvs) => ch '\x7b' :: (strText k ++ ch ':' :: (dumps v ++ dumpsMembers kvs))

/-- The elements of an array after the first. -/
def dumpsElems : List Json → PyStr
  | [] => [ch ']']
  | x :: xs => ch ',' :: (dumps x ++ dumpsElems xs)

/-- The members of an object after the first. -/
def dumpsMembers : List (PyStr × Json) → PyStr
  | [] => [ch '\x7d']
  | (k, v) :: kvs => ch ',' :: (strText k ++ ch ':' :: (dumps v ++ dumpsMembers kvs))

end

/-- The members in the order of their names. -/
def sortMembers (kvs : List (PyStr × Json)) : List (PyStr × Json) :=
  kvs.insertionSort fun a b => a.1 ≤ b.1

mutual

/-- The value with the members of every object in the order of their names. -/
def sortKeys : Json → Json
  | .arr xs => .arr (sortKeysElems xs)
  | .obj kvs => .obj (sortMembers (sortKeysMembers kvs))
  | .null => .null
  | .bool b => .bool b
  | .int n => .int n
  | .float t => .float t
  | .str s => .str s

/-- `sortKeys` of each element. -/
def sortKeysElems : List Json → List Json
  | [] => []
  | x :: xs => sortKeys x :: sortKeysElems xs

/-- `sortKeys` of each member's value. -/
def sortKeysMembers : List (PyStr × Json) → List (PyStr × Json)
  | [] => []
  | (k, v) :: kvs => (k, sortKeys v) :: sortKeysMembers kvs

end

/-- `json.dumps(value, separators=(",", ":"), sort_keys=True)`. -/
def dumpsSorted (j : Json) : PyStr := dumps (sortKeys j)

/-! ### Reading -/

/-- Why a text is refused: `decode` is a `JSONDecodeError`, `tooManyDigits` the `ValueError` of `int`. -/
inductive Error where
  | decode
  | tooManyDigits
  deriving DecidableEq

/-- The digits `int` converts at most. -/
def maxDigits : ℕ := 4300

/-- White space between tokens. -/
def isSpace (c : CodePoint) : Bool := c = ch ' ' || c = ch '\t' || c = ch '\n' || c = ch '\r'

/-- Skip white space. -/
def skipSpace (s : PyStr) : PyStr := s.dropWhile isSpace

/-- What follows the text `t`, if `s` starts with it. -/
def eat : PyStr → PyStr → Option PyStr
  | [], s => some s
  | _ :: _, [] => none
  | a :: t, c :: s => if a = c then eat t s else none

/-- The value of a hexadecimal digit. -/
def hexVal (c : CodePoint) : Option ℕ :=
  if 48 ≤ c.val ∧ c.val ≤ 57 then some (c.val - 48)
  else if 97 ≤ c.val ∧ c.val ≤ 102 then some (c.val - 87)
  else if 65 ≤ c.val ∧ c.val ≤ 70 then some (c.val - 55)
  else none

/-- The character a two-character escape stands for. -/
def unescapeLetter (c : CodePoint) : Option CodePoint :=
  if c = ch '"' ∨ c = ch '\\' ∨ c = ch '/' then some c
  else if c = ch 'n' then some 10 else if c = ch 'r' then some 13
  else if c = ch 't' then some 9 else if c = ch 'f' then some 12
  else if c = ch 'b' then some 8 else none

/-- What a string literal holds: characters, and code units written as `\uXXXX`. -/
inductive Item where
  | raw (c : CodePoint)
  | unit (n : Fin 0x10000)
  deriving DecidableEq

/-- Where the scan of a string literal stands: between characters, after a backslash, or after some
digits of a `\uXXXX`, `left + 1` of which are to come. -/
inductive ScanState where
  | plain
  | slash
  | hex (left acc : ℕ)
  deriving DecidableEq

/-- Put an item in front of the items of a scan. -/
def consItem (i : Item) : Except Error (List Item × PyStr) → Except Error (List Item × PyStr)
  | .ok (is, rest) => .ok (i :: is, rest)
  | .error e => .error e

/-- Scan a string literal up to its closing quote. -/
def scanItems : ScanState → PyStr → Except Error (List Item × PyStr)
  | _, [] => .error .decode
  | .plain, c :: s =>
    if c = ch '"' then .ok ([], s)
    else if c = ch '\\' then scanItems .slash s
    else if c.val < 32 then .error .decode
    else consItem (.raw c) (scanItems .plain s)
  | .slash, c :: s =>
    if c = ch 'u' then scanItems (.hex 3 0) s
    else match unescapeLetter c with
      | some d => consItem (.raw d) (scanItems .plain s)
      | none => .error .decode
  | .hex left acc, c :: s =>
    match hexVal c with
    | none => .error .decode
    | some d =>
      match left with
      | 0 => consItem (.unit (Fin.ofNat _ (16 * acc + d))) (scanItems .plain s)
      | left + 1 => scanItems (.hex left (16 * acc + d)) s

/-- The code point of a surrogate pair. -/
def joinPair (h l : ℕ) : CodePoint := Fin.ofNat _ (0x10000 + (h - 0xd800) * 1024 + (l - 0xdc00))

/-- The string of a list of items: an escaped pair of surrogates is one character. -/
def joinItems : List Item → PyStr
  | [] => []
  | .raw c :: is => c :: joinItems is
  | [.unit h] => [⟨h.val, by omega⟩]
  | .unit h :: .raw c :: is => ⟨h.val, by omega⟩ :: c :: joinItems is
  | .unit h :: .unit l :: is =>
    if isHigh h.val && isLow l.val then joinPair h.val l.val :: joinItems is
    else ⟨h.val, by omega⟩ :: joinItems (.unit l :: is)

/-- Read a string literal after its opening quote. -/
def scanString (s : PyStr) : Except Error (PyStr × PyStr) :=
  match scanItems .plain s with
  | .ok (is, rest) => .ok (joinItems is, rest)
  | .error e => .error e

/-- Read a number. -/
def scanNumber (s : PyStr) : Except Error (Json × PyStr) :=
  let token := s.takeWhile isNumberChar
  let rest := s.dropWhile isNumberChar
  match splitNumber token with
  | none => .error .decode
  | some p =>
    if h : isFloatText token = true then .ok (.float ⟨token, h⟩, rest)
    else if p.whole.length > maxDigits then .error .tooManyDigits
    else .ok (.int (if p.neg then -(decimal p.whole : ℤ) else decimal p.whole), rest)

/-- The constants a value may start with. -/
def constants : List (PyStr × Json) :=
  [(py "null", .null), (py "true", .bool true), (py "false", .bool false),
    (py "NaN", .float ⟨py "NaN", by decide⟩), (py "Infinity", .float ⟨py "Infinity", by decide⟩),
    (py "-Infinity", .float ⟨py "-Infinity", by decide⟩)]

/-- Read a value that is neither a string nor an array nor an object. -/
def scanAtom (s : PyStr) : Except Error (Json × PyStr) :=
  match constants.findSome? fun c => (eat c.1 s).map fun rest => (c.2, rest) with
  | some r => .ok r
  | none => scanNumber s

mutual

/-- Read a value; every call uses one unit of fuel. -/
def scanValue : ℕ → PyStr → Except Error (Json × PyStr)
  | 0, _ => .error .decode
  | _ + 1, [] => .error .decode
  | fuel + 1, c :: s =>
    if c = ch '"' then
      match scanString s with
      | .ok (t, rest) => .ok (.str t, rest)
      | .error e => .error e
    else if c = ch '[' then
      match skipSpace s with
      | [] => .error .decode
      | d :: rest =>
        if d = ch ']' then .ok (.arr [], rest) else scanElems fuel [] (d :: rest)
    else if c = ch '\x7b' then
      match skipSpace s with
      | [] => .error .decode
      | d :: rest =>
        if d = ch '\x7d' then .ok (.obj [], rest) else scanMembers fuel [] (d :: rest)
    else scanAtom (c :: s)

/-- Read the elements of an array up to its closing bracket. -/
def scanElems : ℕ → List Json → PyStr → Except Error (Json × PyStr)
  | 0, _, _ => .error .decode
  | fuel + 1, acc, s =>
    match scanValue fuel s with
    | .error e => .error e
    | .ok (x, rest) =>
      match skipSpace rest with
      | [] => .error .decode
      | d :: rest =>
        if d = ch ']' then .ok (.arr (acc ++ [x]), rest)
        else if d = ch ',' then scanElems fuel (acc ++ [x]) (skipSpace rest)
        else .error .decode

/-- Read the members of an object up to its closing brace. -/
def scanMembers : ℕ → List (PyStr × Json) → PyStr → Except Error (Json × PyStr)
  | 0, _, _ => .error .decode
  | _ + 1, _, [] => .error .decode
  | fuel + 1, acc, q :: s =>
    if q = ch '"' then
      match scanString s with
      | .error e => .error e
      | .ok (k, rest) =>
        match skipSpace rest with
        | [] => .error .decode
        | d :: rest =>
          if d = ch ':' then
            match scanValue fuel (skipSpace rest) with
            | .error e => .error e
            | .ok (v, rest) =>
              match skipSpace rest with
              | [] => .error .decode
              | d :: rest =>
                if d = ch '\x7d' then .ok (.obj (set acc k v), rest)
                else if d = ch ',' then scanMembers fuel (set acc k v) (skipSpace rest)
                else .error .decode
          else .error .decode
    else .error .decode

end

/-- `json.loads(text)`. -/
def loads (text : PyStr) : Except Error Json :=
  match scanValue (text.length + 1) (skipSpace text) with
  | .error e => .error e
  | .ok (j, rest) => if skipSpace rest = [] then .ok j else .error .decode

end Json

end BuildEngine.Base
