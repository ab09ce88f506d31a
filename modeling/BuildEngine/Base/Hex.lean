import BuildEngine.Base.JsonRoundTrip
import BuildEngine.Base.Utf8

/-! # Hexadecimal texts

`bytes.hex` and `bytes.fromhex`. A text stands for some bytes exactly if it is their text up to the case of its
letters (`fromHex_eq_some_iff`). -/

namespace BuildEngine.Base.Hex

open BuildEngine.Base

/-- `bytes.hex()` -/
def hexText (data : List Byte) : PyStr := data.flatMap fun b => [Json.hexDigit (b.val / 16), Json.hexDigit (b.val % 16)]

/-- `bytes.fromhex(s)`, for a text without blanks; `none` where it raises. -/
def fromHex : PyStr → Option (List Byte)
  | [] => some []
  | [_] => none
  | h :: l :: s =>
    match Json.hexVal h, Json.hexVal l, fromHex s with
    | some high, some low, some data => some (Fin.ofNat 256 (16 * high + low) :: data)
    | _, _, _ => none

/-- A hexadecimal digit of either case. -/
def isHexDigit (c : CodePoint) : Bool := (Json.hexVal c).isSome

theorem fromHex_hexText : ∀ data : List Byte, fromHex (hexText data) = some data
  | [] => rfl
  | b :: data => by
    have hb : b.val < 256 := b.isLt
    have hhigh := Json.hexVal_hexDigit (b.val / 16) (by omega)
    have hlow := Json.hexVal_hexDigit (b.val % 16) (by omega)
    have hrest := fromHex_hexText data
    have hbyte : Fin.ofNat 256 (16 * (b.val / 16) + b.val % 16) = b := by
      rw [Nat.div_add_mod]
      exact Fin.ofNat_val_eq_self b
    have htext : hexText (b :: data) = Json.hexDigit (b.val / 16) :: Json.hexDigit (b.val % 16) :: hexText data := rfl
    rw [htext, fromHex, hhigh, hlow, hrest]
    dsimp only
    rw [hbyte]

section Lower
variable {lower : CodePoint → CodePoint}

theorem fromHex_map_lower (hval : ∀ c, Json.hexVal (lower c) = Json.hexVal c) : ∀ s : PyStr,
    fromHex (s.map lower) = fromHex s
  | [] => rfl
  | [_] => rfl
  | h :: l :: s => by
    have hrest := fromHex_map_lower hval s
    rw [List.map_cons, List.map_cons, fromHex, fromHex, hval, hval, hrest]

/-- The text of the bytes that a text stands for is its lower case. -/
theorem hexText_of_fromHex (hdigit : ∀ c n, Json.hexVal c = some n → n < 16 ∧ Json.hexDigit n = lower c) :
    ∀ {s : PyStr} {data : List Byte}, fromHex s = some data → hexText data = s.map lower
  | [], data, h => by
    rw [← Option.some.inj h]
    rfl
  | [_], _, h => by cases h
  | h :: l :: s, data, heq => by
    unfold fromHex at heq
    rcases hh : Json.hexVal h with _ | high
    · rw [hh] at heq
      cases heq
    · rcases hl : Json.hexVal l with _ | low
      · rw [hh, hl] at heq
        cases heq
      · rcases hs : fromHex s with _ | rest
        · rw [hh, hl, hs] at heq
          cases heq
        · rw [hh, hl, hs] at heq
          obtain ⟨hhigh, hhigh'⟩ := hdigit h high hh
          obtain ⟨hlow, hlow'⟩ := hdigit l low hl
          have hbyte : (Fin.ofNat 256 (16 * high + low)).val = 16 * high + low := Nat.mod_eq_of_lt (by omega)
          have htext := hexText_of_fromHex hdigit hs
          have hdiv : (16 * high + low) / 16 = high := by omega
          have hmod : (16 * high + low) % 16 = low := by omega
          rw [← Option.some.inj heq, hexText, List.flatMap_cons, hbyte, hdiv, hmod, hhigh', hlow', ← hexText, htext]
          rfl

/-- **What a text stands for**, up to the case of its letters. -/
theorem fromHex_eq_some_iff (hval : ∀ c, Json.hexVal (lower c) = Json.hexVal c)
    (hdigit : ∀ c n, Json.hexVal c = some n → n < 16 ∧ Json.hexDigit n = lower c) (hidem : ∀ c, lower (lower c) = lower c)
    (s : PyStr) (data : List Byte) : fromHex s = some data ↔ (hexText data).map lower = s.map lower := by
  constructor
  · intro h
    rw [hexText_of_fromHex hdigit h, List.map_map]
    exact List.map_congr_left fun c _ => hidem c
  · intro h
    have hback := fromHex_map_lower hval (hexText data)
    rw [h, fromHex_map_lower hval, fromHex_hexText] at hback
    exact hback

end Lower

end BuildEngine.Base.Hex
