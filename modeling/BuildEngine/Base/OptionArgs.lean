import BuildEngine.Base.PyStr
import Mathlib.Data.List.TakeWhile

/-! # The options of a command line

How a command reads its arguments: options come first, each an argument of its own that begins with a hyphen, with
its value as the next argument or after `=`, and the first argument that is no option, or `--`, ends them. `parse`
reads an argument list so, and `render` writes settings of options with every value as an argument of its own. What
was written is read back exactly if the argument after it is no option (`parse_render_iff`). -/

namespace BuildEngine.Base.OptionArgs

/-- The options of a command: the text of each, whether it takes a value, and the option that has a text. -/
structure Options (ν : Type*) where
  text : ν → PyStr
  takesValue : ν → Bool
  find? : PyStr → Option ν
  find?_text : ∀ n, find? (text n) = some n
  isOption_text : ∀ n, (text n).head? = some (ch '-') ∧ 2 ≤ (text n).length ∧ text n ≠ py "--" ∧ ch '=' ∉ text n

variable {ν : Type*}

/-- An option that is given, with its value if it has one. -/
abbrev Setting (ν : Type*) := ν × Option PyStr

/-- An argument that is no option: it does not begin with a hyphen, or it is one. -/
def IsOperand (arg : PyStr) : Prop := arg.head? ≠ some (ch '-') ∨ arg.length ≤ 1

instance (arg : PyStr) : Decidable (IsOperand arg) := inferInstanceAs (Decidable (_ ∨ _))

variable (o : Options ν)

/-- The settings of the options and the arguments after them; `none` where an option is unknown, lacks its value or
has one that it does not take. -/
def parse : List PyStr → Option (List (Setting ν) × List PyStr)
  | [] => some ([], [])
  | arg :: rest =>
    if IsOperand arg then some ([], arg :: rest)
    else if arg = py "--" then some ([], rest)
    else
      match o.find? (arg.takeWhile (· ≠ ch '=')), (arg.dropWhile (· ≠ ch '=')).tail? with
      | none, _ => none
      | some n, some value =>
        if o.takesValue n then (parse rest).map fun r => ((n, some value) :: r.1, r.2) else none
      | some n, none =>
        if o.takesValue n then
          match rest with
          | [] => none
          | value :: rest => (parse rest).map fun r => ((n, some value) :: r.1, r.2)
        else (parse rest).map fun r => ((n, none) :: r.1, r.2)

/-- The arguments of a setting. -/
def render (s : Setting ν) : List PyStr := o.text s.1 :: s.2.toList

/-- The setting has a value exactly if its option takes one. -/
def Fits (s : Setting ν) : Prop := o.takesValue s.1 = s.2.isSome

variable {o}

/-- A setting that was written is read back, and then the rest. -/
theorem parse_setting {s : Setting ν} (h : Fits o s) (args : List PyStr) :
    parse o (render o s ++ args) = (parse o args).map fun r => (s :: r.1, r.2) := by
  obtain ⟨n, value⟩ := s
  obtain ⟨hhead, hlen, hend, hplain⟩ := o.isOption_text n
  have hoption : ¬ IsOperand (o.text n) := by
    rintro (hne | hle)
    · exact hne hhead
    · omega
  have htake : (o.text n).takeWhile (· ≠ ch '=') = o.text n :=
    List.takeWhile_eq_self_iff.mpr fun c hc => decide_eq_true fun heq => hplain (heq ▸ hc)
  have hdrop : (o.text n).dropWhile (· ≠ ch '=') = [] :=
    List.dropWhile_eq_nil_iff.mpr fun c hc => decide_eq_true fun heq => hplain (heq ▸ hc)
  unfold Fits at h
  rcases value with _ | value
  · have htakes : o.takesValue n = false := h
    simp only [render, Option.toList_none, List.singleton_append]
    rw [parse, if_neg hoption, if_neg hend, htake, hdrop, o.find?_text]
    simp [htakes]
  · have htakes : o.takesValue n = true := h
    simp only [render, Option.toList_some, List.cons_append, List.nil_append]
    rw [parse, if_neg hoption, if_neg hend, htake, hdrop, o.find?_text]
    simp [htakes]

/-- Settings that were written are read back, and then the rest. -/
theorem parse_render {settings : List (Setting ν)} (h : ∀ s ∈ settings, Fits o s) (args : List PyStr) :
    parse o (settings.flatMap (render o) ++ args) = (parse o args).map fun r => (settings ++ r.1, r.2) := by
  induction settings with
  | nil => simp
  | cons s settings ih =>
    have hrest := ih fun t ht => h t (List.mem_cons_of_mem _ ht)
    rw [List.flatMap_cons, List.append_assoc, parse_setting (h s List.mem_cons_self), hrest, Option.map_map]
    rfl

theorem parse_operand {arg : PyStr} (h : IsOperand arg) (rest : List PyStr) :
    parse o (arg :: rest) = some ([], arg :: rest) := by
  rw [parse, if_pos h]

/-- What follows the options is no longer than the arguments. -/
theorem length_of_parse {args : List PyStr} {settings : List (Setting ν)} {operands : List PyStr}
    (h : parse o args = some (settings, operands)) : operands.length ≤ args.length := by
  fun_induction parse o args generalizing settings operands with
  | case1 =>
    obtain ⟨-, rfl⟩ := Prod.mk.inj (Option.some.inj h)
    exact le_refl _
  | case2 =>
    obtain ⟨-, rfl⟩ := Prod.mk.inj (Option.some.inj h)
    exact le_refl _
  | case3 =>
    obtain ⟨-, rfl⟩ := Prod.mk.inj (Option.some.inj h)
    exact Nat.le_succ _
  | case4 => cases h
  | case6 => cases h
  | case7 => cases h
  | case5 _ _ _ _ _ _ _ _ _ ih =>
    obtain ⟨r, hr, heq⟩ := Option.map_eq_some_iff.mp h
    obtain ⟨-, rfl⟩ := Prod.mk.inj heq
    exact (ih hr).trans (Nat.le_succ _)
  | case8 _ _ _ _ _ _ _ _ _ ih =>
    obtain ⟨r, hr, heq⟩ := Option.map_eq_some_iff.mp h
    obtain ⟨-, rfl⟩ := Prod.mk.inj heq
    have hle := ih hr
    simp only [List.length_cons]
    omega
  | case9 _ _ _ _ _ _ _ _ ih =>
    obtain ⟨r, hr, heq⟩ := Option.map_eq_some_iff.mp h
    obtain ⟨-, rfl⟩ := Prod.mk.inj heq
    exact (ih hr).trans (Nat.le_succ _)

/-- Where every argument is kept, the first one is no option. -/
theorem operand_of_parse {arg : PyStr} {rest operands : List PyStr} {settings : List (Setting ν)}
    (h : parse o (arg :: rest) = some (settings, operands)) (hlen : operands.length = rest.length + 1) :
    IsOperand arg := by
  by_contra hoption
  have hshort : ∀ {tail : List PyStr} {r}, parse o tail = some r → tail.length ≤ rest.length →
      r.2.length < operands.length := by
    intro tail r hr htail
    have hle := length_of_parse (show parse o tail = some (r.1, r.2) from hr)
    omega
  have hmap : ∀ {tail : List PyStr} {s : Setting ν}, tail.length ≤ rest.length →
      (parse o tail).map (fun r => (s :: r.1, r.2)) ≠ some (settings, operands) := by
    intro tail s htail hparse
    obtain ⟨r, hr, heq⟩ := Option.map_eq_some_iff.mp hparse
    have hlt := hshort hr htail
    rw [(Prod.mk.inj heq).2] at hlt
    exact lt_irrefl _ hlt
  rw [parse, if_neg hoption] at h
  split_ifs at h with hend
  · obtain ⟨-, rfl⟩ := Prod.mk.inj (Option.some.inj h)
    omega
  · split at h
    · cases h
    · split_ifs at h
      exact hmap le_rfl h
    · split_ifs at h
      · split at h
        · cases h
        · exact hmap (Nat.le_succ _) h
      · exact hmap le_rfl h

/-- **Settings are read back, with the arguments after them, exactly if an operand follows them.** -/
theorem parse_render_iff {settings : List (Setting ν)} (h : ∀ s ∈ settings, Fits o s) (arg : PyStr)
    (rest : List PyStr) :
    (∃ settings', parse o (settings.flatMap (render o) ++ arg :: rest) = some (settings', arg :: rest)) ↔
      IsOperand arg := by
  rw [parse_render h]
  constructor
  · rintro ⟨settings', hread⟩
    obtain ⟨⟨given, operands⟩, hparse, heq⟩ := Option.map_eq_some_iff.mp hread
    obtain ⟨-, rfl⟩ := Prod.mk.inj heq
    exact operand_of_parse hparse rfl
  · intro hop
    exact ⟨settings ++ [], by rw [parse_operand hop, Option.map_some]⟩

end BuildEngine.Base.OptionArgs
