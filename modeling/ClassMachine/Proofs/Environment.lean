import Mathlib.Data.List.Induction
import Mathlib.Tactic.NormNum
import ClassMachine.Config

/-!
# Which environments configure a machine

A depth limit is read from the left, digit by digit, with the value of the digits so far at hand.
Nothing is counted, so leading zeros do not matter, and nothing is looked at twice. Two things can
stop the reading: a character that is no digit, and a digit with which the value gets out of range.
So every text is one of two things:

* a sign, at most, and digits of which the value is in range
  (`ClassMachine.Config.Numeral`), which is then the limit;
* a text with a first character that offends (`ClassMachine.Config.Offends`), or one without a
  digit (`ClassMachine.Config.Rejected`), and what offends there is the reason given.

The value of digits is the one of the standard library, `Nat.ofDigitChars`, so that the limits that
are read are compared with numbers as they are written.

Main statement: `ClassMachine.environment_configuration`.
-/

namespace ClassMachine

namespace Config

/-! ### Digits -/

/-- The number that decimal digits denote. -/
def valueOf (digits : List Char) : Nat :=
  Nat.ofDigitChars 10 digits 0

/-- Digits, if any, of which the value is in range. -/
def InRange (digits : List Char) : Prop :=
  (∀ c ∈ digits, c.isDigit = true) ∧ valueOf digits < 2 ^ 64

/-- The first character that offends is the one behind digits in range, and it is no digit, or
takes the value out of range. -/
inductive Offends : List Char → DepthFault → Prop
  | notDigit {before after : List Char} {c : Char} (hbefore : InRange before)
      (hc : c.isDigit = false) : Offends (before ++ c :: after) .notDigit
  | tooLarge {before after : List Char} {c : Char} (hbefore : InRange before)
      (hc : c.isDigit = true) (hlarge : 2 ^ 64 ≤ valueOf (before ++ [c])) :
      Offends (before ++ c :: after) .tooLarge

theorem depthBound_eq : depthBound = 2 ^ 64 := by
  norm_num [depthBound]

/-- One digit more. -/
theorem valueOf_concat (digits : List Char) (c : Char) :
    valueOf (digits ++ [c]) = 10 * valueOf digits + (c.toNat - '0'.toNat) := by
  simp [valueOf, Nat.ofDigitChars_append, Nat.ofDigitChars_cons]

theorem inRange_nil : InRange [] :=
  ⟨by simp, by simp [valueOf]⟩

theorem inRange_concat {digits : List Char} {c : Char} : InRange (digits ++ [c]) ↔
    InRange digits ∧ c.isDigit = true ∧ valueOf (digits ++ [c]) < 2 ^ 64 := by
  have hle : valueOf digits ≤ valueOf (digits ++ [c]) := by
    rw [valueOf_concat]
    omega
  constructor
  · rintro ⟨hdigits, hvalue⟩
    exact ⟨⟨fun d hd => hdigits d (by simp [hd]), Nat.lt_of_le_of_lt hle hvalue⟩,
      hdigits c (by simp), hvalue⟩
  · rintro ⟨⟨hdigits, -⟩, hc, hvalue⟩
    refine ⟨fun d hd => ?_, hvalue⟩
    rcases List.mem_append.mp hd with hd | hd
    · exact hdigits d hd
    · exact List.mem_singleton.mp hd ▸ hc

/-- One character is read. -/
theorem readDigits_cons (before rest : List Char) (c : Char) :
    readDigits (valueOf before) (c :: rest) =
      if c.isDigit = true then
        if valueOf (before ++ [c]) < 2 ^ 64 then readDigits (valueOf (before ++ [c])) rest
        else .error .tooLarge
      else .error .notDigit := by
  rw [readDigits, valueOf_concat, depthBound_eq]

/-- Digits in range are read without a fault. -/
theorem readDigits_append {before : List Char} (h : InRange before) (rest : List Char) :
    readDigits 0 (before ++ rest) = readDigits (valueOf before) rest := by
  -- induction on the digits from the right: the last one is read when the others have been
  induction before using List.reverseRecOn generalizing rest with
  | nil => simp [valueOf]
  | append_singleton digits c ih =>
    obtain ⟨hdigits, hc, hvalue⟩ := inRange_concat.mp h
    rw [List.append_assoc, ih hdigits, List.singleton_append, readDigits_cons, if_pos hc,
      if_pos hvalue]

theorem readDigits_of_inRange {digits : List Char} (h : InRange digits) :
    readDigits 0 digits = .ok (valueOf digits) := by
  have hread := readDigits_append h []
  rw [List.append_nil] at hread
  rw [hread, readDigits]

theorem readDigits_of_offends {digits : List Char} {f : DepthFault} (h : Offends digits f) :
    readDigits 0 digits = .error f := by
  cases h with
  | notDigit hbefore hc => simp [readDigits_append hbefore, readDigits_cons, hc]
  | tooLarge hbefore hc hlarge =>
    rw [readDigits_append hbefore, readDigits_cons, if_pos hc, if_neg (Nat.not_lt.mpr hlarge)]

/-- Digits are in range, or there is a first character that offends. -/
theorem inRange_or_offends (digits : List Char) : InRange digits ∨ ∃ f, Offends digits f := by
  induction digits using List.reverseRecOn with
  | nil => exact .inl inRange_nil
  | append_singleton digits c ih =>
    rcases ih with hdigits | ⟨f, hf⟩
    · cases hc : c.isDigit with
      | false => exact .inr ⟨_, .notDigit hdigits hc⟩
      | true =>
        rcases Nat.lt_or_ge (valueOf (digits ++ [c])) (2 ^ 64) with hvalue | hlarge
        · exact .inl (inRange_concat.mpr ⟨hdigits, hc, hvalue⟩)
        · exact .inr ⟨_, .tooLarge hdigits hc hlarge⟩
    · -- what offends stands further to the left
      refine .inr ⟨f, ?_⟩
      cases hf with
      | notDigit hbefore hc => simpa using Offends.notDigit hbefore hc
      | tooLarge hbefore hc hlarge => simpa using Offends.tooLarge hbefore hc hlarge

/-- **What is read without a fault** is digits in range. -/
theorem readDigits_eq_ok_iff {digits : List Char} {n : Nat} :
    readDigits 0 digits = .ok n ↔ InRange digits ∧ valueOf digits = n := by
  constructor
  · intro h
    rcases inRange_or_offends digits with hdigits | ⟨f, hf⟩
    · rw [readDigits_of_inRange hdigits] at h
      exact ⟨hdigits, Except.ok.inj h⟩
    · rw [readDigits_of_offends hf] at h
      cases h
  · rintro ⟨hdigits, rfl⟩
    exact readDigits_of_inRange hdigits

/-- **What is read with a fault** has a first character that offends in this way. -/
theorem readDigits_eq_error_iff {digits : List Char} {f : DepthFault} :
    readDigits 0 digits = .error f ↔ Offends digits f := by
  constructor
  · intro h
    rcases inRange_or_offends digits with hdigits | ⟨f', hf'⟩
    · rw [readDigits_of_inRange hdigits] at h
      cases h
    · rw [readDigits_of_offends hf'] at h
      exact Except.error.inj h ▸ hf'
  · exact readDigits_of_offends

/-! ### Texts -/

/-- The characters of a text behind the plus sign, if there is one in front. -/
def unsigned : List Char → List Char
  | '+' :: digits => digits
  | digits => digits

/-- The text is a number in decimal: digits, at least one, with at most a plus sign in front. -/
def Numeral (s : String) (n : Nat) : Prop :=
  ∃ sign digits, s.toList = sign ++ digits ∧ (sign = [] ∨ sign = ['+']) ∧ digits ≠ [] ∧
    (∀ c ∈ digits, c.isDigit = true) ∧ valueOf digits = n

/-- Why the text is no depth limit. -/
inductive Rejected (s : String) : DepthFault → Prop
  | empty (h : s.toList = []) : Rejected s .empty
  | loneSign (h : s.toList = ['+']) : Rejected s .notDigit
  | offends {f : DepthFault} (h : Offends (unsigned s.toList) f) : Rejected s f

theorem Offends.ne_nil {digits : List Char} {f : DepthFault} (h : Offends digits f) :
    digits ≠ [] := by
  cases h <;> simp

/-- A text with a character behind the sign is read from there on. -/
theorem readDepth_eq {s : String} (h : unsigned s.toList ≠ []) :
    readDepth s = readDigits 0 (unsigned s.toList) := by
  unfold readDepth
  split
  next heq => simp [heq, unsigned] at h
  next heq => simp [heq, unsigned] at h
  next heq => rw [heq, unsigned]
  next _ hsign => rw [unsigned.eq_2 _ hsign]

/-- A text without one is empty or a lone sign. -/
theorem unsigned_eq_nil {cs : List Char} (h : unsigned cs = []) : cs = [] ∨ cs = ['+'] := by
  unfold unsigned at h
  split at h <;> simp_all

theorem numeral_iff {s : String} {n : Nat} : Numeral s n ↔ unsigned s.toList ≠ [] ∧
    (∀ c ∈ unsigned s.toList, c.isDigit = true) ∧ valueOf (unsigned s.toList) = n := by
  constructor
  · rintro ⟨sign, digits, hs, rfl | rfl, hne, hdigits, hvalue⟩
    · -- a digit in front is no sign
      have hsame : unsigned digits = digits := by
        refine unsigned.eq_2 _ fun rest hrest => ?_
        have hplus := hdigits '+' (by simp [hrest])
        exact absurd hplus (by decide)
      rw [hs, List.nil_append, hsame]
      exact ⟨hne, hdigits, hvalue⟩
    · rw [hs, List.singleton_append, unsigned]
      exact ⟨hne, hdigits, hvalue⟩
  · rintro ⟨hne, hdigits, hvalue⟩
    by_cases hsign : ∃ digits, s.toList = '+' :: digits
    · obtain ⟨digits, hs⟩ := hsign
      rw [hs, unsigned] at hne hdigits hvalue
      exact ⟨['+'], digits, hs, .inr rfl, hne, hdigits, hvalue⟩
    · have hsame := unsigned.eq_2 s.toList fun digits hs => hsign ⟨digits, hs⟩
      rw [hsame] at hne hdigits hvalue
      exact ⟨[], s.toList, rfl, .inl rfl, hne, hdigits, hvalue⟩

/-- **The texts that are depth limits.** -/
theorem readDepth_eq_ok_iff {s : String} {n : Nat} :
    readDepth s = .ok n ↔ Numeral s n ∧ n < 2 ^ 64 := by
  rw [numeral_iff]
  by_cases hne : unsigned s.toList = []
  · rcases unsigned_eq_nil hne with hs | hs <;> simp [readDepth, hs, unsigned]
  · rw [readDepth_eq hne, readDigits_eq_ok_iff, InRange]
    constructor
    · rintro ⟨⟨hdigits, hlt⟩, rfl⟩
      exact ⟨⟨hne, hdigits, rfl⟩, hlt⟩
    · rintro ⟨⟨-, hdigits, rfl⟩, hlt⟩
      exact ⟨⟨hdigits, hlt⟩, rfl⟩

/-- **The texts that are none**, and why. -/
theorem readDepth_eq_error_iff {s : String} {f : DepthFault} :
    readDepth s = .error f ↔ Rejected s f := by
  by_cases hne : unsigned s.toList = []
  · -- there is nothing to offend
    have hnone : ¬ Offends (unsigned s.toList) f := fun h => h.ne_nil hne
    rcases unsigned_eq_nil hne with hs | hs
    · have hread : readDepth s = .error .empty := by simp [readDepth, hs]
      rw [hread, Except.error.injEq]
      constructor
      · rintro rfl
        exact .empty hs
      · rintro (h | h | h)
        · rfl
        · simp [hs] at h
        · exact absurd h hnone
    · have hread : readDepth s = .error .notDigit := by simp [readDepth, hs]
      rw [hread, Except.error.injEq]
      constructor
      · rintro rfl
        exact .loneSign hs
      · rintro (h | h | h)
        · simp [hs] at h
        · rfl
        · exact absurd h hnone
  · rw [readDepth_eq hne, readDigits_eq_error_iff]
    constructor
    · exact .offends
    · rintro (h | h | h)
      · simp [h, unsigned] at hne
      · simp [h, unsigned] at hne
      · exact h

/-- A number as it is written, with zeros in front. -/
theorem numeral_toString {sign : String} (hsign : sign = "" ∨ sign = "+") (zeros n : Nat) :
    Numeral (sign ++ String.ofList (List.replicate zeros '0') ++ toString n) n := by
  refine ⟨sign.toList, List.replicate zeros '0' ++ Nat.toDigits 10 n, ?_, ?_, ?_, ?_, ?_⟩
  · simp
  · rcases hsign with rfl | rfl
    · exact .inl rfl
    · exact .inr rfl
  · simp [Nat.toDigits_ne_nil]
  · intro c hc
    rcases List.mem_append.mp hc with hc | hc
    · rw [List.eq_of_mem_replicate hc]
      rfl
    · exact Nat.isDigit_of_mem_toDigits (by decide) (by decide) hc
  · rw [valueOf, Nat.ofDigitChars_append, Nat.ofDigitChars_replicate_zero]
    simp [Nat.ofDigitChars_ten_toDigits]

end Config

open Config

/-! ### The environment -/

/-- The depth limit under a variable: what it says, or the usual one if it says nothing. -/
inductive Setting.Limits : Setting → Nat → Prop
  | unset : Limits .unset 256
  | undecodable : Limits .undecodable 256
  | text {s : String} {n : Nat} (h : Numeral s n) (hn : n < 2 ^ 64) : Limits (.text s) n

theorem Config.depthOf_eq_ok_iff {depth : Setting} {n : Nat} :
    depthOf depth = .ok n ↔ depth.Limits n := by
  cases depth with
  | text s =>
    have hread : depthOf (.text s) = .ok n ↔ readDepth s = .ok n := by
      rw [depthOf]
      cases readDepth s <;> simp
    rw [hread, readDepth_eq_ok_iff]
    exact ⟨fun ⟨h, hn⟩ => .text h hn, fun | .text h hn => ⟨h, hn⟩⟩
  | unset =>
    rw [depthOf, Except.ok.injEq]
    exact ⟨fun h => h ▸ .unset, fun | .unset => rfl⟩
  | undecodable =>
    rw [depthOf, Except.ok.injEq]
    exact ⟨fun h => h ▸ .undecodable, fun | .undecodable => rfl⟩

theorem Config.depthOf_eq_error_iff {depth : Setting} {f : ConfigFault} :
    depthOf depth = .error f ↔ depth = .text f.text ∧ Rejected f.text f.reason := by
  cases depth with
  | text s =>
    rw [← readDepth_eq_error_iff, depthOf, Setting.text.injEq]
    obtain ⟨text, reason⟩ := f
    constructor
    · intro h
      split at h
      · cases h
      next hread =>
        cases h
        exact ⟨rfl, hread⟩
    · rintro ⟨rfl, hread⟩
      rw [hread]
  | unset | undecodable => simp [depthOf]

/-- **Which environments configure a machine.** There is a configuration exactly if the variable
with the depth limit is unset, holds no text, or holds a numeral of a number below `2 ^ 64`; this
number is the limit, and the log filter is the text of the other variable, if it has one. In all
other cases the variable holds a text with a first character that offends, or without a digit; the
fault quotes the text and has this as its cause, whatever the other variable holds. A number is read
back as it is written, with any number of zeros in front and with or without a sign. -/
theorem environment_configuration (depth log : Setting) :
    (∀ c, ofEnvironment depth log = .ok c ↔
      ∃ n, depth.Limits n ∧ c = { maxDepth := n, logFilter := log.text? }) ∧
    (∀ f, ofEnvironment depth log = .error f ↔ ∃ s reason, depth = .text s ∧ Rejected s reason ∧
      f = { text := s, reason }) ∧
    (∀ f : ConfigFault, f.chain =
      ["CLASS_FIELDS_MAX_DEPTH is not a number: " ++ f.text, f.reason.message]) ∧
    ∀ sign zeros n, sign = "" ∨ sign = "+" → n < 2 ^ 64 →
      ofEnvironment (.text (sign ++ String.ofList (List.replicate zeros '0') ++ toString n)) log =
        .ok { maxDepth := n, logFilter := log.text? } := by
  have hok {depth : Setting} {n : Nat} (h : depth.Limits n) :
      ofEnvironment depth log = .ok { maxDepth := n, logFilter := log.text? } := by
    rw [ofEnvironment, depthOf_eq_ok_iff.mpr h]
  have herror {f : ConfigFault} (h : depthOf depth = .error f) :
      ofEnvironment depth log = .error f := by
    rw [ofEnvironment, h]
  refine ⟨fun c => ?_, fun f => ?_, fun f => ?_, fun sign zeros n hsign hn => ?_⟩
  · constructor
    · intro h
      rcases hdepth : depthOf depth with f | n
      · rw [herror hdepth] at h
        cases h
      · have hlimits := depthOf_eq_ok_iff.mp hdepth
        rw [hok hlimits] at h
        exact ⟨n, hlimits, (Except.ok.inj h).symm⟩
    · rintro ⟨n, hlimits, rfl⟩
      exact hok hlimits
  · constructor
    · intro h
      rcases hdepth : depthOf depth with f' | n
      · rw [herror hdepth] at h
        obtain ⟨hs, hrejected⟩ := depthOf_eq_error_iff.mp hdepth
        exact ⟨f'.text, f'.reason, hs, hrejected, (Except.error.inj h).symm⟩
      · rw [hok (depthOf_eq_ok_iff.mp hdepth)] at h
        cases h
    · rintro ⟨s, reason, rfl, hrejected, rfl⟩
      exact herror (depthOf_eq_error_iff.mpr ⟨rfl, hrejected⟩)
  · rfl
  · exact hok (.text (numeral_toString hsign zeros n) hn)

/-- A limit with a sign and zeros in front. -/
theorem environment_configuration_of_leadingZeros :
    (("+" = "" ∨ "+" = "+") ∧ 7 < 2 ^ 64) ∧ ofEnvironment (.text "+007") (.text "debug") =
      .ok { maxDepth := 7, logFilter := some "debug" } := by
  have hwritten : "+007" = "+" ++ String.ofList (List.replicate 2 '0') ++ toString 7 := by
    decide +kernel
  refine ⟨⟨.inr rfl, by decide⟩, ?_⟩
  rw [hwritten]
  exact (environment_configuration .unset (.text "debug")).2.2.2 "+" 2 7 (.inr rfl) (by decide)

end ClassMachine
