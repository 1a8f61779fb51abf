import Mustache.Number.Notation
import Mustache.Number.Read
import Mustache.Proofs.Search

/-!
This module contains the text of numbers. The main statement is that a whole number of 64 bits is read back from it.
-/

namespace Mustache.Number

theorem readDigits_toDigits (n : Nat) : readDigits (Nat.toDigits 10 n) = some n := by
  have hall : (Nat.toDigits 10 n).all Char.isDigit := by
    rw [List.all_eq_true]
    intro c hc
    exact Nat.isDigit_of_mem_toDigits (by decide) (by decide) hc
  have hne : (Nat.toDigits 10 n).isEmpty = false := by simp [Nat.toDigits_ne_nil]
  rw [readDigits, hall, hne, Bool.not_false, Bool.and_self, if_pos rfl, ← Nat.ofDigitChars_eq_foldl,
    Nat.ofDigitChars_ten_toDigits]

theorem takeSign_toDigits (n : Nat) : takeSign (Nat.toDigits 10 n) = (false, Nat.toDigits 10 n) := by
  unfold takeSign
  split
  next cs h =>
    have := Nat.isDigit_of_mem_toDigits (b := 10) (n := n) (c := '-') (by decide) (by decide) (by simp [h])
    simp at this
  next cs h =>
    have := Nat.isDigit_of_mem_toDigits (b := 10) (n := n) (c := '+') (by decide) (by decide) (by simp [h])
    simp at this
  . rfl

theorem readCount_repr (n : Nat) : readCount n.repr.toList = some n := by
  rw [Nat.toList_repr]
  unfold readCount
  split
  next cs h =>
    have := Nat.isDigit_of_mem_toDigits (b := 10) (n := n) (c := '+') (by decide) (by decide) (by simp [h])
    simp at this
  . exact readDigits_toDigits n

theorem readInt_repr (n : Int) : readInt n.repr.toList = some n := by
  cases n with
  | ofNat n =>
    simp only [Int.repr, Nat.toList_repr, readInt, takeSign_toDigits, readDigits_toDigits]
    rfl
  | negSucc n =>
    have htext : (Int.negSucc n).repr.toList = '-' :: Nat.toDigits 10 (n + 1) := by
      simp [Int.repr]
    simp only [htext, readInt, takeSign, readDigits_toDigits]
    rfl

theorem readInt64_repr (n : Int64) : readInt64 n.toInt.repr.toList = some n := by
  have hmin := n.minValue_le_toInt
  have hmax := n.toInt_le
  rw [readInt64, readInt_repr, Option.bind_some]
  simp only [hmin, hmax, decide_true, Bool.and_self, ↓reduceIte, Int64.ofInt_toInt]

theorem mem_repr {n : Int} {c : Char} (h : c ∈ n.repr.toList) : c = '-' ∨ c.isDigit := by
  cases n with
  | ofNat n =>
    rw [Int.repr, Nat.toList_repr] at h
    exact .inr (Nat.isDigit_of_mem_toDigits (by decide) (by decide) h)
  | negSucc n =>
    rw [Int.repr, String.toList_append, Nat.toList_repr] at h
    rcases List.mem_append.1 h with h | h
    . exact .inl (by simpa using h)
    . exact .inr (Nat.isDigit_of_mem_toDigits (by decide) (by decide) h)

theorem repr_ne_nil (n : Int) : n.repr.toList ≠ [] := by
  cases n with
  | ofNat n => simp [Int.repr, Nat.toDigits_ne_nil]
  | negSucc n => simp [Int.repr]

def floatMarks : List Char :=
  ['-', '.', 'e', 'N', 'a', 'i', 'n', 'f']

def IsNumeral (c : Char) : Prop :=
  c.isDigit ∨ c ∈ floatMarks

instance (c : Char) : Decidable (IsNumeral c) :=
  inferInstanceAs (Decidable (_ ∨ _))

variable {c : Char} {digits : List Char}

theorem repr_isNumeral {n : Int} (h : c ∈ n.repr.toList) : IsNumeral c := by
  rcases mem_repr h with rfl | h
  . decide
  . exact .inl h

theorem mem_withPoint {keepsPoint : Bool} {point : Int} (hdigits : ∀ c ∈ digits, c.isDigit)
    (h : c ∈ withPoint keepsPoint digits point) : IsNumeral c := by
  have hzero {n : Nat} (hc : c ∈ List.replicate n '0') : c.isDigit := by
    rw [(List.mem_replicate.1 hc).2]
    decide
  unfold withPoint at h
  split at h
  . rcases List.mem_append.1 h with h | h
    . rcases List.mem_append.1 h with h | h
      . simp only [List.mem_cons, List.not_mem_nil, or_false] at h
        rcases h with rfl | rfl <;> decide
      . exact .inl (hzero h)
    . exact .inl (hdigits c h)
  . split at h
    . rcases List.mem_append.1 h with h | h
      . rcases List.mem_append.1 h with h | h
        . exact .inl (hdigits c h)
        . exact .inl (hzero h)
      . split at h
        . simp only [List.mem_cons, List.not_mem_nil, or_false] at h
          rcases h with rfl | rfl <;> decide
        . cases h
    . rcases List.mem_append.1 h with h | h
      . exact .inl (hdigits c (List.mem_of_mem_take h))
      . rcases List.mem_cons.1 h with rfl | h
        . decide
        . exact .inl (hdigits c (List.mem_of_mem_drop h))

theorem mem_withExponent {exponent : Int} (hdigits : ∀ c ∈ digits, c.isDigit)
    (h : c ∈ withExponent digits exponent) : IsNumeral c := by
  unfold withExponent at h
  rcases List.mem_append.1 h with h | h
  . rcases List.mem_append.1 h with h | h
    . exact .inl (hdigits c (List.mem_of_mem_take h))
    . split at h
      . rcases List.mem_cons.1 h with rfl | h
        . decide
        . exact .inl (hdigits c (List.mem_of_mem_drop h))
      . cases h
  . rcases List.mem_cons.1 h with rfl | h
    . decide
    . exact repr_isNumeral h

theorem mem_writeDecimal {style : FloatStyle} {d : Decimal} (h : c ∈ style.writeDecimal d) :
    IsNumeral c := by
  have hdigits : ∀ c ∈ Nat.toDigits 10 d.significand, c.isDigit :=
    fun c hc => Nat.isDigit_of_mem_toDigits (by decide) (by decide) hc
  unfold FloatStyle.writeDecimal at h
  dsimp only at h
  split at h
  . exact mem_withPoint hdigits h
  . split at h
    . exact mem_withPoint hdigits h
    . exact mem_withExponent hdigits h

theorem mem_write {style : FloatStyle} {x : Float} (h : c ∈ (style.write x).toList) :
    IsNumeral c := by
  have hsign (h : c ∈ if isNegative x then ['-'] else []) : IsNumeral c := by
    split at h
    . rw [List.mem_singleton.1 h]
      decide
    . cases h
  unfold FloatStyle.write at h
  dsimp only at h
  split at h
  . have hmarks : ∀ c ∈ "NaN".toList, c ∈ floatMarks := by decide
    exact .inr (hmarks c h)
  . rw [String.toList_ofList] at h
    rcases List.mem_append.1 h with h | h
    . exact hsign h
    . have hmarks : ∀ c ∈ ['i', 'n', 'f'], c ∈ floatMarks := by decide
      exact .inr (hmarks c h)
  . rw [String.toList_ofList] at h
    rcases List.mem_append.1 h with h | h
    . exact hsign h
    . split at h
      . have hmarks : ∀ c ∈ ['0', '.', '0'], IsNumeral c := by decide
        exact hmarks c h
      . rw [List.mem_singleton.1 h]
        decide
  . rw [String.toList_ofList] at h
    rcases List.mem_append.1 h with h | h
    . exact hsign h
    . exact mem_writeDecimal h

theorem withPoint_ne_nil (hdigits : digits ≠ []) (keepsPoint : Bool) (point : Int) :
    withPoint keepsPoint digits point ≠ [] := by
  unfold withPoint
  split
  . simp
  . split <;> simp [hdigits]

theorem writeDecimal_ne_nil (style : FloatStyle) (d : Decimal) : style.writeDecimal d ≠ [] := by
  unfold FloatStyle.writeDecimal
  dsimp only
  split
  . apply withPoint_ne_nil Nat.toDigits_ne_nil
  . split
    . apply withPoint_ne_nil Nat.toDigits_ne_nil
    . simp [withExponent]

theorem write_ne_nil (style : FloatStyle) (x : Float) : (style.write x).toList ≠ [] := by
  unfold FloatStyle.write
  dsimp only
  split
  . decide
  . simp
  . cases style.keepsPoint <;> simp
  . simp [writeDecimal_ne_nil]

end Mustache.Number
