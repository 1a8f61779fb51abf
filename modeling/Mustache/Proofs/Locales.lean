import Mathlib.Data.List.Basic
import Mustache.Locale

/-!
This module contains which texts name a locale. The main statements are that a text does iff it has one of four forms,
other than `ll__vv` with a variant of two characters, and that a locale is written as the text that names it.
-/

namespace Mustache.Locale

def IsAscii (cs : List Char) : Prop :=
  ∀ c ∈ cs, c.toNat < 128

theorem isAscii_iff {cs : List Char} : cs.all (·.toNat < 128) ↔ IsAscii cs := by
  simp [IsAscii]

instance (cs : List Char) : Decidable (IsAscii cs) :=
  decidable_of_iff _ isAscii_iff

structure IsLanguage (cs : List Char) : Prop where
  length : cs.length = 2
  lower : ∀ c ∈ cs, c.isLower

structure IsCountry (cs : List Char) : Prop where
  length : cs.length = 2
  upper : ∀ c ∈ cs, c.isUpper

theorem isLanguage_iff {cs : List Char} : IsLanguage cs ↔ ∃ l m, cs = [l, m] ∧ l.isLower ∧ m.isLower := by
  constructor
  . rintro ⟨hlength, hlower⟩
    obtain ⟨l, m, rfl⟩ := List.length_eq_two.1 hlength
    exact ⟨l, m, rfl, hlower l (by simp), hlower m (by simp)⟩
  . rintro ⟨l, m, rfl, hl, hm⟩
    exact ⟨rfl, by simp [hl, hm]⟩

theorem isCountry_iff {cs : List Char} : IsCountry cs ↔ ∃ c d, cs = [c, d] ∧ c.isUpper ∧ d.isUpper := by
  constructor
  . rintro ⟨hlength, hupper⟩
    obtain ⟨c, d, rfl⟩ := List.length_eq_two.1 hlength
    exact ⟨c, d, rfl, hupper c (by simp), hupper d (by simp)⟩
  . rintro ⟨c, d, rfl, hc, hd⟩
    exact ⟨rfl, by simp [hc, hd]⟩

/--
The four forms of a locale, `ll`, `ll_CC`, `ll_CC_variant` and `ll__variant`, and the parts that they name.
-/
inductive Form : List Char → Locale → Prop where
  | language {ll : List Char} (hll : IsLanguage ll) : Form ll ⟨String.ofList ll, none, none⟩
  | country {ll cc : List Char} (hll : IsLanguage ll) (hcc : IsCountry cc) :
    Form (ll ++ '_' :: cc) ⟨String.ofList ll, some (String.ofList cc), none⟩
  | countryVariant {ll cc variant : List Char} (hll : IsLanguage ll) (hcc : IsCountry cc) (hvariant : variant ≠ []) :
    Form (ll ++ '_' :: cc ++ '_' :: variant)
      ⟨String.ofList ll, some (String.ofList cc), some (String.ofList variant)⟩
  | variant {ll variant : List Char} (hll : IsLanguage ll) (hvariant : variant ≠ []) :
    Form (ll ++ '_' :: '_' :: variant) ⟨String.ofList ll, none, some (String.ofList variant)⟩

/--
The one kind of locale that has a form and is not read: a variant of two characters behind no country.
-/
def ShortVariant (l : Locale) : Prop :=
  l.country = none ∧ ∃ variant ∈ l.variant, variant.length = 2

theorem form_of_ofChars? {cs : List Char} {l : Locale} (h : ofChars? cs = some l) : Form cs l ∧ ¬ShortVariant l := by
  unfold ofChars? at h
  split at h
  next l m rest =>
    split at h
    next hlower =>
      rw [Bool.and_eq_true] at hlower
      have hll : IsLanguage [l, m] := isLanguage_iff.2 ⟨l, m, rfl, hlower⟩
      dsimp only at h
      split at h
      . cases h
        exact ⟨.language hll, by simp [ShortVariant]⟩
      next variant =>
        split at h
        next hlength =>
          cases h
          simp only [Bool.or_eq_true, decide_eq_true_eq] at hlength
          refine ⟨.variant hll ?_, ?_⟩
          . rintro rfl
            simp at hlength
          . simp only [ShortVariant, Option.mem_def, Option.some.injEq, exists_eq_left', String.length_ofList, true_and]
            omega
        . cases h
      next c d rest _ =>
        split at h
        next hupper =>
          rw [Bool.and_eq_true] at hupper
          have hcc : IsCountry [c, d] := isCountry_iff.2 ⟨c, d, rfl, hupper⟩
          split at h
          . cases h
            exact ⟨.country hll hcc, by simp [ShortVariant]⟩
          next variant =>
            split at h
            . cases h
            next hvariant =>
              cases h
              exact ⟨.countryVariant hll hcc (by simpa using hvariant), by simp [ShortVariant]⟩
          . cases h
        . cases h
      . cases h
    . cases h
  . cases h

theorem ne_of_isUpper {c : Char} (h : c.isUpper) : c ≠ '_' := by
  rintro rfl
  cases h

theorem Form.ofChars?_eq {cs : List Char} {l : Locale} (h : Form cs l) (hlong : ¬ShortVariant l) :
    ofChars? cs = some l := by
  cases h with
  | language hll =>
    obtain ⟨l, m, rfl, hl, hm⟩ := isLanguage_iff.1 hll
    simp [ofChars?, hl, hm]
  | country hll hcc =>
    obtain ⟨l, m, rfl, hl, hm⟩ := isLanguage_iff.1 hll
    obtain ⟨c, d, rfl, hc, hd⟩ := isCountry_iff.1 hcc
    have hne := ne_of_isUpper hc
    simp [ofChars?, hl, hm, hc, hd]
  | countryVariant hll hcc hvariant =>
    obtain ⟨l, m, rfl, hl, hm⟩ := isLanguage_iff.1 hll
    obtain ⟨c, d, rfl, hc, hd⟩ := isCountry_iff.1 hcc
    have hne := ne_of_isUpper hc
    simp [ofChars?, hl, hm, hc, hd, hvariant]
  | @variant ll variant hll hvariant =>
    obtain ⟨l, m, rfl, hl, hm⟩ := isLanguage_iff.1 hll
    have hlength : variant.length = 1 ∨ 3 ≤ variant.length := by
      have hpos := List.length_pos_iff.2 hvariant
      have hne : variant.length ≠ 2 := fun htwo => hlong ⟨rfl, _, rfl, by simpa using htwo⟩
      omega
    simp [ofChars?, hl, hm, hlength]

theorem ofChars?_eq_some_iff {cs : List Char} {l : Locale} :
    ofChars? cs = some l ↔ Form cs l ∧ ¬ShortVariant l :=
  ⟨form_of_ofChars?, fun h => h.1.ofChars?_eq h.2⟩

def from? (cs : List Char) (place : Nat) : Option (List Char) :=
  if place ≤ cs.length then some (cs.drop place) else none

/--
The same reading by the numbers of the places, after a look at the length alone. It is `none` if a place is read that
the text does not have.
-/
def ofPlaces? (cs : List Char) : Option (Option Locale) := do
  if cs.length ≠ 2 ∧ cs.length ≠ 5 ∧ cs.length < 7 then
    return none
  let l ← cs[0]?
  let m ← cs[1]?
  if !(l.isLower && m.isLower) then
    return none
  let language := String.ofList [l, m]
  if cs.length = 2 then
    return some { language }
  if (← cs[2]?) ≠ '_' then
    return none
  let c ← cs[3]?
  if c = '_' then
    return some { language, variant := some (String.ofList (← from? cs 4)) }
  let d ← cs[4]?
  if !(c.isUpper && d.isUpper) then
    return none
  let country := some (String.ofList [c, d])
  if cs.length = 5 then
    return some { language, country }
  if (← cs[5]?) ≠ '_' then
    return none
  return some { language, country, variant := some (String.ofList (← from? cs 6)) }

theorem ofPlaces?_eq (cs : List Char) : ofPlaces? cs = some (ofChars? cs) := by
  match cs with
  | [] | [_] | [_, _, _] => simp [ofPlaces?, ofChars?]
  | [l, m] =>
    by_cases hlower : l.isLower ∧ m.isLower <;> simp [ofPlaces?, ofChars?, hlower]
  | [l, m, x, c] =>
    by_cases hx : x = '_' <;> by_cases hc : c = '_' <;> simp [ofPlaces?, ofChars?, hx, hc]
  | [l, m, x, c, d] =>
    by_cases hlower : l.isLower ∧ m.isLower
    . by_cases hx : x = '_'
      . by_cases hc : c = '_'
        . simp [ofPlaces?, ofChars?, from?, hlower, hx, hc]
        . by_cases hupper : c.isUpper ∧ d.isUpper <;> simp [ofPlaces?, ofChars?, hlower, hx, hc, hupper]
      . simp [ofPlaces?, ofChars?, hlower, hx]
    . simp [ofPlaces?, ofChars?, hlower]
  | [l, m, x, c, d, y] =>
    by_cases hx : x = '_' <;> by_cases hc : c = '_' <;> by_cases hy : y = '_' <;> simp [ofPlaces?, ofChars?, hx, hc, hy]
  | l :: m :: x :: c :: d :: y :: v :: variant =>
    have hlong : ¬variant.length + 1 + 1 + 1 + 1 + 1 + 1 + 1 < 7 := by omega
    by_cases hlower : l.isLower ∧ m.isLower
    . by_cases hx : x = '_'
      . by_cases hc : c = '_'
        . simp [ofPlaces?, ofChars?, from?, hlong, hlower, hx, hc]
        . by_cases hupper : c.isUpper ∧ d.isUpper
          . by_cases hy : y = '_' <;> simp [ofPlaces?, ofChars?, from?, hlong, hlower, hx, hc, hupper, hy]
          . simp [ofPlaces?, ofChars?, hlong, hlower, hx, hc, hupper]
      . simp [ofPlaces?, ofChars?, hlong, hlower, hx]
    . simp [ofPlaces?, ofChars?, hlong, hlower]

theorem parse_eq_ok_iff {text : String} {l : Locale} :
    parse text = .ok l ↔ IsAscii text.toList ∧ ofChars? text.toList = some l := by
  unfold parse
  rw [← isAscii_iff]
  by_cases hascii : text.toList.all (·.toNat < 128)
  . rw [if_pos hascii, and_iff_right hascii]
    cases ofChars? text.toList <;> simp [pure, Except.pure, throw, throwThe, MonadExceptOf.throw]
  . rw [if_neg hascii]
    simp [hascii, throw, throwThe, MonadExceptOf.throw]

theorem parse_eq_error (text : String) (h : ∀ l, parse text ≠ .ok l) :
    parse text = .error (.argumentType text "locale of the form ll, ll_CC or ll_CC_variant") := by
  unfold parse at h ⊢
  split
  next l hl => exact absurd (by rw [hl]; rfl) (h l)
  . rfl

/--
A text names a locale iff all of it is ASCII and it has one of the four forms, but for a short variant behind no
country. The parts are those of the form. Any other text is refused as an argument of the wrong shape. To tell one from
the other no place is read that the text does not have.
-/
theorem parse_grammar (text : String) :
    (∀ l, parse text = .ok l ↔ IsAscii text.toList ∧ Form text.toList l ∧ ¬ShortVariant l) ∧
      ((∀ l, parse text ≠ .ok l) →
        parse text = .error (.argumentType text "locale of the form ll, ll_CC or ll_CC_variant")) ∧
      ofPlaces? text.toList = some (ofChars? text.toList) := by
  refine ⟨?_, parse_eq_error text, ofPlaces?_eq text.toList⟩
  intro l
  rw [parse_eq_ok_iff, ofChars?_eq_some_iff]

theorem parse_grammar_variant :
    parse "en__POSIX" = .ok ⟨"en", none, some "POSIX"⟩ ∧
      parse "en-US" = .error (.argumentType "en-US" "locale of the form ll, ll_CC or ll_CC_variant") := by
  have hform : Form "en__POSIX".toList ⟨"en", none, some "POSIX"⟩ :=
    .variant (isLanguage_iff.2 ⟨'e', 'n', rfl, by decide, by decide⟩) (by decide)
  have hlong : ¬ShortVariant ⟨"en", none, some "POSIX"⟩ := by
    rintro ⟨-, variant, ⟨⟩, hlength⟩
    exact absurd hlength (by decide)
  have hrefused (l : Locale) : parse "en-US" ≠ .ok l := by
    rintro ⟨⟩
  exact ⟨((parse_grammar _).1 _).2 ⟨by decide, hform, hlong⟩, (parse_grammar _).2.1 hrefused⟩

/--
A variant of two characters is refused behind no country, although it has a form: no other text with a form has six
characters, and such texts are refused by their length.
-/
theorem short_variant_refused :
    IsAscii "en__ab".toList ∧ Form "en__ab".toList ⟨"en", none, some "ab"⟩ ∧
      parse "en__ab" = .error (.argumentType "en__ab" "locale of the form ll, ll_CC or ll_CC_variant") :=
  ⟨by decide, .variant (isLanguage_iff.2 ⟨'e', 'n', rfl, by decide, by decide⟩) (by decide), rfl⟩

/--
A locale that a text can name. Its variant is free, apart from the length and from being in ASCII: it may begin with an
underscore and hold more of them.
-/
structure Nameable (l : Locale) : Prop where
  language : IsLanguage l.language.toList
  country : ∀ cc ∈ l.country, IsCountry cc.toList
  variant : ∀ variant ∈ l.variant, variant.toList ≠ []
  ascii : IsAscii l.text.toList
  long : ¬ShortVariant l

theorem Form.toList_text {cs : List Char} {l : Locale} (h : Form cs l) : l.text.toList = cs := by
  cases h <;> simp [text]

theorem Form.nameable {cs : List Char} {l : Locale} (h : Form cs l) (hascii : IsAscii cs) (hlong : ¬ShortVariant l) :
    l.Nameable where
  language := by cases h <;> simpa
  country := by cases h <;> simp [*]
  variant := by cases h <;> simp [*]
  ascii := h.toList_text ▸ hascii
  long := hlong

theorem Nameable.form {l : Locale} (h : l.Nameable) : Form l.text.toList l := by
  obtain ⟨language, country, variant⟩ := l
  have hlanguage := h.language
  cases country with
  | none =>
    cases variant with
    | none => simpa [text] using Form.language hlanguage
    | some variant => simpa [text] using Form.variant hlanguage (h.variant variant rfl)
  | some country =>
    have hcountry := h.country country rfl
    cases variant with
    | none => simpa [text] using Form.country hlanguage hcountry
    | some variant => simpa [text] using Form.countryVariant hlanguage hcountry (h.variant variant rfl)

theorem parse_eq_ok_iff_text {text : String} {l : Locale} : parse text = .ok l ↔ l.text = text ∧ l.Nameable := by
  rw [parse_eq_ok_iff, ofChars?_eq_some_iff]
  constructor
  . rintro ⟨hascii, hform, hlong⟩
    exact ⟨String.toList_inj.1 hform.toList_text, hform.nameable hascii hlong⟩
  . rintro ⟨rfl, h⟩
    exact ⟨h.ascii, h.form, h.long⟩

/--
A locale is written as the text that it was read from, from there the same locale is read again, and no other text names
it. The locales that are read from somewhere are those with parts of the right shape.
-/
theorem parse_inverse (text : String) (l : Locale) :
    (parse text = .ok l → l.text = text ∧ parse l.text = .ok l ∧ ∀ other, parse other = .ok l → other = text) ∧
      ((∃ source, parse source = .ok l) ↔ l.Nameable) := by
  refine ⟨?_, ?_⟩
  . intro h
    obtain ⟨htext, hl⟩ := parse_eq_ok_iff_text.1 h
    refine ⟨htext, parse_eq_ok_iff_text.2 ⟨rfl, hl⟩, ?_⟩
    intro other hother
    exact (parse_eq_ok_iff_text.1 hother).1.symm.trans htext
  . constructor
    . rintro ⟨source, h⟩
      exact (parse_eq_ok_iff_text.1 h).2
    . intro hl
      exact ⟨l.text, parse_eq_ok_iff_text.2 ⟨rfl, hl⟩⟩

theorem parse_inverse_underscores :
    parse "en___x_1" = .ok ⟨"en", none, some "_x_1"⟩ ∧ text ⟨"en", none, some "_x_1"⟩ = "en___x_1" ∧
      parse (text ⟨"en", none, some "_x_1"⟩) = .ok ⟨"en", none, some "_x_1"⟩ := by
  have hread : parse "en___x_1" = .ok ⟨"en", none, some "_x_1"⟩ := rfl
  obtain ⟨hwritten, hagain, -⟩ := (parse_inverse "en___x_1" ⟨"en", none, some "_x_1"⟩).1 hread
  exact ⟨hread, hwritten, hagain⟩

end Mustache.Locale
