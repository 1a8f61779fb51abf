import Mustache.Date.Gregorian
import Mustache.Proofs.Walking

/-!
This module contains what date patterns mean. The main statement is that the date format of a pattern is read as the
fields and the texts of the pattern, by every calendar that accepts the fields, and that a pattern has no format iff one
of its quotes is not closed or one of its letters has no meaning.
-/

namespace Mustache

theorem DateField.code_head (f : DateField) : f.code.head? ≠ some '%' := by
  cases f with
  | month b | monthName b | day b | weekdayName b | hour b | hourOfHalf b | minute b | second b =>
    cases b <;> decide
  | _ => decide

namespace DateFormat

theorem read?_code_append (item : DateItem) (cs : List Char) :
    read? (item.code ++ cs) = (read? cs).map (item :: ·) := by
  cases item with
  | literal c =>
    by_cases hc : c = '%'
    . rw [DateItem.code, if_pos hc, hc, List.cons_append, List.cons_append, List.nil_append, read?]
    . rw [DateItem.code, if_neg hc, List.singleton_append, read?]
      all_goals
        intros
        exact hc ‹_›
  | field f =>
    have hread := f.read?_code_append cs
    rw [DateItem.code, List.cons_append, read?]
    . split
      next hnone =>
        rw [hread] at hnone
        cases hnone
      next hsome =>
        rw [hread] at hsome
        cases hsome
        rfl
    . -- the code of a field is not taken for a second percent sign
      intro rest hrest
      have hhead := f.code_head
      have hpos := List.length_pos_iff.1 f.code_length_pos
      obtain ⟨c, code, hcode⟩ := List.exists_cons_of_ne_nil hpos
      rw [hcode, List.cons_append, List.cons.injEq] at hrest
      rw [hcode, hrest.1] at hhead
      exact hhead rfl

theorem read?_code (items : List DateItem) : read? (items.flatMap DateItem.code) = some items := by
  induction items with
  | nil => rw [List.flatMap_nil, read?]
  | cons item items ih => rw [List.flatMap_cons, read?_code_append, ih, Option.map_some]

end DateFormat

namespace Calendar

variable {c : Calendar} {shown : String → DateField → DateTime → String}

theorem Reads.item (h : c.Reads shown) (locale : String) (item : DateItem) (rest : List Char) :
    c.read locale (String.ofList (item.code ++ rest)) =
      following (fun t => item.text (shown locale · t)) (c.read locale (String.ofList rest)) := by
  cases item with
  | literal char =>
    by_cases hchar : char = '%'
    . subst hchar
      exact h.percent locale rest
    . rw [DateItem.code, if_neg hchar]
      exact h.character locale hchar rest
  | field field => exact h.field locale field rest

theorem Reads.code (h : c.Reads shown) (locale : String) (items : List DateItem) :
    c.read locale (String.ofList (items.flatMap DateItem.code)) =
      some fun t => some (String.join (items.map (DateItem.text (shown locale · t)))) := by
  induction items with
  | nil => exact h.nothing locale
  | cons item items ih =>
    rw [List.flatMap_cons, h.item, ih]
    simp [following]

theorem Reads.write_code (h : c.Reads shown) (locale : String) (t : DateTime) (items : List DateItem) :
    c.write locale (String.ofList (items.flatMap DateItem.code)) t =
      .ok (String.join (items.map (DateItem.text (shown locale · t)))) := by
  rw [write, h.code]
  rfl

def gregorianText (locale : String) (field : DateField) (t : DateTime) : String :=
  field.text ((DateNames.byLocale.lookup locale).getD .english) t

theorem gregorian_reads : gregorian.Reads gregorianText := by
  have hitem (locale : String) (item : DateItem) (rest : List Char) :
      gregorian.read locale (String.ofList (item.code ++ rest)) =
        following (fun t => item.text (gregorianText locale · t)) (gregorian.read locale (String.ofList rest)) := by
    unfold gregorian
    dsimp only
    rw [String.toList_ofList, String.toList_ofList, DateFormat.read?_code_append, following, Option.map_map,
      Option.map_map]
    congr 1
    funext items t
    simp [gregorianText]
  refine ⟨fun locale => ?_, fun locale field => hitem locale (.field field),
    fun locale => hitem locale (.literal '%'), ?_⟩
  . unfold gregorian
    dsimp only
    rw [String.toList_empty, DateFormat.read?]
    rfl
  . intro locale char hchar rest
    have hliteral := hitem locale (.literal char) rest
    rwa [DateItem.code, if_neg hchar] at hliteral

end Calendar

namespace DatePattern

def doubled (text : List Char) : List Char :=
  text.flatMap fun c => if c = '\x27' then ['\x27', '\x27'] else [c]

/--
What a pattern means: a field for each run of a letter, as long as it can be, and all other characters themselves. Two
quotes stand for one, and a single quote begins or ends a text in which letters stand for themselves.
-/
inductive Means : List Char → List DateItem → Prop where
  | nil : Means [] []
  | run {c : Char} {count : Nat} {field : DateField} {rest : List Char} {items : List DateItem} (hcount : 0 < count)
    (hlongest : rest.head? ≠ some c) (hfield : field? c count = some field) (hrest : Means rest items) :
    Means (List.replicate count c ++ rest) (.field field :: items)
  | other {c : Char} {rest : List Char} {items : List DateItem} (hletter : c.isAlpha = false) (hquote : c ≠ '\x27')
    (hrest : Means rest items) : Means (c :: rest) (.literal c :: items)
  | quote {rest : List Char} {items : List DateItem} (hrest : Means rest items) :
    Means ('\x27' :: '\x27' :: rest) (.literal '\x27' :: items)
  | quoted {c : Char} {text rest : List Char} {items : List DateItem} (hopened : c ≠ '\x27')
    (hclosed : rest.head? ≠ some '\x27') (hrest : Means rest items) :
    Means ('\x27' :: (doubled (c :: text) ++ '\x27' :: rest)) ((c :: text).map .literal ++ items)

/--
A pattern goes on outside of quotes behind some of its characters, in front of which it was inside of quotes or not. A
pair of quotes leaves it as it was, so only the number of quotes counts.
-/
def Outside (quoted : Bool) (before : List Char) : Prop :=
  (before.count '\x27' + quoted.toNat) % 2 = 0

def letters : List Char :=
  ['y', 'M', 'd', 'D', 'E', 'u', 'a', 'H', 'h', 'm', 's', 'S', 'z', 'Z']

/--
A letter outside of quotes has no meaning.
-/
def Unknown (cs : List Char) : Prop :=
  ∃ before c after, cs = before ++ c :: after ∧ Outside false before ∧ c.isAlpha ∧ c ∉ letters

theorem field?_eq_none_iff (c : Char) (count : Nat) : field? c count = none ↔ c ∉ letters := by
  unfold field?
  split <;> simp_all [letters]

theorem isAlpha_of_field? {c : Char} {count : Nat} {field : DateField} (h : field? c count = some field) :
    c.isAlpha := by
  have hall : ∀ c ∈ letters, c.isAlpha := by decide
  refine hall c (Decidable.not_not.1 fun hc => ?_)
  rw [(field?_eq_none_iff c count).2 hc] at h
  cases h

section Quotes

variable {c : Char} {cs rest : List Char}

theorem readQuotes_pair (quoted : Bool) (cs : List Char) :
    readQuotes quoted ('\x27' :: '\x27' :: cs) =
      (.literal '\x27' :: (readQuotes quoted cs).1, (readQuotes quoted cs).2) := rfl

theorem readQuotes_single (quoted : Bool) (h : cs.head? ≠ some '\x27') :
    readQuotes quoted ('\x27' :: cs) = readQuotes (!quoted) cs := by
  rw [readQuotes]
  rintro rest rfl
  exact h rfl

theorem readQuotes_char (quoted : Bool) (hc : c ≠ '\x27') (cs : List Char) :
    readQuotes quoted (c :: cs) =
      ((if !quoted && c.isAlpha then .letter c else .literal c) :: (readQuotes quoted cs).1,
        (readQuotes quoted cs).2) := by
  rw [readQuotes]
  . intro _ heq
    exact absurd heq hc
  . exact hc

theorem readQuotes_run (hc : c.isAlpha) (count : Nat) (rest : List Char) :
    readQuotes false (List.replicate count c ++ rest) =
      (List.replicate count (.letter c) ++ (readQuotes false rest).1, (readQuotes false rest).2) := by
  have hquote : c ≠ '\x27' := by
    rintro rfl
    cases hc
  induction count with
  | zero => rfl
  | succ count ih =>
    rw [List.replicate_succ, List.cons_append, readQuotes_char false hquote, ih]
    simp [hc, List.replicate_succ]

theorem readQuotes_doubled (text : List Char) (h : rest.head? ≠ some '\x27') :
    readQuotes true (doubled text ++ '\x27' :: rest) =
      (text.map .literal ++ (readQuotes false rest).1, (readQuotes false rest).2) := by
  induction text with
  | nil => exact readQuotes_single true h
  | cons c text ih =>
    rw [doubled, List.flatMap_cons, ← doubled, List.append_assoc]
    split
    next hc =>
      rw [hc, List.cons_append, List.cons_append, List.nil_append, readQuotes_pair, ih]
      rfl
    next hc =>
      rw [List.singleton_append, readQuotes_char true hc, ih]
      rfl

theorem quotes_induction {motive : Bool → List Char → Prop} (nil : ∀ quoted, motive quoted [])
    (pair : ∀ quoted cs, motive quoted cs → motive quoted ('\x27' :: '\x27' :: cs))
    (single : ∀ quoted cs, cs.head? ≠ some '\x27' → motive (!quoted) cs → motive quoted ('\x27' :: cs))
    (char : ∀ quoted c cs, c ≠ '\x27' → motive quoted cs → motive quoted (c :: cs)) (quoted : Bool)
    (cs : List Char) : motive quoted cs := by
  induction quoted, cs using readQuotes.induct with
  | case1 quoted => exact nil quoted
  | case2 quoted cs _ _ _ ih => exact pair quoted cs ih
  | case3 quoted cs hcs ih =>
    refine single quoted cs ?_ ih
    intro hhead
    obtain ⟨rest, hrest⟩ := List.head?_eq_some_iff.1 hhead
    exact hcs rest hrest
  | case4 quoted c cs _ hc _ _ _ ih => exact char quoted c cs hc ih

theorem exists_doubled {quoted : Bool} (hquoted : quoted = true) (h : (readQuotes quoted cs).2 = true) :
    ∃ text rest, cs = doubled text ++ '\x27' :: rest ∧ rest.head? ≠ some '\x27' := by
  induction quoted, cs using quotes_induction with
  | nil quoted =>
    cases hquoted
    cases h
  | pair quoted cs ih =>
    obtain ⟨text, rest, rfl, hrest⟩ := ih hquoted h
    exact ⟨'\x27' :: text, rest, rfl, hrest⟩
  | single quoted cs hcs _ => exact ⟨[], cs, rfl, hcs⟩
  | char quoted c cs hc ih =>
    rw [readQuotes_char quoted hc] at h
    obtain ⟨text, rest, rfl, hrest⟩ := ih hquoted h
    exact ⟨c :: text, rest, by simp [doubled, hc], hrest⟩

theorem outside_nil (quoted : Bool) : Outside quoted [] ↔ quoted = false := by
  cases quoted <;> simp [Outside]

theorem outside_quote (quoted : Bool) (before : List Char) :
    Outside quoted ('\x27' :: before) ↔ Outside (!quoted) before := by
  unfold Outside
  rw [List.count_cons_self]
  cases quoted
  . exact Iff.rfl
  . simp only [Bool.toNat_true, Bool.not_true, Bool.toNat_false]
    omega

theorem outside_char (quoted : Bool) (hc : c ≠ '\x27') (before : List Char) :
    Outside quoted (c :: before) ↔ Outside quoted before := by
  rw [Outside, List.count_cons_of_ne hc, Outside]

theorem readQuotes_closed_iff (quoted : Bool) (cs : List Char) :
    (readQuotes quoted cs).2 = true ↔ Outside quoted cs := by
  induction quoted, cs using quotes_induction with
  | nil quoted => rw [outside_nil, readQuotes, Bool.not_eq_true']
  | pair quoted cs ih => rw [readQuotes_pair, ih, outside_quote, outside_quote, Bool.not_not]
  | single quoted cs hcs ih => rw [readQuotes_single quoted hcs, ih, outside_quote]
  | char quoted c cs hc ih => rw [readQuotes_char quoted hc, ih, outside_char quoted hc]

theorem isAlpha_of_mem_readQuotes {quoted : Bool} (h : .letter c ∈ (readQuotes quoted cs).1) : c.isAlpha := by
  induction quoted, cs using quotes_induction with
  | nil quoted => cases h
  | pair quoted cs ih => exact ih (by simpa [readQuotes_pair] using h)
  | single quoted cs hcs ih => exact ih (by rwa [readQuotes_single quoted hcs] at h)
  | char quoted d cs hd ih =>
    rw [readQuotes_char quoted hd, List.mem_cons] at h
    rcases h with h | h
    . split at h
      next halpha =>
        cases h
        exact (Bool.and_eq_true _ _ ▸ halpha).2
      . cases h
    . exact ih h

theorem exists_split_cons {d : Char} {P : List Char → Prop} :
    (∃ before after, d :: cs = before ++ c :: after ∧ P before) ↔
      d = c ∧ P [] ∨ ∃ before after, cs = before ++ c :: after ∧ P (d :: before) := by
  constructor
  . rintro ⟨before, after, heq, hP⟩
    cases before with
    | nil =>
      cases heq
      exact .inl ⟨rfl, hP⟩
    | cons e before =>
      cases heq
      exact .inr ⟨before, after, rfl, hP⟩
  . rintro (⟨rfl, hP⟩ | ⟨before, after, rfl, hP⟩)
    . exact ⟨[], cs, rfl, hP⟩
    . exact ⟨d :: before, after, rfl, hP⟩

theorem letter_mem_readQuotes_iff (hc : c.isAlpha) (quoted : Bool) (cs : List Char) :
    .letter c ∈ (readQuotes quoted cs).1 ↔ ∃ before after, cs = before ++ c :: after ∧ Outside quoted before := by
  have hquote : '\x27' ≠ c := by
    rintro rfl
    cases hc
  induction quoted, cs using quotes_induction with
  | nil quoted => simp [readQuotes]
  | pair quoted cs ih =>
    simp only [readQuotes_pair, exists_split_cons, List.mem_cons, reduceCtorEq, hquote, false_and, false_or,
      outside_quote, Bool.not_not]
    exact ih
  | single quoted cs hcs ih =>
    simp only [readQuotes_single quoted hcs, exists_split_cons, hquote, false_and, false_or, outside_quote]
    exact ih
  | char quoted d cs hd ih =>
    simp only [readQuotes_char quoted hd, exists_split_cons, List.mem_cons, outside_nil, outside_char quoted hd]
    refine or_congr ?_ ih
    cases quoted
    . by_cases hdc : d = c
      . simp [hdc, hc]
      . split <;> simp [hdc, Ne.symm hdc]
    . simp

theorem head_of_letter {quoted : Bool} (hopened : quoted = true → cs.head? ≠ some '\x27')
    (h : .letter c ∈ (readQuotes quoted cs).1.head?) : quoted = false ∧ c ∈ cs.head? := by
  induction quoted, cs using quotes_induction with
  | nil quoted => cases h
  | pair quoted cs _ => cases h
  | single quoted cs hcs ih =>
    rw [readQuotes_single quoted hcs] at h
    have hquoted := (ih (fun _ => hcs) h).1
    exact absurd rfl (hopened (by simpa using hquoted))
  | char quoted d cs hd _ =>
    rw [readQuotes_char quoted hd, List.head?_cons, Option.mem_some_iff] at h
    split at h
    next hletter =>
      cases h
      rw [Bool.and_eq_true, Bool.not_eq_true'] at hletter
      exact ⟨hletter.1, rfl⟩
    . cases h

end Quotes

section Runs

variable {c : Char} {chars : List PatternChar}

theorem runs_letter_same {count : Nat} {parts : List PatternPart} (h : runs chars = .run c count :: parts) :
    runs (.letter c :: chars) = .run c (count + 1) :: parts := by
  rw [runs, h]
  exact if_pos rfl

theorem runs_letter_other (h : ∀ count, .run c count ∉ (runs chars).head?) :
    runs (.letter c :: chars) = .run c 1 :: runs chars := by
  rw [runs]
  split
  next d count parts hruns =>
    rw [if_neg, hruns]
    rintro rfl
    exact h count (by rw [hruns]; rfl)
  . rfl

theorem head_of_run {count : Nat} (h : .run c count ∈ (runs chars).head?) : .letter c ∈ chars.head? := by
  cases chars with
  | nil => cases h
  | cons first chars =>
    cases first with
    | literal d => cases h
    | letter d =>
      rw [runs] at h
      split at h
      . split at h <;> cases h <;> rfl
      . cases h
        rfl

theorem runs_letters (hchars : .letter c ∉ chars.head?) (count : Nat) :
    runs (List.replicate (count + 1) (.letter c) ++ chars) = .run c (count + 1) :: runs chars := by
  induction count with
  | zero => exact runs_letter_other fun _ h => hchars (head_of_run h)
  | succ count ih =>
    rw [List.replicate_succ, List.cons_append]
    exact runs_letter_same ih

theorem runs_literals (text : List Char) (chars : List PatternChar) :
    runs (text.map .literal ++ chars) = text.map .literal ++ runs chars := by
  induction text with
  | nil => rfl
  | cons c text ih => exact congrArg (PatternPart.literal c :: ·) ih

theorem run_mem_runs_iff : (∃ count, .run c count ∈ runs chars) ↔ .letter c ∈ chars := by
  induction chars with
  | nil => simp [runs]
  | cons first chars ih =>
    cases first with
    | literal d => simpa [runs] using ih
    | letter d =>
      rw [List.mem_cons, ← ih]
      by_cases hruns : ∃ count, .run d count ∈ (runs chars).head?
      . obtain ⟨count, hruns⟩ := hruns
        obtain ⟨parts, hparts⟩ := List.head?_eq_some_iff.1 hruns
        rw [runs_letter_same hparts, hparts]
        simp [exists_or]
      . rw [runs_letter_other (not_exists.1 hruns)]
        simp [exists_or]

end Runs

section Items

variable {part : PatternPart} {parts : List PatternPart} {items : List DateItem}

theorem mapM_item_cons (part : PatternPart) (parts : List PatternPart) :
    (part :: parts).mapM item = (item part).bind fun first => (parts.mapM item).map (first :: ·) := by
  rw [List.mapM_cons]
  change ((item part).bind fun first => (parts.mapM item).bind fun others => .ok (first :: others)) = _
  cases item part with
  | error letter => rfl
  | ok first => cases parts.mapM item <;> rfl

theorem mapM_item_literals (text : List Char) (parts : List PatternPart) :
    (text.map PatternPart.literal ++ parts).mapM item = (parts.mapM item).map (text.map DateItem.literal ++ ·) := by
  induction text with
  | nil =>
    rw [List.map_nil, List.nil_append]
    cases parts.mapM item <;> rfl
  | cons c text ih =>
    rw [List.map_cons, List.cons_append, mapM_item_cons, ih]
    cases parts.mapM item <;> rfl

theorem item_error_iff (part : PatternPart) :
    (∃ letter, item part = .error letter) ↔ ∃ c count, part = .run c count ∧ c ∉ letters := by
  cases part with
  | literal c => simp [item, pure, Except.pure]
  | run c count =>
    have hfield := field?_eq_none_iff c count
    cases h : field? c count <;> simp_all [item, pure, Except.pure, throw, throwThe, MonadExceptOf.throw]

theorem mapM_item_error_iff (parts : List PatternPart) :
    (∃ letter, parts.mapM item = .error letter) ↔ ∃ c count, .run c count ∈ parts ∧ c ∉ letters := by
  induction parts with
  | nil => simp [pure, Except.pure]
  | cons part parts ih =>
    have hcons : (∃ letter, (part :: parts).mapM item = .error letter) ↔
        (∃ letter, item part = .error letter) ∨ ∃ letter, parts.mapM item = .error letter := by
      rw [mapM_item_cons]
      cases item part with
      | error letter => simp [Except.bind]
      | ok first => cases parts.mapM item <;> simp [Except.bind, Except.map]
    rw [hcons, item_error_iff, ih]
    simp only [List.mem_cons, or_and_right, exists_or, eq_comm]

end Items

theorem head_doubled {c : Char} (hc : c ≠ '\x27') (text rest : List Char) :
    (doubled (c :: text) ++ rest).head? ≠ some '\x27' := by
  simp [doubled, hc]

theorem Means.reads {cs : List Char} {items : List DateItem} (h : Means cs items) :
    (readQuotes false cs).2 = true ∧ (runs (readQuotes false cs).1).mapM item = .ok items := by
  induction h with
  | nil => exact ⟨rfl, rfl⟩
  | @run c count field rest items hcount hlongest hfield _ ih =>
    obtain ⟨count, rfl⟩ := Nat.exists_eq_add_one.2 hcount
    have hchars : .letter c ∉ (readQuotes false rest).1.head? := fun hc =>
      hlongest (head_of_letter (by simp) hc).2
    have hitem : item (.run c (count + 1)) = .ok (.field field) := by
      rw [item, hfield]
      rfl
    rw [readQuotes_run (isAlpha_of_field? hfield), runs_letters hchars, mapM_item_cons, hitem, ih.2]
    exact ⟨ih.1, rfl⟩
  | @other c rest items hletter hquote _ ih =>
    rw [readQuotes_char false hquote, hletter, Bool.and_false, if_neg Bool.false_ne_true]
    refine ⟨ih.1, ?_⟩
    have hliteral := mapM_item_literals [c] (runs (readQuotes false rest).1)
    rwa [ih.2] at hliteral
  | @quote rest items _ ih =>
    rw [readQuotes_pair]
    refine ⟨ih.1, ?_⟩
    have hliteral := mapM_item_literals ['\x27'] (runs (readQuotes false rest).1)
    rwa [ih.2] at hliteral
  | @quoted c text rest items hopened hclosed _ ih =>
    rw [readQuotes_single false (head_doubled hopened text _), Bool.not_false, readQuotes_doubled _ hclosed]
    refine ⟨ih.1, ?_⟩
    rw [runs_literals, mapM_item_literals, ih.2]
    rfl

theorem exists_run (c : Char) (cs : List Char) :
    ∃ count rest, c :: cs = List.replicate (count + 1) c ++ rest ∧ rest.head? ≠ some c := by
  induction cs with
  | nil => exact ⟨0, [], rfl, by simp⟩
  | cons d cs ih =>
    by_cases hd : d = c
    . obtain ⟨count, rest, heq, hrest⟩ := ih
      refine ⟨count + 1, rest, ?_, hrest⟩
      rw [hd, heq]
      rfl
    . exact ⟨0, d :: cs, rfl, by simpa using hd⟩

theorem of_map_eq_ok {ε α β : Type} {x : Except ε α} {f : α → β} {b : β} (h : x.map f = .ok b) :
    ∃ a, x = .ok a ∧ b = f a := by
  cases x with
  | error e => cases h
  | ok a =>
    cases h
    exact ⟨a, rfl, rfl⟩

theorem means_of_reads {cs : List Char} {items : List DateItem} (hclosed : (readQuotes false cs).2 = true)
    (hitems : (runs (readQuotes false cs).1).mapM item = .ok items) : Means cs items := by
  match cs with
  | [] =>
    cases hitems
    exact .nil
  | c :: cs =>
    by_cases hquote : c = '\x27'
    . subst hquote
      by_cases hpair : cs.head? = some '\x27'
      . obtain ⟨rest, rfl⟩ := List.head?_eq_some_iff.1 hpair
        obtain ⟨others, hothers, rfl⟩ := of_map_eq_ok ((mapM_item_literals ['\x27'] _).symm.trans hitems)
        exact .quote (means_of_reads hclosed hothers)
      . rw [readQuotes_single false hpair, Bool.not_false] at hclosed hitems
        obtain ⟨text, rest, rfl, hrest⟩ := exists_doubled rfl hclosed
        rw [readQuotes_doubled text hrest] at hclosed hitems
        rw [runs_literals, mapM_item_literals] at hitems
        obtain ⟨others, hothers, rfl⟩ := of_map_eq_ok hitems
        cases text with
        | nil => exact absurd rfl hpair
        | cons d text =>
          have hd : d ≠ '\x27' := by
            rintro rfl
            exact hpair rfl
          exact .quoted hd hrest (means_of_reads hclosed hothers)
    . cases hletter : c.isAlpha with
      | false =>
        rw [readQuotes_char false hquote, hletter, Bool.and_false, if_neg Bool.false_ne_true] at hclosed hitems
        obtain ⟨others, hothers, rfl⟩ := of_map_eq_ok ((mapM_item_literals [c] _).symm.trans hitems)
        exact .other hletter hquote (means_of_reads hclosed hothers)
      | true =>
        obtain ⟨count, rest, heq, hrest⟩ := exists_run c cs
        have hchars : .letter c ∉ (readQuotes false rest).1.head? := fun hc =>
          hrest (head_of_letter (by simp) hc).2
        rw [heq, readQuotes_run hletter] at hclosed hitems
        rw [runs_letters hchars, mapM_item_cons] at hitems
        cases hfield : field? c (count + 1) with
        | none =>
          rw [item, hfield] at hitems
          cases hitems
        | some field =>
          rw [item, hfield] at hitems
          obtain ⟨others, hothers, rfl⟩ := of_map_eq_ok hitems
          have hlength : rest.length ≤ cs.length := by
            have hall := congrArg List.length heq
            rw [List.length_cons, List.length_append, List.length_replicate] at hall
            omega
          rw [heq]
          exact .run (Nat.succ_pos count) hrest hfield (means_of_reads hclosed hothers)
termination_by cs.length

theorem unknown_iff (cs : List Char) :
    Unknown cs ↔ ∃ letter, (runs (readQuotes false cs).1).mapM item = .error letter := by
  rw [mapM_item_error_iff]
  constructor
  . rintro ⟨before, c, after, heq, houtside, halpha, hc⟩
    have hmem := (letter_mem_readQuotes_iff halpha false cs).2 ⟨before, after, heq, houtside⟩
    obtain ⟨count, hrun⟩ := run_mem_runs_iff.2 hmem
    exact ⟨c, count, hrun, hc⟩
  . rintro ⟨c, count, hrun, hc⟩
    have hmem := run_mem_runs_iff.1 ⟨count, hrun⟩
    have halpha := isAlpha_of_mem_readQuotes hmem
    obtain ⟨before, after, heq, houtside⟩ := (letter_mem_readQuotes_iff halpha false cs).1 hmem
    exact ⟨before, c, after, heq, houtside, halpha, hc⟩

theorem toFormat_eq_ok {pattern format : String} (h : toFormat pattern = .ok format) :
    ∃ items, (readQuotes false pattern.toList).2 = true ∧
      (runs (readQuotes false pattern.toList).1).mapM item = .ok items ∧
      format = String.ofList (items.flatMap DateItem.code) := by
  unfold toFormat at h
  dsimp only at h
  split at h
  . cases h
  next items hitems =>
    split at h
    next hclosed =>
      cases h
      exact ⟨items, hclosed, hitems, rfl⟩
    . cases h

theorem toFormat_eq_error {pattern : String} {e : Error} (h : toFormat pattern = .error e) :
    (¬Outside false pattern.toList ∨ Unknown pattern.toList) ∧
      ∃ expected, e = .argumentType pattern expected ∧ expected ≠ "a valid date pattern" := by
  unfold toFormat at h
  dsimp only at h
  split at h
  next letter hletter =>
    cases h
    refine ⟨.inr ((unknown_iff _).2 ⟨letter, hletter⟩), _, rfl, ?_⟩
    intro heq
    have htaken := congrArg (fun text => text.toList.take 3) heq
    simp at htaken
  . split at h
    . cases h
    next hopen =>
      cases h
      exact ⟨.inl fun houtside => hopen ((readQuotes_closed_iff _ _).2 houtside), _, rfl, by decide⟩

theorem means_iff {pattern format : String} (h : toFormat pattern = .ok format) :
    ∃ items, DateFormat.read? format.toList = some items ∧
      ∀ others, Means pattern.toList others ↔ others = items := by
  obtain ⟨items, hclosed, hitems, rfl⟩ := toFormat_eq_ok h
  refine ⟨items, by rw [String.toList_ofList, DateFormat.read?_code], fun others => ?_⟩
  constructor
  . intro hmeans
    have hothers := hmeans.reads.2
    rw [hitems] at hothers
    cases hothers
    rfl
  . rintro rfl
    exact means_of_reads hclosed hitems

end DatePattern

section

open RenderM Limits

variable {σ : Type}

def Failure.IsReadable (failure : Failure) : Prop :=
  ∀ found, failure ≠ .error (.argumentType found "a valid date pattern")

theorem Locale.parse_readable {text : String} {e : Error} (h : Locale.parse text = .error e) :
    (Failure.error e).IsReadable := by
  unfold Locale.parse at h
  split at h
  . cases h
  . cases h
    rintro found heq
    injection heq with heq
    injection heq with _ heq
    exact absurd heq (by decide)

theorem Locale.dateFormat_readable {locale : Locale} {pattern : String} {e : Error}
    (h : locale.dateFormat pattern = .error e) : (Failure.error e).IsReadable := by
  obtain ⟨-, expected, rfl, hexpected⟩ := DatePattern.toFormat_eq_error h
  rintro found ⟨⟩
  exact hexpected rfl

/--
The helper for dates fails only for a locale or for a pattern, not for a format that it has made of a pattern.
-/
theorem callDateFormat_readable (value : Value) {inv : Invocation σ}
    {shown : String → DateField → DateTime → String} (hreads : inv.settings.calendar.Reads shown) (s : RenderState σ)
    {e : Failure} (h : (exec (BuiltIn.callDateFormat value inv) s).1 = .error e) : e.IsReadable := by
  let limits : Limits := ⟨fun _ => True, Failure.IsReadable⟩
  have hsettles : limits.Settles (⊤ : Filter Unit) (fun _ => True) fun _ => BuiltIn.callDateFormat value inv := by
    refine callDateFormat_settles (fun _ _ => Locale.parse_readable) (fun _ _ _ => Locale.dateFormat_readable) ?_
    intro locale pattern format name date _ hformat hwrite
    obtain ⟨items, -, -, rfl⟩ := DatePattern.toFormat_eq_ok hformat
    rw [hreads.write_code] at hwrite
    cases hwrite
  obtain ⟨result, t, hall, -, hend⟩ := hsettles s trivial
  rw [Filter.eventually_top.1 hall ()] at h
  cases h
  cases hend with
  | error he => exact he

end

/--
A pattern is refused, as an argument of the wrong shape, iff it ends inside of quotes or a letter outside of them has
no meaning. Otherwise its format can be read, and what is read is all that the pattern means and nothing else. Of it a
calendar that accepts all fields writes each field and all other text as it is, so with such a calendar the helper for
dates never meets a format that cannot be read or written.
-/
theorem DatePattern.toFormat_exact (pattern : String) :
    (match toFormat pattern with
      | .error e => e.kind = .argumentType ∧ (¬Outside false pattern.toList ∨ Unknown pattern.toList)
      | .ok format => Outside false pattern.toList ∧ ¬Unknown pattern.toList ∧
        ∃ items, DateFormat.read? format.toList = some items ∧
          (∀ others, Means pattern.toList others ↔ others = items) ∧
          ∀ (calendar : Calendar) shown, calendar.Reads shown → ∀ locale t,
            calendar.write locale format t = .ok (String.join (items.map (DateItem.text (shown locale · t))))) ∧
      ∀ (σ : Type) (value : Value) (inv : Invocation σ) shown, inv.settings.calendar.Reads shown →
        ∀ (s : RenderState σ) (found : String),
          ((BuiltIn.callDateFormat value inv).exec s).1 ≠
            .error (.error (.argumentType found "a valid date pattern")) := by
  constructor
  . split
    next h =>
      obtain ⟨hfault, expected, rfl, -⟩ := toFormat_eq_error h
      exact ⟨rfl, hfault⟩
    next h =>
      obtain ⟨items, hread, hmeans⟩ := means_iff h
      obtain ⟨others, hclosed, hitems, rfl⟩ := toFormat_eq_ok h
      refine ⟨(readQuotes_closed_iff _ _).1 hclosed, ?_, items, hread, hmeans, ?_⟩
      . rw [unknown_iff, hitems]
        rintro ⟨letter, ⟨⟩⟩
      . intro calendar shown hreads locale t
        rw [String.toList_ofList, DateFormat.read?_code] at hread
        cases hread
        exact hreads.write_code locale t _
  . intro σ value inv shown hreads s found h
    exact callDateFormat_readable value hreads s h found rfl

theorem DatePattern.toFormat_exact_written :
    let pattern := "d'' 100% 'o''clock %Y' hh"
    let date : DateTime := { year := 2012, month := 6, day := 19, hour := 14 }
    let inv : Invocation Unit := {
      settings := Engine.inert.toSettings, renderer := Engine.inert.renderer 0, scope := Engine.inert.rootScope .null,
      params := [.string pattern] }
    toFormat pattern = .ok "%-d' 100%% o'clock %%Y %I" ∧ inv.settings.calendar.Reads Calendar.gregorianText ∧
      Calendar.gregorian.write "en_US" "%-d' 100%% o'clock %%Y %I" date = .ok "19' 100% o'clock %Y 02" ∧
      ∀ found, ((BuiltIn.callDateFormat (.date date) inv).exec { host := () }).1 ≠
        .error (.error (.argumentType found "a valid date pattern")) := by
  intro pattern date inv
  let expected : List DateItem :=
    .field (.day false) :: ("' 100% o'clock %Y ".toList.map .literal ++ [.field (.hourOfHalf true)])
  have hformat : toFormat pattern = .ok "%-d' 100%% o'clock %%Y %I" := by
    dsimp only [pattern]
    rfl
  obtain ⟨hread, hcall⟩ := toFormat_exact pattern
  rw [hformat] at hread
  obtain ⟨-, -, items, hitems, -, hwrite⟩ := hread
  have hexpected : some expected = some items := (DateFormat.read?_code expected).symm.trans hitems
  cases hexpected
  refine ⟨hformat, Calendar.gregorian_reads, ?_, hcall Unit _ inv _ Calendar.gregorian_reads _⟩
  rw [hwrite _ _ Calendar.gregorian_reads]
  decide +kernel

end Mustache
