import Mathlib.Data.List.Infix
import Mustache.Loader.Basic

/-!
This module contains which names a path stands for and what a map of templates answers. The main statement is that a
template is found under the name it was put under last, unless the name begins with a slash.
-/

namespace Mustache

def slashes (n : Nat) : String :=
  String.ofList (List.replicate n '/')

def bare (path : String) : String :=
  String.ofList (path.toList.dropWhile (· == '/'))

theorem bare_head (path : String) : (bare path).toList.head? ≠ some '/' := by
  intro h
  have hhead := List.head?_dropWhile_not (· == '/') path.toList
  rw [bare, String.toList_ofList] at h
  rw [h] at hhead
  exact absurd hhead (by decide)

theorem bare_eq_self {path : String} (h : path.toList.head? ≠ some '/') : bare path = path := by
  rw [bare, ← String.toList_inj, String.toList_ofList]
  cases hpath : path.toList with
  | nil => rfl
  | cons c cs =>
    rw [hpath, List.head?_cons, ne_eq, Option.some.injEq] at h
    rw [List.dropWhile_cons_of_neg (by simpa using h)]

theorem bare_slashes (n : Nat) (path : String) :
    bare (slashes n ++ path) = bare path := by
  rw [bare, slashes, String.toList_append, String.toList_ofList, List.dropWhile_append_of_pos]
  . rfl
  . intro c hc
    rw [List.eq_of_mem_replicate hc]
    rfl

theorem dropStop?_eq_some_iff {stop s stem : String} : Text.dropStop? stop s = some stem ↔ s = stem ++ stop := by
  rw [Text.dropStop?, Option.map_eq_some_iff]
  constructor
  . rintro ⟨cs, hcs, rfl⟩
    rw [List.isSuffixOf?_eq_some_iff_append_eq] at hcs
    rw [← String.toList_inj, String.toList_append, String.toList_ofList, hcs]
  . rintro rfl
    exact ⟨stem.toList, List.isSuffixOf?_eq_some_iff_append_eq.2 String.toList_append.symm, String.ofList_toList⟩

section Candidates

variable {path suffix : String}

theorem candidates_of_empty (path : String) : candidates path "" = [bare path] := rfl

theorem candidates_of_stem {stem : String} (hsuffix : suffix ≠ "") (h : bare path = stem ++ suffix) :
    candidates path suffix = if stem = "" then [bare path] else [bare path, stem] := by
  have hdrop : Text.dropStop? suffix (bare path) = some stem := dropStop?_eq_some_iff.2 h
  rw [bare] at hdrop
  simp [candidates, hsuffix, hdrop, bare]

theorem candidates_of_not_suffix (hsuffix : suffix ≠ "") (h : ¬suffix.toList <:+ (bare path).toList) :
    candidates path suffix = [bare path, bare path ++ suffix] := by
  have hdrop : Text.dropStop? suffix (bare path) = none := by
    rw [Option.eq_none_iff_forall_ne_some]
    intro stem hstem
    apply h
    rw [dropStop?_eq_some_iff.1 hstem, String.toList_append]
    exact List.suffix_append ..
  rw [bare] at hdrop
  simp [candidates, hsuffix, hdrop, bare]

theorem candidates_cases (path suffix : String) :
    candidates path suffix = [bare path] ∨
      (∃ stem, stem ≠ "" ∧ bare path = stem ++ suffix ∧ candidates path suffix = [bare path, stem]) ∨
      candidates path suffix = [bare path, bare path ++ suffix] := by
  by_cases hsuffix : suffix = ""
  . subst hsuffix
    exact .inl (candidates_of_empty path)
  . by_cases h : suffix.toList <:+ (bare path).toList
    . obtain ⟨stem, hstem⟩ := h
      have heq : bare path = String.ofList stem ++ suffix := by
        rw [← String.toList_inj, String.toList_append, String.toList_ofList, hstem]
      rw [candidates_of_stem hsuffix heq]
      split
      . exact .inl rfl
      next hne => exact .inr (.inl ⟨_, hne, heq, rfl⟩)
    . exact .inr (.inr (candidates_of_not_suffix hsuffix h))

theorem candidates_head (path suffix : String) : ∃ more, candidates path suffix = bare path :: more := by
  rcases candidates_cases path suffix with h | ⟨stem, -, -, h⟩ | h
  . exact ⟨[], h⟩
  . exact ⟨[stem], h⟩
  . exact ⟨[bare path ++ suffix], h⟩

theorem candidates_congr {other : String} (h : bare path = bare other) :
    candidates path suffix = candidates other suffix := by
  rw [bare, bare] at h
  rw [candidates, candidates, h]

theorem candidates_plain (hsuffix : suffix ≠ "") (hslash : path.toList.head? ≠ some '/')
    (h : ¬suffix.toList <:+ path.toList) : candidates path suffix = [path, path ++ suffix] := by
  have hbare := bare_eq_self hslash
  rw [candidates_of_not_suffix hsuffix (hbare.symm ▸ h), hbare]

theorem candidates_suffixed (hsuffix : suffix ≠ "") (hpath : path ≠ "") (hslash : path.toList.head? ≠ some '/') :
    candidates (path ++ suffix) suffix = [path ++ suffix, path] := by
  have hhead : (path ++ suffix).toList.head? ≠ some '/' := by
    rw [String.toList_append, List.head?_append_of_ne_nil _ (by simpa using hpath)]
    exact hslash
  rw [candidates_of_stem hsuffix (bare_eq_self hhead), bare_eq_self hhead, if_neg hpath]

theorem not_mem_candidates {name : String} (hslash : name.toList.head? = some '/') (hsuffix : suffix ≠ name) :
    name ∉ candidates name suffix := by
  have hbare : name ≠ bare name := by
    intro h
    exact bare_head name (h ▸ hslash)
  have happend {front back : String} (hfront : front ≠ "") (h : bare name = front ++ back) :
      front.toList.head? ≠ some '/' := by
    have hhead := bare_head name
    rwa [h, String.toList_append, List.head?_append_of_ne_nil _ (by simpa using hfront)] at hhead
  rcases candidates_cases name suffix with h | ⟨stem, hstem, hname, h⟩ | h
  . rw [h, List.mem_singleton]
    exact hbare
  . rw [h, List.mem_pair, not_or]
    refine ⟨hbare, ?_⟩
    rintro rfl
    exact happend hstem hname hslash
  . rw [h, List.mem_pair, not_or]
    refine ⟨hbare, ?_⟩
    intro heq
    by_cases hempty : bare name = ""
    . rw [hempty, String.empty_append] at heq
      exact hsuffix heq.symm
    . rw [heq, String.toList_append, List.head?_append_of_ne_nil _ (by simpa using hempty)] at hslash
      exact bare_head name hslash

end Candidates

theorem findSome?_congr {α β : Type} {f g : α → Option β} {l : List α} (h : ∀ a ∈ l, f a = g a) :
    l.findSome? f = l.findSome? g := by
  induction l with
  | nil => rfl
  | cons a l ih =>
    rw [List.findSome?_cons, List.findSome?_cons, h a List.mem_cons_self,
      ih fun b hb => h b (List.mem_cons_of_mem _ hb)]

theorem findSome?_pair {α β : Type} (f : α → Option β) (a b : α) : [a, b].findSome? f = (f a).or (f b) := by
  rw [List.findSome?_cons, List.findSome?_singleton]
  cases f a <;> rfl

namespace TemplateMap

def find? (m : TemplateMap) (path : String) : Option String :=
  (candidates path m.suffix).findSome? m.templates.get?

def answer (path : String) : Option String → Except Error String
  | some source => .ok source
  | none => .error (.templateNotFound path)

theorem answer_eq_ok_iff {path source : String} {found : Option String} :
    answer path found = .ok source ↔ found = some source := by
  cases found with
  | none => simp [answer]
  | some other => simp [answer]

theorem load_eq_answer (m : TemplateMap) (path : String) : m.load path = answer path (m.find? path) := by
  rw [load, find?]
  cases (candidates path m.suffix).findSome? m.templates.get? <;> rfl

theorem find?_plain {m : TemplateMap} {path : String} (hsuffix : m.suffix ≠ "") (hslash : path.toList.head? ≠ some '/')
    (h : ¬m.suffix.toList <:+ path.toList) :
    m.find? path = (m.templates.get? path).or (m.templates.get? (path ++ m.suffix)) := by
  rw [find?, candidates_plain hsuffix hslash h, findSome?_pair]

theorem find?_suffixed {m : TemplateMap} {path : String} (hsuffix : m.suffix ≠ "") (hpath : path ≠ "")
    (hslash : path.toList.head? ≠ some '/') :
    m.find? (path ++ m.suffix) = (m.templates.get? (path ++ m.suffix)).or (m.templates.get? path) := by
  rw [find?, candidates_suffixed hsuffix hpath hslash, findSome?_pair]

theorem find?_slashes (m : TemplateMap) (n : Nat) (path : String) : m.find? (slashes n ++ path) = m.find? path := by
  rw [find?, find?, candidates_congr (bare_slashes n path)]

theorem load_congr {m n : TemplateMap} {path : String} (hsuffix : m.suffix = n.suffix)
    (h : ∀ name ∈ candidates path m.suffix, m.templates.get? name = n.templates.get? name) :
    m.load path = n.load path := by
  rw [load, load, ← hsuffix, findSome?_congr h]

/--
What is done to a map of templates while it is built.
-/
inductive Change where
  | insert (name source : String)
  | withSuffix (suffix : String)

def Change.apply (m : TemplateMap) : Change → TemplateMap
  | .insert name source => m.insert name source
  | .withSuffix suffix => m.withSuffix suffix

def Change.source? (name : String) : Change → Option String
  | .insert other source => if name = other then some source else none
  | .withSuffix _ => none

def built (changes : List Change) : TemplateMap :=
  changes.foldl Change.apply {}

def lastSource? (name : String) (changes : List Change) : Option String :=
  changes.reverse.findSome? (Change.source? name)

theorem built_concat (changes : List Change) (change : Change) :
    built (changes ++ [change]) = change.apply (built changes) := by
  rw [built, List.foldl_append]
  rfl

theorem get?_apply (m : TemplateMap) (change : Change) (name : String) :
    (change.apply m).templates.get? name = (change.source? name).or (m.templates.get? name) := by
  cases change with
  | insert other source =>
    simp only [Change.apply, Change.source?, insert, Dict.get?_insert]
    split <;> rfl
  | withSuffix suffix => rfl

theorem get?_built (changes : List Change) (name : String) :
    (built changes).templates.get? name = lastSource? name changes := by
  induction changes using List.reverseRecOn with
  | nil => rfl
  | append_singleton changes change ih =>
    rw [built_concat, get?_apply, ih, lastSource?, lastSource?, List.reverse_concat, List.findSome?_cons]
    cases change.source? name <;> rfl

/--
However a map was built, a template is found under the name that it was put under last, whatever the other names are,
unless this name begins with a slash. What is put under a name with a slash in front changes nothing about what the
name finds.
-/
theorem load_built (changes : List Change) (name : String) :
    (name.toList.head? ≠ some '/' →
        ∀ source, lastSource? name changes = some source → (built changes).load name = .ok source) ∧
      (name.toList.head? = some '/' → (built changes).suffix ≠ name →
        ∀ source, (built (changes ++ [.insert name source])).load name = (built changes).load name) := by
  constructor
  . intro hslash source hlast
    have hstored : (built changes).templates.get? (bare name) = some source := by
      rw [bare_eq_self hslash, get?_built, hlast]
    obtain ⟨more, hnames⟩ := candidates_head name (built changes).suffix
    rw [load, hnames, List.findSome?_cons, hstored]
    rfl
  . intro hslash hsuffix source
    rw [built_concat]
    apply load_congr
    . rfl
    . intro other hother
      have hne : other ≠ name := by
        rintro rfl
        exact not_mem_candidates hslash hsuffix hother
      rw [get?_apply, Change.source?, if_neg hne, Option.none_or]

theorem load_built_beside :
    (built [.insert "a" "1", .insert "a.x" "2", .withSuffix ".x", .insert "a" "3"]).load "a" = .ok "3" ∧
      (built [.insert "/a" "1", .insert "/a" "2"]).load "/a" = (built [.insert "/a" "1"]).load "/a" :=
  ⟨(load_built _ _).1 (by decide) _ rfl, (load_built [.insert "/a" "1"] "/a").2 rfl (by decide) "2"⟩

/--
A template that was put under a name with a slash in front is not found under this name.
-/
theorem slashed_name_lost :
    lastSource? "/a" [.insert "/a" "x"] = some "x" ∧
      (built [.insert "/a" "x"]).load "/a" = .error (.templateNotFound "/a") :=
  ⟨rfl, rfl⟩

end TemplateMap

end Mustache
