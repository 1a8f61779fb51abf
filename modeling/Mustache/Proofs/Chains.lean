import Mustache.Proofs.Stores

/-!
This module contains what chains of loaders answer. The main statements are that a tree of chains is one flat chain of
its leaves, and that in a tree of chains of maps a path with the suffix and one without find the same.
-/

namespace Mustache

namespace Loader

section

variable {m : Type → Type}

abbrev Lookup (m : Type → Type) := String → m (Except Error String)

mutual

/--
The lookups that a loader is made of, from left to right.
-/
def leaves : Loader m → List (Lookup m)
  | source load => [load]
  | chain loaders => leavesOf loaders

def leavesOf : List (Loader m) → List (Lookup m)
  | [] => []
  | loader :: loaders => loader.leaves ++ leavesOf loaders

end

theorem leavesOf_sources (lookups : List (Lookup m)) : leavesOf (lookups.map source) = lookups := by
  induction lookups with
  | nil => rfl
  | cons lookup lookups ih =>
    rw [List.map_cons, leavesOf, ih]
    rfl

def isNotFound : Except Error String → Bool
  | .error (.templateNotFound _) => true
  | _ => false

/--
Whatever else it does, a lookup ends with an answer that says that there is no such template.
-/
def Misses [Functor m] (x : m (Except Error String)) : Prop :=
  ∃ named : m String, x = (fun name => .error (.templateNotFound name)) <$> named

/--
Whatever else it does, a lookup ends with a source or with another error.
-/
def Hits [Functor m] (x : m (Except Error String)) : Prop :=
  ∃ answer : m { answer // isNotFound answer = false }, x = Subtype.val <$> answer

variable [Monad m]

def orElse (first next : m (Except Error String)) : m (Except Error String) := do
  match ← first with
  | .error (.templateNotFound _) => next
  | answer => return answer

def asking (path : String) : List (Lookup m) → m Unit
  | [] => return ()
  | lookup :: lookups => do
    let _ ← lookup path
    asking path lookups

variable {path : String}

theorem loadFirst_cons (loader : Loader m) (loaders : List (Loader m)) :
    loadFirst path (loader :: loaders) = orElse (loader.load path) (loadFirst path loaders) := rfl

theorem orElse_assoc [LawfulMonad m] (first second third : m (Except Error String)) :
    orElse (orElse first second) third = orElse first (orElse second third) := by
  rw [orElse, orElse, orElse, bind_assoc]
  congr 1
  funext answer
  split
  . rfl
  next hother =>
    rw [pure_bind]
    split
    next name => exact absurd rfl (hother name)
    . rfl

mutual

theorem orElse_load [LawfulMonad m] (next : m (Except Error String)) :
    ∀ loader : Loader m, orElse (loader.load path) next = loader.leaves.foldr (orElse <| · path) next
  | source _ => rfl
  | chain loaders => orElse_loadFirst next loaders

theorem orElse_loadFirst [LawfulMonad m] (next : m (Except Error String)) :
    ∀ loaders : List (Loader m),
      orElse (loadFirst path loaders) next = (leavesOf loaders).foldr (orElse <| · path) next
  | [] => by
    rw [loadFirst, orElse, pure_bind]
    rfl
  | loader :: loaders => by
    rw [loadFirst_cons, orElse_assoc, orElse_loadFirst next loaders, orElse_load _ loader, leavesOf, List.foldr_append]

end

variable [LawfulMonad m] {first next : m (Except Error String)}

theorem Misses.orElse (h : Misses first) : orElse first next = first >>= fun _ => next := by
  obtain ⟨named, rfl⟩ := h
  rw [Loader.orElse, bind_map_left, bind_map_left]

theorem Hits.orElse (h : Hits first) : orElse first next = first := by
  obtain ⟨answer, rfl⟩ := h
  have hreturn (found : { answer // isNotFound answer = false }) :
      (match found.val with
        | .error (.templateNotFound _) => next
        | answer => pure answer) = pure found.val := by
    obtain ⟨found, hfound⟩ := found
    cases found with
    | ok source => rfl
    | error e =>
      cases e with
      | templateNotFound name => cases hfound
      | _ => rfl
  rw [Loader.orElse, bind_map_left]
  simp only [hreturn]
  exact bind_pure_comp _ _

theorem loadFirst_eq (loaders : List (Loader m)) :
    loadFirst path loaders =
      (leavesOf loaders).foldr (orElse <| · path) (pure (.error (.templateNotFound path))) := by
  induction loaders with
  | nil => rfl
  | cons loader loaders ih => rw [loadFirst_cons, orElse_load, ih, leavesOf, List.foldr_append]

theorem foldr_orElse_missing {lookups : List (Lookup m)} (h : ∀ lookup ∈ lookups, Misses (lookup path))
    (next : m (Except Error String)) :
    lookups.foldr (orElse <| · path) next = asking path lookups >>= fun _ => next := by
  induction lookups with
  | nil => rw [asking, pure_bind, List.foldr_nil]
  | cons lookup lookups ih =>
    have hrest := ih fun other hother => h other (List.mem_cons_of_mem _ hother)
    rw [List.foldr_cons, hrest, (h lookup List.mem_cons_self).orElse, asking, bind_assoc]

/--
A tree of chains does what one flat chain of its leaves does. The answer is that of the first leaf that does not say
that there is no such template, whether it is a source or an error, and nothing is done behind it. If there is no such
leaf, all of them are asked, and the error names the path as it was given.
-/
theorem load_chain (loaders : List (Loader m)) (path : String) :
    (chain loaders).load path = (chain ((chain loaders).leaves.map source)).load path ∧
      (∀ before leaf after, (chain loaders).leaves = before ++ leaf :: after →
        (∀ other ∈ before, Misses (other path)) → Hits (leaf path) →
          (chain loaders).load path = asking path before >>= fun _ => leaf path) ∧
      ((∀ leaf ∈ (chain loaders).leaves, Misses (leaf path)) →
        (chain loaders).load path =
          asking path (chain loaders).leaves >>= fun _ => pure (.error (.templateNotFound path))) := by
  have hload : (chain loaders).load path =
      (chain loaders).leaves.foldr (orElse <| · path) (pure (.error (.templateNotFound path))) := loadFirst_eq loaders
  refine ⟨?_, ?_, ?_⟩
  . rw [hload, load, loadFirst_eq, leavesOf_sources]
  . intro before leaf after hleaves hbefore hfound
    rw [hload, hleaves, List.foldr_append, foldr_orElse_missing hbefore, List.foldr_cons, hfound.orElse]
  . intro hmissing
    rw [hload, foldr_orElse_missing hmissing]

end

def noting (name : String) (answer : Except Error String) : Lookup (StateM (List String)) := fun _ => do
  modify (· ++ [name])
  return answer

theorem load_chain_unreadable :
    let missing := noting "missing" (.error (.templateNotFound "other"))
    let broken := noting "broken" (.error (.unreadable "closed"))
    let known := noting "known" (.ok "text")
    let loaders := [chain [], chain [source missing, chain [chain [source broken]]], source known]
    ((chain loaders).load "p").run [] = (.error (.unreadable "closed"), ["missing", "broken"]) ∧
      ((chain [chain [], chain [source missing]]).load "p").run [] =
        (.error (.templateNotFound "p"), ["missing"]) := by
  intro missing broken known loaders
  have hmissing : ∀ other ∈ [missing], Misses (other "p") := by
    intro other hother
    rw [List.mem_singleton.1 hother]
    exact ⟨do modify (· ++ ["missing"]); return "other", rfl⟩
  have hbroken : Hits (broken "p") :=
    ⟨do modify (· ++ ["broken"]); return ⟨.error (.unreadable "closed"), rfl⟩, rfl⟩
  obtain ⟨-, hfound, -⟩ := load_chain loaders "p"
  obtain ⟨-, -, hnone⟩ := load_chain [chain [], chain [source missing]] "p"
  rw [hfound [missing] broken [known] rfl hmissing hbroken, hnone hmissing]
  exact ⟨rfl, rfl⟩

section Maps

theorem or_swap {α : Type} {a b : Option α} (h : ¬(a.isSome ∧ b.isSome)) : a.or b = b.or a := by
  cases a with
  | none => rw [Option.none_or, Option.or_none]
  | some a =>
    cases b with
    | none => rfl
    | some b => exact absurd ⟨rfl, rfl⟩ h

variable {path : String}

theorem foldr_orElse_maps (maps : List TemplateMap) :
    Id.run ((maps.map TemplateMap.load).foldr (orElse <| · path) (pure (.error (.templateNotFound path)))) =
      TemplateMap.answer path (maps.findSome? (·.find? path)) := by
  induction maps with
  | nil => rfl
  | cons m maps ih =>
    rw [List.map_cons, List.foldr_cons, orElse, TemplateMap.load_eq_answer, List.findSome?_cons]
    cases m.find? path with
    | some source => rfl
    | none => exact ih

variable {loader : Loader Id} {maps : List TemplateMap} {suffix : String}

theorem load_of_maps (hleaves : loader.leaves = maps.map TemplateMap.load) (path : String) :
    loader.load path = TemplateMap.answer path (maps.findSome? (·.find? path)) := by
  cases loader with
  | source load =>
    rw [leaves, eq_comm, List.map_eq_singleton_iff] at hleaves
    obtain ⟨m, rfl, rfl⟩ := hleaves
    rw [Loader.load, TemplateMap.load_eq_answer, List.findSome?_cons]
    cases m.find? path <;> rfl
  | chain loaders =>
    rw [leaves] at hleaves
    rw [Loader.load, loadFirst_eq, hleaves]
    exact foldr_orElse_maps maps

theorem load_ok_iff (hleaves : loader.leaves = maps.map TemplateMap.load) {path source : String} :
    loader.load path = .ok source ↔ maps.findSome? (·.find? path) = some source := by
  rw [load_of_maps hleaves, TemplateMap.answer_eq_ok_iff]

theorem load_of_first {before after : List TemplateMap} {m : TemplateMap} {path source : String}
    (hleaves : loader.leaves = (before ++ m :: after).map TemplateMap.load)
    (hbefore : ∀ other ∈ before, other.find? path = none) (hm : m.find? path = some source) :
    loader.load path = .ok source := by
  rw [load_ok_iff hleaves, List.findSome?_eq_some_iff]
  exact ⟨before, m, after, rfl, hm, hbefore⟩

theorem load_slashes (hleaves : loader.leaves = maps.map TemplateMap.load) (path : String) (n : Nat) :
    (∃ source, loader.load (slashes n ++ path) = .ok source ∧ loader.load path = .ok source) ∨
      loader.load (slashes n ++ path) = .error (.templateNotFound (slashes n ++ path)) ∧
        loader.load path = .error (.templateNotFound path) := by
  simp only [load_of_maps hleaves, TemplateMap.find?_slashes]
  cases maps.findSome? (·.find? path) with
  | none => exact .inr ⟨rfl, rfl⟩
  | some found => exact .inl ⟨found, rfl, rfl⟩

/--
In a tree of chains of maps with one suffix, a path is found iff it is found with the suffix behind it, and both find
the same if no map has both names. A map with both names, in front of which no map has either, answers each path with
what it has under exactly this name. Slashes in front change nothing.
-/
theorem load_interchange (hleaves : loader.leaves = maps.map TemplateMap.load) (hsuffix : suffix ≠ "")
    (hshared : ∀ m ∈ maps, m.suffix = suffix) :
    (∀ path, path ≠ "" → path.toList.head? ≠ some '/' → ¬suffix.toList <:+ path.toList →
        ((∃ source, loader.load path = .ok source) ↔ ∃ source, loader.load (path ++ suffix) = .ok source) ∧
          ((∀ m ∈ maps, ¬(m.templates.contains path ∧ m.templates.contains (path ++ suffix))) →
            ∀ source, loader.load path = .ok source ↔ loader.load (path ++ suffix) = .ok source) ∧
          ∀ before m after plain suffixed, maps = before ++ m :: after →
            (∀ other ∈ before, ¬other.templates.contains path ∧ ¬other.templates.contains (path ++ suffix)) →
            m.templates.get? path = some plain → m.templates.get? (path ++ suffix) = some suffixed →
              loader.load path = .ok plain ∧ loader.load (path ++ suffix) = .ok suffixed) ∧
      ∀ path n,
        (∃ source, loader.load (slashes n ++ path) = .ok source ∧ loader.load path = .ok source) ∨
          loader.load (slashes n ++ path) = .error (.templateNotFound (slashes n ++ path)) ∧
            loader.load path = .error (.templateNotFound path) := by
  refine ⟨?_, load_slashes hleaves⟩
  intro path hne hslash hstop
  -- Both paths stand for the same two names, in the one order and in the other.
  have hplain : ∀ m ∈ maps, m.find? path = (m.templates.get? path).or (m.templates.get? (path ++ suffix)) := by
    intro m hm
    rw [← hshared m hm] at hsuffix hstop ⊢
    exact TemplateMap.find?_plain hsuffix hslash hstop
  have hsuffixed : ∀ m ∈ maps,
      m.find? (path ++ suffix) = (m.templates.get? (path ++ suffix)).or (m.templates.get? path) := by
    intro m hm
    rw [← hshared m hm] at hsuffix ⊢
    exact TemplateMap.find?_suffixed hsuffix hne hslash
  refine ⟨?_, ?_, ?_⟩
  . simp only [load_ok_iff hleaves, ← Option.isSome_iff_exists, findSome?_congr hplain, findSome?_congr hsuffixed,
      List.findSome?_isSome_iff, Option.isSome_or, Bool.or_comm]
  . intro hboth source
    rw [load_ok_iff hleaves, load_ok_iff hleaves, findSome?_congr]
    intro m hm
    rw [hplain m hm, hsuffixed m hm]
    exact or_swap (hboth m hm)
  . rintro before m after plain suffixed rfl hbefore hpath hstopped
    have hm : m ∈ before ++ m :: after := List.mem_append_right _ List.mem_cons_self
    have hnone : ∀ other ∈ before, other.find? path = none ∧ other.find? (path ++ suffix) = none := by
      intro other hother
      have hmem : other ∈ before ++ m :: after := List.mem_append_left _ hother
      obtain ⟨hone, htwo⟩ : other.templates.get? path = none ∧ other.templates.get? (path ++ suffix) = none := by
        simpa only [Dict.contains, Option.not_isSome_iff_eq_none] using hbefore other hother
      rw [hplain other hmem, hsuffixed other hmem, hone, htwo]
      exact ⟨rfl, rfl⟩
    constructor
    . apply load_of_first hleaves fun other hother => (hnone other hother).1
      rw [hplain m hm, hpath, Option.some_or]
    . apply load_of_first hleaves fun other hother => (hnone other hother).2
      rw [hsuffixed m hm, hstopped, Option.some_or]

def oneName : Loader Id :=
  chain [chain [], ofMap ⟨.ofList [("q", "other")], ".x"⟩]

def bothNames : TemplateMap :=
  ⟨.ofList [("p", "plain"), ("p.x", "suffixed")], ".x"⟩

theorem load_interchange_nested :
    let loader := chain [oneName, ofMap bothNames]
    loader.load "p" = .ok "plain" ∧ loader.load "p.x" = .ok "suffixed" ∧ loader.load "q.x" = .ok "other" ∧
      loader.load (slashes 2 ++ "r") = .error (.templateNotFound "//r") := by
  have hleaves : (chain [oneName, ofMap bothNames]).leaves =
      [⟨.ofList [("q", "other")], ".x"⟩, bothNames].map TemplateMap.load := rfl
  obtain ⟨hpaths, hslashes⟩ := load_interchange hleaves (by decide : ".x" ≠ "") (by decide)
  obtain ⟨hp, hpx⟩ := (hpaths "p" (by decide) (by decide) (by decide)).2.2
    [⟨.ofList [("q", "other")], ".x"⟩] bothNames [] "plain" "suffixed" rfl (by decide) rfl rfl
  obtain ⟨-, hq, -⟩ := hpaths "q" (by decide) (by decide) (by decide)
  refine ⟨hp, hpx, (hq (by decide) "other").1 rfl, ?_⟩
  rcases hslashes "r" 2 with ⟨source, -, hr⟩ | ⟨hr, -⟩
  . cases hr
  . exact hr

end Maps

end Loader

end Mustache
