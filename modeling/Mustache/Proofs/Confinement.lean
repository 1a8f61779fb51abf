import Mathlib.Data.List.Infix
import Mustache.Loader.FileTree
import Mustache.Proofs.Search
import Mustache.Proofs.Stores

/-!
This module contains where the paths lead that a template is looked for at in a directory. The main statement is that
they stay at or below the directory iff none of them is a path from the top or goes up more often than down.
-/

namespace Mustache

namespace FileTree

section Names

theorem namesOf_append (before after : String) :
    namesOf (before ++ "/" ++ after) = namesOf before ++ namesOf after := by
  have hslash : "/".toList = ['/'] := rfl
  rw [namesOf, namesOf, namesOf, String.toList_append, String.toList_append, hslash, List.append_assoc,
    List.singleton_append, Text.splitAll_append, List.map_append]

theorem namesOf_of_not_mem {name : String} (h : '/' ∉ name.toList) : namesOf name = [name] := by
  rw [namesOf, Text.splitAll_of_not_mem h, List.map_singleton, String.ofList_toList]

theorem namesOf_ne_nil (path : String) : namesOf path ≠ [] := by
  rw [namesOf, ne_eq, List.map_eq_nil_iff]
  exact Text.splitAll_go_ne_nil [] path.toList

theorem length_le_of_mem_namesOf {name path : String} (h : name ∈ namesOf path) : name.length ≤ path.length := by
  obtain ⟨part, hpart, rfl⟩ := List.mem_map.1 h
  have := Text.length_le_of_mem_splitAll_go hpart
  rwa [List.length_nil, Nat.zero_add, String.length_toList, ← String.length_ofList] at this

theorem namesOf_joined (location : String) {name : String} (h : isAbsolute name = false) :
    ∃ before, namesOf (joined location name) = before ++ namesOf name ∧
      (namesOf location = before ∨ namesOf location = before ++ [""]) := by
  rw [joined, if_neg (by simp [h])]
  split
  next hend =>
    simp only [Bool.or_eq_true, beq_iff_eq] at hend
    rcases hend with hempty | hslash
    . have hlocation : location = "" := by simpa using hempty
      refine ⟨[], ?_, .inr ?_⟩
      . rw [hlocation, String.empty_append, List.nil_append]
      . rw [hlocation]
        rfl
    . obtain ⟨cs, hcs⟩ := List.getLast?_eq_some_iff.1 hslash
      have hlocation : location = String.ofList cs ++ "/" ++ "" := by
        rw [← String.toList_inj, hcs]
        simp
      refine ⟨namesOf (String.ofList cs), ?_, .inr ?_⟩
      . rw [hlocation, String.append_empty, namesOf_append]
      . rw [hlocation, namesOf_append]
        rfl
  next => exact ⟨namesOf location, namesOf_append location name, .inl rfl⟩

end Names

section Places

def ups (names : List String) : Nat :=
  names.count ".."

def downs (names : List String) : Nat :=
  names.countP fun name => !stays name && name != ".."

/--
From a place that many directories down, the names nowhere go up more often than down.
-/
def Within (depth : Nat) (names : List String) : Prop :=
  ∀ front, front <+: names → ups front ≤ depth + downs front

instance (depth : Nat) (names : List String) : Decidable (Within depth names) :=
  decidable_of_iff (∀ front ∈ names.inits, ups front ≤ depth + downs front) (by simp [Within, List.mem_inits])

/--
A path that leads to a place at or below the one it is taken from, wherever that is.
-/
def Inside (name : String) : Prop :=
  isAbsolute name = false ∧ Within 0 (namesOf name)

instance (name : String) : Decidable (Inside name) :=
  inferInstanceAs (Decidable (_ ∧ _))

variable {depth : Nat} {name : String} {names : List String}

theorem within_nil (depth : Nat) : Within depth [] := by
  intro front hfront
  rw [List.prefix_nil.1 hfront]
  exact Nat.zero_le _

theorem within_cons_iff :
    Within depth (name :: names) ↔ ∀ front, front <+: names → ups (name :: front) ≤ depth + downs (name :: front) := by
  constructor
  . intro h front hfront
    exact h _ (List.cons_prefix_cons.2 ⟨rfl, hfront⟩)
  . intro h front hfront
    rcases List.prefix_cons_iff.1 hfront with rfl | ⟨tail, rfl, htail⟩
    . exact Nat.zero_le _
    . exact h tail htail

theorem ne_up_of_stays (h : stays name) : name ≠ ".." := by
  rintro rfl
  cases h

theorem ups_of_ne (h : name ≠ "..") : ups (name :: names) = ups names :=
  List.count_cons_of_ne h

theorem ups_up (names : List String) : ups (".." :: names) = ups names + 1 :=
  List.count_cons_self

theorem downs_of_stays (h : stays name) : downs (name :: names) = downs names :=
  List.countP_cons_of_neg (by simp [h])

theorem downs_up (names : List String) : downs (".." :: names) = downs names :=
  List.countP_cons_of_neg (by decide)

theorem downs_down (hstays : stays name = false) (hup : name ≠ "..") : downs (name :: names) = downs names + 1 :=
  List.countP_cons_of_pos (by simp [hstays, hup])

theorem within_stays (h : stays name) : Within depth (name :: names) ↔ Within depth names := by
  rw [within_cons_iff]
  simp only [ups_of_ne (ne_up_of_stays h), downs_of_stays h, Within]

theorem within_up : Within depth (".." :: names) ↔ 0 < depth ∧ Within (depth - 1) names := by
  rw [within_cons_iff]
  simp only [ups_up, downs_up]
  constructor
  . intro h
    have hpos : 0 < depth := h [] (List.nil_prefix ..)
    refine ⟨hpos, ?_⟩
    intro front hfront
    have := h front hfront
    omega
  . rintro ⟨hpos, h⟩ front hfront
    have := h front hfront
    omega

theorem within_down (hstays : stays name = false) (hup : name ≠ "..") :
    Within depth (name :: names) ↔ Within (depth + 1) names := by
  rw [within_cons_iff]
  simp only [ups_of_ne hup, downs_down hstays hup, Within, Nat.add_assoc, Nat.add_comm 1]

theorem resolve_append (reached before after : List String) :
    resolve reached (before ++ after) = resolve (resolve reached before) after := by
  induction before generalizing reached with
  | nil => rfl
  | cons name before ih =>
    rw [List.cons_append, resolve, resolve]
    split
    . exact ih _
    . split
      . exact ih _
      . exact ih _

theorem prefix_resolve {root inner : List String} (h : Within inner.length names) :
    root <+: resolve (root ++ inner) names := by
  induction names generalizing inner with
  | nil => exact List.prefix_append ..
  | cons name names ih =>
    rw [resolve]
    split
    next hstays => exact ih ((within_stays hstays).1 h)
    next hstays =>
      split
      next hup =>
        subst hup
        obtain ⟨hpos, hrest⟩ := within_up.1 h
        rw [List.dropLast_append_of_ne_nil (List.length_pos_iff.1 hpos)]
        exact ih (by rwa [List.length_dropLast])
      next hup =>
        rw [List.append_assoc]
        exact ih (by simpa using (within_down (by simpa using hstays) hup).1 h)

theorem mem_resolve {reached : List String} {x : String} (h : x ∈ resolve reached names) : x ∈ reached ∨ x ∈ names := by
  induction names generalizing reached with
  | nil => exact .inl h
  | cons name names ih =>
    rw [resolve] at h
    split at h
    . exact (ih h).imp_right (List.mem_cons_of_mem _)
    . split at h
      . exact (ih h).imp List.mem_of_mem_dropLast (List.mem_cons_of_mem _)
      . rcases ih h with hreached | hnames
        . rcases List.mem_append.1 hreached with hreached | hname
          . exact .inl hreached
          . exact .inr (List.mem_singleton.1 hname ▸ List.mem_cons_self)
        . exact .inr (List.mem_cons_of_mem _ hnames)

theorem within_of_mem_resolve {inner : List String} {x : String} (hnames : x ∉ names)
    (h : x ∈ resolve (x :: inner) names) : Within inner.length names := by
  induction names generalizing inner with
  | nil => exact within_nil _
  | cons name names ih =>
    simp only [List.mem_cons, not_or] at hnames
    rw [resolve] at h
    split at h
    next hstays => exact (within_stays hstays).2 (ih hnames.2 h)
    next hstays =>
      split at h
      next hup =>
        subst hup
        cases inner with
        | nil =>
          rcases mem_resolve h with h | h
          . cases h
          . exact absurd h hnames.2
        | cons y inner =>
          refine within_up.2 ⟨Nat.succ_pos _, ?_⟩
          rw [List.dropLast_cons_of_ne_nil (List.cons_ne_nil y inner)] at h
          have := ih hnames.2 h
          rwa [List.length_dropLast] at this
      next hup =>
        refine (within_down (by simpa using hstays) hup).2 ?_
        have := ih hnames.2 (by simpa using h)
        simpa using this

theorem place_joined (location : String) {name : String} (h : isAbsolute name = false) :
    place (joined location name) = resolve (place location) (namesOf name) := by
  obtain ⟨before, hjoined, hlocation⟩ := namesOf_joined location h
  rw [place, hjoined, resolve_append, place]
  rcases hlocation with hlocation | hlocation
  . rw [hlocation]
  . rw [hlocation, resolve_append]
    rfl

def elsewhere (path : String) : String :=
  String.ofList (List.replicate (path.length + 3) 'x')

theorem length_elsewhere (path : String) : (elsewhere path).length = path.length + 3 := by
  rw [elsewhere, String.length_ofList, List.length_replicate]

theorem elsewhere_not_mem (path : String) : elsewhere path ∉ namesOf path := by
  intro h
  have := length_le_of_mem_namesOf h
  rw [length_elsewhere] at this
  omega

theorem place_elsewhere (path : String) : place ("" ++ "/" ++ elsewhere path) = [elsewhere path] := by
  have hslash : '/' ∉ (elsewhere path).toList := by
    rw [elsewhere, String.toList_ofList]
    intro h
    exact absurd (List.eq_of_mem_replicate h) (by decide)
  have hne {name : String} (h : name.length < 3) : elsewhere path ≠ name := by
    intro heq
    have := length_elsewhere path
    rw [heq] at this
    omega
  have hstays : stays (elsewhere path) = false := by
    simp [stays, hne (by decide : "".length < 3), hne (by decide : ".".length < 3)]
  rw [place, namesOf_append, namesOf_of_not_mem hslash, resolve_append]
  change resolve [] [elsewhere path] = _
  rw [resolve, if_neg (by simp [hstays]), if_neg (hne (by decide))]
  rfl

theorem inside_iff (name : String) : Inside name ↔ ∀ location, place location <+: place (joined location name) := by
  constructor
  . rintro ⟨hrelative, hwithin⟩ location
    rw [place_joined location hrelative]
    have hprefix : place location <+: resolve (place location ++ []) (namesOf name) := prefix_resolve hwithin
    rwa [List.append_nil] at hprefix
  . intro h
    have hreached := h ("" ++ "/" ++ elsewhere name)
    rw [place_elsewhere] at hreached
    have hmem : elsewhere name ∈ place (joined ("" ++ "/" ++ elsewhere name) name) :=
      hreached.subset List.mem_cons_self
    cases hrelative : isAbsolute name with
    | true =>
      rw [joined, if_pos hrelative] at hmem
      rcases mem_resolve hmem with hmem | hmem
      . cases hmem
      . exact absurd hmem (elsewhere_not_mem name)
    | false =>
      rw [place_joined _ hrelative, place_elsewhere] at hmem
      exact ⟨hrelative, within_of_mem_resolve (elsewhere_not_mem name) hmem⟩

end Places

section Walks

theorem walk_append (outer : List FileTree) (here : FileTree) (before after : List String) :
    walk outer here (before ++ after) = (walk outer here before).bind fun spot => walk spot.1 spot.2 after := by
  induction before generalizing outer here with
  | nil => rfl
  | cons name before ih =>
    rw [List.cons_append]
    cases here with
    | file bytes => rfl
    | directory entries =>
      simp only [walk]
      split
      . exact ih _ _
      . split
        . cases outer with
          | nil => exact ih _ _
          | cons parent outer => exact ih _ _
        . cases entries.lookup name with
          | none => rfl
          | some inner => exact ih _ _

theorem walk_stays (outer : List FileTree) (here : FileTree) {names : List String} (h : names ≠ []) :
    ((walk outer here [""]).bind fun spot => walk spot.1 spot.2 names) = walk outer here names := by
  cases here with
  | directory entries => rfl
  | file bytes =>
    cases names with
    | nil => exact absurd rfl h
    | cons name names => rfl

theorem walk_joined (system : FileTree) (location : String) {name : String} (h : isAbsolute name = false) :
    walk [] system (namesOf (joined location name)) =
      (walk [] system (namesOf location)).bind fun spot => walk spot.1 spot.2 (namesOf name) := by
  obtain ⟨before, hjoined, hlocation⟩ := namesOf_joined location h
  rw [hjoined, walk_append]
  rcases hlocation with hlocation | hlocation
  . rw [hlocation]
  . rw [hlocation, walk_append, Option.bind_assoc]
    congr 1
    funext spot
    exact (walk_stays spot.1 spot.2 (namesOf_ne_nil name)).symm

theorem walk_within (inner : List FileTree) {outer other : List FileTree} {here : FileTree} {names : List String}
    (h : Within inner.length names) :
    (walk (inner ++ outer) here names).map (·.2) = (walk (inner ++ other) here names).map (·.2) := by
  induction names generalizing inner here with
  | nil => rfl
  | cons name names ih =>
    cases here with
    | file bytes => rfl
    | directory entries =>
      simp only [walk]
      split
      next hstays => exact ih inner ((within_stays hstays).1 h)
      next hstays =>
        split
        next hup =>
          subst hup
          obtain ⟨hpos, hrest⟩ := within_up.1 h
          cases inner with
          | nil => cases hpos
          | cons parent inner => exact ih inner hrest
        next hup =>
          have hrest := (within_down (by simpa using hstays) hup).1 h
          cases entries.lookup name with
          | none => rfl
          | some next => exact ih (.directory entries :: inner) hrest

theorem at?_inside {system other : FileTree} {location name : String} (h : Inside name)
    (hsame : system.at? location = other.at? location) :
    system.at? (joined location name) = other.at? (joined location name) := by
  rw [at?, at?] at hsame
  rw [at?, at?, walk_joined system location h.1, walk_joined other location h.1]
  cases hsystem : walk [] system (namesOf location) with
  | none =>
    rw [hsystem, Option.map_none, eq_comm, Option.map_eq_none_iff] at hsame
    rw [hsame]
  | some spot =>
    rw [hsystem, Option.map_some, eq_comm, Option.map_eq_some_iff] at hsame
    obtain ⟨otherSpot, hother, hhere⟩ := hsame
    rw [hother, Option.bind_some, Option.bind_some, hhere]
    exact walk_within [] h.2

end Walks

/--
Wherever the directory is, all that a template is looked for at is at or below it iff each of these names stays inside.
What is found then depends on the directory alone, and on nothing around it.
-/
theorem candidates_inside (path suffix : String) :
    ((∀ location, ∀ name ∈ candidates path suffix, place location <+: place (joined location name)) ↔
        ∀ name ∈ candidates path suffix, Inside name) ∧
      ((∀ name ∈ candidates path suffix, Inside name) → ∀ (system other : FileTree) (location : String),
        system.at? location = other.at? location →
          system.load location suffix path = other.load location suffix path) := by
  constructor
  . simp only [inside_iff]
    exact ⟨fun h name hname location => h location name hname, fun h location name hname => h name hname location⟩
  . intro hinside system other location hsame
    have hread : ∀ name ∈ candidates path suffix,
        system.read? (joined location name) = other.read? (joined location name) := by
      intro name hname
      rw [read?, read?, at?_inside (hinside name hname) hsame]
    rw [load, load, findSome?_congr hread]

theorem candidates_inside_user :
    let root : FileTree := .directory [("user.hbs", .file "hi".toUTF8), ("sub", .empty)]
    let alone : FileTree := .directory [("templates", root)]
    let beside : FileTree := .directory [("templates", root), ("user.hbs", .file "secret".toUTF8)]
    (∀ name ∈ candidates "/sub/../user" ".hbs", place "/templates" <+: place (joined "/templates" name)) ∧
      alone.load "/templates" ".hbs" "/sub/../user" = beside.load "/templates" ".hbs" "/sub/../user" := by
  intro root alone beside
  have hinside : ∀ name ∈ candidates "/sub/../user" ".hbs", Inside name := by decide
  obtain ⟨hplaces, hloads⟩ := candidates_inside "/sub/../user" ".hbs"
  exact ⟨hplaces.2 hinside "/templates", hloads hinside alone beside "/templates" rfl⟩

/--
A path that begins with `..` leads to what is beside the directory.
-/
theorem beside_loaded :
    "../beside.hbs" ∈ candidates "../beside" ".hbs" ∧
      ¬place "/tmp/templates" <+: place (joined "/tmp/templates" "../beside.hbs") ∧
      (Loader.ofFiles .empty "/tmp/templates" ".hbs"
        (.directory [("tmp", .directory [("beside.hbs", .file "x".toUTF8)])])).load "../beside" = .ok "x" := by
  refine ⟨by decide, by decide, ?_⟩
  rfl

end FileTree

end Mustache
