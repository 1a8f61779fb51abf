import Mathlib.Data.List.Infix
import Mustache.Proofs.Search
import Mustache.Scope.Path

/-!
This module contains how paths are read. The main statement is that a name behind a path is read as one more member,
however the path in front of it is read.
-/

namespace Mustache

namespace Path

theorem membersOf_of_not_mem {name : List Char} (hne : name ≠ []) (hpoint : '.' ∉ name) :
    membersOf name = [String.ofList name] := by
  rw [membersOf, if_neg (by simpa using hne), Text.splitAll_of_not_mem hpoint, List.map_singleton]

theorem membersOf_append {names name : List Char} (hne : names ≠ []) (hpoint : '.' ∉ name) :
    membersOf (names ++ '.' :: name) = membersOf names ++ [String.ofList name] := by
  rw [membersOf, membersOf, if_neg (by simp), if_neg (by simpa using hne), Text.splitAll_append,
    Text.splitAll_of_not_mem hpoint, List.map_append, List.map_singleton]

def currentStarts : List (List Char) :=
  ["this.".toList, ['.', '/']]

theorem ofLocal_member {start : List Char} (h : start ∈ currentStarts) (rest : List Char) :
    ofLocal (start ++ rest) = ⟨0, .current, membersOf rest⟩ := by
  rcases List.mem_pair.1 h with rfl | rfl
  . rfl
  . rfl

/--
The text is about the value of its scope: it names that value, or begins with what stands in front of its members.
-/
def IsCurrent (cs : List Char) : Prop :=
  cs = "this".toList ∨ cs = ['.'] ∨ ∃ start ∈ currentStarts, start <+: cs

theorem ofLocal_name {cs : List Char} (h : ¬IsCurrent cs) :
    ofLocal cs =
      match Text.splitOnce '.' cs with
      | some (first, rest) => ⟨0, .name (String.ofList first), membersOf rest⟩
      | none => ⟨0, .name (String.ofList cs), []⟩ := by
  simp only [IsCurrent, not_or, not_exists, not_and] at h
  obtain ⟨hthis, hpoint, hstart⟩ := h
  have hcut {start : List Char} (hmem : start ∈ currentStarts) : start.isPrefixOf? cs = none := by
    rw [Option.eq_none_iff_forall_not_mem]
    intro rest hrest
    rw [Option.mem_def, List.isPrefixOf?_eq_some_iff_append_eq] at hrest
    exact hstart start hmem ⟨rest, hrest⟩
  rw [ofLocal, decide_eq_false hthis, decide_eq_false hpoint, hcut (by simp [currentStarts]),
    hcut (by simp [currentStarts])]
  rfl

theorem IsCurrent.of_append {path name : List Char} (hne : path ≠ []) (h : IsCurrent (path ++ '.' :: name)) :
    IsCurrent path := by
  rcases h with hthis | hpoint | ⟨start, hstart, rest, hrest⟩
  . have hmem : '.' ∈ "this".toList := hthis ▸ List.mem_append_right _ List.mem_cons_self
    exact absurd hmem (by decide)
  . cases path with
    | nil => exact absurd rfl hne
    | cons c path => simp at hpoint
  . rcases List.append_eq_append_iff.1 hrest with ⟨more, hpath, -⟩ | ⟨more, hpath, hmore⟩
    . exact .inr (.inr ⟨start, hstart, more, hpath.symm⟩)
    . cases more with
      | nil =>
        rw [List.append_nil] at hpath
        exact .inr (.inr ⟨start, hstart, hpath ▸ List.prefix_refl _⟩)
      | cons c more =>
        -- the point behind the path is that of the start
        have hthis : ∀ start ∈ currentStarts, ∀ path ∈ start.inits, path ≠ [] → path ++ ['.'] <+: start →
            path = "this".toList := by decide
        rw [List.cons_append, List.cons.injEq] at hmore
        rw [← hmore.1] at hpath
        refine .inl (hthis start hstart path ?_ hne ?_)
        . rw [List.mem_inits, hpath]
          exact List.prefix_append path ('.' :: more)
        . exact ⟨more, by rw [hpath, List.append_assoc, List.singleton_append]⟩

theorem ofLocal_append {path name : List Char} (hne : path ≠ []) (hlast : ∀ c ∈ path.getLast?, c ≠ '.' ∧ c ≠ '/')
    (hname : name ≠ []) (hpoint : '.' ∉ name) :
    ofLocal (path ++ '.' :: name) =
      { ofLocal path with members := (ofLocal path).members ++ [String.ofList name] } := by
  by_cases hcurrent : IsCurrent path
  . rcases hcurrent with rfl | rfl | ⟨start, hstart, rest, rfl⟩
    . rw [List.append_cons]
      rw [ofLocal_member (show "this".toList ++ ['.'] ∈ currentStarts by decide), membersOf_of_not_mem hname hpoint]
      rfl
    . exact absurd rfl (hlast '.' rfl).1
    . have hrest : rest ≠ [] := by
        rintro rfl
        rw [List.append_nil] at hlast
        rcases List.mem_pair.1 hstart with rfl | rfl
        . exact (hlast '.' rfl).1 rfl
        . exact (hlast '/' rfl).2 rfl
      rw [List.append_assoc, ofLocal_member hstart, ofLocal_member hstart, membersOf_append hrest hpoint]
  . rw [ofLocal_name hcurrent, ofLocal_name (mt (IsCurrent.of_append hne) hcurrent)]
    cases hsplit : Text.splitOnce '.' path with
    | none =>
      rw [Text.splitOnce_append (Text.not_mem_of_splitOnce hsplit)]
      dsimp only
      rw [membersOf_of_not_mem hname hpoint]
      rfl
    | some pieces =>
      obtain ⟨first, rest⟩ := pieces
      have hrest : rest ≠ [] := by
        rintro rfl
        rw [Text.splitOnce_eq_some hsplit, List.getLast?_concat] at hlast
        exact (hlast '.' rfl).1 rfl
      rw [Text.splitOnce_append_of_some hsplit]
      dsimp only
      rw [membersOf_append hrest hpoint]

theorem ofChars_up (cs : List Char) :
    ofChars ("../".toList ++ cs) = { ofChars cs with ups := (ofChars cs).ups + 1 } := rfl

theorem ofChars_local {cs : List Char} (h : ¬"../".toList <+: cs) : ofChars cs = ofLocal cs := by
  unfold ofChars
  split
  . exact absurd (List.prefix_append ..) h
  . rfl

theorem ofChars_append {path name : List Char} (hne : path ≠ []) (hlast : ∀ c ∈ path.getLast?, c ≠ '.' ∧ c ≠ '/')
    (hname : name ≠ []) (hpoint : '.' ∉ name) :
    ofChars (path ++ '.' :: name) =
      { ofChars path with members := (ofChars path).members ++ [String.ofList name] } := by
  induction path using ofChars.induct with
  | case1 path ih =>
    have hpath : path ≠ [] := by
      rintro rfl
      exact (hlast '/' rfl).2 rfl
    have htail : ∀ c ∈ path.getLast?, c ≠ '.' ∧ c ≠ '/' := by
      intro c hc
      have hmem : c ∈ ("../".toList ++ path).getLast? := List.mem_getLast?_append_of_mem_getLast? hc
      exact hlast c hmem
    change ofChars ("../".toList ++ (path ++ '.' :: name)) = _
    rw [ofChars_up, ih hpath htail]
    rfl
  | case2 path h =>
    have hlocal : ¬"../".toList <+: path := by
      rintro ⟨rest, rfl⟩
      exact h rest rfl
    rw [ofChars_local hlocal, ofChars_local ?_, ofLocal_append hne hlast hname hpoint]
    rintro ⟨rest, hrest⟩
    rcases List.append_eq_append_iff.1 hrest with ⟨more, hpath, -⟩ | ⟨more, hpath, -⟩
    . exact hlocal ⟨more, hpath.symm⟩
    . -- a path that is cut off within the `../` ends with a point or a slash
      have hends : ∀ path ∈ "../".toList.inits, path ≠ [] → path.getLast? = some '.' ∨ path.getLast? = some '/' := by
        decide
      rcases hends path ((List.mem_inits ..).2 ⟨more, hpath.symm⟩) hne with hpoint | hslash
      . exact (hlast '.' hpoint).1 rfl
      . exact (hlast '/' hslash).2 rfl

theorem ofString_up (path : String) :
    ofString ("../" ++ path) = { ofString path with ups := (ofString path).ups + 1 } := by
  rw [ofString, String.toList_append]
  exact ofChars_up path.toList

/--
A name behind a path leads one member further, however the path is read.
-/
theorem ofString_append {path name : String} (hne : path ≠ "")
    (hlast : ∀ c ∈ path.toList.getLast?, c ≠ '.' ∧ c ≠ '/') (hname : name ≠ "") (hpoint : '.' ∉ name.toList) :
    ofString (path ++ "." ++ name) = { ofString path with members := (ofString path).members ++ [name] } := by
  have htext : (path ++ "." ++ name).toList = path.toList ++ '.' :: name.toList := by simp
  rw [ofString, ofString, htext, ofChars_append (by simpa using hne) hlast (by simpa using hname) hpoint,
    String.ofList_toList]

theorem ofString_member {start : String} (h : start ∈ ["this.", "./"]) (rest : String) :
    ofString (start ++ rest) = ⟨0, .current, membersOf rest.toList⟩ := by
  have hstart : start.toList ∈ currentStarts := by
    rcases List.mem_pair.1 h with rfl | rfl <;> decide
  have hlocal : ¬"../".toList <+: start.toList ++ rest.toList := by
    rcases List.mem_pair.1 h with rfl | rfl <;> simp
  rw [ofString, String.toList_append, ofChars_local hlocal, ofLocal_member hstart]

theorem ofString_name {name : String} (hpoint : '.' ∉ name.toList) (hthis : name ≠ "this") :
    ofString name = ⟨0, .name name, []⟩ := by
  have hcut {start : List Char} (hstart : '.' ∈ start) : ¬start <+: name.toList :=
    fun hbegins => hpoint (hbegins.subset hstart)
  have hcurrent : ¬IsCurrent name.toList := by
    rintro (h | h | ⟨start, hstart, hbegins⟩)
    . exact hthis (String.toList_inj.1 h)
    . exact hpoint (h ▸ List.mem_singleton_self _)
    . refine hcut ?_ hbegins
      rcases List.mem_pair.1 hstart with rfl | rfl <;> decide
  rw [ofString, ofChars_local (hcut (by decide)), ofLocal_name hcurrent, Text.splitOnce_of_not_mem hpoint]
  dsimp only
  rw [String.ofList_toList]

theorem ofString_name_member {name member : String} (hpoint : '.' ∉ name.toList) (hthis : name ≠ "this")
    (hne : member ≠ "") (hmember : '.' ∉ member.toList) (hslash : '/' ∉ member.toList) :
    ofString (name ++ "." ++ member) = ⟨0, .name name, [member]⟩ := by
  have htext : (name ++ "." ++ member).toList = name.toList ++ '.' :: member.toList := by simp
  -- the text is cut in two at its only point
  have hcut {first rest : List Char} (hfirst : '.' ∉ first)
      (h : first ++ '.' :: rest = name.toList ++ '.' :: member.toList) :
      first = name.toList ∧ rest = member.toList := by
    have hsplit := Text.splitOnce_append hfirst rest
    rw [h, Text.splitOnce_append hpoint, Option.some.injEq, Prod.mk.injEq] at hsplit
    exact ⟨hsplit.1.symm, hsplit.2.symm⟩
  have hcurrent : ¬IsCurrent (name.toList ++ '.' :: member.toList) := by
    rintro (h | h | ⟨start, hstart, rest, hrest⟩)
    . have hmem : '.' ∈ "this".toList := h ▸ List.mem_append_right _ List.mem_cons_self
      exact absurd hmem (by decide)
    . exact hne (String.toList_inj.1 (hcut (by decide) (show [] ++ '.' :: [] = _ from h.symm)).2.symm)
    . rcases List.mem_pair.1 hstart with rfl | rfl
      . exact hthis (String.toList_inj.1 (hcut (show '.' ∉ "this".toList by decide) hrest).1.symm)
      . exact hslash ((hcut (show '.' ∉ [] by simp) hrest).2 ▸ List.mem_cons_self)
  have hup : ¬"../".toList <+: name.toList ++ '.' :: member.toList := by
    rintro ⟨rest, hrest⟩
    exact hmember ((hcut (show '.' ∉ [] by simp) hrest).2 ▸ List.mem_cons_self)
  rw [ofString, htext, ofChars_local hup, ofLocal_name hcurrent, Text.splitOnce_append hpoint]
  dsimp only
  rw [membersOf_of_not_mem (by simpa using hne) hmember, String.ofList_toList, String.ofList_toList]

end Path

end Mustache
