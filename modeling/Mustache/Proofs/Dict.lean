import Mustache.Dict

/-!
This module contains the entries and the keys of a dictionary.
-/

namespace Mustache.Dict

variable {α : Type}

@[simp] theorem not_mem_empty (entry : String × α) : entry ∉ (∅ : Dict α) :=
  List.not_mem_nil

theorem forall_mem_empty {p : String × α → Prop} : ∀ entry ∈ (∅ : Dict α), p entry :=
  List.forall_mem_nil p

@[simp] theorem keys_empty : (∅ : Dict α).keys = [] := rfl

theorem entries_eq_nil_iff {d : Dict α} : d.entries = [] ↔ d = ∅ :=
  (@Dict.ext_iff _ d ∅).symm

theorem keys_nodup (d : Dict α) : d.keys.Nodup :=
  d.sorted.imp fun hlt => by
    rintro rfl
    exact String.lt_irrefl _ hlt

theorem mem_insert {d : Dict α} {key : String} {value : α} {entry : String × α} (h : entry ∈ d.insert key value) :
    entry = (key, value) ∨ entry ∈ d :=
  mem_insertEntry h

theorem mem_keys_insert {d : Dict α} {key k : String} {value : α} (h : k ∈ (d.insert key value).keys) :
    k = key ∨ k ∈ d.keys := by
  obtain ⟨entry, hentry, rfl⟩ := List.mem_map.1 h
  rcases mem_insertEntry hentry with rfl | hentry
  . exact .inl rfl
  . exact .inr (List.mem_map_of_mem hentry)

theorem insert_ne_empty (d : Dict α) (key : String) (value : α) : d.insert key value ≠ ∅ := by
  intro h
  have hget := d.get?_insert key key value
  rw [h, if_pos rfl] at hget
  cases hget

theorem insertEntry_eq_append {entries : List (String × α)} {key : String}
    (h : ∀ k ∈ entries.map (·.1), k < key) (value : α) : insertEntry key value entries = entries ++ [(key, value)] := by
  induction entries with
  | nil => rfl
  | cons entry entries ih =>
    obtain ⟨k, v⟩ := entry
    have hk : k < key := h k (by simp)
    have hne : key ≠ k := by
      rintro rfl
      exact String.lt_irrefl _ hk
    rw [insertEntry, if_neg hne, if_neg (String.lt_asymm hk), ih fun l hl => h l (List.mem_cons_of_mem _ hl)]
    rfl

theorem entries_insert {d : Dict α} {key : String} (h : ∀ k ∈ d.keys, k < key) (value : α) :
    (d.insert key value).entries = d.entries ++ [(key, value)] :=
  insertEntry_eq_append h value

theorem lt_of_entries_append {d e : Dict α} {entries : List (String × α)} {key : String} {value : α}
    (h : d.entries = e.entries ++ (key, value) :: entries) : ∀ k ∈ e.keys, k < key := by
  intro k hk
  have hsorted := d.sorted
  rw [h, List.map_append, List.pairwise_append] at hsorted
  exact hsorted.2.2 k hk key List.mem_cons_self

theorem get?_eq_none {d : Dict α} {key : String} (h : key ∉ d.keys) : d.get? key = none := by
  rw [get?, List.lookup_eq_none_iff]
  intro entry hentry
  rw [bne_iff_ne]
  rintro rfl
  exact h (List.mem_map_of_mem hentry)

theorem contains_eq_false {d : Dict α} {key : String} (h : key ∉ d.keys) : d.contains key = false := by
  rw [contains, get?_eq_none h]
  rfl

theorem get?_of_entries_append {d e : Dict α} {entries : List (String × α)} {key : String} {value : α}
    (h : d.entries = e.entries ++ (key, value) :: entries) (hfresh : key ∉ e.keys) : d.get? key = some value := by
  have hbefore : e.entries.lookup key = none := get?_eq_none hfresh
  rw [get?, h, List.lookup_append, hbefore, Option.none_or, lookup_cons, if_pos rfl]

theorem mem_of_lookup {entries : List (String × α)} {key : String} {value : α}
    (h : entries.lookup key = some value) : (key, value) ∈ entries := by
  obtain ⟨before, after, rfl, -⟩ := List.lookup_eq_some_iff.1 h
  simp

theorem mem_of_get? {d : Dict α} {key : String} {value : α} (h : d.get? key = some value) : (key, value) ∈ d :=
  mem_of_lookup h

theorem mem_of_mem_foldl {entries : List (String × α)} {d : Dict α} {entry : String × α}
    (h : entry ∈ entries.foldl (fun d entry => d.insert entry.1 entry.2) d) : entry ∈ entries ∨ entry ∈ d := by
  induction entries generalizing d with
  | nil => exact .inr h
  | cons first entries ih =>
    rcases ih h with hmem | hd
    . exact .inl (List.mem_cons_of_mem _ hmem)
    . rcases mem_insert hd with rfl | hd
      . exact .inl List.mem_cons_self
      . exact .inr hd

theorem mem_of_mem_ofList {entries : List (String × α)} {entry : String × α} (h : entry ∈ ofList entries) :
    entry ∈ entries :=
  (mem_of_mem_foldl h).resolve_right (not_mem_empty entry)

end Mustache.Dict
