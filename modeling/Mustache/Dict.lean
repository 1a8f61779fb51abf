/-!
This module contains dictionaries: entries with different keys, in the order of the keys.
-/

namespace Mustache

/--
A dictionary with text keys. Its entries are in the order of their keys, character by character.
-/
@[ext]
structure Dict (α : Type) where
  entries : List (String × α)
  sorted : (entries.map (·.1)).Pairwise (· < ·)

namespace Dict

variable {α β : Type}

instance : EmptyCollection (Dict α) := ⟨⟨[], .nil⟩⟩

instance : Membership (String × α) (Dict α) := ⟨fun d entry => entry ∈ d.entries⟩

def keys (d : Dict α) : List String :=
  d.entries.map (·.1)

def get? (d : Dict α) (key : String) : Option α :=
  d.entries.lookup key

def contains (d : Dict α) (key : String) : Bool :=
  (d.get? key).isSome

def insertEntry (key : String) (value : α) : List (String × α) → List (String × α)
  | [] => [(key, value)]
  | (k, v) :: entries =>
    if key = k then (key, value) :: entries
    else if key < k then (key, value) :: (k, v) :: entries
    else (k, v) :: insertEntry key value entries

theorem mem_insertEntry {key : String} {value : α} {entries : List (String × α)} {entry : String × α}
    (h : entry ∈ insertEntry key value entries) : entry = (key, value) ∨ entry ∈ entries := by
  induction entries with
  | nil => simpa [insertEntry] using h
  | cons first entries ih =>
    simp only [insertEntry] at h
    split at h
    . rcases List.mem_cons.1 h with h | h
      . exact .inl h
      . exact .inr (List.mem_cons_of_mem _ h)
    . split at h
      . exact List.mem_cons.1 h
      . rcases List.mem_cons.1 h with h | h
        . exact .inr (h ▸ List.mem_cons_self)
        . exact (ih h).imp_right (List.mem_cons_of_mem _)

theorem insertEntry_sorted (key : String) (value : α) {entries : List (String × α)}
    (h : (entries.map (·.1)).Pairwise (· < ·)) : ((insertEntry key value entries).map (·.1)).Pairwise (· < ·) := by
  induction entries with
  | nil => exact List.pairwise_singleton ..
  | cons entry entries ih =>
    obtain ⟨k, v⟩ := entry
    rw [List.map_cons, List.pairwise_cons] at h
    simp only [insertEntry]
    split
    next heq =>
      subst heq
      exact List.pairwise_cons.2 h
    next hne =>
      split
      next hlt =>
        refine List.pairwise_cons.2 ⟨?_, List.pairwise_cons.2 h⟩
        intro l hl
        rcases List.mem_cons.1 hl with rfl | hl
        . exact hlt
        . exact String.lt_trans hlt (h.1 l hl)
      next hnlt =>
        have hkey : k < key := by
          rw [String.not_lt] at hnlt
          rw [← String.not_le]
          intro hle
          exact hne (String.le_antisymm hle hnlt)
        refine List.pairwise_cons.2 ⟨?_, ih h.2⟩
        intro l hl
        obtain ⟨entry, hentry, rfl⟩ := List.mem_map.1 hl
        rcases mem_insertEntry hentry with rfl | hentry
        . exact hkey
        . exact h.1 _ (List.mem_map_of_mem hentry)

def insert (d : Dict α) (key : String) (value : α) : Dict α :=
  ⟨insertEntry key value d.entries, insertEntry_sorted key value d.sorted⟩

/--
The dictionary of some entries. Of two entries with the same key the later one counts.
-/
def ofList (entries : List (String × α)) : Dict α :=
  entries.foldl (fun d (key, value) => d.insert key value) ∅

theorem zip_sorted {keys : List String} (h : keys.Pairwise (· < ·)) (values : List β) :
    ((keys.zip values).map (·.1)).Pairwise (· < ·) := by
  rw [List.zip_eq_zip_take_min, List.map_fst_zip (by simp)]
  exact h.sublist (List.take_sublist ..)

/--
Other values under the keys of a dictionary, in the order of the keys.
-/
def withValues (d : Dict α) (values : List β) : Dict β :=
  ⟨d.keys.zip values, zip_sorted d.sorted values⟩

@[simp] theorem get?_empty (key : String) : (∅ : Dict α).get? key = none := rfl

theorem lookup_cons (k : String) (v : α) (entries : List (String × α)) (key : String) :
    ((k, v) :: entries).lookup key = if key = k then some v else entries.lookup key := by
  rw [List.lookup_cons]
  by_cases h : key = k
  . simp [h]
  . have : (key == k) = false := by simpa using h
    simp [h, this]

theorem lookup_insertEntry (entries : List (String × α)) (key other : String) (value : α) :
    (insertEntry key value entries).lookup other = if other = key then some value else entries.lookup other := by
  induction entries with
  | nil => simp [insertEntry, lookup_cons]
  | cons entry entries ih =>
    obtain ⟨k, v⟩ := entry
    simp only [insertEntry]
    split
    next h => subst h; by_cases ho : other = key <;> simp [lookup_cons, ho]
    next h =>
      split
      . simp [lookup_cons]
      . rw [lookup_cons, ih, lookup_cons]
        by_cases ho : other = k
        . subst ho; simp [Ne.symm h]
        . simp [ho]

@[simp] theorem get?_insert (d : Dict α) (key other : String) (value : α) :
    (d.insert key value).get? other = if other = key then some value else d.get? other :=
  lookup_insertEntry d.entries key other value

end Dict

end Mustache
