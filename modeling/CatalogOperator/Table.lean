/-!
# `CatalogOperator.Table`: tables in the order of insertion

A table holds at most one entry under a key. Replacing an entry keeps its place, a new one goes to
the end, and erasing an entry closes the gap.

* `Table.find?`: the entry under a key. `find?_insert` and `find?_erase` say what the two updates do
  to it.
* `Table.mem_entries_iff`: the entries are those that are found. `ext_of_keys` tells two tables by
  them and the order of the keys.
* `Table.keys`: the keys in order. `keys_insert` and `keys_erase` say what the updates do to them.
-/

set_option autoImplicit false

namespace CatalogOperator

variable {κ α : Type}

/-- The entries with one put in, in the place of one of the same key or else at the end. -/
def Table.put [DecidableEq κ] (key : κ) (value : α) : List (κ × α) → List (κ × α)
  | [] => [(key, value)]
  | (k, v) :: rest => if k = key then (k, value) :: rest else (k, v) :: Table.put key value rest

/-- Putting an entry in adds its key at the end if it is new. -/
theorem Table.map_fst_put [DecidableEq κ] (key : κ) (value : α) (es : List (κ × α)) :
    (Table.put key value es).map (·.1) =
      if key ∈ es.map (·.1) then es.map (·.1) else es.map (·.1) ++ [key] := by
  induction es with
  | nil => simp [Table.put]
  | cons e rest ih =>
    obtain ⟨k, v⟩ := e
    by_cases h : k = key
    · simp [Table.put, h]
    · have h' : ¬ key = k := fun e => h e.symm
      simp only [Table.put, h, if_false, List.map_cons, ih, List.mem_cons, h', false_or]
      split <;> simp

/-- A table: entries under distinct keys, in the order in which the keys came in. -/
structure Table (κ α : Type) where
  entries : List (κ × α)
  nodup : (entries.map (·.1)).Nodup
  deriving Repr

namespace Table

/-- The table without entries. -/
def empty : Table κ α :=
  ⟨[], by simp⟩

instance : Inhabited (Table κ α) :=
  ⟨empty⟩

/-- Tables are told by their entries. -/
theorem ext {s t : Table κ α} (h : s.entries = t.entries) : s = t := by
  cases s; cases t; cases h; rfl

instance [DecidableEq κ] [DecidableEq α] : DecidableEq (Table κ α) := fun s t =>
  decidable_of_iff (s.entries = t.entries) ⟨ext, fun h => h ▸ rfl⟩

/-- The keys in order. -/
def keys (t : Table κ α) : List κ :=
  t.entries.map (·.1)

/-- The values in the order of their keys. -/
def values (t : Table κ α) : List α :=
  t.entries.map (·.2)

/-- The number of entries. -/
def size (t : Table κ α) : Nat :=
  t.entries.length

/-- The table with the entries of which a test holds. -/
def filter (t : Table κ α) (keep : κ → α → Bool) : Table κ α :=
  ⟨t.entries.filter fun e => keep e.1 e.2,
    t.nodup.sublist (List.filter_sublist.map _)⟩

section

variable [DecidableEq κ]

/-- The entry under a key. -/
def find? (t : Table κ α) (key : κ) : Option α :=
  (t.entries.find? fun e => e.1 = key).map (·.2)

/-- Whether there is an entry under a key. -/
def contains (t : Table κ α) (key : κ) : Bool :=
  (t.find? key).isSome

/-- The table with an entry put in. -/
def insert (t : Table κ α) (key : κ) (value : α) : Table κ α :=
  ⟨put key value t.entries, by
    rw [map_fst_put]
    split
    · exact t.nodup
    · rename_i h
      rw [List.nodup_append]
      refine ⟨t.nodup, by simp, ?_⟩
      intro a ha b hb
      simp only [List.mem_singleton] at hb
      subst hb
      exact fun e => h (e ▸ ha)⟩

/-- The table without the entry under a key. -/
def erase (t : Table κ α) (key : κ) : Table κ α :=
  t.filter fun k _ => k ≠ key

/-- The empty table holds nothing. -/
@[simp] theorem find?_empty (key : κ) : (empty : Table κ α).find? key = none :=
  rfl

/-- Among the entries only the value under the given key changes. -/
theorem find?_put (key k : κ) (value : α) (es : List (κ × α)) :
    ((put key value es).find? fun e => e.1 = k).map (·.2) =
      if key = k then some value else (es.find? fun e => e.1 = k).map (·.2) := by
  induction es with
  | nil =>
    by_cases h : key = k <;> simp [put, h]
  | cons e rest ih =>
    obtain ⟨k', v⟩ := e
    by_cases h : k' = key
    · subst h
      by_cases hk : k' = k <;> simp [put, hk]
    · by_cases hk : k' = k
      · subst hk
        have : ¬ key = k' := fun e => h e.symm
        simp [put, h, this]
      · simp only [put, h, if_false, List.find?_cons, hk, decide_false]
        exact ih

/-- After an insertion the key has the new value, and all others have theirs. -/
theorem find?_insert (t : Table κ α) (key k : κ) (value : α) :
    (t.insert key value).find? k = if key = k then some value else t.find? k :=
  find?_put key k value t.entries

/-- In particular the key has the new value. -/
@[simp] theorem find?_insert_self (t : Table κ α) (key : κ) (value : α) :
    (t.insert key value).find? key = some value := by
  simp [find?_insert]

/-- Leaving entries out puts in none. -/
theorem find?_filter_of_absent {t : Table κ α} {key : κ} (h : t.find? key = none)
    (keep : κ → α → Bool) : (t.filter keep).find? key = none := by
  unfold find? at h ⊢
  rw [Option.map_eq_none_iff, List.find?_eq_none] at h ⊢
  exact fun e he => h e (List.mem_filter.mp he).1

/-- After an erasure the key has no value, and all others have theirs. -/
theorem find?_erase (t : Table κ α) (key k : κ) :
    (t.erase key).find? k = if key = k then none else t.find? k := by
  have : ∀ es : List (κ × α),
      ((es.filter fun e => decide (e.1 ≠ key)).find? fun e => e.1 = k).map (·.2) =
        if key = k then none else (es.find? fun e => e.1 = k).map (·.2) := by
    intro es
    induction es with
    | nil => simp
    | cons e rest ih =>
      obtain ⟨k', v⟩ := e
      by_cases h : k' = key
      · subst h
        by_cases hk : k' = k
        · simp only [hk, if_true] at ih ⊢
          simp
        · simp only [hk, if_false] at ih ⊢
          simpa [hk] using ih
      · by_cases hk : k' = k
        · subst hk
          have : ¬ key = k' := fun e => h e.symm
          simp [h, this]
        · simpa [h, hk] using ih
  exact this t.entries

/-- In particular the key has no value. -/
@[simp] theorem find?_erase_self (t : Table κ α) (key : κ) : (t.erase key).find? key = none := by
  simp [find?_erase]

/-- An insertion adds the key at the end if it is new. -/
theorem keys_insert (t : Table κ α) (key : κ) (value : α) :
    (t.insert key value).keys = if key ∈ t.keys then t.keys else t.keys ++ [key] :=
  map_fst_put key value t.entries

/-- An erasure takes the key out of the others. -/
theorem keys_erase (t : Table κ α) (key : κ) :
    (t.erase key).keys = t.keys.filter fun k => k ≠ key := by
  simp only [keys, erase, filter, List.filter_map]
  rfl

/-- The entries are those that are found, for there is but one under a key. -/
theorem find?_of_mem {t : Table κ α} {e : κ × α} (he : e ∈ t.entries) : t.find? e.1 = some e.2 := by
  have found : ∀ es : List (κ × α), (es.map (·.1)).Nodup → e ∈ es →
      (es.find? fun e' => e'.1 = e.1) = some e := by
    intro es hnodup hmem
    induction es with
    | nil => cases hmem
    | cons e' rest ih =>
      obtain ⟨hnew, hrest⟩ := List.nodup_cons.1 hnodup
      rcases List.mem_cons.1 hmem with rfl | hmem
      · simp
      · have hne : e'.1 ≠ e.1 := by
          intro heq
          exact hnew (List.mem_map.2 ⟨e, hmem, heq.symm⟩)
        simpa [hne] using ih hrest hmem
  rw [find?, found t.entries t.nodup he]
  rfl

/-- The entries are the keys with the values that are found under them. -/
theorem mem_entries_iff {t : Table κ α} {key : κ} {value : α} :
    (key, value) ∈ t.entries ↔ t.find? key = some value := by
  refine ⟨find?_of_mem, fun h => ?_⟩
  obtain ⟨e, he, rfl⟩ := Option.map_eq_some_iff.mp h
  have hkey : e.1 = key := by simpa using List.find?_some he
  rw [← hkey]
  exact List.mem_of_find?_eq_some he

/-- A table is told by its keys in order and what is found under them. -/
theorem ext_of_keys {s t : Table κ α} (hkeys : s.keys = t.keys)
    (hfind : ∀ key, s.find? key = t.find? key) : s = t := by
  refine ext (List.ext_getElem (by simpa [keys] using congrArg List.length hkeys) ?_)
  intro i hs ht
  have hkey : s.entries[i].1 = t.entries[i].1 := by
    have hlist : s.entries.map (·.1) = t.entries.map (·.1) := hkeys
    simpa [hs, ht] using congrArg (·[i]?) hlist
  have hvalue := find?_of_mem (List.getElem_mem hs)
  rw [hfind, hkey, find?_of_mem (List.getElem_mem ht), Option.some.injEq] at hvalue
  exact Prod.ext hkey hvalue.symm

/-- What is found is found under one of the keys. -/
theorem mem_keys_of_find? {t : Table κ α} {key : κ} {value : α} (h : t.find? key = some value) :
    key ∈ t.keys :=
  List.mem_map.mpr ⟨(key, value), mem_entries_iff.mpr h, rfl⟩

end

/-- Each key stands in a table once. -/
theorem nodup_keys (t : Table κ α) : t.keys.Nodup :=
  t.nodup

/-- The table of a list of entries, later ones taking the place of earlier ones. -/
def ofList [DecidableEq κ] (es : List (κ × α)) : Table κ α :=
  es.foldl (fun t e => t.insert e.1 e.2) empty

end Table

end CatalogOperator
