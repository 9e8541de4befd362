import CatalogOperator.Catalog.PackageList
import CatalogOperator.Proofs.Text.Trimming

/-!
# `CatalogOperator.Proofs.Catalog.Listing`: what is read off a list of packages

A list is split at its commas twice: once to take the sources off its entries, and once more for the
ids. Taking off a source brings no comma into an entry, so the second split finds the entries of the
first, and a list is read entry by entry.

* `splitOn_removeSources`: the second split. `ids_join`: the ids of a list, entry by entry.
* `IsId`: the ids that can be listed. `isId_of_mem_ids`: they are the ones that are read.
* `Spells`, `Writes`: the ways to write an id, and a list of ids. `ids_join_of_writes`: whichever of
  them is taken, the ids are read back.
* `read_as_written`: that, and what it is to read a list once more.
-/

set_option autoImplicit false

namespace CatalogOperator.Proofs.Catalog

open PackageList CatalogOperator.Text Proofs.Text

/-! ### Pieces between separators -/

section Pieces

variable {α : Type} [BEq α] [LawfulBEq α] {a : α} {xs piece : List α}

/-- A piece has no separator in it, and nothing that was not there before. -/
theorem of_mem_splitOn (h : piece ∈ xs.splitOn a) : a ∉ piece ∧ piece ⊆ xs := by
  induction xs generalizing piece with
  | nil =>
    rw [List.splitOn_nil, List.mem_singleton] at h
    simp [h]
  | cons x xs ih =>
    rw [List.splitOn_cons_eq_if_modifyHead] at h
    split at h
    · rcases List.mem_cons.mp h with rfl | h
      · simp
      · exact ⟨(ih h).1, List.subset_cons_of_subset _ (ih h).2⟩
    · next hx =>
      obtain ⟨first, rest, heq⟩ := List.exists_cons_of_ne_nil (List.splitOn_ne_nil a xs)
      rw [heq] at h ih
      rcases List.mem_cons.mp h with rfl | h
      · -- The character goes to the piece that the rest begins with.
        obtain ⟨hfirst, hsub⟩ := ih List.mem_cons_self
        refine ⟨?_, List.cons_subset_cons _ hsub⟩
        rw [List.mem_cons, not_or]
        exact ⟨fun hax => hx (beq_iff_eq.mpr hax.symm), hfirst⟩
      · obtain ⟨hpiece, hsub⟩ := ih (List.mem_cons_of_mem _ h)
        exact ⟨hpiece, List.subset_cons_of_subset _ hsub⟩

end Pieces

/-- Joined entries have a comma between any two of them, and no other. -/
theorem count_join {entries : List (List Char)} (hne : entries ≠ [])
    (h : ∀ entry ∈ entries, ',' ∉ entry) : (join entries).count ',' + 1 = entries.length := by
  unfold join
  induction entries with
  | nil => exact absurd rfl hne
  | cons entry entries ih =>
    obtain ⟨hentry, h⟩ := List.forall_mem_cons.mp h
    cases entries with
    | nil =>
      rw [List.intercalate_singleton, List.count_eq_zero_of_not_mem hentry]
      rfl
    | cons next entries =>
      have hrest := ih (List.cons_ne_nil _ _) h
      rw [List.intercalate_cons_cons, List.append_assoc, List.count_append,
        List.count_eq_zero_of_not_mem hentry, List.singleton_append, List.count_cons_self,
        Nat.zero_add, hrest]
      rfl

/-! ### Sources -/

variable {entry source id : List Char}

/-- What is left of an entry is one of the pieces between its slashes. -/
theorem removeSource_mem_splitOn (entry : List Char) :
    removeSource entry ∈ entry.splitOn '/' := by
  unfold removeSource
  split
  · next heq =>
    rw [heq]
    exact List.mem_cons_of_mem _ List.mem_cons_self
  · next hno =>
    -- There is only one piece, so it is the whole entry.
    have hjoin : ['/'].intercalate (entry.splitOn '/') = entry := List.intercalate_splitOn '/'
    match hpieces : entry.splitOn '/' with
    | [] => exact absurd hpieces (List.splitOn_ne_nil _ _)
    | [piece] =>
      rw [hpieces, List.intercalate_singleton] at hjoin
      rw [hjoin]
      exact List.mem_singleton_self _
    | _ :: _ :: _ => exact absurd hpieces (hno _ _ _)

/-- What is left of an entry has no slash in it. -/
theorem slash_not_mem_removeSource (entry : List Char) : '/' ∉ removeSource entry :=
  (of_mem_splitOn (removeSource_mem_splitOn entry)).1

/-- Nothing is added to an entry. -/
theorem removeSource_subset (entry : List Char) : removeSource entry ⊆ entry :=
  (of_mem_splitOn (removeSource_mem_splitOn entry)).2

/-- An entry that names no source is left as it is. -/
theorem removeSource_eq_self (h : '/' ∉ entry) : removeSource entry = entry := by
  unfold removeSource
  rw [List.splitOn_eq_singleton h]

/-- Of an entry that names a source only the package is left. -/
theorem removeSource_sourced (hsource : '/' ∉ source) (h : '/' ∉ entry) :
    removeSource (source ++ '/' :: entry) = entry := by
  unfold removeSource
  rw [List.splitOn_append_cons_self_of_not_mem hsource, List.splitOn_eq_singleton h]

/-! ### Lists, entry by entry -/

variable {entries ids : List (List Char)}

/-- The entries of a list have no comma in them. -/
theorem comma_not_mem_of_mem_splitOn {list : List Char} :
    ∀ entry ∈ list.splitOn ',', ',' ∉ entry :=
  fun _ h => (of_mem_splitOn h).1

/-- They still have none without their sources. -/
theorem comma_not_mem_removeSource (h : ∀ entry ∈ entries, ',' ∉ entry) :
    ∀ entry ∈ entries.map removeSource, ',' ∉ entry := by
  intro e he
  obtain ⟨entry, hentry, rfl⟩ := List.mem_map.mp he
  exact fun hc => h entry hentry (removeSource_subset entry hc)

/-- The entries of a list without sources are those of the list, each without its source. -/
theorem splitOn_removeSources (list : List Char) :
    (removeSources list).splitOn ',' = (list.splitOn ',').map removeSource :=
  List.splitOn_intercalate ',' (comma_not_mem_removeSource comma_not_mem_of_mem_splitOn)
    (mt List.map_eq_nil_iff.mp (List.splitOn_ne_nil _ _))

/-- The ids of a list are its entries without their sources and without white space around them, as far
as anything is left. -/
theorem ids_eq (list : List Char) : PackageList.ids list =
    ((list.splitOn ',').map fun entry => trim (removeSource entry)).filter
      fun id => !id.isEmpty := by
  rw [PackageList.ids, splitOn_removeSources, List.map_map]
  rfl

/-- Each entry of a list stands for its own id, if it has one. -/
theorem ids_join (h : ∀ entry ∈ entries, ',' ∉ entry) : PackageList.ids (join entries) =
    (entries.map fun entry => trim (removeSource entry)).filter fun id => !id.isEmpty := by
  cases entries with
  -- No entries make the empty text, which has a blank one.
  | nil => decide
  | cons entry entries =>
    rw [ids_eq, join, List.splitOn_intercalate ',' h (List.cons_ne_nil _ _)]

/-! ### Ids and the ways to write them -/

/-- An id that can be listed: it has neither a comma nor a slash, and begins and ends with something
other than white space. -/
structure IsId (id : List Char) : Prop where
  ne_nil : id ≠ []
  comma : ',' ∉ id
  slash : '/' ∉ id
  trimmed : Trimmed id

instance (id : List Char) : Decidable (IsId id) :=
  decidable_of_iff (id ≠ [] ∧ ',' ∉ id ∧ '/' ∉ id ∧ Trimmed id)
    ⟨fun h => ⟨h.1, h.2.1, h.2.2.1, h.2.2.2⟩, fun h => ⟨h.ne_nil, h.comma, h.slash, h.trimmed⟩⟩

/-- What is read off a list are ids. -/
theorem isId_of_mem_ids {list : List Char} (h : id ∈ PackageList.ids list) : IsId id := by
  rw [ids_eq, List.mem_filter, List.mem_map] at h
  obtain ⟨⟨entry, hentry, rfl⟩, hne⟩ := h
  have hsub : trim (removeSource entry) ⊆ removeSource entry := (padded_trim _).subset
  exact {
    ne_nil := by simpa using hne
    comma := fun hc => comma_not_mem_of_mem_splitOn entry hentry (removeSource_subset _ (hsub hc))
    slash := fun hc => slash_not_mem_removeSource entry (hsub hc)
    trimmed := trimmed_trim _ }

/-- The entries that spell an id: white space may stand around it, and in front of that a source and
a slash. The source is any text without comma and slash, so white space in front of it is part of
it. -/
inductive Spells (id : List Char) : List Char → Prop
  | plain {entry : List Char} : Padded id entry → Spells id entry
  | sourced {source entry : List Char} : ',' ∉ source → '/' ∉ source → Padded id entry →
      Spells id (source ++ '/' :: entry)

/-- The entries that write ids one after the other, with any number of blank entries among them. -/
inductive Writes : List (List Char) → List (List Char) → Prop
  | nil : Writes [] []
  | blank {ids entries : List (List Char)} {entry : List Char} : Blank entry →
      Writes ids entries → Writes ids (entry :: entries)
  | spelled {ids entries : List (List Char)} {id entry : List Char} : Spells id entry →
      Writes ids entries → Writes (id :: ids) (entry :: entries)

/-- An entry that spells an id has no comma in it. -/
theorem comma_not_mem_of_spells (hid : IsId id) (h : Spells id entry) : ',' ∉ entry := by
  cases h with
  | plain hpadded => exact hpadded.not_mem rfl hid.comma
  | sourced hcomma _ hpadded =>
    have hentry := hpadded.not_mem rfl hid.comma
    exact List.not_mem_append hcomma (List.not_mem_cons_of_ne_of_not_mem (by decide) hentry)

/-- An entry is read as the id that it spells. -/
theorem trim_removeSource_of_spells (hid : IsId id) (h : Spells id entry) :
    trim (removeSource entry) = id := by
  cases h with
  | plain hpadded =>
    rw [removeSource_eq_self (hpadded.not_mem rfl hid.slash)]
    exact trim_eq_iff.mpr ⟨hid.trimmed, hpadded⟩
  | sourced _ hslash hpadded =>
    rw [removeSource_sourced hslash (hpadded.not_mem rfl hid.slash)]
    exact trim_eq_iff.mpr ⟨hid.trimmed, hpadded⟩

/-- Nothing is left of a blank entry. -/
theorem trim_removeSource_of_blank (h : Blank entry) : trim (removeSource entry) = [] := by
  rw [removeSource_eq_self (not_mem_of_blank h rfl), trim_of_blank h]

/-- Entries that write ids have no comma in them. -/
theorem comma_not_mem_of_writes (hids : ∀ id ∈ ids, IsId id) (h : Writes ids entries) :
    ∀ entry ∈ entries, ',' ∉ entry := by
  induction h with
  | nil => simp
  | blank hentry _ ih => exact List.forall_mem_cons.mpr ⟨not_mem_of_blank hentry rfl, ih hids⟩
  | spelled hentry _ ih =>
    obtain ⟨hid, hids⟩ := List.forall_mem_cons.mp hids
    exact List.forall_mem_cons.mpr ⟨comma_not_mem_of_spells hid hentry, ih hids⟩

/-- The ids are read back from every way to write them. -/
theorem ids_join_of_writes (hids : ∀ id ∈ ids, IsId id) (h : Writes ids entries) :
    PackageList.ids (join entries) = ids := by
  rw [ids_join (comma_not_mem_of_writes hids h)]
  -- Along the entries, each of which adds its id or nothing.
  induction h with
  | nil => rfl
  | blank hentry _ ih =>
    rw [List.map_cons, trim_removeSource_of_blank hentry, List.filter_cons_of_neg (by simp),
      ih hids]
  | spelled hentry _ ih =>
    obtain ⟨hid, hids⟩ := List.forall_mem_cons.mp hids
    rw [List.map_cons, trim_removeSource_of_spells hid hentry,
      List.filter_cons_of_pos (by simpa using hid.ne_nil), ih hids]

/-- Ids may be written as they are. -/
theorem writes_self (ids : List (List Char)) : Writes ids ids := by
  induction ids with
  | nil => exact .nil
  | cons id ids ih => exact .spelled (.plain (.refl id)) ih

/-! ### Lists that were read before -/

/-- The ids of a list that are joined again are read as they are. -/
theorem ids_join_ids (list : List Char) :
    PackageList.ids (join (PackageList.ids list)) = PackageList.ids list :=
  ids_join_of_writes (fun _ h => isId_of_mem_ids h) (writes_self _)

/-- Without sources there is no slash, so there is nothing to take off a second time. -/
theorem removeSources_removeSources (list : List Char) :
    removeSources (removeSources list) = removeSources list := by
  have hidem : removeSource ∘ removeSource = removeSource :=
    funext fun entry => removeSource_eq_self (slash_not_mem_removeSource entry)
  calc removeSources (removeSources list)
      = join (((list.splitOn ',').map removeSource).map removeSource) := by
        rw [← splitOn_removeSources]
        rfl
    _ = join ((list.splitOn ',').map removeSource) := by rw [List.map_map, hidem]

/-- A list keeps its commas when the sources are taken off. -/
theorem count_removeSources (list : List Char) :
    (removeSources list).count ',' = list.count ',' := by
  -- Both lists have one comma less than they have entries, and they have equally many of these.
  have hne : list.splitOn ',' ≠ [] := List.splitOn_ne_nil _ _
  have hlist := count_join hne comma_not_mem_of_mem_splitOn
  have hbare := count_join (mt List.map_eq_nil_iff.mp hne)
    (comma_not_mem_removeSource comma_not_mem_of_mem_splitOn)
  have hjoin : join (list.splitOn ',') = list := List.intercalate_splitOn ','
  rw [hjoin] at hlist
  rw [List.length_map, ← hlist] at hbare
  exact Nat.succ.inj hbare

/-- Ids are read back from a list in whichever way they were written into it. What is read off any
list is read again when it is joined. Sources are taken off for good, and every comma stays. -/
theorem read_as_written :
    (∀ ids entries : List (List Char), (∀ id ∈ ids, IsId id) → Writes ids entries →
        PackageList.ids (join entries) = ids) ∧
      ∀ list : List Char,
        PackageList.ids (join (PackageList.ids list)) = PackageList.ids list ∧
          removeSources (removeSources list) = removeSources list ∧
          (removeSources list).count ',' = list.count ',' :=
  ⟨fun _ _ hids h => ids_join_of_writes hids h,
    fun list => ⟨ids_join_ids list, removeSources_removeSources list, count_removeSources list⟩⟩

/-- Two ids, one of them with a source that has white space of its own, and two blank entries. -/
theorem read_as_written_padded :
    (∀ id ∈ ["jaeger".toList, "red hat".toList], IsId id) ∧
      Writes ["jaeger".toList, "red hat".toList]
        [" hub /\u3000jaeger\t".toList, "\u2003".toList, [], "red hat ".toList] ∧
      PackageList.ids " hub /\u3000jaeger\t,\u2003,,red hat ".toList =
        ["jaeger".toList, "red hat".toList] := by
  have hids : ∀ id ∈ ["jaeger".toList, "red hat".toList], IsId id := by decide
  have hfirst : Spells "jaeger".toList
      (" hub ".toList ++ '/' :: (['\u3000'] ++ ("jaeger".toList ++ ['\t']))) :=
    .sourced (by decide) (by decide) (.intro (by decide) (by decide))
  have hsecond : Spells "red hat".toList ([] ++ ("red hat".toList ++ [' '])) :=
    .plain (.intro (by decide) (by decide))
  have hwrites : Writes ["jaeger".toList, "red hat".toList]
      [" hub /\u3000jaeger\t".toList, "\u2003".toList, [], "red hat ".toList] :=
    .spelled hfirst (.blank (by decide) (.blank (by decide) (.spelled hsecond .nil)))
  have hread := read_as_written.1 _ _ hids hwrites
  exact ⟨hids, hwrites, hread⟩

end CatalogOperator.Proofs.Catalog
