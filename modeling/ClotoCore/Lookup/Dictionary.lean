import ClotoCore.Lookup.Keyed

/-!
# Dictionaries

A value for each of some keys: a map whose items are pairs, of which the first
component is the key.  Two of them are the same where they have the same value for
every key; in what order they hold their entries does not count.
-/

namespace ClotoCore.Lookup

universe u v w

/-- A value for each of some keys. -/
abbrev Dictionary (κ : Type u) (ν : Type v) [DecidableEq κ] :=
  Keyed (Prod.fst : κ × ν → κ)

namespace Dictionary

variable {κ : Type u} {ν : Type v} {ω : Type w} [DecidableEq κ]

/-- The value of a key. -/
def value (entries : Dictionary κ ν) (k : κ) : Option ν :=
  (entries.get k).map Prod.snd

/-- Record one value after the other. -/
def insertAll (entries : Dictionary κ ν) (more : List (κ × ν)) : Dictionary κ ν :=
  more.foldl Keyed.insert entries

/-- The entries recorded one after the other. -/
def ofList (more : List (κ × ν)) : Dictionary κ ν :=
  insertAll (Keyed.empty Prod.fst) more

/-- Replace each value by what a function makes of it. -/
def mapValues (f : κ → ν → ω) (entries : Dictionary κ ν) : Dictionary κ ω where
  items := entries.items.map fun entry => (entry.1, f entry.1 entry.2)
  distinct := by
    rw [List.map_map]
    exact entries.distinct

/-- Record what a function makes of an entry, where it makes something of it. -/
def collectOne (f : κ → ν → Option ω) (kept : Dictionary κ ω) (entry : κ × ν) : Dictionary κ ω :=
  match f entry.1 entry.2 with
  | none => kept
  | some made => kept.insert (entry.1, made)

/-- Record what a function makes of each entry. -/
def collect (f : κ → ν → Option ω) (entries : Dictionary κ ν) : Dictionary κ ω :=
  entries.items.foldl (collectOne f) (Keyed.empty Prod.fst)

variable {entries : Dictionary κ ν} {k other : κ} {held : ν}

theorem value_eq_some_iff : entries.value k = some held ↔ (k, held) ∈ entries.items := by
  rw [value, Option.map_eq_some_iff]
  constructor
  · rintro ⟨⟨name, recorded⟩, found, rfl⟩
    have ⟨mem, same⟩ := Keyed.get_eq_some_iff.mp found
    rwa [← same]
  · intro mem
    exact ⟨(k, held), Keyed.get_eq_some_iff.mpr ⟨mem, rfl⟩, rfl⟩

theorem value_eq_none_iff : entries.value k = none ↔ ∀ held, (k, held) ∉ entries.items := by
  rw [Option.eq_none_iff_forall_ne_some]
  exact forall_congr' fun held => not_congr value_eq_some_iff

@[simp]
theorem value_empty : value (Keyed.empty Prod.fst : Dictionary κ ν) k = none :=
  rfl

/-- Only the value of the key that is recorded changes. -/
theorem value_insert :
    value (entries.insert (k, held)) other =
      if k = other then some held else entries.value other := by
  apply Option.ext
  intro seen
  rw [value_eq_some_iff]
  by_cases same : k = other
  · subst same
    simp [Keyed.insert, Keyed.mem_remove_iff, eq_comm]
  · have differ : other ≠ k := Ne.symm same
    simp [Keyed.insert, Keyed.mem_remove_iff, same, differ, value_eq_some_iff]

@[simp]
theorem value_insert_self : value (entries.insert (k, held)) k = some held := by
  rw [value_insert, if_pos rfl]

theorem value_insert_ne (differ : k ≠ other) :
    value (entries.insert (k, held)) other = entries.value other := by
  rw [value_insert, if_neg differ]

/-- Only the value of the key that is removed is gone. -/
theorem value_remove :
    value (entries.remove k) other = if k = other then none else entries.value other := by
  apply Option.ext
  intro seen
  rw [value_eq_some_iff, Keyed.mem_remove_iff]
  by_cases same : k = other
  · subst same
    simp
  · have differ : other ≠ k := Ne.symm same
    simp [same, differ, value_eq_some_iff]

/-- What is recorded for other keys leaves the value of a key as it is. -/
theorem value_insertAll_of_absent {more : List (κ × ν)} (absent : k ∉ more.map Prod.fst) :
    value (insertAll entries more) k = entries.value k := by
  induction more generalizing entries with
  | nil => rfl
  | cons entry rest ih =>
      rcases entry with ⟨name, recorded⟩
      rw [List.map_cons, List.mem_cons, not_or] at absent
      change value (insertAll (entries.insert (name, recorded)) rest) k = entries.value k
      rw [ih absent.2, value_insert_ne (Ne.symm absent.1)]

/-- A value that is recorded once is the value of its key. -/
theorem value_insertAll_of_mem {more : List (κ × ν)} (distinct : (more.map Prod.fst).Nodup)
    (mem : (k, held) ∈ more) : value (insertAll entries more) k = some held := by
  induction more generalizing entries with
  | nil => cases mem
  | cons entry rest ih =>
      rw [List.map_cons, List.nodup_cons] at distinct
      rcases List.mem_cons.mp mem with rfl | later
      · change value (insertAll (entries.insert (k, held)) rest) k = some held
        rw [value_insertAll_of_absent distinct.1, value_insert_self]
      · exact ih distinct.2 later

/-- A dictionary laid on another is read first. -/
theorem value_insertAll (upper : Dictionary κ ν) :
    value (insertAll entries upper.items) k = (upper.value k).or (entries.value k) := by
  cases found : upper.value k with
  | none =>
      have absent : k ∉ upper.items.map Prod.fst := by
        intro mem
        rcases List.mem_map.mp mem with ⟨⟨name, recorded⟩, here, rfl⟩
        exact value_eq_none_iff.mp found recorded here
      rw [value_insertAll_of_absent absent, Option.none_or]
  | some held =>
      rw [value_insertAll_of_mem upper.distinct (value_eq_some_iff.mp found), Option.some_or]

/-- Recording the entries of a dictionary gives the dictionary. -/
theorem value_ofList : value (ofList entries.items) k = entries.value k := by
  rw [ofList, value_insertAll, value_empty, Option.or_none]

theorem value_eq_lookup : entries.value k = entries.items.lookup k := by
  unfold value Keyed.get
  induction entries.items with
  | nil => rfl
  | cons entry rest ih =>
      rw [List.find?_cons, List.lookup_cons, Bool.beq_comm]
      cases k == entry.1 with
      | true => rfl
      | false => exact ih

/-- The entries that a filter keeps are those whose values it keeps. -/
theorem lookup_filter (keep : κ × ν → Bool) :
    (entries.items.filter keep).lookup k
      = (entries.value k).filter fun held => keep (k, held) := by
  rw [value_eq_lookup]
  have distinct := entries.distinct
  generalize entries.items = items at distinct
  induction items with
  | nil => rfl
  | cons entry rest ih =>
      rw [List.map_cons, List.nodup_cons] at distinct
      rw [List.filter_cons, List.lookup_cons]
      cases same : k == entry.1 with
      | true =>
          have isKey : k = entry.1 := beq_iff_eq.mp same
          have absent : rest.lookup k = none := by
            rw [List.lookup_eq_none_iff]
            intro other mem
            rw [isKey, bne_iff_ne]
            intro equal
            exact distinct.1 (equal ▸ List.mem_map_of_mem mem)
          have whole : (k, entry.2) = entry := by rw [isKey]
          cases kept : keep entry with
          | true =>
              rw [if_pos rfl, List.lookup_cons, same]
              simp [Option.filter, whole, kept]
          | false =>
              rw [if_neg Bool.false_ne_true, ih distinct.2, absent]
              simp [Option.filter, whole, kept]
      | false =>
          split
          · rw [List.lookup_cons, same]
            exact ih distinct.2
          · exact ih distinct.2

theorem value_mapValues (f : κ → ν → ω) :
    value (mapValues f entries) k = (entries.value k).map (f k) := by
  apply Option.ext
  intro made
  rw [value_eq_some_iff, Option.map_eq_some_iff]
  constructor
  · intro mem
    rcases List.mem_map.mp mem with ⟨⟨name, recorded⟩, here, same⟩
    rcases Prod.mk.inj same with ⟨rfl, rfl⟩
    exact ⟨recorded, value_eq_some_iff.mpr here, rfl⟩
  · rintro ⟨recorded, found, rfl⟩
    exact List.mem_map_of_mem (value_eq_some_iff.mp found)

/-- Entries of other keys leave what is collected for a key as it is. -/
theorem value_foldl_collectOne_of_absent (f : κ → ν → Option ω) {kept : Dictionary κ ω}
    {more : List (κ × ν)} (absent : k ∉ more.map Prod.fst) :
    value (more.foldl (collectOne f) kept) k = kept.value k := by
  induction more generalizing kept with
  | nil => rfl
  | cons entry rest ih =>
      rw [List.map_cons, List.mem_cons, not_or] at absent
      rw [List.foldl_cons, ih absent.2, collectOne]
      cases f entry.1 entry.2 with
      | none => rfl
      | some made => exact value_insert_ne (Ne.symm absent.1)

/-- The entry of a key decides what is collected for it. -/
theorem value_foldl_collectOne_of_mem (f : κ → ν → Option ω) {kept : Dictionary κ ω}
    {more : List (κ × ν)} (distinct : (more.map Prod.fst).Nodup) (mem : (k, held) ∈ more) :
    value (more.foldl (collectOne f) kept) k = (f k held).or (kept.value k) := by
  induction more generalizing kept with
  | nil => cases mem
  | cons entry rest ih =>
      rw [List.map_cons, List.nodup_cons] at distinct
      rw [List.foldl_cons]
      rcases List.mem_cons.mp mem with rfl | later
      · rw [value_foldl_collectOne_of_absent f distinct.1, collectOne]
        cases f k held with
        | none => rfl
        | some made => exact value_insert_self
      · have differ : entry.1 ≠ k := by
          intro same
          exact distinct.1 (List.mem_map.mpr ⟨(k, held), later, same.symm⟩)
        rw [ih distinct.2 later, collectOne]
        cases f entry.1 entry.2 with
        | none => rfl
        | some made => rw [value_insert_ne differ]

theorem value_collect (f : κ → ν → Option ω) :
    value (collect f entries) k = (entries.value k).bind (f k) := by
  cases found : entries.value k with
  | none =>
      have absent : k ∉ entries.items.map Prod.fst := by
        intro mem
        rcases List.mem_map.mp mem with ⟨⟨name, recorded⟩, here, rfl⟩
        exact value_eq_none_iff.mp found recorded here
      rw [collect, value_foldl_collectOne_of_absent f absent, value_empty, Option.bind_none]
  | some held =>
      rw [collect, value_foldl_collectOne_of_mem f entries.distinct (value_eq_some_iff.mp found),
        value_empty, Option.or_none, Option.bind_some]

end Dictionary

end ClotoCore.Lookup
