import Mathlib.Data.List.Induction

/-!
# One item for each key

A list takes in items one after the other.  An item whose key is there already is
merged into the one that has it, which keeps its place, and an item without a key is
added as it is.  What is left for a key is its first item with the later ones merged in.
-/

namespace ClotoCore.Lookup

universe u v

variable {α : Type u} {β : Type v} [DecidableEq β] (key : α → Option β) (merge : α → α → α)

/-- Take in one item. -/
def mergeOne (kept : List α) (item : α) : List α :=
  match key item with
  | none => kept ++ [item]
  | some k =>
      if some k ∈ kept.map key then
        kept.map fun winner => if key winner = some k then merge winner item else winner
      else kept ++ [item]

/-- Take in all items. -/
def mergeAll (items : List α) : List α :=
  items.foldl (mergeOne key merge) []

/-- The items of a key. -/
def itemsOf (k : β) (items : List α) : List α :=
  items.filter fun item => key item = some k

variable {key merge} {items : List α} {item : α} {k : β}

theorem mergeAll_concat :
    mergeAll key merge (items ++ [item]) = mergeOne key merge (mergeAll key merge items) item := by
  rw [mergeAll, List.foldl_append]
  rfl

theorem itemsOf_concat :
    itemsOf key k (items ++ [item])
      = itemsOf key k items ++ if key item = some k then [item] else [] := by
  rw [itemsOf, List.filter_append]
  congr 1
  by_cases same : key item = some k <;> simp [same]

omit [DecidableEq β] in
theorem key_foldl_merge (keeps : ∀ winner item, key (merge winner item) = key winner)
    (first : α) (rest : List α) : key (rest.foldl merge first) = key first := by
  induction rest generalizing first with
  | nil => rfl
  | cons item rest ih => rw [List.foldl_cons, ih, keeps]

/-- The key of an item with a key is that of its class. -/
theorem key_of_itemsOf {first : α} {rest : List α} (ofKey : itemsOf key k items = first :: rest) :
    key first = some k := by
  have mem : first ∈ itemsOf key k items := by
    rw [ofKey]
    exact List.mem_cons_self
  simpa using (List.mem_filter.mp mem).2

theorem itemsOf_concat_ne {other : β} (kind : key item = some other) (differ : k ≠ other) :
    itemsOf key k (items ++ [item]) = itemsOf key k items := by
  rw [itemsOf_concat, if_neg, List.append_nil]
  intro same
  rw [kind] at same
  exact differ (Option.some.inj same).symm

theorem itemsOf_concat_self (kind : key item = some k) :
    itemsOf key k (items ++ [item]) = itemsOf key k items ++ [item] := by
  rw [itemsOf_concat, if_pos kind]

theorem itemsOf_concat_none (kind : key item = none) :
    itemsOf key k (items ++ [item]) = itemsOf key k items := by
  rw [itemsOf_concat, if_neg, List.append_nil]
  intro same
  rw [kind] at same
  cases same

/-- An item comes from the first item of a key, with the later ones merged in. -/
def Merged (key : α → Option β) (merge : α → α → α) (items : List α) (k : β) (other : α) : Prop :=
  ∃ first rest, itemsOf key k items = first :: rest ∧ other = rest.foldl merge first

theorem key_of_merged (keeps : ∀ winner item, key (merge winner item) = key winner) {other : α}
    (merged : Merged key merge items k other) : key other = some k := by
  rcases merged with ⟨first, rest, ofKey, rfl⟩
  rw [key_foldl_merge keeps, key_of_itemsOf ofKey]

theorem exists_merged (some : itemsOf key k items ≠ []) :
    ∃ other, Merged key merge items k other := by
  rcases List.exists_cons_of_ne_nil some with ⟨first, rest, ofKey⟩
  exact ⟨rest.foldl merge first, first, rest, ofKey, rfl⟩

/-- One more item of a key is merged in, if there is one already. -/
theorem merged_concat_iff (kind : key item = some k) {other : α} :
    Merged key merge (items ++ [item]) k other ↔
      (∃ winner, Merged key merge items k winner ∧ other = merge winner item) ∨
        (itemsOf key k items = [] ∧ other = item) := by
  rw [Merged, itemsOf_concat_self kind]
  constructor
  · rintro ⟨first, rest, ofKey, rfl⟩
    cases before : itemsOf key k items with
    | nil =>
        rw [before, List.nil_append] at ofKey
        cases ofKey
        exact Or.inr ⟨rfl, rfl⟩
    | cons earliest later =>
        rw [before, List.cons_append] at ofKey
        rw [← (List.cons.inj ofKey).1, ← (List.cons.inj ofKey).2]
        left
        refine ⟨later.foldl merge earliest, ⟨earliest, later, before, rfl⟩, ?_⟩
        rw [List.foldl_append]
        rfl
  · rintro (⟨winner, ⟨first, rest, ofKey, rfl⟩, rfl⟩ | ⟨nothing, rfl⟩)
    · refine ⟨first, rest ++ [item], by rw [ofKey]; rfl, ?_⟩
      rw [List.foldl_append]
      rfl
    · exact ⟨_, [], by rw [nothing]; rfl, rfl⟩

/-- A list consists of the items without a key and of one for each key. -/
def OneForEach (key : α → Option β) (merge : α → α → α) (items kept : List α) : Prop :=
  ∀ other, other ∈ kept ↔ (key other = none ∧ other ∈ items) ∨ ∃ k, Merged key merge items k other

/-- A key is there if an item has it. -/
theorem OneForEach.mem_map_key_iff (keeps : ∀ winner item, key (merge winner item) = key winner)
    {kept : List α} (one : OneForEach key merge items kept) :
    some k ∈ kept.map key ↔ itemsOf key k items ≠ [] := by
  rw [List.mem_map]
  constructor
  · rintro ⟨winner, mem, ofKey⟩
    rcases (one winner).mp mem with ⟨noKey, -⟩ | ⟨other, merged⟩
    · cases noKey.symm.trans ofKey
    · cases (key_of_merged keeps merged).symm.trans ofKey
      rcases merged with ⟨first, rest, itemsEq, -⟩
      rw [itemsEq]
      exact List.cons_ne_nil _ _
  · intro some
    rcases @exists_merged _ _ _ key merge _ _ some with ⟨winner, merged⟩
    exact ⟨winner, (one winner).mpr (Or.inr ⟨k, merged⟩), key_of_merged keeps merged⟩

theorem OneForEach.concat_none {kept : List α} (one : OneForEach key merge items kept)
    (kind : key item = none) : OneForEach key merge (items ++ [item]) (kept ++ [item]) := by
  intro other
  have same : ∀ k, Merged key merge (items ++ [item]) k other ↔ Merged key merge items k other := by
    intro k
    rw [Merged, Merged, itemsOf_concat_none kind]
  simp only [List.mem_append, List.mem_singleton, one other, same]
  constructor
  · rintro ((⟨noKey, mem⟩ | merged) | rfl)
    · exact Or.inl ⟨noKey, Or.inl mem⟩
    · exact Or.inr merged
    · exact Or.inl ⟨kind, Or.inr rfl⟩
  · rintro (⟨noKey, mem | rfl⟩ | merged)
    · exact Or.inl (Or.inl ⟨noKey, mem⟩)
    · exact Or.inr rfl
    · exact Or.inl (Or.inr merged)

theorem merged_concat_ne {other : α} {c : β} (kind : key item = some c) (differ : k ≠ c) :
    Merged key merge (items ++ [item]) k other ↔ Merged key merge items k other := by
  rw [Merged, Merged, itemsOf_concat_ne kind differ]

/-- An item with a new key is added. -/
theorem OneForEach.concat_new {kept : List α} (one : OneForEach key merge items kept)
    (kind : key item = some k) (nothing : itemsOf key k items = []) :
    OneForEach key merge (items ++ [item]) (kept ++ [item]) := by
  intro other
  rw [List.mem_append, List.mem_singleton, one other]
  constructor
  · rintro ((⟨noKey, mem⟩ | ⟨c, merged⟩) | rfl)
    · exact Or.inl ⟨noKey, List.mem_append_left _ mem⟩
    · have differ : c ≠ k := by
        rintro rfl
        rcases merged with ⟨first, rest, ofKey, -⟩
        cases nothing.symm.trans ofKey
      exact Or.inr ⟨c, (merged_concat_ne kind differ).mpr merged⟩
    · exact Or.inr ⟨k, (merged_concat_iff kind).mpr (Or.inr ⟨nothing, rfl⟩)⟩
  · rintro (⟨noKey, mem⟩ | ⟨c, merged⟩)
    · rcases List.mem_append.mp mem with here | new
      · exact Or.inl (Or.inl ⟨noKey, here⟩)
      · exact Or.inr (List.mem_singleton.mp new)
    · by_cases same : c = k
      · subst same
        rcases (merged_concat_iff kind).mp merged with ⟨winner, before, -⟩ | ⟨-, new⟩
        · rcases before with ⟨first, rest, ofKey, -⟩
          cases nothing.symm.trans ofKey
        · exact Or.inr new
      · exact Or.inl (Or.inr ⟨c, (merged_concat_ne kind same).mp merged⟩)

/-- An item whose key is there is merged in. -/
theorem OneForEach.concat_merge (keeps : ∀ winner item, key (merge winner item) = key winner)
    {kept : List α} (one : OneForEach key merge items kept) (kind : key item = some k)
    (there : itemsOf key k items ≠ []) :
    OneForEach key merge (items ++ [item])
      (kept.map fun winner => if key winner = some k then merge winner item else winner) := by
  intro other
  rw [List.mem_map]
  constructor
  · rintro ⟨winner, mem, rfl⟩
    rcases (one winner).mp mem with ⟨noKey, here⟩ | ⟨c, merged⟩
    · left
      simp [noKey, here]
    · right
      have ofKey := key_of_merged keeps merged
      by_cases same : c = k
      · subst same
        rw [if_pos ofKey]
        exact ⟨c, (merged_concat_iff kind).mpr (Or.inl ⟨winner, merged, rfl⟩)⟩
      · rw [if_neg (by rw [ofKey]; exact fun equal => same (Option.some.inj equal))]
        exact ⟨c, (merged_concat_ne kind same).mpr merged⟩
  · rintro (⟨noKey, mem⟩ | ⟨c, merged⟩)
    · refine ⟨other, (one other).mpr (Or.inl ⟨noKey, ?_⟩), by simp [noKey]⟩
      rcases List.mem_append.mp mem with here | new
      · exact here
      · rw [List.mem_singleton.mp new, kind] at noKey
        cases noKey
    · by_cases same : c = k
      · subst same
        rcases (merged_concat_iff kind).mp merged with ⟨winner, before, rfl⟩ | ⟨nothing, -⟩
        · refine ⟨winner, (one winner).mpr (Or.inr ⟨c, before⟩), ?_⟩
          rw [if_pos (key_of_merged keeps before)]
        · exact absurd nothing there
      · have before := (merged_concat_ne kind same).mp merged
        refine ⟨other, (one other).mpr (Or.inr ⟨c, before⟩), ?_⟩
        rw [if_neg]
        rw [key_of_merged keeps before]
        exact fun equal => same (Option.some.inj equal)

/-- What is left of the items are those without a key and one for each key. -/
theorem mem_mergeAll_iff (keeps : ∀ winner item, key (merge winner item) = key winner) {other : α} :
    other ∈ mergeAll key merge items ↔
      (key other = none ∧ other ∈ items) ∨ ∃ k, Merged key merge items k other := by
  have one : OneForEach key merge items (mergeAll key merge items) := by
    induction items using List.reverseRecOn with
    | nil =>
        intro other
        simp [mergeAll, Merged, itemsOf]
    | append_singleton items item ih =>
        rw [mergeAll_concat, mergeOne]
        split
        · next noKey => exact ih.concat_none noKey
        · next k ofKey =>
          split
          · next there => exact ih.concat_merge keeps ofKey ((ih.mem_map_key_iff keeps).mp there)
          · next absent =>
            apply ih.concat_new ofKey
            by_contra some
            exact absent ((ih.mem_map_key_iff keeps).mpr some)
  exact one other

theorem map_key_mergeOne (keeps : ∀ winner item, key (merge winner item) = key winner)
    (kept : List α) (item : α) :
    (mergeOne key merge kept item).map key =
      if (key item).isSome ∧ key item ∈ kept.map key then kept.map key
      else kept.map key ++ [key item] := by
  rw [mergeOne]
  split
  · next noKey => simp [noKey]
  · next k ofKey =>
    rw [ofKey]
    split
    · next there =>
      rw [if_pos ⟨rfl, there⟩, List.map_map]
      apply List.map_congr_left
      intro winner _
      simp only [Function.comp_apply]
      split
      · exact keeps winner item
      · rfl
    · next absent =>
      rw [if_neg fun both => absent both.2, List.map_append, List.map_singleton, ofKey]

/-- The items come in the order in which their keys came. -/
theorem find?_map_key_mergeAll (keeps : ∀ winner item, key (merge winner item) = key winner)
    (holds : Option β → Bool) :
    ((mergeAll key merge items).map key).find? holds = (items.map key).find? holds := by
  induction items using List.reverseRecOn with
  | nil => rfl
  | append_singleton items item ih =>
      rw [mergeAll_concat, map_key_mergeOne keeps, List.map_append, List.find?_append, ← ih]
      split
      · next there =>
        -- A key that is there is found before it comes again.
        cases found : ((mergeAll key merge items).map key).find? holds with
        | some k => rfl
        | none =>
            have fails : holds (key item) = false := by
              simpa using List.find?_eq_none.mp found (key item) there.2
            simp [fails]
      · rw [List.find?_append, List.map_singleton]

end ClotoCore.Lookup
