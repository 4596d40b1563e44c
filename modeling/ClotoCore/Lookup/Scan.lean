import Mathlib.Data.List.Nodup
import Mathlib.Data.List.Perm.Basic

/-!
# Looking up the first match of a scan

A lookup takes the first row of a scan that it matches and reads a column of it.
Where two matching rows differ in the column, another order of the scan gives
another answer, and only there.
-/

namespace ClotoCore.Lookup

universe u v

variable {α : Type u} {β : Type v} {matching : α → Bool} {column : α → β} {rows scan : List α}

/-- The column of the first matching row. -/
def lookup (matching : α → Bool) (column : α → β) (rows : List α) : Option β :=
  (rows.find? matching).map column

/-- The matching rows agree in the column. -/
def Agree (matching : α → Bool) (column : α → β) (rows : List α) : Prop :=
  ∀ first ∈ rows, ∀ second ∈ rows, matching first = true → matching second = true →
    column first = column second

theorem lookup_eq_some {value : β} (found : lookup matching column rows = some value) :
    ∃ row ∈ rows, matching row = true ∧ column row = value := by
  rcases Option.map_eq_some_iff.mp found with ⟨row, here, rfl⟩
  exact ⟨row, List.mem_of_find?_eq_some here, List.find?_some here, rfl⟩

theorem lookup_eq_none_iff :
    lookup matching column rows = none ↔ ∀ row ∈ rows, matching row = false := by
  simp [lookup]

/-- A value is the answer where a matching row has it and no matching row before it
has another one. -/
theorem lookup_eq_some_iff {value : β} :
    lookup matching column rows = some value ↔
      ∃ before row after, rows = before ++ row :: after ∧ matching row = true ∧
        column row = value ∧ ∀ other ∈ before, matching other = true → column other = value := by
  constructor
  · intro found
    rcases Option.map_eq_some_iff.mp found with ⟨row, here, rfl⟩
    rcases List.find?_eq_some_iff_append.mp here with ⟨rowMatches, before, after, split, missed⟩
    refine ⟨before, row, after, split, rowMatches, rfl, ?_⟩
    intro other mem otherMatches
    have otherMissed := missed other mem
    rw [otherMatches] at otherMissed
    contradiction
  · rintro ⟨before, row, after, rfl, found, rfl, agree⟩
    cases earlier : lookup matching column before with
    | none =>
        have missed := lookup_eq_none_iff.mp earlier
        simp only [lookup, List.find?_append, List.find?_eq_none.mpr (by simpa using missed)]
        simp [found]
    | some value =>
        rcases lookup_eq_some earlier with ⟨other, mem, otherMatches, rfl⟩
        rw [← agree other mem otherMatches]
        rcases Option.map_eq_some_iff.mp earlier with ⟨first, here, same⟩
        simp [lookup, List.find?_append, here, same]

/-- Rows that do not match have no effect on a lookup. -/
theorem lookup_filter {keep : α → Bool}
    (kept : ∀ row, matching row = true → keep row = true) :
    lookup matching column (rows.filter keep) = lookup matching column rows := by
  unfold lookup
  rw [List.find?_filter]
  congr 2
  funext row
  cases found : matching row with
  | false => simp
  | true => simp [kept row found]

theorem lookup_append (first second : List α) :
    lookup matching column (first ++ second) =
      (lookup matching column first).or (lookup matching column second) := by
  simp only [lookup, List.find?_append]
  cases first.find? matching <;> rfl

/-- Where the matching rows agree, a match gives the answer. -/
theorem Agree.lookup_eq (agree : Agree matching column rows) {row : α} (mem : row ∈ rows)
    (found : matching row = true) : lookup matching column rows = some (column row) := by
  cases answer : lookup matching column rows with
  | none =>
      have missed := lookup_eq_none_iff.mp answer row mem
      rw [missed] at found
      contradiction
  | some value =>
      rcases lookup_eq_some answer with ⟨other, otherMem, otherFound, rfl⟩
      rw [agree other otherMem row mem otherFound found]

theorem Agree.perm (agree : Agree matching column rows) (same : scan.Perm rows) :
    Agree matching column scan :=
  fun first firstMem second secondMem =>
    agree first (same.mem_iff.mp firstMem) second (same.mem_iff.mp secondMem)

/-- The matching rows agree where no two orders give two answers: each of them can
be scanned first. -/
theorem agree_of_ordered
    (ordered : ∀ scan, scan.Perm rows → ∀ value other, lookup matching column scan = some value →
      lookup matching column rows = some other → value = other) :
    Agree matching column rows := by
  intro first firstMem second secondMem firstFound secondFound
  cases answer : lookup matching column rows with
  | none =>
      have missed := lookup_eq_none_iff.mp answer first firstMem
      rw [missed] at firstFound
      contradiction
  | some value =>
      have asFirst (row : α) (mem : row ∈ rows) (found : matching row = true) :
          column row = value := by
        rcases List.mem_iff_append.mp mem with ⟨before, after, rfl⟩
        apply ordered (row :: (before ++ after)) List.perm_middle.symm _ _ _ answer
        simp [lookup, found]
      rw [asFirst first firstMem firstFound, asFirst second secondMem secondFound]

/-- Where the matching rows agree, every order of them gives one answer. -/
theorem Agree.lookup_perm (agree : Agree matching column rows) (same : scan.Perm rows) :
    lookup matching column scan = lookup matching column rows := by
  cases answer : lookup matching column scan with
  | none =>
      symm
      rw [lookup_eq_none_iff] at answer ⊢
      intro row mem
      exact answer row (same.mem_iff.mpr mem)
  | some value =>
      rcases lookup_eq_some answer with ⟨row, mem, found, rfl⟩
      exact (agree.lookup_eq (same.mem_iff.mp mem) found).symm

/-- Where the keys are distinct, the lookup of a row's key finds the row. -/
theorem find?_of_nodup [BEq β] [LawfulBEq β] {key : α → β} (distinct : (rows.map key).Nodup)
    {row : α} (mem : row ∈ rows) : (rows.find? fun other => key other == key row) = some row := by
  cases found : rows.find? fun other => key other == key row with
  | none =>
      have missed := List.find?_eq_none.mp found row mem
      simp at missed
  | some other =>
      have sameKey : key other = key row := by simpa using List.find?_some found
      have otherMem := List.mem_of_find?_eq_some found
      rw [List.inj_on_of_nodup_map distinct otherMem mem sameKey]

end ClotoCore.Lookup
