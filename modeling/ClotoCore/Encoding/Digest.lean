import ClotoCore.Encoding.Bytes

/-!
# Digest functions

A digest function is an arbitrary function on byte strings.  Collision
resistance is idealised as injectivity, which no function into 32 bytes has on
all inputs; `tabulated` is the standard inhabitant of the idealisation: it gives
the recorded digests on the recorded inputs and is injective everywhere.
-/

namespace ClotoCore.Encoding

/-- A function from byte strings to digests. -/
abbrev Digest := Bytes → Bytes

/-- The digest that returns the recorded value where there is one.  Off the
table its value is longer than 32 bytes, so it meets no recorded digest. -/
def tabulated (table : List (Bytes × Bytes)) : Digest := fun input =>
  match table.lookup input with
  | some digest => digest
  | none => List.replicate 33 0 ++ input

theorem mem_of_lookup_eq_some {table : List (Bytes × Bytes)} {input digest : Bytes}
    (found : table.lookup input = some digest) : (input, digest) ∈ table := by
  rcases List.lookup_eq_some_iff.mp found with ⟨before, after, split, -⟩
  rw [split]
  exact List.mem_append_right before List.mem_cons_self

/-- Recorded digests of 32 bytes that are pairwise different make the tabulated
function injective. -/
theorem tabulated_injective {table : List (Bytes × Bytes)}
    (sized : ∀ pair ∈ table, pair.2.length = 32) (distinct : (table.map Prod.snd).Nodup) :
    Function.Injective (tabulated table) := by
  intro left right equal
  simp only [tabulated] at equal
  cases leftFound : table.lookup left with
  | none =>
      cases rightFound : table.lookup right with
      | none => simpa [leftFound, rightFound] using equal
      | some digest =>
          have size := sized _ (mem_of_lookup_eq_some rightFound)
          simp only [leftFound, rightFound] at equal
          simp [← equal] at size
  | some digest =>
      have leftMem := mem_of_lookup_eq_some leftFound
      cases rightFound : table.lookup right with
      | none =>
          have size := sized _ leftMem
          simp only [leftFound, rightFound] at equal
          simp [equal] at size
      | some rightDigest =>
          have rightMem := mem_of_lookup_eq_some rightFound
          simp only [leftFound, rightFound] at equal
          have pairEq := List.inj_on_of_nodup_map distinct leftMem rightMem equal
          exact congrArg Prod.fst pairEq

/-- SHA-256 of the empty text. -/
def emptyDigest : Bytes :=
  [0xE3, 0xB0, 0xC4, 0x42, 0x98, 0xFC, 0x1C, 0x14, 0x9A, 0xFB, 0xF4, 0xC8, 0x99, 0x6F,
   0xB9, 0x24, 0x27, 0xAE, 0x41, 0xE4, 0x64, 0x9B, 0x93, 0x4C, 0xA4, 0x95, 0x99, 0x1B,
   0x78, 0x52, 0xB8, 0x55]

end ClotoCore.Encoding
