import Mathlib.Data.List.Infix

/-!
# Replacing a pattern in a text

The occurrences of a pattern are replaced from the left, none of them overlapping the one
before.  Two replacements can change places where neither pattern touches the other, nor
the value that stands for the other.
-/

namespace ClotoCore.Scanning

universe u

variable {α : Type u} [DecidableEq α]

/-! ## Replacing -/

/-- Replace from behind the next elements on, which belong to an occurrence. -/
def replaceBehind (pattern value : List α) : Nat → List α → List α
  | _, [] => []
  | 0, c :: rest =>
      if pattern.isPrefixOf (c :: rest) then
        value ++ replaceBehind pattern value (pattern.length - 1) rest
      else c :: replaceBehind pattern value 0 rest
  | skipped + 1, _ :: rest => replaceBehind pattern value skipped rest

/-- Replace every occurrence of a pattern, which is not empty. -/
def replaceAll (pattern value text : List α) : List α :=
  replaceBehind pattern value 0 text

section Replacing

variable {pattern value other text rest : List α}

@[simp]
theorem replaceAll_nil : replaceAll pattern value [] = [] :=
  rfl

theorem replaceBehind_append (skipped rest : List α) :
    replaceBehind pattern value skipped.length (skipped ++ rest)
      = replaceAll pattern value rest := by
  induction skipped with
  | nil => rfl
  | cons c skipped ih => exact ih

theorem replaceAll_pattern (nonempty : pattern ≠ []) :
    replaceAll pattern value (pattern ++ rest) = value ++ replaceAll pattern value rest := by
  cases pattern with
  | nil => exact absurd rfl nonempty
  | cons c more =>
      have here : (c :: more).isPrefixOf (c :: (more ++ rest)) = true :=
        List.isPrefixOf_iff_prefix.mpr (List.prefix_append (c :: more) rest)
      rw [List.cons_append, replaceAll, replaceBehind, if_pos here, List.length_cons,
        Nat.add_sub_cancel, replaceBehind_append]

theorem replaceAll_cons {c : α} (elsewhere : ¬pattern <+: c :: rest) :
    replaceAll pattern value (c :: rest) = c :: replaceAll pattern value rest := by
  have notHere : ¬pattern.isPrefixOf (c :: rest) = true :=
    fun here => elsewhere (List.isPrefixOf_iff_prefix.mp here)
  rw [replaceAll, replaceBehind, if_neg notHere]
  rfl

/-- A pattern of one element is replaced element by element. -/
theorem replaceAll_singleton (c d : α) (value rest : List α) :
    replaceAll [c] value (d :: rest) =
      (if d = c then value else [d]) ++ replaceAll [c] value rest := by
  split
  case isTrue same =>
    subst same
    exact replaceAll_pattern (List.cons_ne_nil d [])
  case isFalse other =>
    exact replaceAll_cons fun begins => other (List.prefix_cons_iff.mp begins |>.elim nofun
      fun ⟨_, same, _⟩ => (List.cons.inj same).1.symm)

/-- A text is empty, begins with one of two patterns, or begins with neither. -/
theorem occurrence_induction {Holds : List α → Prop} (first second : List α)
    (firstNonempty : first ≠ []) (secondNonempty : second ≠ []) (nil : Holds [])
    (here : ∀ rest, Holds rest → Holds (first ++ rest))
    (there : ∀ rest, Holds rest → Holds (second ++ rest))
    (cons : ∀ c rest, ¬first <+: c :: rest → ¬second <+: c :: rest → Holds rest →
      Holds (c :: rest))
    (text : List α) : Holds text := by
  induction length : text.length using Nat.strong_induction_on generalizing text with
  | _ length ih =>
    have shorter : ∀ pattern rest : List α, pattern ≠ [] → text = pattern ++ rest → Holds rest := by
      intro pattern rest nonempty split
      have longer := List.length_pos_iff.mpr nonempty
      refine ih rest.length ?_ rest rfl
      rw [← length, split, List.length_append]
      omega
    by_cases isFirst : first <+: text
    · rcases isFirst with ⟨rest, split⟩
      rw [← split]
      exact here rest (shorter first rest firstNonempty split.symm)
    by_cases isSecond : second <+: text
    · rcases isSecond with ⟨rest, split⟩
      rw [← split]
      exact there rest (shorter second rest secondNonempty split.symm)
    cases text with
    | nil => exact nil
    | cons c rest =>
        exact cons c rest isFirst isSecond (shorter [c] rest (List.cons_ne_nil _ _) rfl)

/-- Nothing is replaced in a text that the pattern does not begin in. -/
theorem replaceAll_append (text : List α)
    (never : ∀ front back, text = front ++ back → back ≠ [] → ¬pattern <+: back ++ rest) :
    replaceAll pattern value (text ++ rest) = text ++ replaceAll pattern value rest := by
  induction text with
  | nil => rfl
  | cons c text ih =>
      have notHere : ¬pattern <+: c :: (text ++ rest) :=
        never [] (c :: text) rfl (List.cons_ne_nil _ _)
      rw [List.cons_append, replaceAll_cons notHere, ih]
      · rfl
      · intro front back split nonempty
        exact never (c :: front) back (by rw [split, List.cons_append]) nonempty

/-- Nothing is replaced in a text that the pattern does not occur in. -/
theorem replaceAll_of_absent (absent : ¬pattern <:+: text) :
    replaceAll pattern value text = text := by
  have kept : replaceAll pattern value (text ++ []) = text ++ replaceAll pattern value [] := by
    refine replaceAll_append text fun front back split _ begins => absent ?_
    rw [List.append_nil] at begins
    rw [split]
    exact begins.isInfix.trans (List.suffix_append front back).isInfix
  simpa only [List.append_nil, replaceAll_nil] using kept

/-- A pattern that is replaced by itself stays. -/
theorem replaceAll_self (nonempty : pattern ≠ []) (text : List α) :
    replaceAll pattern pattern text = text := by
  induction text using occurrence_induction pattern pattern nonempty nonempty with
  | nil => rfl
  | here rest ih => rw [replaceAll_pattern nonempty, ih]
  | there rest ih => rw [replaceAll_pattern nonempty, ih]
  | cons c rest elsewhere _ ih => rw [replaceAll_cons elsewhere, ih]

theorem length_replaceAll_le (nonempty : pattern ≠ []) (shorter : value.length ≤ pattern.length)
    (text : List α) : (replaceAll pattern value text).length ≤ text.length := by
  induction text using occurrence_induction pattern pattern nonempty nonempty with
  | nil => exact le_rfl
  | here rest ih =>
      rw [replaceAll_pattern nonempty, List.length_append, List.length_append]
      omega
  | there rest ih =>
      rw [replaceAll_pattern nonempty, List.length_append, List.length_append]
      omega
  | cons c rest elsewhere _ ih =>
      rw [replaceAll_cons elsewhere, List.length_cons, List.length_cons]
      omega

theorem le_length_replaceAll (nonempty : pattern ≠ []) (longer : pattern.length ≤ value.length)
    (text : List α) : text.length ≤ (replaceAll pattern value text).length := by
  induction text using occurrence_induction pattern pattern nonempty nonempty with
  | nil => exact le_rfl
  | here rest ih =>
      rw [replaceAll_pattern nonempty, List.length_append, List.length_append]
      omega
  | there rest ih =>
      rw [replaceAll_pattern nonempty, List.length_append, List.length_append]
      omega
  | cons c rest elsewhere _ ih =>
      rw [replaceAll_cons elsewhere, List.length_cons, List.length_cons]
      omega

/-- A pattern that occurs is not replaced by anything else without a trace. -/
theorem value_eq_of_replaceAll_eq (nonempty : pattern ≠ []) (found : pattern <:+: text)
    (same : replaceAll pattern value text = text) : value = pattern := by
  induction text using occurrence_induction pattern pattern nonempty nonempty with
  | nil => exact absurd (List.infix_nil.mp found) nonempty
  | here rest ih | there rest ih =>
      rw [replaceAll_pattern nonempty] at same
      have lengths := congrArg List.length same
      rw [List.length_append, List.length_append] at lengths
      rcases Nat.le_total value.length pattern.length with shorter | longer
      · have := length_replaceAll_le nonempty shorter rest
        exact (List.append_inj same (by omega)).1
      · have := le_length_replaceAll nonempty longer rest
        exact (List.append_inj same (by omega)).1
  | cons c rest elsewhere _ ih =>
      rw [replaceAll_cons elsewhere, List.cons.injEq] at same
      exact ih ((List.infix_cons_iff.mp found).resolve_left elsewhere) same.2

end Replacing

/-! ## Replacements that change places -/

/-- A text neither holds a pattern nor lies in one, nor do they overlap. -/
structure Clear (text pattern : List α) : Prop where
  outside : ¬text <:+: pattern
  without : ¬pattern <:+: text
  behind : ∀ part, part ≠ [] → part <:+ text → ¬part <+: pattern
  before : ∀ part, part ≠ [] → part <+: text → ¬part <:+ pattern

instance (text pattern : List α) : Decidable (Clear text pattern) :=
  decidable_of_iff
    (¬text <:+: pattern ∧ ¬pattern <:+: text ∧
      (∀ part ∈ text.tails, part ≠ [] → ¬part <+: pattern) ∧
        ∀ part ∈ text.inits, part ≠ [] → ¬part <:+ pattern) <| by
    simp only [List.mem_tails, List.mem_inits]
    constructor
    · rintro ⟨outside, without, behind, before⟩
      exact ⟨outside, without, fun part nonempty suffix => behind part suffix nonempty,
        fun part nonempty begins => before part begins nonempty⟩
    · rintro ⟨outside, without, behind, before⟩
      exact ⟨outside, without, fun part suffix nonempty => behind part nonempty suffix,
        fun part begins nonempty => before part nonempty begins⟩

section Clear

variable {pattern value other text rest : List α}

omit [DecidableEq α] in
theorem Clear.symm (clear : Clear text pattern) : Clear pattern text where
  outside := clear.without
  without := clear.outside
  behind part nonempty suffix begins := clear.before part nonempty begins suffix
  before part nonempty begins suffix := clear.behind part nonempty suffix begins

/-- Nothing is replaced in a text that is clear of the pattern, whatever is behind it. -/
theorem Clear.replaceAll_append (clear : Clear text pattern) (rest : List α) :
    replaceAll pattern value (text ++ rest) = text ++ replaceAll pattern value rest := by
  refine Scanning.replaceAll_append text fun front back split nonempty begins => ?_
  have suffix : back <:+ text := ⟨front, split.symm⟩
  rcases List.prefix_or_prefix_of_prefix begins (List.prefix_append back rest) with inside | across
  · exact clear.without (inside.isInfix.trans suffix.isInfix)
  · exact clear.behind back nonempty suffix across

/-- A value that is clear of another pattern begins no occurrence of it. -/
theorem Clear.prefix_of_prefix_replaceAll (clear : Clear value other) (nonempty : pattern ≠ [])
    (text : List α) :
    ∀ part, part <:+ other → part <+: replaceAll pattern value text → part <+: text := by
  induction text using occurrence_induction pattern pattern nonempty nonempty with
  | nil => exact fun _ _ begins => begins
  | here rest ih | there rest ih =>
      intro part suffix begins
      rw [replaceAll_pattern nonempty] at begins
      have empty : part = [] := by
        by_contra nonemptyPart
        rcases List.prefix_or_prefix_of_prefix begins (List.prefix_append value _) with
          across | inside
        · exact clear.before part nonemptyPart across suffix
        · exact clear.outside (inside.isInfix.trans suffix.isInfix)
      rw [empty]
      exact List.nil_prefix
  | cons c rest elsewhere _ ih =>
      intro part suffix begins
      rw [replaceAll_cons elsewhere] at begins
      rcases List.prefix_cons_iff.mp begins with rfl | ⟨more, rfl, moreBegins⟩
      · exact List.nil_prefix
      · have moreSuffix : more <:+ other := (List.suffix_cons c more).trans suffix
        exact (List.prefix_cons_inj c).mpr (ih more moreSuffix moreBegins)

end Clear

/-- Two replacements can change places where neither pattern touches the other, nor the
value that stands for the other. -/
theorem replaceAll_comm {first second one two : List α} (patterns : Clear first second)
    (oneClear : Clear one second) (twoClear : Clear two first) (firstNonempty : first ≠ [])
    (secondNonempty : second ≠ []) (text : List α) :
    replaceAll second two (replaceAll first one text)
      = replaceAll first one (replaceAll second two text) := by
  induction text using occurrence_induction first second firstNonempty secondNonempty with
  | nil => rfl
  | here rest ih =>
      rw [replaceAll_pattern firstNonempty, oneClear.replaceAll_append,
        patterns.replaceAll_append, replaceAll_pattern firstNonempty, ih]
  | there rest ih =>
      rw [patterns.symm.replaceAll_append, replaceAll_pattern secondNonempty,
        replaceAll_pattern secondNonempty, twoClear.replaceAll_append, ih]
  | cons c rest notFirst notSecond ih =>
      have firstKept : replaceAll first one (c :: rest) = c :: replaceAll first one rest :=
        replaceAll_cons notFirst
      have secondKept : replaceAll second two (c :: rest) = c :: replaceAll second two rest :=
        replaceAll_cons notSecond
      have secondLater : ¬second <+: c :: replaceAll first one rest := by
        intro begins
        rw [← firstKept] at begins
        exact notSecond
          (oneClear.prefix_of_prefix_replaceAll firstNonempty _ second List.suffix_rfl begins)
      have firstLater : ¬first <+: c :: replaceAll second two rest := by
        intro begins
        rw [← secondKept] at begins
        exact notFirst
          (twoClear.prefix_of_prefix_replaceAll secondNonempty _ first List.suffix_rfl begins)
      rw [firstKept, replaceAll_cons secondLater, secondKept, replaceAll_cons firstLater, ih]

end ClotoCore.Scanning
