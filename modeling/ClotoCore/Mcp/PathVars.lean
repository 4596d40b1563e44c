import ClotoCore.Lookup.Dictionary
import ClotoCore.Scanning.Replacement
import Mathlib.Data.List.Perm.Basic

/-!
# Path variables

The references of a text are replaced one variable after the other, in the order in which
the table happens to be walked.  The order is not seen where no variable's value touches the
reference of another, and where names are plain it is not seen otherwise.
-/

namespace ClotoCore.Mcp

open ClotoCore.Lookup ClotoCore.Scanning

/-! ## Expansion -/

/-- The pattern of a variable, `${key}`. -/
def reference (key : List Char) : List Char :=
  '$' :: '{' :: (key ++ ['}'])

theorem reference_ne_nil (key : List Char) : reference key ≠ [] :=
  List.cons_ne_nil _ _

/-- `contains` -/
def hasReference (text key : List Char) : Bool :=
  text.tails.any (reference key).isPrefixOf

theorem hasReference_iff {text key : List Char} :
    hasReference text key = true ↔ reference key <:+: text := by
  simp only [hasReference, List.any_eq_true, List.mem_tails, List.isPrefixOf_iff_prefix]
  constructor
  · rintro ⟨rest, suffix, begins⟩
    exact begins.isInfix.trans suffix.isInfix
  · rintro ⟨front, back, rfl⟩
    exact ⟨reference key ++ back, ⟨front, by simp⟩, List.prefix_append _ _⟩

/-- One variable's turn. -/
def expandVar (result : List Char) (entry : List Char × List Char) : List Char :=
  if hasReference result entry.1 then replaceAll (reference entry.1) entry.2 result else result

/-- `expand_path_vars`, by the variables in the order in which they are walked. -/
def expandPathVars (input : List Char) (order : List (List Char × List Char)) : List Char :=
  order.foldl expandVar input

/-- The variables, in no order. -/
abbrev PathTable :=
  Dictionary (List Char) (List Char)

/-- Whatever the order, a text expands to the same. -/
def WellDefined (paths : PathTable) : Prop :=
  ∀ input first second, first.Perm paths.items → second.Perm paths.items →
    expandPathVars input first = expandPathVars input second

/-- A variable that is not its own reference. -/
def Active (entry : List Char × List Char) : Prop :=
  entry.2 ≠ reference entry.1

/-- No reference touches another one, and no value touches the reference of another. -/
def Separate (paths : PathTable) : Prop :=
  ∀ first ∈ paths.items, ∀ second ∈ paths.items, first.1 ≠ second.1 → Active first →
    Active second →
      Clear (reference first.1) (reference second.1) ∧ Clear first.2 (reference second.1)

instance (entry : List Char × List Char) : Decidable (Active entry) :=
  inferInstanceAs (Decidable (entry.2 ≠ reference entry.1))

instance (paths : PathTable) : Decidable (Separate paths) :=
  inferInstanceAs (Decidable (∀ first ∈ paths.items, ∀ second ∈ paths.items,
    first.1 ≠ second.1 → Active first → Active second →
      Clear (reference first.1) (reference second.1) ∧ Clear first.2 (reference second.1)))

/-- The search before a replacement changes nothing. -/
theorem expandVar_eq (result : List Char) (entry : List Char × List Char) :
    expandVar result entry = replaceAll (reference entry.1) entry.2 result := by
  unfold expandVar
  split
  · rfl
  · rename_i absent
    exact (replaceAll_of_absent fun found => absent (hasReference_iff.mpr found)).symm

/-! ## Variables whose order is not seen -/

/-- A variable that is its own reference changes nothing. -/
theorem expandVar_of_not_active {entry : List Char × List Char} (idle : ¬Active entry)
    (result : List Char) : expandVar result entry = result := by
  rw [expandVar_eq, not_not.mp idle]
  exact replaceAll_self (reference_ne_nil _) result

theorem expandVar_comm {paths : PathTable} (separate : Separate paths)
    {first second : List Char × List Char} (firstMem : first ∈ paths.items)
    (secondMem : second ∈ paths.items) (result : List Char) :
    expandVar (expandVar result first) second = expandVar (expandVar result second) first := by
  by_cases same : first.1 = second.1
  · rw [List.inj_on_of_nodup_map paths.distinct firstMem secondMem same]
  by_cases firstActive : Active first
  · by_cases secondActive : Active second
    · have clear := separate first firstMem second secondMem same firstActive secondActive
      have back := separate second secondMem first firstMem (Ne.symm same) secondActive firstActive
      simp only [expandVar_eq]
      exact replaceAll_comm clear.1 clear.2 back.2 (reference_ne_nil _) (reference_ne_nil _) result
    · rw [expandVar_of_not_active secondActive, expandVar_of_not_active secondActive]
  · rw [expandVar_of_not_active firstActive, expandVar_of_not_active firstActive]

theorem Separate.wellDefined {paths : PathTable} (separate : Separate paths) :
    WellDefined paths := by
  intro input first second firstOrder secondOrder
  refine (firstOrder.trans secondOrder.symm).foldl_eq' ?_ input
  intro one oneMem other otherMem result
  exact expandVar_comm separate (firstOrder.mem_iff.mp oneMem) (firstOrder.mem_iff.mp otherMem)
    result

/-! ## Variables whose order is seen -/

/-- A name as it stands in a reference: nothing in it begins or ends one. -/
structure PlainName (key : List Char) : Prop where
  noDollar : '$' ∉ key
  noBrace : '}' ∉ key

section Plain

variable {key other text before behind front back : List Char}

/-- Behind its first character, a reference to a plain name has no `$`. -/
theorem PlainName.noDollar_tail (plain : PlainName key) : '$' ∉ (reference key).tail := by
  simp [reference, plain.noDollar]

theorem PlainName.not_mem_before (plain : PlainName key) (split : reference key = front ++ back)
    (nonempty : back ≠ []) : '}' ∉ front := by
  rcases List.eq_nil_or_concat' back with rfl | ⟨more, last, rfl⟩
  · exact absurd rfl nonempty
  · have parts : reference key = ('$' :: '{' :: key) ++ ['}'] := rfl
    rw [parts, ← List.append_assoc] at split
    intro mem
    have here : '}' ∈ '$' :: '{' :: key := by
      rw [(List.append_inj' split rfl).1]
      exact List.mem_append_left _ mem
    simp [plain.noBrace] at here

theorem PlainName.not_mem_tail_before (plain : PlainName key)
    (split : reference key = front ++ back) : '$' ∉ front.tail := by
  cases front with
  | nil => exact List.not_mem_nil
  | cons c front =>
      have rest := plain.noDollar_tail
      rw [split] at rest
      exact fun mem => rest (List.mem_append_left _ mem)

theorem PlainName.not_mem_behind (plain : PlainName key) (split : reference key = front ++ back)
    (nonempty : front ≠ []) : '$' ∉ back := by
  cases front with
  | nil => exact absurd rfl nonempty
  | cons c front =>
      have rest := plain.noDollar_tail
      rw [split] at rest
      exact fun mem => rest (List.mem_append_right _ mem)

/-- A text that is put between two others, in which no reference ends before it and none
begins behind it. -/
structure Context (before behind : List Char) : Prop where
  noBrace : '}' ∉ before
  noDollar : '$' ∉ before.tail
  noDollarBehind : '$' ∉ behind

/-- A value that touches a reference makes one in some context. -/
theorem exists_context (plain : PlainName key) (touches : ¬Clear text (reference key)) :
    ∃ before behind, Context before behind ∧ reference key <:+: before ++ (text ++ behind) := by
  by_contra absent
  simp only [not_exists, not_and] at absent
  apply touches
  refine ⟨?_, ?_, ?_, ?_⟩
  · rintro ⟨front, back, split⟩
    cases text with
    | nil =>
        refine absent ['$'] (reference key).tail ⟨by decide, by decide, plain.noDollar_tail⟩ ?_
        exact List.infix_rfl
    | cons c text =>
        have whole : reference key = front ++ (c :: text ++ back) := by
          rw [← split, List.append_assoc]
        refine absent front back ⟨?_, plain.not_mem_tail_before whole, ?_⟩ ?_
        · exact plain.not_mem_before whole (List.cons_ne_nil _ _)
        · exact plain.not_mem_behind split.symm (by simp)
        · rw [whole]
  · intro inside
    exact absent [] [] ⟨List.not_mem_nil, List.not_mem_nil, List.not_mem_nil⟩
      (by simpa using inside)
  · rintro part nonempty ⟨front, rfl⟩ ⟨back, split⟩
    refine absent [] back ⟨List.not_mem_nil, List.not_mem_nil, ?_⟩ ?_
    · exact plain.not_mem_behind split.symm nonempty
    · rw [← split, List.nil_append, List.append_assoc]
      exact (List.suffix_append front _).isInfix
  · rintro part nonempty ⟨back, rfl⟩ ⟨front, split⟩
    refine absent front [] ⟨?_, ?_, List.not_mem_nil⟩ ?_
    · exact plain.not_mem_before split.symm nonempty
    · exact plain.not_mem_tail_before split.symm
    · rw [← split, List.append_nil, ← List.append_assoc]
      exact (List.prefix_append _ back).isInfix

/-- A reference does not reach over the beginning of another one. -/
theorem not_prefix_of_dollar {name rest : List Char} (noDollar : '$' ∉ name)
    (noBrace : '}' ∉ front) : ¬name ++ ['}'] <+: front ++ '$' :: rest := by
  induction front generalizing name with
  | nil =>
      intro begins
      cases name with
      | nil => simp at begins
      | cons c name =>
          have head : c = '$' := (List.cons_prefix_cons.mp begins).1
          exact noDollar (head ▸ List.mem_cons_self)
  | cons d front ih =>
      intro begins
      cases name with
      | nil =>
          have head : '}' = d := (List.cons_prefix_cons.mp begins).1
          exact noBrace (head ▸ List.mem_cons_self)
      | cons c name =>
          have rest := (List.cons_prefix_cons.mp begins).2
          exact ih (fun mem => noDollar (List.mem_cons_of_mem _ mem))
            (fun mem => noBrace (List.mem_cons_of_mem _ mem)) rest

/-- Two references that begin at one place are one. -/
theorem eq_of_prefix (keyBrace : '}' ∉ key) (otherBrace : '}' ∉ other) {rest : List Char}
    (begins : key ++ ['}'] <+: other ++ '}' :: rest) : key = other := by
  induction key generalizing other with
  | nil =>
      cases other with
      | nil => rfl
      | cons d other =>
          have head : '}' = d := (List.cons_prefix_cons.mp begins).1
          exact absurd (head ▸ List.mem_cons_self) otherBrace
  | cons c key ih =>
      cases other with
      | nil =>
          have head : c = '}' := (List.cons_prefix_cons.mp begins).1
          exact absurd (head ▸ List.mem_cons_self) keyBrace
      | cons d other =>
          have parts := List.cons_prefix_cons.mp begins
          rw [parts.1, ih (fun mem => keyBrace (List.mem_cons_of_mem _ mem))
            (fun mem => otherBrace (List.mem_cons_of_mem _ mem)) parts.2]

/-- No reference begins before the one that is put in a context. -/
theorem Context.not_prefix (context : Context before behind) (plain : PlainName other)
    {rest : List Char} (split : before = front ++ back) (nonempty : back ≠ []) :
    ¬reference other <+: back ++ (reference key ++ rest) := by
  cases back with
  | nil => exact absurd rfl nonempty
  | cons c back =>
      intro begins
      have noBrace : '}' ∉ back := fun mem =>
        context.noBrace (split ▸ List.mem_append_right _ (List.mem_cons_of_mem _ mem))
      have noDollar : '$' ∉ '{' :: other := by simp [plain.noDollar]
      exact not_prefix_of_dollar noDollar noBrace (List.cons_prefix_cons.mp begins).2

/-- A reference in a context is the only one. -/
theorem Context.eq_of_infix (context : Context before behind) (plain : PlainName key)
    (otherPlain : PlainName other)
    (found : reference other <:+: before ++ (reference key ++ behind)) : other = key := by
  rcases List.infix_iff_prefix_suffix.mp found with ⟨rest, begins, ⟨front, split⟩⟩
  -- the reference begins where the one in the context does
  have atKey : rest = reference key ++ behind := by
    rcases List.append_eq_append_iff.mp split with ⟨more, cut, same⟩ | ⟨more, cut, same⟩
    · cases more with
      | nil => simpa using same
      | cons c more =>
          rw [same] at begins
          exact absurd begins (context.not_prefix otherPlain cut (List.cons_ne_nil _ _))
    · cases more with
      | nil => simpa using same.symm
      | cons c more =>
          have later : (reference key).tail ++ behind = more ++ rest := by
            simpa [reference] using (List.cons.inj same).2
          have dollar : '$' ∈ rest := begins.subset List.mem_cons_self
          rcases List.mem_append.mp (later ▸ List.mem_append_right more dollar) with inKey | beyond
          · exact absurd inKey plain.noDollar_tail
          · exact absurd beyond context.noDollarBehind
  rw [atKey] at begins
  have names : other ++ ['}'] <+: key ++ '}' :: behind := by
    simpa [reference] using begins
  exact eq_of_prefix otherPlain.noBrace plain.noBrace names

/-- A reference in a context is replaced, and nothing else. -/
theorem Context.replaceAll (context : Context before behind) (plain : PlainName key)
    (value : List Char) :
    replaceAll (reference key) value (before ++ (reference key ++ behind))
      = before ++ (value ++ behind) := by
  have absent : ¬reference key <:+: behind := fun found =>
    context.noDollarBehind (found.subset List.mem_cons_self)
  rw [replaceAll_append before fun front back split nonempty =>
      context.not_prefix plain split nonempty,
    replaceAll_pattern (reference_ne_nil key), replaceAll_of_absent absent]

end Plain

/-- References to plain names do not touch each other. -/
theorem clear_references {key other : List Char} (plain : PlainName key)
    (otherPlain : PlainName other) (differ : key ≠ other) :
    Clear (reference key) (reference other) := by
  by_contra touches
  rcases exists_context otherPlain touches with ⟨before, behind, context, found⟩
  exact differ (context.eq_of_infix plain otherPlain found).symm

/-- Variables that leave a text as it is. -/
theorem expandPathVars_of_fixed {text : List Char} {order : List (List Char × List Char)}
    (fixed : ∀ entry ∈ order, expandVar text entry = text) : expandPathVars text order = text := by
  induction order with
  | nil => rfl
  | cons entry order ih =>
      rw [expandPathVars, List.foldl_cons, fixed entry List.mem_cons_self]
      exact ih fun entry mem => fixed entry (List.mem_cons_of_mem _ mem)

/-- An order that ends in two of the variables. -/
theorem exists_order (paths : PathTable) {first second : List Char × List Char}
    (firstMem : first ∈ paths.items) (secondMem : second ∈ paths.items)
    (differ : first.1 ≠ second.1) :
    ∃ others : List (List Char × List Char), (others ++ [first, second]).Perm paths.items ∧
      ∀ entry ∈ others, entry ∈ paths.items ∧ entry.1 ≠ first.1 := by
  have nodup : paths.items.Nodup := List.Nodup.of_map _ paths.distinct
  have apart : second ≠ first := fun same => differ (congrArg Prod.fst same.symm)
  have secondLeft : second ∈ paths.items.erase first :=
    (List.mem_erase_of_ne apart).mpr secondMem
  refine ⟨(paths.items.erase first).erase second, ?_, ?_⟩
  · exact List.perm_append_comm.trans
      (((List.perm_cons_erase secondLeft).symm.cons first).trans
        (List.perm_cons_erase firstMem).symm)
  · intro entry mem
    have left : entry ∈ paths.items.erase first := List.mem_of_mem_erase mem
    have inTable : entry ∈ paths.items := List.mem_of_mem_erase left
    refine ⟨inTable, fun same => ?_⟩
    have isFirst : entry = first := List.inj_on_of_nodup_map paths.distinct inTable firstMem same
    exact nodup.not_mem_erase (isFirst ▸ left)

/-- Where names are plain, a value that touches the reference of another variable shows the
order. -/
theorem WellDefined.separate {paths : PathTable} (plain : ∀ entry ∈ paths.items, PlainName entry.1)
    (wellDefined : WellDefined paths) : Separate paths := by
  intro first firstMem second secondMem differ firstActive secondActive
  refine ⟨clear_references (plain first firstMem) (plain second secondMem) differ, ?_⟩
  by_contra touches
  rcases exists_context (plain second secondMem) touches with ⟨before, behind, context, made⟩
  -- only the first variable changes this text, and what it makes has the second's reference
  have fixed : ∀ entry ∈ paths.items, entry.1 ≠ first.1 →
      expandVar (before ++ (reference first.1 ++ behind)) entry
        = before ++ (reference first.1 ++ behind) := by
    intro entry mem other
    rw [expandVar_eq]
    exact replaceAll_of_absent fun found => other
      (context.eq_of_infix (plain first firstMem) (plain entry mem) found)
  have replaced : expandVar (before ++ (reference first.1 ++ behind)) first
      = before ++ (first.2 ++ behind) := by
    rw [expandVar_eq]
    exact context.replaceAll (plain first firstMem) first.2
  rcases exists_order paths firstMem secondMem differ with ⟨others, order, kept⟩
  have othersFixed : expandPathVars (before ++ (reference first.1 ++ behind)) others
      = before ++ (reference first.1 ++ behind) :=
    expandPathVars_of_fixed fun entry mem => fixed entry (kept entry mem).1 (kept entry mem).2
  have swapped : (others ++ [second, first]).Perm paths.items :=
    ((List.Perm.swap first second []).append_left others).trans order
  have same := wellDefined (before ++ (reference first.1 ++ behind)) _ _ order swapped
  rw [expandPathVars, List.foldl_append, expandPathVars, List.foldl_append] at same
  change expandVar (expandVar (expandPathVars _ others) first) second
    = expandVar (expandVar (expandPathVars _ others) second) first at same
  rw [othersFixed, replaced, fixed second secondMem (Ne.symm differ), replaced,
    expandVar_eq] at same
  exact secondActive (value_eq_of_replaceAll_eq (reference_ne_nil _) made same)

/-- The order is not seen where no value and no reference touches another variable's
reference, and where names are plain exactly then. -/
theorem expandPathVars_wellDefined (paths : PathTable) :
    (Separate paths → WellDefined paths) ∧
      ((∀ entry ∈ paths.items, PlainName entry.1) → (WellDefined paths ↔ Separate paths)) :=
  ⟨Separate.wellDefined, fun plain => ⟨WellDefined.separate plain, Separate.wellDefined⟩⟩

/-- Two variables that are directories, the name of one of which begins that of the other. -/
def directories : PathTable where
  items := [("srv".toList, "/opt/servers".toList), ("srv2".toList, "/opt/more".toList)]
  distinct := by decide

theorem directories_wellDefined : WellDefined directories ∧ Separate directories := by
  have plain : ∀ entry ∈ directories.items, PlainName entry.1 := by
    intro entry mem
    simp only [directories, List.mem_cons, List.not_mem_nil, or_false] at mem
    rcases mem with rfl | rfl
    · exact ⟨by decide, by decide⟩
    · exact ⟨by decide, by decide⟩
  have both := expandPathVars_wellDefined directories
  have wellDefined : WellDefined directories := both.1 (by decide +kernel)
  exact ⟨wellDefined, (both.2 plain).mp wellDefined⟩

/-- Two variables, of which the first leads to the second. -/
def chained : PathTable where
  items := [("a".toList, "${b}".toList), ("b".toList, "x".toList)]
  distinct := by decide

/-- A value with a reference is expanded on, if its turn is before that of the other. -/
theorem chained_order_seen : ¬WellDefined chained := by
  intro wellDefined
  have same := wellDefined "${a}".toList chained.items chained.items.reverse (List.Perm.refl _)
    (List.reverse_perm _)
  revert same
  decide

end ClotoCore.Mcp
