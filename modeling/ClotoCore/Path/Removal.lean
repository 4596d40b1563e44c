import ClotoCore.Path.Links

/-!
# Taking things away from a tree

Each of some items may have a spot in a tree, and what is there and below it is taken
away.  Removals that fail take away some of it.  Failures do not matter in the end exactly
if each place that is taken away is taken away by an item that keeps its spot whatever
else is gone.
-/

namespace ClotoCore.Links

universe u v

variable {α : Type u} [DecidableEq α] {ι : Type v}

/-- What may be taken away at once: a place with what is below it, or only what is below. -/
structure Spot (α : Type u) where
  place : Place α
  whole : Bool
  deriving DecidableEq

/-- Whether a place is of a spot. -/
def Spot.holds (spot : Spot α) (other : Place α) : Bool :=
  other != [] && spot.place.isPrefixOf other && (spot.whole || other != spot.place)

theorem Spot.closed (spot : Spot α) (other : Place α) (name : α)
    (holds : spot.holds other = true) : spot.holds (other ++ [name]) = true := by
  unfold Spot.holds at *
  simp only [Bool.and_eq_true, Bool.or_eq_true, bne_iff_ne, ne_eq,
    List.isPrefixOf_iff_prefix] at holds ⊢
  refine ⟨⟨by simp, holds.1.2.trans (List.prefix_append other [name])⟩, Or.inr ?_⟩
  intro same
  have shorter := holds.1.2.length_le
  have lengths := congrArg List.length same
  rw [List.length_append, List.length_singleton] at lengths
  omega

theorem Spot.spares (spot : Spot α) : spot.holds [] = false := rfl

/-- A spot as a region. -/
def Spot.region (spot : Spot α) : Region α where
  holds := spot.holds
  closed := spot.closed
  spares := spot.spares

theorem Spot.holds_iff {spot : Spot α} {other : Place α} :
    spot.region.holds other = true ↔
      other ≠ [] ∧ spot.place <+: other ∧ (spot.whole = true ∨ other ≠ spot.place) := by
  simp [Spot.region, Spot.holds, and_assoc]

theorem Spot.leads_of_holds {spot : Spot α} {other : Place α}
    (holds : spot.region.holds other = true) : spot.place <+: other :=
  (Spot.holds_iff.mp holds).2.1

variable (target : Tree α → ι → Option (Spot α))

/-- The spot of an item is there, and it is the same in a larger tree. -/
structure Targets : Prop where
  there : ∀ tree item spot, target tree item = some spot → tree.find spot.place ≠ none
  mono : ∀ tree other item spot, tree.Sub other → target tree item = some spot →
    target other item = some spot

/-- Take away what is at a spot, or as much of it as a failure lets go. -/
def cut (tree : Tree α) (spot : Option (Spot α)) (fault : Option (Region α)) : Tree α :=
  match spot with
  | none => tree
  | some spot =>
      tree.without <|
        match fault with
        | none => spot.region
        | some taken => spot.region.both taken

/-- A tree without the target of an item, as far as the removal gets. -/
def clear (tree : Tree α) (item : ι) (fault : Option (Region α)) : Tree α :=
  cut tree (target tree item) fault

/-- Take away what some items have their spots at, one after the other. -/
def clearAll (tree : Tree α) (items : List (ι × Option (Region α))) : Tree α :=
  items.foldl (fun tree item => clear target tree item.1 item.2) tree

/-- Items none of which fails. -/
def faultless (items : List ι) : List (ι × Option (Region α)) :=
  items.map fun item => (item, none)

/-- What some items take away. -/
def covered (tree : Tree α) (items : List ι) : Region α where
  holds place := items.any fun item => (target tree item).any fun spot => spot.region.holds place
  closed := by
    intro place name holds
    simp only [List.any_eq_true, Option.any_eq_true] at holds ⊢
    rcases holds with ⟨item, mem, spot, targetEq, holds⟩
    exact ⟨item, mem, spot, targetEq, spot.region.closed place name holds⟩
  spares := by
    simp only [List.any_eq_false, Option.any_eq_true, not_exists, not_and]
    intro item _ spot _
    rw [spot.region.spares]
    exact Bool.false_ne_true

/-- Each place that some items take away is taken away by one that keeps its spot when
all else but the way down to the place is gone. -/
def Settled (tree : Tree α) (items : List ι) : Prop :=
  ∀ place, tree.find place ≠ none → (covered target tree items).holds place = true →
    ∃ item ∈ items, ∃ spot : Spot α, spot.region.holds place = true ∧
      target (tree.without ((covered target tree items).beside place)) item = some spot

/-- Whether an item takes a place away. -/
def takes (tree : Tree α) (item : ι) (place : Place α) : Bool :=
  (target tree item).any fun spot => spot.region.holds place

/-- Nothing but what takes a place away succeeds. -/
def taking (tree : Tree α) (place : Place α) (item : ι) : Option (Region α) :=
  if takes target tree item place then none else some .nothing

/-- What takes a place away fails, after it has taken all but the way down to the place. -/
def sparing (tree : Tree α) (items : List ι) (place : Place α) (item : ι) : Option (Region α) :=
  if takes target tree item place then some ((covered target tree items).beside place) else none

/-- Items with how each fails. -/
def failing (faults : ι → Option (Region α)) (items : List ι) : List (ι × Option (Region α)) :=
  items.map fun item => (item, faults item)

variable {target} {tree left : Tree α} {items : List ι}

theorem without_without (first second : Region α) :
    (tree.without first).without second = tree.without (first.either second) := by
  apply Tree.ext
  simp only [Tree.without, List.filter_filter, Region.either, Bool.not_or]
  congr 1
  funext entry
  exact Bool.and_comm _ _

theorem without_nothing : tree.without .nothing = tree := by
  apply Tree.ext
  simp [Tree.without, Region.nothing]

/-- Where nothing is, nothing is taken away. -/
theorem without_eq_self {region : Region α}
    (gone : ∀ place, region.holds place = true → tree.find place = none) :
    tree.without region = tree := by
  apply Tree.ext
  apply List.filter_eq_self.mpr
  intro entry mem
  rw [Bool.not_eq_true', Bool.eq_false_iff]
  intro holds
  have found := (Tree.find_eq_some_iff (tree.named entry mem)).mpr mem
  rw [gone entry.1 holds] at found
  cases found

theorem covered_holds_iff {place : Place α} :
    (covered target tree items).holds place = true ↔
      ∃ item ∈ items, ∃ spot, target tree item = some spot ∧ spot.region.holds place = true := by
  simp only [covered, List.any_eq_true, Option.any_eq_true]

theorem cut_sub (spot : Option (Spot α)) (fault : Option (Region α)) :
    (cut tree spot fault).Sub tree := by
  unfold cut
  split
  · exact Tree.Sub.refl tree
  · exact Tree.without_sub tree _

theorem clear_sub (item : ι) (fault : Option (Region α)) :
    (clear target tree item fault).Sub tree :=
  cut_sub (target tree item) fault

theorem clearAll_sub (steps : List (ι × Option (Region α))) :
    (clearAll target tree steps).Sub tree := by
  induction steps generalizing tree with
  | nil => exact Tree.Sub.refl tree
  | cons first rest ih => exact ih.trans (clear_sub first.1 first.2)

/-- What is left of a tree is the tree without some of what the items cover. -/
def LeftOf (target : Tree α → ι → Option (Spot α)) (tree : Tree α) (items : List ι)
    (left : Tree α) : Prop :=
  ∃ region : Region α, left = tree.without region ∧
    ∀ place, region.holds place = true → (covered target tree items).holds place = true

theorem leftOf_self : LeftOf target tree items tree := by
  refine ⟨Region.nothing, without_nothing.symm, ?_⟩
  intro place holds
  cases holds

theorem LeftOf.sub (leftOf : LeftOf target tree items left) : left.Sub tree := by
  rcases leftOf with ⟨region, rfl, -⟩
  exact Tree.without_sub tree region

theorem LeftOf.clear (targets : Targets target) (leftOf : LeftOf target tree items left) {item : ι}
    (mem : item ∈ items) (fault : Option (Region α)) :
    LeftOf target tree items (clear target left item fault) := by
  have sub := leftOf.sub
  unfold Links.clear cut
  split
  · exact leftOf
  · next spot targetEq =>
    have whole := targets.mono left tree item spot sub targetEq
    rcases leftOf with ⟨region, rfl, within⟩
    refine ⟨_, without_without region _, ?_⟩
    intro other holds
    rcases Bool.or_eq_true_iff.mp holds with before | now
    · exact within other before
    · apply covered_holds_iff.mpr
      refine ⟨item, mem, spot, whole, ?_⟩
      cases fault with
      | none => exact now
      | some taken => exact (Bool.and_eq_true_iff.mp now).1

theorem LeftOf.clearAll (targets : Targets target) (leftOf : LeftOf target tree items left)
    {steps : List (ι × Option (Region α))} (mem : ∀ step ∈ steps, step.1 ∈ items) :
    LeftOf target tree items (clearAll target left steps) := by
  induction steps generalizing left with
  | nil => exact leftOf
  | cons first rest ih =>
      apply ih
      · exact leftOf.clear targets (mem first List.mem_cons_self) first.2
      · intro step stepMem
        exact mem step (List.mem_cons_of_mem _ stepMem)

/-- An item that keeps its spot has it as long as a place is there. -/
theorem LeftOf.keeps_target (targets : Targets target) (leftOf : LeftOf target tree items left)
    {item : ι} {spot : Spot α} {place : Place α}
    (keeps : target (tree.without ((covered target tree items).beside place)) item = some spot)
    (there : left.find place ≠ none) : target left item = some spot := by
  apply targets.mono _ left item spot _ keeps
  rcases leftOf with ⟨region, rfl, within⟩
  intro other
  rw [Tree.find_without, Tree.find_without]
  by_cases gone : region.holds other = true
  · left
    rw [if_pos]
    simp only [Region.beside, Bool.and_eq_true, Bool.not_eq_true', within other gone, true_and]
    rw [Bool.eq_false_iff]
    intro leads
    apply Tree.find_ne_none_of_prefix there (List.isPrefixOf_iff_prefix.mp leads)
    rw [Tree.find_without, if_pos gone]
  · rw [if_neg gone]
    split
    · exact Or.inl rfl
    · exact Or.inr rfl

theorem find_clear {item : ι} {spot : Spot α} (targetEq : target tree item = some spot)
    {place : Place α} (holds : spot.region.holds place = true) :
    (clear target tree item none).find place = none := by
  unfold clear cut
  rw [targetEq]
  dsimp only
  rw [Tree.find_without, if_pos holds]

/-- Once all items have been cleared without a failure, a place is gone if one that takes
it away keeps its spot. -/
theorem find_clearAll (targets : Targets target) (leftOf : LeftOf target tree items left)
    {some : List ι} (mem : ∀ item ∈ some, item ∈ items) {item : ι} (here : item ∈ some)
    {spot : Spot α} {place : Place α} (holds : spot.region.holds place = true)
    (keeps : target (tree.without ((covered target tree items).beside place)) item = .some spot) :
    (clearAll target left (faultless some)).find place = none := by
  induction some generalizing left with
  | nil => cases here
  | cons first rest ih =>
      have next := leftOf.clear targets (mem first List.mem_cons_self) none
      rcases List.mem_cons.mp here with rfl | later
      · apply (clearAll_sub (faultless rest)).find_eq_none
        by_cases there : left.find place = none
        · exact (clear_sub item none).find_eq_none there
        · exact find_clear (leftOf.keeps_target targets keeps there) holds
      · exact ih next (fun other otherMem => mem other (List.mem_cons_of_mem _ otherMem)) later

/-- Whatever failures have left, the items leave the tree without all that they cover. -/
theorem clearAll_faultless (targets : Targets target) (settled : Settled target tree items)
    (leftOf : LeftOf target tree items left) :
    clearAll target left (faultless items) = tree.without (covered target tree items) := by
  have memSelf : ∀ step ∈ (faultless items : List (ι × Option (Region α))), step.1 ∈ items := by
    intro step stepMem
    rcases List.mem_map.mp stepMem with ⟨item, mem, rfl⟩
    exact mem
  have gone : ∀ place, tree.find place ≠ none →
      (covered target tree items).holds place = true →
        (clearAll target left (faultless items)).find place = none := by
    intro place there isCovered
    rcases settled place there isCovered with ⟨item, mem, spot, holds, keeps⟩
    exact find_clearAll targets leftOf (fun _ mem => mem) mem holds keeps
  rcases leftOf.clearAll targets memSelf with ⟨region, leftEq, within⟩
  rw [leftEq] at gone ⊢
  apply Tree.ext
  apply List.filter_congr
  intro entry entryMem
  congr 1
  rw [Bool.eq_iff_iff]
  refine ⟨within entry.1, ?_⟩
  intro isCovered
  have found := (Tree.find_eq_some_iff (tree.named entry entryMem)).mpr entryMem
  by_contra kept
  have lost := gone entry.1 (by rw [found]; exact Option.some_ne_none _) isCovered
  rw [Tree.find_without, if_neg kept, found] at lost
  cases lost

/-- A run that has failures, and one after it that has none, leave what one without
failures leaves. -/
theorem clearAll_converges (targets : Targets target) (settled : Settled target tree items)
    {faults : List (ι × Option (Region α))} (mem : ∀ step ∈ faults, step.1 ∈ items) :
    clearAll target (clearAll target tree faults) (faultless items)
      = clearAll target tree (faultless items) := by
  rw [clearAll_faultless targets settled (leftOf_self.clearAll targets mem),
    clearAll_faultless targets settled leftOf_self]

/-! ## Where failures matter -/

theorem takes_iff {item : ι} {place : Place α} :
    takes target tree item place = true ↔
      ∃ spot, target tree item = some spot ∧ spot.region.holds place = true :=
  Option.any_eq_true _ _

theorem clear_nothing (item : ι) : clear target tree item (some .nothing) = tree := by
  unfold clear cut
  split
  · rfl
  · next spot _ =>
    apply without_eq_self
    intro place holds
    cases (Bool.and_eq_true_iff.mp holds).2

theorem find_taking {place : Place α} {item : ι} (mem : item ∈ items)
    (isTaken : takes target tree item place = true) :
    (clearAll target tree (failing (taking target tree place) items)).find place = none := by
  induction items with
  | nil => cases mem
  | cons first rest ih =>
      have stepped : clearAll target tree (failing (taking target tree place) (first :: rest))
          = clearAll target (clear target tree first (taking target tree place first))
              (failing (taking target tree place) rest) := rfl
      rw [stepped]
      by_cases firstTakes : takes target tree first place = true
      · rcases takes_iff.mp firstTakes with ⟨spot, targetEq, holds⟩
        apply (clearAll_sub _).find_eq_none
        rw [taking, if_pos firstTakes]
        exact find_clear targetEq holds
      · rw [taking, if_neg firstTakes, clear_nothing]
        rcases List.mem_cons.mp mem with rfl | later
        · exact absurd isTaken firstTakes
        · exact ih later

/-- A place stays that no item takes away. -/
theorem find_clear_of_not_takes (targets : Targets target) (sub : left.Sub tree) {item : ι}
    {place : Place α} (stays : takes target tree item place ≠ true) (fault : Option (Region α)) :
    (clear target left item fault).find place = left.find place := by
  unfold clear cut
  split
  · rfl
  · next spot targetEq =>
    have whole := targets.mono left tree item spot sub targetEq
    have apart : spot.region.holds place ≠ true := by
      intro holds
      exact stays (takes_iff.mpr ⟨spot, whole, holds⟩)
    rw [Tree.find_without, if_neg]
    intro holds
    cases fault with
    | none => exact apart holds
    | some taken => exact apart (Bool.and_eq_true_iff.mp holds).1

theorem find_clearAll_of_not_takes (targets : Targets target) (sub : left.Sub tree)
    {place : Place α} {steps : List (ι × Option (Region α))}
    (stays : ∀ step ∈ steps, takes target tree step.1 place ≠ true) :
    (clearAll target left steps).find place = left.find place := by
  induction steps generalizing left with
  | nil => rfl
  | cons first rest ih =>
      have next : (clear target left first.1 first.2).Sub tree := (clear_sub _ _).trans sub
      calc (clearAll target left (first :: rest)).find place
          = (clear target left first.1 first.2).find place :=
            ih next fun step mem => stays step (List.mem_cons_of_mem _ mem)
        _ = left.find place :=
            find_clear_of_not_takes targets sub (stays first List.mem_cons_self) first.2

/-- What is spared stays. -/
theorem find_sparing (targets : Targets target) (sub : left.Sub tree) {place : Place α}
    (some : List ι) :
    (clearAll target left (failing (sparing target tree items place) some)).find place
      = left.find place := by
  induction some generalizing left with
  | nil => rfl
  | cons first rest ih =>
      have next : (clear target left first (sparing target tree items place first)).Sub tree :=
        (clear_sub _ _).trans sub
      refine (ih next).trans ?_
      by_cases firstTakes : takes target tree first place = true
      · rw [sparing, if_pos firstTakes]
        unfold clear cut
        split
        · rfl
        · rw [Tree.find_without, if_neg]
          intro holds
          have beside := (Bool.and_eq_true_iff.mp (Bool.and_eq_true_iff.mp holds).2).2
          rw [List.isPrefixOf_iff_prefix.mpr (List.prefix_refl place)] at beside
          cases beside
      · exact find_clear_of_not_takes targets sub firstTakes _

/-- If something else is left when a place has been spared, all that could take it away
have lost their spots. -/
theorem target_sparing (targets : Targets target) (sub : left.Sub tree) {place other : Place α}
    {some : List ι}
    (beside : ((covered target tree items).beside place).holds other = true)
    (there : (clearAll target left
      (failing (sparing target tree items place) some)).find other ≠ none)
    {item : ι} (mem : item ∈ some) (isTaken : takes target tree item other = true) :
    target (clearAll target left (failing (sparing target tree items place) some)) item = none := by
  induction some generalizing left with
  | nil => cases mem
  | cons first rest ih =>
      have next : (clear target left first (sparing target tree items place first)).Sub tree :=
        (clear_sub _ _).trans sub
      rcases List.mem_cons.mp mem with rfl | later
      · rw [Option.eq_none_iff_forall_ne_some]
        intro spot targetEq
        have after : (clearAll target left
            (failing (sparing target tree items place) (item :: rest))).Sub
              (clear target left item (sparing target tree items place item)) :=
          clearAll_sub (failing (sparing target tree items place) rest)
        have before := targets.mono _ left item spot (after.trans (clear_sub _ _)) targetEq
        have whole := targets.mono left tree item spot sub before
        rcases takes_iff.mp isTaken with ⟨same, sameEq, holds⟩
        cases whole.symm.trans sameEq
        apply there
        apply after.find_eq_none
        unfold clear cut
        rw [before]
        dsimp only
        rw [Tree.find_without, if_pos]
        unfold sparing
        by_cases takesPlace : takes target tree item place = true
        · rw [if_pos takesPlace]
          exact Bool.and_eq_true_iff.mpr ⟨holds, beside⟩
        · rw [if_neg takesPlace]
          exact holds
      · exact ih next there later

/-- Items are settled if those failures do not matter in the end that let only one place
be taken away, or spare only one. -/
theorem settled_of_converges (targets : Targets target)
    (taken : ∀ place,
      clearAll target (clearAll target tree (failing (taking target tree place) items))
        (faultless items) = clearAll target tree (faultless items))
    (spared : ∀ place,
      clearAll target (clearAll target tree (failing (sparing target tree items place) items))
        (faultless items) = clearAll target tree (faultless items)) :
    Settled target tree items := by
  have allGone : ∀ place, (covered target tree items).holds place = true →
      (clearAll target tree (faultless items)).find place = none := by
    intro place isCovered
    rcases covered_holds_iff.mp isCovered with ⟨item, mem, spot, targetEq, holds⟩
    rw [← taken place]
    apply (clearAll_sub _).find_eq_none
    exact find_taking mem (takes_iff.mpr ⟨spot, targetEq, holds⟩)
  intro place there isCovered
  by_contra unsettled
  have sub : (clearAll target tree (failing (sparing target tree items place) items)).Sub tree :=
    clearAll_sub _
  -- What no item takes from the tree that is left after the sparing stays to the end.
  have stays : ∀ other, (covered target tree items).holds other = true →
      (∀ item ∈ items, takes target tree item other = true →
        target (clearAll target tree (failing (sparing target tree items place) items)) item
          = none) →
      (clearAll target tree (failing (sparing target tree items place) items)).find other
        = none := by
    intro other otherCovered lost
    rw [← allGone other otherCovered, ← spared place]
    symm
    apply find_clearAll_of_not_takes targets (Tree.Sub.refl _)
    intro step mem isTaken
    rcases List.mem_map.mp mem with ⟨item, itemMem, rfl⟩
    rcases takes_iff.mp isTaken with ⟨spot, targetEq, holds⟩
    have whole := targets.mono _ tree item spot sub targetEq
    rw [lost item itemMem (takes_iff.mpr ⟨spot, whole, holds⟩)] at targetEq
    cases targetEq
  have bare : ∀ other, ((covered target tree items).beside place).holds other = true →
      (clearAll target tree (failing (sparing target tree items place) items)).find other
        = none := by
    intro other beside
    by_contra otherThere
    apply otherThere
    apply stays other (Bool.and_eq_true_iff.mp beside).1
    intro item mem isTaken
    exact target_sparing targets (Tree.Sub.refl tree) beside otherThere mem isTaken
  have within : (clearAll target tree (failing (sparing target tree items place) items)).Sub
      (tree.without ((covered target tree items).beside place)) := by
    intro other
    rw [Tree.find_without]
    by_cases beside : ((covered target tree items).beside place).holds other = true
    · exact Or.inl (bare other beside)
    · rw [if_neg beside]
      exact sub other
  apply there
  rw [← find_sparing targets (Tree.Sub.refl tree) items]
  apply stays place isCovered
  intro item mem isTaken
  rcases takes_iff.mp isTaken with ⟨spot, targetEq, holds⟩
  rw [Option.eq_none_iff_forall_ne_some]
  intro same sameEq
  have kept := targets.mono _ _ item same within sameEq
  have whole := targets.mono _ tree item same (Tree.without_sub tree _) kept
  cases targetEq.symm.trans whole
  exact unsettled ⟨item, mem, spot, holds, kept⟩

/-! ## A second run -/

/-- Nothing is left of the spot that an item has in a tree in which it has been cleared. -/
theorem clear_of_sub_clear (targets : Targets target) {item : ι}
    (sub : left.Sub (clear target tree item none)) (fault : Option (Region α)) :
    clear target left item fault = left := by
  unfold clear cut
  split
  · rfl
  · next spot targetEq =>
    have whole := targets.mono left tree item spot (sub.trans (clear_sub item none)) targetEq
    apply without_eq_self
    intro place holds
    apply sub.find_eq_none
    apply find_clear whole
    cases fault with
    | none => exact holds
    | some taken => exact (Bool.and_eq_true_iff.mp holds).1

end ClotoCore.Links
