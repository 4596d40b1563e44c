import ClotoCore.Defender.Coverage
import ClotoCore.Defender.Execute

/-!
# Executing a plan again

What an execution has removed is absent for a second one.  Where removals have failed, a
second execution leaves what one without failures leaves exactly if every place that the
plan removes is removed by an entry whose way does not go through what others remove.
-/

namespace ClotoCore.Defender

open ClotoCore.Encoding ClotoCore.Links

/-- The entries that an execution goes through. -/
def acted (os : Os) (plan : PurgePlan) : List PurgeEntry :=
  if plan.planVersion = planVersion then executionOrder os plan else []

/-- Whatever removals fail, a second execution in which none does leaves the tree that one
execution without failures leaves. -/
def Converges (platform : Platform) (roots : List PathBuf) (plan : PurgePlan)
    (machine : Machine) : Prop :=
  ∀ faults,
    (execute platform roots plan (execute platform roots plan machine faults).1 noFaults).1.tree
      = (execute platform roots plan machine noFaults).1.tree

/-- After an execution without failures a second one changes nothing, and what an
execution has removed a second one finds absent. -/
structure Repeats (platform : Platform) (roots : List PathBuf) (plan : PurgePlan)
    (machine : Machine) : Prop where
  idle : (execute platform roots plan (execute platform roots plan machine noFaults).1 noFaults).1
    = (execute platform roots plan machine noFaults).1
  absent : ∀ (faults : Nat → Option (Region Name)) (index : Nat) (entry : PurgeEntry),
    (execute platform roots plan machine faults).2[index]? = some (entry, .removed) →
      (execute platform roots plan (execute platform roots plan machine faults).1
        noFaults).2[index]? = some (entry, .absent)

variable {platform : Platform} {roots : List PathBuf} {plan : PurgePlan} {tier : PurgeTier}
  {tree : Links.Tree Name} {machine later : Machine} {entry : PurgeEntry}
  {fault : Option (Region Name)} {faults : Nat → Option (Region Name)}

/-! ## What is left after failures -/

theorem loses_none (kind : PurgeKind) (spot : Option (Spot Name)) :
    loses kind spot none = none := by
  unfold loses
  split
  · rfl
  · rfl

/-- A failure that spares what is on the way down to an entry goes as far as stated. -/
theorem loses_of_beside {kind : PurgeKind} {spot : Option (Spot Name)} {taken : Region Name}
    (spared : ∀ top ∈ spot, taken.beside top.place = taken) :
    loses kind spot (some taken) = some taken := by
  unfold loses
  split
  · cases spot with
    | none => rfl
    | some top => exact congrArg some (spared top rfl)
  · rfl

/-- An execution takes away what its entries have their targets at, or some of it. -/
theorem exists_clearAll (steps : List (PurgeEntry × Option (Region Name))) :
    ∃ cuts : List (PurgeEntry × Option (Region Name)),
      cuts.map Prod.fst = steps.map Prod.fst ∧
        (executeAll platform roots tier machine steps).1.tree
          = clearAll (target platform roots tier) machine.tree cuts := by
  induction steps generalizing machine with
  | nil => exact ⟨[], rfl, rfl⟩
  | cons first rest ih =>
      rcases @ih (executeEntry platform roots tier machine first.1 first.2).1 with
        ⟨cuts, items, tree⟩
      refine ⟨(first.1, loses first.1.kind
        (target platform roots tier machine.tree first.1) first.2) :: cuts, ?_, ?_⟩
      · rw [List.map_cons, List.map_cons, items]
      · rw [executeEntry_tree] at tree
        exact tree

/-- Where failures go as far as they are stated to, so does an execution. -/
theorem executeAll_failing {faults : PurgeEntry → Option (Region Name)} {items : List PurgeEntry}
    (plain : ∀ item ∈ items, ∀ left : Links.Tree Name, left.Sub tree →
      clear (target platform roots tier) left item
          (loses item.kind (target platform roots tier left item) (faults item))
        = clear (target platform roots tier) left item (faults item))
    (sub : machine.tree.Sub tree) :
    (executeAll platform roots tier machine (failing faults items)).1.tree
      = clearAll (target platform roots tier) machine.tree (failing faults items) := by
  induction items generalizing machine with
  | nil => rfl
  | cons first rest ih =>
      have stepped : (executeEntry platform roots tier machine first (faults first)).1.tree
          = clear (target platform roots tier) machine.tree first (faults first) := by
        rw [executeEntry_tree, plain first List.mem_cons_self machine.tree sub]
      have next : (executeEntry platform roots tier machine first (faults first)).1.tree.Sub
          tree := by
        rw [stepped]
        exact (clear_sub first (faults first)).trans sub
      calc (executeAll platform roots tier machine (failing faults (first :: rest))).1.tree
          = clearAll (target platform roots tier)
              (executeEntry platform roots tier machine first (faults first)).1.tree
              (failing faults rest) :=
            ih (fun item mem => plain item (List.mem_cons_of_mem first mem)) next
        _ = clearAll (target platform roots tier) machine.tree
          (failing faults (first :: rest)) := by
            rw [stepped]
            rfl

theorem executed_eq (faults : Nat → Option (Region Name)) :
    executed platform.os plan faults
      = (acted platform.os plan).zipIdx.map fun entry => (entry.1, faults entry.2) := by
  unfold executed acted
  split
  · rfl
  · rfl

theorem map_fst_executed : (executed platform.os plan faults).map Prod.fst
    = acted platform.os plan := by
  rw [executed_eq, List.map_map]
  exact List.zipIdx_map_fst 0 _

/-- Failures that go by the entry. -/
def failingBy (os : Os) (plan : PurgePlan) (faults : PurgeEntry → Option (Region Name)) :
    Nat → Option (Region Name) :=
  fun index => (acted os plan)[index]?.bind faults

theorem executed_failingBy (faults : PurgeEntry → Option (Region Name)) :
    executed platform.os plan (failingBy platform.os plan faults)
      = failing faults (acted platform.os plan) := by
  rw [executed_eq]
  have byEntry : ∀ indexed ∈ (acted platform.os plan).zipIdx,
      (indexed.1, failingBy platform.os plan faults indexed.2)
        = (indexed.1, faults indexed.1) := by
    rintro ⟨item, index⟩ mem
    rw [failingBy, List.mem_zipIdx_iff_getElem?.mp mem, Option.bind_some]
  rw [List.map_congr_left byEntry, failing]
  conv_rhs => rw [← List.zipIdx_map_fst 0 (acted platform.os plan), List.map_map]
  rfl

theorem executed_noFaults :
    executed platform.os plan noFaults = faultless (acted platform.os plan) := by
  have unfailing : noFaults = failingBy platform.os plan fun _ => none := by
    funext index
    simp [noFaults, failingBy]
  rw [unfailing, executed_failingBy]
  rfl

theorem execute_fst (faults : Nat → Option (Region Name)) :
    (execute platform roots plan machine faults).1
      = (executeAll platform roots plan.tier machine (executed platform.os plan faults)).1 := by
  unfold execute
  split
  · rfl
  · next otherVersion =>
    rw [executed, if_neg otherVersion]
    rfl

theorem execute_noFaults_tree :
    (execute platform roots plan machine noFaults).1.tree
      = clearAll (target platform roots plan.tier) machine.tree
          (faultless (acted platform.os plan)) := by
  rw [execute_fst, executed_noFaults]
  refine executeAll_failing (fun item _ left _ => ?_) (Tree.Sub.refl machine.tree)
  rw [loses_none]

theorem execute_taking_tree (place : Place Name) :
    (execute platform roots plan machine (failingBy platform.os plan
      (taking (target platform roots plan.tier) machine.tree place))).1.tree
      = clearAll (target platform roots plan.tier) machine.tree
          (failing (taking (target platform roots plan.tier) machine.tree place)
            (acted platform.os plan)) := by
  rw [execute_fst, executed_failingBy]
  refine executeAll_failing (fun item _ left _ => ?_) (Tree.Sub.refl machine.tree)
  unfold taking
  split
  · rw [loses_none]
  · rw [loses_of_beside fun top _ => Region.nothing_beside top.place]

theorem execute_sparing_tree (place : Place Name) :
    (execute platform roots plan machine (failingBy platform.os plan
      (sparing (target platform roots plan.tier) machine.tree
        (acted platform.os plan) place))).1.tree
      = clearAll (target platform roots plan.tier) machine.tree
          (failing (sparing (target platform roots plan.tier) machine.tree
            (acted platform.os plan) place) (acted platform.os plan)) := by
  rw [execute_fst, executed_failingBy]
  refine executeAll_failing (fun item _ left sub => ?_) (Tree.Sub.refl machine.tree)
  unfold sparing
  split
  · next isTaken =>
    rcases takes_iff.mp isTaken with ⟨spot, targetEq, holds⟩
    rw [loses_of_beside]
    intro top isTop
    cases (targets_target.mono _ _ _ _ sub isTop).symm.trans targetEq
    exact Region.beside_beside (Spot.leads_of_holds holds)
  · rw [loses_none]

/-- Failures do not matter in the end exactly if the entries are settled. -/
theorem converges_iff_settled :
    Converges platform roots plan machine ↔
      Settled (target platform roots plan.tier) machine.tree (acted platform.os plan) := by
  constructor
  · intro converges
    apply settled_of_converges targets_target
    · intro place
      rw [← execute_taking_tree, ← execute_noFaults_tree, ← execute_noFaults_tree]
      exact converges _
    · intro place
      rw [← execute_sparing_tree, ← execute_noFaults_tree, ← execute_noFaults_tree]
      exact converges _
  · intro settled faults
    rw [execute_noFaults_tree, execute_noFaults_tree]
    rw [execute_fst]
    rcases @exists_clearAll platform roots plan.tier machine (executed platform.os plan faults) with
      ⟨cuts, items, treeEq⟩
    rw [treeEq]
    apply clearAll_converges targets_target settled
    intro step mem
    rw [map_fst_executed] at items
    rw [← items]
    exact List.mem_map_of_mem mem

/-! ## What is absent afterwards -/

/-- Nothing is on a machine that is not on the other one. -/
structure Machine.Sub (machine other : Machine) : Prop where
  tree : machine.tree.Sub other.tree
  registered : machine.registered = true → other.registered = true
  keys : ∀ key ∈ machine.keys, key ∈ other.keys

theorem Machine.Sub.refl (machine : Machine) : machine.Sub machine :=
  ⟨Tree.Sub.refl machine.tree, id, fun _ mem => mem⟩

theorem Machine.Sub.trans {first second third : Machine} (left : first.Sub second)
    (right : second.Sub third) : first.Sub third :=
  ⟨left.tree.trans right.tree, right.registered ∘ left.registered,
    fun key mem => right.keys key (left.keys key mem)⟩

/-- An entry takes the registration of the service, where there is no file for it. -/
def dropsService (platform : Platform) (tier : PurgeTier) (entry : PurgeEntry)
    (fault : Option (Region Name)) : Bool :=
  tier.includes entry.tier && entry.kind = .service && platform.unitFile.isNone &&
    (entry.name.filter fun name => !isBlank name).isSome && fault.isNone

/-- An entry takes a key of the registry. -/
def dropsKey (platform : Platform) (tier : PurgeTier) (entry : PurgeEntry)
    (fault : Option (Region Name)) (key : List String) : Bool :=
  tier.includes entry.tier && entry.kind = .registry && platform.os = .windows && fault.isNone &&
    (entry.key.filter fun key => !isBlank key).any fun top =>
      isRemovableKey top && (keyPath top).isPrefixOf key

theorem executeEntry_registered :
    (executeEntry platform roots tier machine entry fault).1.registered
      = (machine.registered && !dropsService platform tier entry fault) := by
  unfold executeEntry dropsService
  split
  · next included =>
    cases kind : entry.kind with
    | file | dir =>
        dsimp only
        split
        · simp
        · simp
    | service =>
        dsimp only
        cases named : entry.name.filter fun name => !isBlank name with
        | none => simp
        | some name =>
            unfold uninstallService
            cases platform.unitFile with
            | some unit => simp
            | none =>
                cases fault with
                | some taken => simp
                | none => cases registered : machine.registered <;> simp [registered, included]
    | registry =>
        dsimp only
        unfold removeRegistry deleteRegistryKey
        split
        · simp
        · split
          · simp
          · split
            · simp
            · split
              · simp
              · split
                · simp
                · simp
  · next excluded => simp [excluded]

theorem executeEntry_keys :
    (executeEntry platform roots tier machine entry fault).1.keys
      = machine.keys.filter fun key => !dropsKey platform tier entry fault key := by
  unfold executeEntry dropsKey
  split
  · next included =>
    cases kind : entry.kind with
    | file | dir =>
        dsimp only
        split
        · simp
        · simp
    | service =>
        dsimp only
        unfold uninstallService
        split
        · simp
        · split
          · simp
          · split
            · simp
            · split
              · simp
              · simp
    | registry =>
        dsimp only
        unfold removeRegistry deleteRegistryKey
        cases entry.key.filter fun key => !isBlank key with
        | none => simp
        | some top =>
            by_cases known : isRemovableKey top = true
            · by_cases onWindows : platform.os = .windows
              · cases fault with
                | some taken => simp [known, onWindows]
                | none =>
                    by_cases here : (machine.keys.any fun key => (keyPath top).isPrefixOf key) = true
                    · simp [known, onWindows, here, included]
                    · have gone : ∀ key ∈ machine.keys, (keyPath top).isPrefixOf key = false := by
                        intro key mem
                        rw [Bool.eq_false_iff]
                        intro leads
                        exact here (List.any_eq_true.mpr ⟨key, mem, leads⟩)
                      rw [List.filter_eq_self.mpr]
                      · simp [known, onWindows, here]
                      · intro key mem
                        simp [gone key mem]
              · simp [known, onWindows]
            · simp [known]
  · next excluded => simp [excluded]

theorem executeEntry_sub :
    (executeEntry platform roots tier machine entry fault).1.Sub machine := by
  refine ⟨?_, ?_, ?_⟩
  · rw [executeEntry_tree]
    exact clear_sub entry _
  · rw [executeEntry_registered, Bool.and_eq_true]
    exact And.left
  · rw [executeEntry_keys]
    intro key mem
    exact (List.mem_filter.mp mem).1

theorem executeAll_sub (steps : List (PurgeEntry × Option (Region Name))) :
    (executeAll platform roots tier machine steps).1.Sub machine := by
  induction steps generalizing machine with
  | nil => exact Machine.Sub.refl machine
  | cons first rest ih => exact ih.trans executeEntry_sub

theorem Machine.ext {first second : Machine} (tree : first.tree = second.tree)
    (registered : first.registered = second.registered) (keys : first.keys = second.keys) :
    first = second := by
  cases first
  cases second
  cases tree
  cases registered
  cases keys
  rfl

/-- An entry changes nothing where it has been executed without a failure. -/
theorem executeEntry_again
    (sub : later.Sub (executeEntry platform roots tier machine entry none).1) :
    (executeEntry platform roots tier later entry none).1 = later := by
  rcases sub with ⟨subTree, subRegistered, subKeys⟩
  apply Machine.ext
  · rw [executeEntry_tree, loses_none] at subTree
    rw [executeEntry_tree, loses_none]
    exact clear_of_sub_clear targets_target subTree none
  · rw [executeEntry_registered, Bool.and_eq_true] at subRegistered
    rw [executeEntry_registered]
    cases registered : later.registered with
    | false => rfl
    | true => rw [(subRegistered registered).2]; rfl
  · rw [executeEntry_keys] at subKeys
    rw [executeEntry_keys, List.filter_eq_self]
    intro key mem
    exact (List.mem_filter.mp (subKeys key mem)).2

theorem removeAt_removed {spot : Spot Name} (removed : (removeAt tree spot fault).2 = .removed) :
    spot.whole = true ∧ (removeAt tree spot fault).1 = tree.without spot.region := by
  unfold removeAt at removed ⊢
  cases fault with
  | some taken => cases removed
  | none =>
      dsimp only at removed ⊢
      split at removed
      · next whole => exact ⟨whole, rfl⟩
      · cases removed

theorem removePath_absent {left : Links.Tree Name} {path : PathBuf} {kind : PurgeKind}
    (removed : (removePath platform tree path kind fault).2 = .removed)
    (sub : left.Sub (removePath platform tree path kind fault).1) :
    (removePath platform left path kind none).2 = .absent := by
  unfold removePath at removed sub
  cases reached : reach platform tree path with
  | error stop =>
      rw [reached] at removed
      cases stop with
      | missing => cases removed
      | blocked => cases removed
  | ok spot =>
      rw [reached] at removed sub
      dsimp only at removed sub
      cases found : tree.find spot.place with
      | none =>
          rw [found] at removed
          cases removed
      | some node =>
          rw [found] at removed sub
          dsimp only at removed sub
          by_cases isFit : fits kind node = true
          · rw [if_pos isFit] at removed sub
            rcases removeAt_removed removed with ⟨whole, after⟩
            rw [after] at sub
            have gone : left.find spot.place = none := by
              apply sub.find_eq_none
              rw [Tree.find_without, if_pos]
              exact Spot.holds_iff.mpr
                ⟨ne_nil_of_reach reached whole, List.prefix_refl _, Or.inl whole⟩
            unfold removePath
            rcases sameOrMissing_reach (sub.trans (Tree.without_sub tree _)) path with
              missing | same
            · rw [missing]
            · rw [same, reached]
              dsimp only
              rw [gone]
          · rw [if_neg isFit] at removed
            cases removed

theorem removeUnit_absent {left : Links.Tree Name} {unit : PathBuf}
    (removed : (removeUnit platform tree unit fault).2 = .removed)
    (sub : left.Sub (removeUnit platform tree unit fault).1) :
    (removeUnit platform left unit none).2 = .absent := by
  unfold removeUnit at removed sub
  cases followed : tree.follow platform.limit [] (unit.way platform.os) with
  | error stop =>
      rw [followed] at removed
      cases removed
  | ok final =>
      rw [followed] at removed sub
      cases located : tree.locate platform.limit (unit.way platform.os) with
      | error stop =>
          rw [located] at removed
          cases removed
      | ok place =>
          rw [located] at removed sub
          dsimp only at removed sub
          split at removed
          · cases removed
          · cases removed
          · next node notDir found =>
            rw [found] at sub
            cases fault with
            | some taken => cases removed
            | none =>
                have without : left.Sub (tree.without (Spot.mk place true).region) := by
                  cases node with
                  | dir => exact absurd rfl notDir
                  | file | link => exact sub
                have gone : left.find place = none := by
                  apply without.find_eq_none
                  rw [Tree.find_without, if_pos]
                  exact Spot.holds_iff.mpr
                    ⟨Tree.ne_nil_of_locate located, List.prefix_refl _, Or.inl rfl⟩
                have subTree := without.trans (Tree.without_sub tree _)
                rcases Tree.exists_last_of_locate located with ⟨last, isLast⟩
                unfold removeUnit
                cases leftFollowed : left.follow platform.limit [] (unit.way platform.os) with
                | error stop => rfl
                | ok final =>
                    rcases Tree.exists_locate_of_follow isLast leftFollowed with
                      ⟨other, otherLocated, there⟩
                    cases (subTree.locate_eq_ok otherLocated).symm.trans located
                    exact absurd gone there

theorem uninstallService_absent (removed : (uninstallService platform machine fault).2 = .removed)
    (sub : later.Sub (uninstallService platform machine fault).1) :
    (uninstallService platform later none).2 = .absent := by
  unfold uninstallService at removed sub ⊢
  cases unitEq : platform.unitFile with
  | some unit =>
      rw [unitEq] at removed sub
      exact removeUnit_absent removed sub.tree
  | none =>
      rw [unitEq] at removed sub
      dsimp only at removed sub ⊢
      split at removed
      · cases removed
      · next succeeded =>
        split at removed
        · next registered =>
          rw [if_neg succeeded, if_pos registered] at sub
          have gone : later.registered ≠ true := by
            intro still
            cases sub.registered still
          rw [if_neg (by simp), if_neg gone]
        · cases removed

theorem deleteRegistryKey_absent {key : String}
    (removed : (deleteRegistryKey machine key fault).2 = .removed)
    (sub : later.Sub (deleteRegistryKey machine key fault).1) :
    (deleteRegistryKey later key none).2 = .absent := by
  unfold deleteRegistryKey at removed sub ⊢
  split at removed
  · cases removed
  · next succeeded =>
    split at removed
    · next here =>
      rw [if_neg succeeded, if_pos here] at sub
      rw [if_neg (by simp), if_neg]
      intro still
      rcases List.any_eq_true.mp still with ⟨other, mem, leads⟩
      have kept := (List.mem_filter.mp (sub.keys other mem)).2
      rw [leads] at kept
      cases kept
    · cases removed

/-- What an entry has removed it finds absent as long as nothing comes back. -/
theorem executeEntry_absent
    (removed : (executeEntry platform roots tier machine entry fault).2 = .removed)
    (sub : later.Sub (executeEntry platform roots tier machine entry fault).1) :
    (executeEntry platform roots tier later entry none).2 = .absent := by
  unfold executeEntry at removed sub ⊢
  split at removed
  · next included =>
    rw [if_pos included] at sub ⊢
    cases kind : entry.kind with
    | file | dir =>
        rw [kind] at removed sub
        dsimp only at removed sub ⊢
        cases admitted : admittedPath platform.os roots entry.path with
        | error reason =>
            rw [admitted] at removed
            cases removed
        | ok path =>
            rw [admitted] at removed sub
            exact removePath_absent removed sub.tree
    | service =>
        rw [kind] at removed sub
        dsimp only at removed sub ⊢
        cases named : entry.name.filter fun name => !isBlank name with
        | none =>
            rw [named] at removed
            cases removed
        | some name =>
            rw [named] at removed sub
            exact uninstallService_absent removed sub
    | registry =>
        rw [kind] at removed sub
        dsimp only at removed sub ⊢
        unfold removeRegistry at removed sub ⊢
        split at removed
        · cases removed
        · next top named =>
          rw [named] at sub
          dsimp only at sub ⊢
          split at removed
          · cases removed
          · next known =>
            rw [if_neg known] at sub ⊢
            split at removed
            · cases removed
            · next onWindows =>
              rw [if_neg onWindows] at sub ⊢
              exact deleteRegistryKey_absent removed sub
  · cases removed

/-! ## Executing again -/

/-- A second execution changes nothing on what one without failures has left. -/
theorem executeAll_again {items : List PurgeEntry}
    (sub : later.Sub (executeAll platform roots tier machine (faultless items)).1) :
    (executeAll platform roots tier later (faultless items)).1 = later := by
  induction items generalizing machine later with
  | nil => rfl
  | cons first rest ih =>
      have stepped : (executeEntry platform roots tier later first none).1 = later :=
        executeEntry_again (sub.trans (executeAll_sub (faultless rest)))
      calc (executeAll platform roots tier later (faultless (first :: rest))).1
          = (executeAll platform roots tier
              (executeEntry platform roots tier later first none).1 (faultless rest)).1 := rfl
        _ = later := by
            rw [stepped]
            exact ih sub

/-- What one execution has removed a later one finds absent. -/
theorem executeAll_absent {steps : List (PurgeEntry × Option (Region Name))}
    {items : List PurgeEntry} (same : steps.map Prod.fst = items)
    (sub : later.Sub (executeAll platform roots tier machine steps).1) {index : Nat}
    (removed : (executeAll platform roots tier machine steps).2[index]? = some (entry, .removed)) :
    (executeAll platform roots tier later (faultless items)).2[index]?
      = some (entry, .absent) := by
  subst same
  induction steps generalizing machine later index with
  | nil => cases removed
  | cons first rest ih =>
      cases index with
      | zero =>
          have removedFirst : (first.1,
              (executeEntry platform roots tier machine first.1 first.2).2) = (entry, .removed) :=
            Option.some.inj removed
          rw [Prod.mk.injEq] at removedFirst
          have absent := executeEntry_absent removedFirst.2 (sub.trans (executeAll_sub rest))
          rw [← removedFirst.1, ← absent]
          rfl
      | succ index => exact ih (executeEntry_sub.trans sub) removed

theorem repeats (platform : Platform) (roots : List PathBuf) (plan : PurgePlan)
    (machine : Machine) : Repeats platform roots plan machine where
  idle := by
    rw [execute_fst, execute_fst, executed_noFaults]
    exact executeAll_again (Machine.Sub.refl _)
  absent := by
    intro faults index entry removed
    rw [execute_fst]
    unfold execute at removed ⊢
    split at removed
    · next sameVersion =>
      rw [if_pos sameVersion, executed_noFaults]
      exact executeAll_absent map_fst_executed (Machine.Sub.refl _) removed
    · rw [List.getElem?_map, Option.map_eq_some_iff] at removed
      rcases removed with ⟨other, -, refusal⟩
      cases refusal

/-- Uninstalling again finishes what failures have left, finds absent what was removed,
and a wider plan covers a narrower one, flat, exactly if the entries do not depend on what
others remove and what is named in a file goes with a directory. -/
theorem uninstall_converges_iff (platform : Platform) (roots : List PathBuf) (plan : PurgePlan)
    (machine : Machine) (host : Host) (request : PlanRequest) (receipt : Option Receipt)
    (found : List Candidate) :
    (Converges platform roots plan machine ∧ Repeats platform roots plan machine ∧
        Grows host request receipt found ∧ Flat (planOf host request receipt found)) ↔
      (Settled (target platform roots plan.tier) machine.tree (acted platform.os plan) ∧
        Encased (inTier host request.tier (collectCandidates host request receipt found).1)) := by
  constructor
  · rintro ⟨converges, -, -, flat⟩
    exact ⟨converges_iff_settled.mp converges, flat_iff.mp flat⟩
  · rintro ⟨settled, encased⟩
    exact ⟨converges_iff_settled.mpr settled, repeats platform roots plan machine,
      grows host request receipt found, flat_iff.mpr encased⟩

/-- A way to a file that goes through a link in a directory that is removed. -/
def linkedThrough : Links.Tree Name where
  nodes :=
    [([utf8 "usr"], .dir),
      ([utf8 "usr", utf8 "cloto"],
        .link true [.name (utf8 "opt"), .name (utf8 "cloto"), .name (utf8 "current")]),
      ([utf8 "opt"], .dir), ([utf8 "opt", utf8 "cloto"], .dir),
      ([utf8 "opt", utf8 "cloto", utf8 "current"], .link true [.name (utf8 "srv")]),
      ([utf8 "srv"], .dir), ([utf8 "srv", utf8 "kernel"], .file)]
  named := by decide +kernel
  distinct := by decide +kernel
  grounded := by decide +kernel

/-- A plan with a file and a directory that are apart. -/
def prefixAndBinary : PurgePlan where
  planVersion := planVersion
  tier := .application
  dataDir := absolute ["data"]
  entries :=
    [diskEntry .file (absolute ["usr", "cloto", "kernel"]),
      diskEntry .dir (absolute ["opt", "cloto"])]
  skipped := []

/-- Once the directory with the link is gone a file that could not be removed before is
taken to be absent. -/
theorem failed_file_left_behind :
    ¬ Converges linuxPlatform [absolute ["usr", "cloto"], absolute ["opt", "cloto"]]
      prefixAndBinary ⟨linkedThrough, false, []⟩ := by
  intro converges
  have order : executionOrder linuxPlatform.os prefixAndBinary = prefixAndBinary.entries := by
    unfold executionOrder orderForRemoval
    exact List.mergeSort_of_pairwise (by decide +kernel)
  have steps : ∀ faults, executed linuxPlatform.os prefixAndBinary faults
      = [(diskEntry .file (absolute ["usr", "cloto", "kernel"]), faults 0),
          (diskEntry .dir (absolute ["opt", "cloto"]), faults 1)] := by
    intro faults
    rw [executed, order]
    rfl
  have same := congrArg (fun tree => tree.find [utf8 "srv", utf8 "kernel"])
    (converges fun index => if index = 0 then some .nothing else none)
  simp only [execute_fst, steps] at same
  revert same
  decide +kernel

end ClotoCore.Defender
