import Mathlib.Data.List.Nodup
import ClotoCore.Access.AdminKeys

/-!
# Retired keys

A run that leaves nothing behind keeps apart the keys that have been live, the keys that
have been retired, and the keys that are still to be swapped in.  So no request is admitted
on a key that has been retired.
-/

namespace ClotoCore.Access.AdminKeys

open ClotoCore.Transition

/-! ## What a run keeps -/

/-- How a regeneration stands to the keys that have been live. -/
def Regeneration.Apart (seen : Key → Prop) (live : Option Key) (regeneration : Regeneration) :
    Prop :=
  match regeneration.stage with
  | .generated | .written | .persisted => ¬ seen regeneration.key
  | .swapped old => ∀ key ∈ old, seen key ∧ live ≠ some key
  | .ended => True

/-- What holds in a state where `seen` are the keys that have been live. -/
structure Sound (seen : Key → Prop) (state : State) : Prop where
  stays : Stays state.log
  retired : ∀ event ∈ state.log, ∀ key ∈ event.retired?, seen key
  made : ∀ key, seen key → key < state.fresh
  stored : ∀ key, state.environment = some key ∨ state.file = some key ∨
    state.temporary = some (some key) → key < state.fresh
  live : ∀ key ∈ state.adminApiKey, seen key ∧ Event.replaced key ∉ state.log ∧
    (Event.invalidated key ∈ state.log → key ∈ state.revokedKeys)
  sessions : ∀ session ∈ state.sessions, state.now < session.expiresAt →
    ∀ key ∈ session.key, Event.replaced key ∉ state.log ∧
      (Event.invalidated key ∈ state.log → state.adminApiKey = some key)
  invalidations : ∀ invalidation ∈ state.invalidations, seen invalidation.key
  regenerations : ∀ regeneration ∈ state.regenerations, regeneration.key < state.fresh ∧
    regeneration.Apart seen state.adminApiKey
  distinct : (state.regenerations.map Regeneration.key).Nodup

/-- Where no key is persisted that is still to be swapped in, the file has the live key. -/
def Settles (state : State) : Prop :=
  state.rotated = true →
    (∀ regeneration ∈ state.regenerations, regeneration.stage ≠ .persisted) →
      state.adminApiKey = state.file

variable {seen : Key → Prop} {state next : State} {label : Label} {request : Credentials}
  {check : Check} {key : Key} {n : Nat}

/-- What is admitted retires nothing. -/
theorem mem_append_admitted {event : Event} {on : Option Key} (retires : event.retired?.isSome) :
    event ∈ state.log ++ [.admitted on] ↔ event ∈ state.log := by
  rw [List.mem_append, List.mem_singleton]
  constructor
  · rintro (before | rfl)
    · exact before
    · cases retires
  · intro before
    exact Or.inl before

theorem not_mem_append_admitted {event : Event} {on : Option Key}
    (retires : event.retired?.isSome) :
    event ∉ state.log ++ [.admitted on] ↔ event ∉ state.log :=
  not_congr (mem_append_admitted retires)

/-- A key that may still be used has not been retired. -/
theorem Stays.admitted {log : List Event} {on : Option Key} (stays : Stays log)
    (valid : ∀ key ∈ on, Event.replaced key ∉ log ∧ Event.invalidated key ∉ log) :
    Stays (log ++ [.admitted on]) := by
  apply List.pairwise_append.mpr
  refine ⟨stays, List.pairwise_singleton _ _, ?_⟩
  intro earlier mem later isLast key retires
  rw [List.mem_singleton.mp isLast]
  intro same
  have isOn : on = some key := by
    injection same
  have unused := valid key isOn
  cases earlier with
  | admitted other => cases retires
  | invalidated other =>
      cases retires
      exact unused.2 mem
  | replaced other =>
      cases retires
      exact unused.1 mem

/-- Nothing is admitted when a key is retired. -/
theorem Stays.retire {log events : List Event} (stays : Stays log)
    (retire : ∀ event ∈ events, event.retired?.isSome) : Stays (log ++ events) := by
  have never : ∀ event ∈ events, ∀ on, event ≠ .admitted on := by
    rintro event mem on rfl
    cases retire _ mem
  apply List.pairwise_append.mpr
  refine ⟨stays, ?_, ?_⟩
  · apply List.pairwise_of_forall_mem_list
    intro _ _ later mem _ _
    exact never later mem _
  · intro _ _ later mem _ _
    exact never later mem _

theorem Sound.admitted {on : Option Key} (sound : Sound seen state)
    (valid : ∀ key ∈ on, Event.replaced key ∉ state.log ∧ Event.invalidated key ∉ state.log) :
    Sound seen { state with log := state.log ++ [.admitted on] } := by
  refine { sound with stays := ?_, retired := ?_, live := ?_, sessions := ?_ }
  · exact sound.stays.admitted valid
  · intro event mem key retires
    have before : event ∈ state.log := (mem_append_admitted (by rw [retires]; rfl)).mp mem
    exact sound.retired event before key retires
  · intro key isLive
    rw [not_mem_append_admitted rfl, mem_append_admitted rfl]
    exact sound.live key isLive
  · intro session mem unexpired key stands
    rw [not_mem_append_admitted rfl, mem_append_admitted rfl]
    exact sound.sessions session mem unexpired key stands

/-- A key that passes the check is the live one and has not been retired. -/
theorem Sound.of_check {header query : Option Key} {locked : Bool} (sound : Sound seen state)
    (passed : state.checkAuthWithQuery header query locked = true) :
    ∃ key, header.or query = some key ∧ state.adminApiKey = some key ∧
      Event.replaced key ∉ state.log ∧ Event.invalidated key ∉ state.log := by
  unfold State.checkAuthWithQuery at passed
  split at passed
  · next required provided isLive isProvided =>
    simp only [Bool.and_eq_true, beq_iff_eq, Bool.not_eq_true', List.contains_eq_mem,
      decide_eq_false_iff_not] at passed
    rcases passed with ⟨⟨rfl, -⟩, unrevoked⟩
    rcases sound.live provided isLive with ⟨-, unreplaced, revoked⟩
    exact ⟨provided, isProvided, isLive, unreplaced, fun retired => unrevoked (revoked retired)⟩
  · cases passed

/-- What authenticates a request by a session. -/
theorem authenticateBrowserSession_eq_some {cookie : Option Nat} {session : Session}
    (found : state.authenticateBrowserSession cookie = some (session, key)) :
    (∃ token ∈ cookie, session ∈ state.resolve token) ∧ state.adminApiKey = some key := by
  rcases Option.bind_eq_some_iff.mp found with ⟨resolved, isResolved, mapped⟩
  rcases Option.map_eq_some_iff.mp mapped with ⟨live, isLive, same⟩
  cases same
  rcases Option.bind_eq_some_iff.mp isResolved with ⟨token, isToken, here⟩
  exact ⟨⟨token, isToken, here⟩, isLive⟩

theorem resolve_eq_some {token : Nat} {session : Session}
    (found : state.resolve token = some session) :
    session ∈ state.sessions ∧ state.now < session.expiresAt := by
  rcases Option.filter_eq_some_iff.mp found with ⟨here, unexpired⟩
  exact ⟨List.mem_of_find?_eq_some here, of_decide_eq_true unexpired⟩

/-- What a request is admitted on has not been retired, and behind a check of the handler's
own its header has the live key. -/
theorem Sound.of_passes {on : Option Key} {admitted : Credentials} (sound : Sound seen state)
    (checked : Checked state request check) (isAdmitted : state.passes request check =
      some (on, admitted)) :
    (∀ key ∈ on, Event.replaced key ∉ state.log ∧ Event.invalidated key ∉ state.log) ∧
      (check = .checkAuth → ∃ key, admitted.header = some key ∧ seen key) := by
  rcases Option.filter_eq_some_iff.mp isAdmitted with ⟨layer, own⟩
  constructor
  · unfold State.authMiddleware at layer
    split at layer
    · next session live found =>
      cases layer
      rcases authenticateBrowserSession_eq_some found with ⟨⟨token, isToken, here⟩, isLive⟩
      rcases resolve_eq_some here with ⟨mem, unexpired⟩
      intro key stands
      rcases sound.sessions session mem unexpired key stands with ⟨unreplaced, revoked⟩
      refine ⟨unreplaced, ?_⟩
      intro retired
      -- the handler's own check sees the live key, which is the session's
      have same : live = key := by
        rw [revoked retired] at isLive
        exact (Option.some.inj isLive).symm
      subst same
      cases check with
      | unchecked => exact checked rfl token isToken session here live stands retired
      | checkAuth =>
          rcases sound.of_check own with ⟨provided, isProvided, -, -, unretired⟩
          cases isProvided
          exact unretired retired
      | checkAuthWithQuery =>
          rcases sound.of_check own with ⟨provided, isProvided, -, -, unretired⟩
          cases isProvided
          exact unretired retired
    · split at layer
      · next passed =>
        cases layer
        rcases sound.of_check passed with ⟨provided, isProvided, -, unretired⟩
        intro key stands
        rw [isProvided] at stands
        cases stands
        exact unretired
      · cases layer
  · rintro rfl
    rcases sound.of_check own with ⟨provided, isProvided, isLive, -⟩
    rw [Option.or_none] at isProvided
    exact ⟨provided, isProvided, (sound.live provided isLive).1⟩

/-- A request is refused, or its handler goes on in a state that is sound. -/
theorem Sound.serve {handler : State → Option Key → Credentials → State}
    (sound : Sound seen state) (checked : Checked state request check)
    (handled : ∀ middle on admitted, Sound seen middle →
      (check = .checkAuth → ∃ key, admitted.header = some key ∧ seen key) →
        Sound seen (handler middle on admitted)) :
    Sound seen (state.serve request check handler) := by
  unfold State.serve
  split
  · next on admitted isAdmitted =>
    have valid := sound.of_passes checked isAdmitted
    exact handled _ on admitted (sound.admitted valid.1) valid.2
  · exact sound

/-! ## Steps -/

theorem Sound.wait (sound : Sound seen state) (elapsed : Nat) :
    Sound seen { state with now := state.now + elapsed } := by
  refine { sound with sessions := ?_ }
  intro session mem unexpired
  have earlier : state.now < session.expiresAt :=
    Nat.lt_of_le_of_lt (Nat.le_add_right _ _) unexpired
  exact sound.sessions session mem earlier

theorem Sound.revoke (sound : Sound seen state) (cookie : Option Nat) :
    Sound seen (state.revoke cookie) := by
  cases cookie with
  | none => exact sound
  | some token =>
      refine { sound with sessions := ?_ }
      intro session mem
      exact sound.sessions session (List.mem_of_mem_filter mem)

/-- A session is minted on a key that may still be used. -/
theorem Sound.mint {on : Option Key} (sound : Sound seen state)
    (kept : ∀ key ∈ on, Event.replaced key ∉ state.log ∧
      (Event.invalidated key ∈ state.log → state.adminApiKey = some key)) :
    Sound seen (state.mint on) := by
  refine { sound with sessions := ?_ }
  intro session mem unexpired
  rcases List.mem_append.mp mem with before | isNew
  · exact sound.sessions session (List.mem_of_mem_filter before) unexpired
  · rw [List.mem_singleton.mp isNew]
    exact kept

theorem mem_modify_iff {α : Type} {xs : List α} {f : α → α} {x : α} :
    x ∈ xs.modify n f ↔ ∃ m y, xs[m]? = some y ∧ x = if n = m then f y else y := by
  rw [List.mem_iff_getElem?]
  constructor
  · rintro ⟨m, there⟩
    rw [List.getElem?_modify] at there
    rcases Option.map_eq_some_iff.mp there with ⟨y, here, same⟩
    exact ⟨m, y, here, same.symm⟩
  · rintro ⟨m, y, here, rfl⟩
    refine ⟨m, ?_⟩
    rw [List.getElem?_modify, here]
    rfl

theorem Sound.setInvalidation (sound : Sound seen state) (n : Nat) (stage : Revocation) :
    Sound seen (state.setInvalidation n stage) := by
  refine { sound with invalidations := ?_ }
  intro invalidation mem
  rcases mem_modify_iff.mp mem with ⟨m, before, here, rfl⟩
  have wasSeen := sound.invalidations before (List.mem_of_getElem? here)
  split
  · exact wasSeen
  · exact wasSeen

theorem Sound.beginInvalidation (sound : Sound seen state) (isSeen : seen key) :
    Sound seen (state.beginInvalidation (some key)) := by
  refine { sound with invalidations := ?_ }
  intro invalidation mem
  rcases List.mem_append.mp mem with before | isNew
  · exact sound.invalidations invalidation before
  · rw [List.mem_singleton.mp isNew]
    exact isSeen

theorem Sound.revokeApiKey (sound : Sound seen state) (key : Key) :
    Sound seen (state.revokeApiKey key) := by
  unfold State.revokeApiKey
  split
  · exact sound
  · exact { sound with }

/-- An invalidation takes effect where no session stands on a key that is not live. -/
theorem Sound.remember (sound : Sound seen state) (isSeen : seen key)
    (kept : state.adminApiKey ≠ some key → ∀ session ∈ state.sessions,
      state.now < session.expiresAt → session.key ≠ some key) :
    Sound seen { state with
      revokedKeys := key :: state.revokedKeys
      log := state.log ++ [.invalidated key] } := by
  have unreplaced : ∀ other, Event.replaced other ∉ state.log →
      Event.replaced other ∉ state.log ++ [.invalidated key] := by
    intro other before mem
    rcases List.mem_append.mp mem with earlier | isLast
    · exact before earlier
    · cases List.mem_singleton.mp isLast
  have invalidated : ∀ other, Event.invalidated other ∈ state.log ++ [.invalidated key] →
      Event.invalidated other ∈ state.log ∨ other = key := by
    intro other mem
    rcases List.mem_append.mp mem with earlier | isLast
    · exact Or.inl earlier
    · cases List.mem_singleton.mp isLast
      exact Or.inr rfl
  refine { sound with stays := ?_, retired := ?_, live := ?_, sessions := ?_ }
  · apply sound.stays.retire
    intro event mem
    rw [List.mem_singleton.mp mem]
    rfl
  · intro event mem other retires
    rcases List.mem_append.mp mem with earlier | isLast
    · exact sound.retired event earlier other retires
    · rw [List.mem_singleton.mp isLast] at retires
      cases retires
      exact isSeen
  · intro live isLive
    rcases sound.live live isLive with ⟨liveSeen, before, revoked⟩
    refine ⟨liveSeen, unreplaced live before, ?_⟩
    intro mem
    rcases invalidated live mem with earlier | rfl
    · exact List.mem_cons_of_mem _ (revoked earlier)
    · exact List.mem_cons_self
  · intro session mem unexpired other stands
    rcases sound.sessions session mem unexpired other stands with ⟨before, isLive⟩
    refine ⟨unreplaced other before, ?_⟩
    intro retired
    rcases invalidated other retired with earlier | rfl
    · exact isLive earlier
    · by_contra dead
      exact kept dead session mem unexpired stands

theorem Sound.beginRegeneration (sound : Sound seen state) :
    Sound seen state.beginRegeneration := by
  refine { sound with made := ?_, stored := ?_, regenerations := ?_, distinct := ?_ }
  · intro key isSeen
    exact Nat.lt_succ_of_lt (sound.made key isSeen)
  · intro key there
    exact Nat.lt_succ_of_lt (sound.stored key there)
  · intro regeneration mem
    rcases List.mem_append.mp mem with before | isNew
    · have old := sound.regenerations regeneration before
      exact ⟨Nat.lt_succ_of_lt old.1, old.2⟩
    · rw [List.mem_singleton.mp isNew]
      exact ⟨Nat.lt_succ_self _, fun isSeen => Nat.lt_irrefl _ (sound.made _ isSeen)⟩
  · have appended : state.beginRegeneration.regenerations.map Regeneration.key
        = state.regenerations.map Regeneration.key ++ [state.fresh] := List.map_append
    rw [appended, List.nodup_append]
    refine ⟨sound.distinct, by simp, ?_⟩
    intro key mem last isLast
    rcases List.mem_map.mp mem with ⟨regeneration, here, rfl⟩
    rw [List.mem_singleton.mp isLast]
    exact Nat.ne_of_lt (sound.regenerations regeneration here).1

theorem map_key_modify (regenerations : List Regeneration) (stage : Rotation) :
    (regenerations.modify n fun regeneration => { regeneration with stage := stage }).map
      Regeneration.key = regenerations.map Regeneration.key := by
  apply List.ext_getElem?
  intro m
  rw [List.getElem?_map, List.getElem?_map, List.getElem?_modify]
  cases regenerations[m]? with
  | none => rfl
  | some regeneration =>
      simp only [Option.map_eq_map, Option.map_some]
      split <;> rfl

/-- Regenerations at two places have two keys. -/
theorem Sound.key_ne (sound : Sound seen state) {m : Nat} {first second : Regeneration}
    (isFirst : state.regenerations[n]? = some first)
    (isSecond : state.regenerations[m]? = some second) (apart : n ≠ m) :
    second.key ≠ first.key := by
  intro same
  have firstKey : (state.regenerations.map Regeneration.key)[n]? = some first.key := by
    rw [List.getElem?_map, isFirst]
    rfl
  have secondKey : (state.regenerations.map Regeneration.key)[m]? = some first.key := by
    rw [List.getElem?_map, isSecond, ← same]
    rfl
  have within := (List.getElem?_eq_some_iff.mp firstKey).1
  exact apart ((List.getElem?_inj within sound.distinct).mp (firstKey.trans secondKey.symm))

/-- A regeneration goes on, while the keys stay as they are. -/
theorem Sound.setRegeneration {regeneration : Regeneration} {stage : Rotation}
    (sound : Sound seen state) (there : state.regenerations[n]? = some regeneration)
    (apart : Regeneration.Apart seen state.adminApiKey { regeneration with stage := stage }) :
    Sound seen (state.setRegeneration n stage) := by
  refine { sound with regenerations := ?_, distinct := ?_ }
  · intro other mem
    rcases mem_modify_iff.mp mem with ⟨m, before, here, rfl⟩
    have old := sound.regenerations before (List.mem_of_getElem? here)
    split
    · next same =>
      subst same
      rw [there] at here
      cases here
      exact ⟨old.1, apart⟩
    · exact old
  · have same := map_key_modify (n := n) state.regenerations stage
    exact same.symm ▸ sound.distinct

/-- Nothing is persisted where nothing was, unless a regeneration comes to that. -/
theorem persisted_of_setRegeneration {regeneration : Regeneration} {stage : Rotation}
    (there : state.regenerations[n]? = some regeneration) (notYet : regeneration.stage ≠ .persisted)
    (none : ∀ other ∈ (state.setRegeneration n stage).regenerations, other.stage ≠ .persisted) :
    ∀ other ∈ state.regenerations, other.stage ≠ .persisted := by
  intro other mem
  rcases List.getElem?_of_mem mem with ⟨m, here⟩
  by_cases same : n = m
  · subst same
    rw [there] at here
    cases here
    exact notYet
  · apply none other
    apply mem_modify_iff.mpr
    exact ⟨m, other, here, (if_neg same).symm⟩

theorem Settles.setRegeneration {regeneration : Regeneration} {stage : Rotation}
    (settles : Settles state) (there : state.regenerations[n]? = some regeneration)
    (notYet : regeneration.stage ≠ .persisted) : Settles (state.setRegeneration n stage) := by
  intro rotated none
  exact settles rotated (persisted_of_setRegeneration there notYet none)

theorem Sound.writeTemporary {regeneration : Regeneration} {written : Bool}
    (sound : Sound seen state) (there : state.regenerations[n]? = some regeneration)
    (generated : regeneration.stage = .generated) :
    Sound seen (state.writeTemporary n regeneration.key written) := by
  have old := sound.regenerations regeneration (List.mem_of_getElem? there)
  have unseen : ¬ seen regeneration.key := by
    have apart := old.2
    rw [Regeneration.Apart, generated] at apart
    exact apart
  cases written with
  | true =>
      have middle : Sound seen { state with temporary := some (some regeneration.key) } := by
        refine { sound with stored := ?_ }
        rintro key (isEnvironment | isFile | isTemporary)
        · exact sound.stored key (Or.inl isEnvironment)
        · exact sound.stored key (Or.inr (Or.inl isFile))
        · cases isTemporary
          exact old.1
      exact middle.setRegeneration there unseen
  | false =>
      have middle : Sound seen { state with temporary := some none } := by
        refine { sound with stored := ?_ }
        rintro key (isEnvironment | isFile | isTemporary)
        · exact sound.stored key (Or.inl isEnvironment)
        · exact sound.stored key (Or.inr (Or.inl isFile))
        · cases isTemporary
      exact middle.setRegeneration there trivial

theorem Settles.writeTemporary {regeneration : Regeneration} {written : Bool}
    (settles : Settles state) (there : state.regenerations[n]? = some regeneration)
    (generated : regeneration.stage = .generated) :
    Settles (state.writeTemporary n regeneration.key written) := by
  have notYet : regeneration.stage ≠ .persisted := by
    rw [generated]
    intro same
    cases same
  intro rotated none
  cases written with
  | true => exact settles rotated (persisted_of_setRegeneration there notYet none)
  | false => exact settles rotated (persisted_of_setRegeneration there notYet none)

/-- The file becomes the temporary one, whosever key is in that. -/
theorem Sound.renameTemporary {regeneration : Regeneration} {renamed : Bool}
    (sound : Sound seen state) (there : state.regenerations[n]? = some regeneration)
    (written : regeneration.stage = .written) :
    Sound seen (state.renameTemporary n renamed) := by
  have unseen : ¬ seen regeneration.key := by
    have apart := (sound.regenerations regeneration (List.mem_of_getElem? there)).2
    rw [Regeneration.Apart, written] at apart
    exact apart
  unfold State.renameTemporary
  split
  · next content isTemporary =>
    split
    · have middle : Sound seen { state with file := content, temporary := none } := by
        refine { sound with stored := ?_ }
        rintro key (isEnvironment | isFile | isTemporary)
        · exact sound.stored key (Or.inl isEnvironment)
        · have isContent : content = some key := isFile
          rw [isContent] at isTemporary
          exact sound.stored key (Or.inr (Or.inr isTemporary))
        · cases isTemporary
      exact middle.setRegeneration there unseen
    · exact sound.setRegeneration there trivial
  · exact sound.setRegeneration there trivial

theorem Settles.renameTemporary {regeneration : Regeneration} {renamed : Bool}
    (settles : Settles state) (there : state.regenerations[n]? = some regeneration)
    (written : regeneration.stage = .written) : Settles (state.renameTemporary n renamed) := by
  have notYet : regeneration.stage ≠ .persisted := by
    rw [written]
    intro same
    cases same
  unfold State.renameTemporary
  split
  · split
    · intro _ none
      -- the key that is persisted now is still to be swapped in
      have persisted : { regeneration with stage := .persisted }
          ∈ state.regenerations.modify n fun other => { other with stage := .persisted } :=
        mem_modify_iff.mpr ⟨n, regeneration, there, (if_pos rfl).symm⟩
      exact absurd rfl (none _ persisted)
    · exact settles.setRegeneration there notYet
  · exact settles.setRegeneration there notYet

/-- A new key becomes live, where no session stands on an invalidated one. -/
theorem Sound.swap {regeneration : Regeneration} (sound : Sound seen state)
    (there : state.regenerations[n]? = some regeneration)
    (persisted : regeneration.stage = .persisted)
    (kept : ∀ session ∈ state.sessions, state.now < session.expiresAt → ∀ key ∈ session.key,
      Event.invalidated key ∉ state.log) :
    Sound (fun key => seen key ∨ key = regeneration.key) (state.swap n regeneration.key) := by
  have own := sound.regenerations regeneration (List.mem_of_getElem? there)
  have unseen : ¬ seen regeneration.key := by
    have apart := own.2
    rw [Regeneration.Apart, persisted] at apart
    exact apart
  have unretired : ∀ event ∈ state.log, event.retired? ≠ some regeneration.key := by
    intro event mem retires
    exact unseen (sound.retired event mem _ retires)
  constructor
  case stays => exact sound.stays
  case retired =>
    intro event mem key retires
    exact Or.inl (sound.retired event mem key retires)
  case made =>
    rintro key (isSeen | rfl)
    · exact sound.made key isSeen
    · exact own.1
  case stored => exact sound.stored
  case live =>
    rintro key ⟨⟩
    refine ⟨Or.inr rfl, ?_, ?_⟩
    · intro mem
      exact unretired _ mem rfl
    · intro mem
      exact absurd rfl (unretired _ mem)
  case sessions =>
    intro session mem unexpired key stands
    refine ⟨(sound.sessions session mem unexpired key stands).1, ?_⟩
    intro retired
    exact absurd retired (kept session mem unexpired key stands)
  case invalidations =>
    intro invalidation mem
    exact Or.inl (sound.invalidations invalidation mem)
  case regenerations =>
    intro other mem
    rcases mem_modify_iff.mp mem with ⟨m, before, here, rfl⟩
    split
    · next same =>
      subst same
      rw [there] at here
      cases here
      refine ⟨own.1, ?_⟩
      intro key isOld
      refine ⟨Or.inl (sound.live key isOld).1, ?_⟩
      intro isNew
      cases isNew
      exact unseen (sound.live _ isOld).1
    · next elsewhere =>
      have old := sound.regenerations before (List.mem_of_getElem? here)
      have distinct := sound.key_ne there here elsewhere
      refine ⟨old.1, ?_⟩
      rcases before with ⟨key, stage⟩
      cases stage with
      | generated => exact not_or.mpr ⟨old.2, distinct⟩
      | written => exact not_or.mpr ⟨old.2, distinct⟩
      | persisted => exact not_or.mpr ⟨old.2, distinct⟩
      | swapped replaced =>
          intro key isOld
          have wasLive := (old.2 key isOld).1
          refine ⟨Or.inl wasLive, ?_⟩
          intro isNew
          cases isNew
          exact unseen wasLive
      | ended => trivial
  case distinct =>
    have same := map_key_modify (n := n) state.regenerations (.swapped state.adminApiKey)
    exact same.symm ▸ sound.distinct

theorem settles_swap {regeneration : Regeneration}
    (there : state.regenerations[n]? = some regeneration)
    (kept : state.file = some regeneration.key ∨ ∃ other ∈ state.regenerations,
      other.stage = .persisted ∧ other.key ≠ regeneration.key) :
    Settles (state.swap n regeneration.key) := by
  intro _ none
  rcases kept with isFile | ⟨other, mem, persisted, distinct⟩
  · exact isFile.symm
  · rcases List.getElem?_of_mem mem with ⟨m, here⟩
    have elsewhere : n ≠ m := by
      rintro rfl
      rw [there] at here
      cases here
      exact distinct rfl
    have still : other ∈ (state.swap n regeneration.key).regenerations :=
      mem_modify_iff.mpr ⟨m, other, here, (if_neg elsewhere).symm⟩
    exact absurd persisted (none other still)

/-- The sessions are gone when the replaced key is retired. -/
theorem Sound.finish {regeneration : Regeneration} {old : Option Key} (sound : Sound seen state)
    (there : state.regenerations[n]? = some regeneration)
    (swapped : regeneration.stage = .swapped old) : Sound seen (state.finish n old) := by
  have apart : ∀ key ∈ old, seen key ∧ state.adminApiKey ≠ some key := by
    have own := (sound.regenerations regeneration (List.mem_of_getElem? there)).2
    rw [Regeneration.Apart, swapped] at own
    exact own
  have earlier : ∀ event ∈ state.log ++ (old.map Event.replaced).toList,
      event ∈ state.log ∨ ∃ key ∈ old, event = .replaced key := by
    intro event mem
    rcases List.mem_append.mp mem with before | isLast
    · exact Or.inl before
    · rcases Option.map_eq_some_iff.mp (Option.mem_toList.mp isLast) with ⟨key, isOld, same⟩
      exact Or.inr ⟨key, isOld, same.symm⟩
  have middle : Sound seen { state with
      sessions := []
      log := state.log ++ (old.map Event.replaced).toList } := by
    refine { sound with stays := ?_, retired := ?_, live := ?_, sessions := ?_ }
    · apply sound.stays.retire
      intro event mem
      rcases Option.map_eq_some_iff.mp (Option.mem_toList.mp mem) with ⟨key, -, rfl⟩
      rfl
    · intro event mem key retires
      rcases earlier event mem with before | ⟨other, isOld, rfl⟩
      · exact sound.retired event before key retires
      · cases retires
        exact (apart key isOld).1
    · intro key isLive
      rcases sound.live key isLive with ⟨isSeen, unreplaced, revoked⟩
      refine ⟨isSeen, ?_, ?_⟩
      · intro mem
        rcases earlier _ mem with before | ⟨other, isOld, same⟩
        · exact unreplaced before
        · cases same
          exact (apart key isOld).2 isLive
      · intro mem
        rcases earlier _ mem with before | ⟨other, -, same⟩
        · exact revoked before
        · cases same
    · intro session mem
      cases mem
  exact middle.setRegeneration there trivial

theorem Sound.cleanupRevokedKeys (sound : Sound seen state) (deleted read : Bool) :
    Sound seen (state.cleanupRevokedKeys deleted read) := by
  unfold State.cleanupRevokedKeys
  split
  · exact { sound with }
  · exact { sound with }

/-- The set is filled anew with what has the live key in it, if that is invalidated. -/
theorem Sound.refill {remaining : List Key} (sound : Sound seen state)
    (kept : ∀ key ∈ state.adminApiKey, Event.invalidated key ∈ state.log → key ∈ remaining) :
    Sound seen { state with revokedKeys := remaining, sweeping := none } := by
  refine { sound with live := ?_ }
  intro key isLive
  rcases sound.live key isLive with ⟨isSeen, unreplaced, -⟩
  exact ⟨isSeen, unreplaced, kept key isLive⟩

/-- A start with a key that was not replaced and, if it was invalidated, is in the set. -/
theorem Sound.restart {loaded : Bool} (sound : Sound seen state)
    (kept : ∀ key ∈ state.bootKey, Event.replaced key ∉ state.log ∧
      (Event.invalidated key ∈ state.log →
        loaded = true ∧ key ∈ state.rows.map Prod.fst)) :
    Sound (fun key => seen key ∨ state.bootKey = some key) (state.restart loaded) := by
  constructor
  case stays => exact sound.stays
  case retired =>
    intro event mem key retires
    exact Or.inl (sound.retired event mem key retires)
  case made =>
    rintro key (isSeen | isBoot)
    · exact sound.made key isSeen
    · apply sound.stored key
      rcases Option.or_eq_some_iff.mp isBoot with isEnvironment | ⟨-, isFile⟩
      · exact Or.inl isEnvironment
      · exact Or.inr (Or.inl isFile)
  case stored => exact sound.stored
  case live =>
    intro key isBoot
    rcases kept key isBoot with ⟨unreplaced, revoked⟩
    refine ⟨Or.inr isBoot, unreplaced, ?_⟩
    intro retired
    rcases revoked retired with ⟨rfl, inRows⟩
    exact inRows
  case sessions =>
    intro session mem
    cases mem
  case invalidations =>
    intro invalidation mem
    cases mem
  case regenerations =>
    intro regeneration mem
    cases mem
  case distinct => exact List.nodup_nil

/-! ## Runs -/

/-- What every step keeps: the state settles, and it is sound for some runs seen. -/
def Carried (state : State) : Prop :=
  Settles state ∧ ∃ seen, Sound seen state

theorem carried_init (environment file : Option Key) : Carried (.init environment file) := by
  refine ⟨fun rotated => (by cases rotated), fun key => environment.or file = some key, ?_⟩
  have within : ∀ key, environment = some key ∨ file = some key →
      key < max (environment.getD 0) (file.getD 0) + 1 := by
    rintro key (rfl | rfl)
    · exact Nat.lt_succ_of_le (Nat.le_max_left key (file.getD 0))
    · exact Nat.lt_succ_of_le (Nat.le_max_right (environment.getD 0) key)
  constructor
  case stays => exact List.Pairwise.nil
  case retired =>
    intro event mem
    cases mem
  case made =>
    intro key isBoot
    rcases Option.or_eq_some_iff.mp isBoot with isEnvironment | ⟨-, isFile⟩
    · exact within key (Or.inl isEnvironment)
    · exact within key (Or.inr isFile)
  case stored =>
    rintro key (isEnvironment | isFile | isTemporary)
    · exact within key (Or.inl isEnvironment)
    · exact within key (Or.inr isFile)
    · cases isTemporary
  case live =>
    intro key isLive
    refine ⟨isLive, ?_, ?_⟩
    · intro mem
      cases mem
    · intro mem
      cases mem
  case sessions =>
    intro session mem
    cases mem
  case invalidations =>
    intro invalidation mem
    cases mem
  case regenerations =>
    intro regeneration mem
    cases mem
  case distinct => exact List.nodup_nil

/-- What a handler begins leaves what is persisted as it is. -/
theorem settles_serve {handler : State → Option Key → Credentials → State}
    (settles : Settles state)
    (handled : ∀ middle on admitted, Settles middle → Settles (handler middle on admitted)) :
    Settles (state.serve request check handler) := by
  unfold State.serve
  split
  · exact handled _ _ _ settles
  · exact settles

theorem Settles.beginRegeneration (settles : Settles state) :
    Settles state.beginRegeneration := by
  intro rotated none
  apply settles rotated
  intro regeneration mem
  exact none regeneration (List.mem_append_left _ mem)

theorem Settles.revoke (settles : Settles state) (cookie : Option Nat) :
    Settles (state.revoke cookie) := by
  cases cookie with
  | none => exact settles
  | some token => exact settles

theorem Settles.beginInvalidation (settles : Settles state) (header : Option Key) :
    Settles (state.beginInvalidation header) := by
  cases header with
  | none => exact settles
  | some key => exact settles

theorem Carried.step (carried : Carried state) (kept : Kept state label)
    (stepEq : step state label = some next) : Carried next := by
  rcases carried with ⟨settles, seen, sound⟩
  cases label with
  | wait elapsed =>
      cases stepEq
      exact ⟨settles, seen, sound.wait elapsed⟩
  | request request check =>
      cases stepEq
      refine ⟨settles_serve settles fun _ _ _ settles => settles, seen, ?_⟩
      exact sound.serve kept fun _ _ _ sound _ => sound
  | signIn request =>
      cases stepEq
      refine ⟨settles_serve settles fun _ _ _ settles => settles, seen, ?_⟩
      exact sound.serve kept fun _ _ _ sound _ => { sound with }
  | accessSignIn cookie =>
      cases stepEq
      exact ⟨settles, seen, { sound with }⟩
  | clear n =>
      rcases Option.bind_eq_some_iff.mp stepEq with ⟨signIn, there, stepEq⟩
      split at stepEq
      · cases stepEq
        have revoked := sound.revoke signIn.cookie
        exact ⟨settles.revoke signIn.cookie, seen, { revoked with }⟩
      · cases stepEq
  | mint n =>
      rcases Option.bind_eq_some_iff.mp stepEq with ⟨signIn, there, stepEq⟩
      split at stepEq
      · cases stepEq
        have minted := sound.mint (kept signIn there)
        exact ⟨settles, seen, { minted with }⟩
      · cases stepEq
  | signOut request =>
      cases stepEq
      refine ⟨settles_serve settles fun _ _ _ settles => settles.revoke _, seen, ?_⟩
      exact sound.serve kept fun _ _ _ sound _ => sound.revoke _
  | invalidate request =>
      cases stepEq
      refine ⟨settles_serve settles fun _ _ _ settles => settles.beginInvalidation _, seen, ?_⟩
      apply sound.serve (fun unchecked => by cases unchecked)
      intro middle on admitted sound isChecked
      rcases isChecked rfl with ⟨key, isHeader, isSeen⟩
      rw [isHeader]
      exact sound.beginInvalidation isSeen
  | store n stored =>
      rcases Option.bind_eq_some_iff.mp stepEq with ⟨invalidation, there, stepEq⟩
      split at stepEq
      · cases stepEq
        split
        · refine ⟨?_, seen, (sound.revokeApiKey _).setInvalidation n .stored⟩
          unfold State.revokeApiKey
          split <;> exact settles
        · exact ⟨settles, seen, sound.setInvalidation n .ended⟩
      · cases stepEq
  | remember n =>
      rcases Option.bind_eq_some_iff.mp stepEq with ⟨invalidation, there, stepEq⟩
      split at stepEq
      · cases stepEq
        have isSeen := sound.invalidations invalidation (List.mem_of_getElem? there)
        have remembered := sound.remember isSeen (kept invalidation there)
        exact ⟨settles, seen, remembered.setInvalidation n .ended⟩
      · cases stepEq
  | regenerate request =>
      cases stepEq
      refine ⟨settles_serve settles fun _ _ _ settles => settles.beginRegeneration, seen, ?_⟩
      apply sound.serve (fun unchecked => by cases unchecked)
      intro middle on admitted sound _
      exact sound.beginRegeneration
  | write n written =>
      rcases Option.bind_eq_some_iff.mp stepEq with ⟨regeneration, there, stepEq⟩
      split at stepEq
      · next generated =>
        cases stepEq
        exact ⟨settles.writeTemporary there generated, seen, sound.writeTemporary there generated⟩
      · cases stepEq
  | rename n renamed =>
      rcases Option.bind_eq_some_iff.mp stepEq with ⟨regeneration, there, stepEq⟩
      split at stepEq
      · next written =>
        cases stepEq
        exact ⟨settles.renameTemporary there written, seen, sound.renameTemporary there written⟩
      · cases stepEq
  | swap n =>
      rcases Option.bind_eq_some_iff.mp stepEq with ⟨regeneration, there, stepEq⟩
      split at stepEq
      · next persisted =>
        cases stepEq
        rcases kept regeneration there with ⟨unstood, inFile⟩
        exact ⟨settles_swap there inFile, _, sound.swap there persisted unstood⟩
      · cases stepEq
  | finish n =>
      rcases Option.bind_eq_some_iff.mp stepEq with ⟨regeneration, there, stepEq⟩
      split at stepEq
      · next old swapped =>
        cases stepEq
        refine ⟨?_, seen, sound.finish there swapped⟩
        apply settles.setRegeneration there
        rw [swapped]
        intro same
        cases same
      · cases stepEq
  | abandon n =>
      rcases Option.bind_eq_some_iff.mp stepEq with ⟨regeneration, there, stepEq⟩
      split at stepEq
      · next old swapped =>
        cases stepEq
        refine ⟨?_, seen, sound.setRegeneration there trivial⟩
        apply settles.setRegeneration there
        rw [swapped]
        intro same
        cases same
      · cases stepEq
  | sweep deleted read =>
      cases stepEq
      refine ⟨?_, seen, sound.cleanupRevokedKeys deleted read⟩
      unfold State.cleanupRevokedKeys
      split <;> exact settles
  | refill =>
      rcases Option.map_eq_some_iff.mp stepEq with ⟨remaining, isSweeping, rfl⟩
      exact ⟨settles, seen, sound.refill (kept remaining isSweeping)⟩
  | restart loaded =>
      cases stepEq
      refine ⟨?_, _, sound.restart kept⟩
      intro rotated
      cases rotated

theorem Carried.retired (carried : Carried state) : Retired state := by
  rcases carried with ⟨settles, seen, sound⟩
  constructor
  · exact sound.stays
  · intro rotated ended
    apply settles rotated
    intro regeneration mem
    rw [ended regeneration mem]
    intro same
    cases same

/-- A retired key stays retired throughout a run that leaves nothing behind. -/
theorem retired_of_along {environment file : Option Key} {target : State} {labels : List Label}
    (along : Along step Kept (.init environment file) labels)
    (ran : run step (.init environment file) labels = some target) : Retired target := by
  have preserved : ∀ ⦃state label next⦄, Carried state → Kept state label →
      step state label = some next → Carried next :=
    fun _ _ _ carried kept stepEq => carried.step kept stepEq
  have carried := run_invariant_along Carried preserved (carried_init environment file) along ran
  exact carried.retired

instance (state : State) : Decidable (Retired state) :=
  have : Decidable (Stays state.log) := inferInstanceAs <| Decidable <|
    state.log.Pairwise fun earlier later =>
      ∀ key ∈ earlier.retired?, later ≠ .admitted (some key)
  decidable_of_iff (Stays state.log ∧ (state.rotated = true →
    (∀ regeneration ∈ state.regenerations, regeneration.stage = .ended) →
      state.adminApiKey = state.file)) ⟨fun both => ⟨both.1, both.2⟩, fun retired =>
        ⟨retired.stays, retired.settled⟩⟩

/-- A request that presents a key. -/
def Credentials.keyed (key : Key) : Credentials :=
  ⟨none, some key, none, false⟩

/-- A request with the cookie of a session. -/
def Credentials.ofCookie (token : Nat) : Credentials :=
  ⟨some token, none, none, false⟩

/-- The first regeneration since the start, with nothing between its steps. -/
def rotation (key : Key) : List Label :=
  [.regenerate (.keyed key), .write 0 true, .rename 0 true, .swap 0, .finish 0]

/-- A session of the key of the file, which is replaced; the new key is invalidated. -/
def rotationAndInvalidation : List Label :=
  ([.signIn (.keyed 0), .clear 0, .mint 0, .request (.ofCookie 0) .checkAuth] : List Label) ++
    rotation 0 ++
    ([.request (.ofCookie 0) .checkAuth, .invalidate (.keyed 1), .store 0 true, .remember 0,
      .sweep true true, .refill, .restart true, .request (.keyed 1) .checkAuth] : List Label)

theorem retired_rotationAndInvalidation :
    ∃ target, run step (.init none (some 0)) rotationAndInvalidation = some target ∧
      target.log = [.admitted (some 0), .admitted (some 0), .admitted (some 0), .replaced 0,
        .admitted (some 1), .invalidated 1] ∧ Retired target := by
  have runs : ((run step (.init none (some 0)) rotationAndInvalidation).map State.log)
      = some [.admitted (some 0), .admitted (some 0), .admitted (some 0), .replaced 0,
        .admitted (some 1), .invalidated 1] := by decide +kernel
  rcases Option.map_eq_some_iff.mp runs with ⟨target, ran, log⟩
  exact ⟨target, ran, log, retired_of_along (by decide +kernel) ran⟩

/-- The first invalidation since the start. -/
def invalidation (key : Key) : List Label :=
  [.invalidate (.keyed key), .store 0 true, .remember 0]

/-- What leaves a retired key behind: a sign-in is under way when the key is replaced; two
regenerations overlap; the row of an invalidated key is swept; a sweep has read the rows
before it was stored; the rows are not loaded; a session of it is used where the handler
makes no check. -/
def leftBehind : List (List Label) :=
  [([.signIn (.keyed 0), .clear 0] : List Label) ++ rotation 0 ++
      ([.mint 0, .request (.ofCookie 0) .checkAuth] : List Label),
    [.regenerate (.keyed 0), .regenerate (.keyed 0), .write 0 true, .rename 0 true,
      .write 1 true, .rename 1 true, .swap 1, .swap 0, .finish 0, .finish 1],
    invalidation 0 ++ ([.wait (revokedTtl + 1), .sweep true true, .refill,
      .request (.keyed 0) .checkAuth] : List Label),
    ([.sweep true true] : List Label) ++ invalidation 0 ++
      ([.refill, .request (.keyed 0) .checkAuth] : List Label),
    invalidation 0 ++ ([.restart false, .request (.keyed 0) .checkAuth] : List Label),
    ([.signIn (.keyed 0), .clear 0, .mint 0] : List Label) ++ invalidation 0 ++
      ([.request (.ofCookie 0) .unchecked] : List Label)]

/-- The key of the environment is live again after a restart, and a retired key can be left
behind. -/
theorem retired_key_admitted :
    (∃ target, run step (.init (some 0) none)
        (rotation 0 ++ [.restart true, .request (.keyed 0) .checkAuth]) = some target ∧
      ¬ Retired target) ∧
    ∀ labels ∈ leftBehind, ∃ target, run step (.init none (some 0)) labels = some target ∧
      ¬ Retired target := by
  have unretired : ∀ {state : State} {labels : List Label},
      (run step state labels).any (fun target => !decide (Retired target)) = true →
        ∃ target, run step state labels = some target ∧ ¬ Retired target := by
    intro state labels found
    rcases (Option.any_eq_true_iff_get _ _).mp found with ⟨runs, violated⟩
    exact ⟨_, Option.eq_some_of_isSome runs, by simpa using violated⟩
  constructor
  · apply unretired
    decide +kernel
  · have each : ∀ labels ∈ leftBehind, (run step (.init none (some 0)) labels).any
        (fun target => !decide (Retired target)) = true := by
      decide +kernel
    intro labels mem
    exact unretired (each labels mem)

end ClotoCore.Access.AdminKeys
