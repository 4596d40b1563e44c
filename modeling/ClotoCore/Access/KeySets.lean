import ClotoCore.Encoding.Bytes
import ClotoCore.Sequence.Spaced
import ClotoCore.Transition.Run

/-!
# The key set of the edge

A sign-in is verified with a key set that is fetched and kept.  An assertion that names a
key which is not in the set has it fetched once more, unless it is fresh.  How fresh it is
is measured from the last fetch that succeeded, and looked at before the next one is sent.
-/

namespace ClotoCore.Access.KeySets

open ClotoCore.Encoding ClotoCore.Sequence ClotoCore.Transition

/-- `AccessError` -/
inductive AccessError where
  | notConfigured
  | notFromEdge
  | malformed (why : String)
  | unsupportedAlgorithm
  | unknownKey
  | badSignature
  | expired
  | notYetValid
  | wrongIssuer
  | wrongAudience
  | noIdentity
  | jwks (why : String)

/-- `JwtKey`: the modulus and the exponent. -/
structure JwtKey where
  n : Bytes
  e : Bytes

/-- The keys by their ids. -/
abbrev KeySet := List (String × JwtKey)

/-- The key with an id. -/
def KeySet.get (keys : KeySet) (kid : String) : Option JwtKey :=
  (keys.find? fun entry => entry.1 == kid).map Prod.snd

/-- `VerifiedIdentity` -/
structure VerifiedIdentity where
  email : String
  subject : String

/-- A token as `verify_assertion` reads it: the key that its header names, and what the
signature and the claims come to under that key. -/
structure Assertion where
  kid : Except AccessError String
  check : JwtKey → Except AccessError VerifiedIdentity
  malformed : kid ≠ .error .unknownKey
  known : ∀ key, check key ≠ .error .unknownKey

/-- `verify_assertion` -/
def verifyAssertion (token : Assertion) (keys : KeySet) : Except AccessError VerifiedIdentity := do
  let kid ← token.kid
  match keys.get kid with
  | some key => token.check key
  | none => throw .unknownKey

/-- The cached keys, with the time in milliseconds. -/
structure CachedKeys where
  keys : KeySet
  fetchedAt : Nat

/-- Where a sign-in is: about to look into the cache, or waiting for a fetch. -/
inductive Stage where
  | asking (force : Bool)
  | fetching (force : Bool) (fetch : Nat)
  | done (result : Except AccessError VerifiedIdentity)

/-- A verification on its way. -/
structure Attempt where
  token : Assertion
  stage : Stage

/-- How far a fetch has come. -/
inductive Status where
  | sent
  | succeeded
  | failed
  deriving DecidableEq

/-- An outbound fetch, and whether the key that its sign-in names was not in the key set.
Neither that nor its status is read by a step. -/
structure Fetch where
  sentAt : Nat
  unknown : Bool
  status : Status
  deriving DecidableEq

/-- The verifier: whether it is configured, and its cache. -/
structure State where
  configured : Bool
  now : Nat
  cache : Option CachedKeys
  attempts : List Attempt
  fetches : List Fetch

/-- `AccessVerifier::new`, or `with_keys` where keys are given. -/
def State.init (configured : Bool) (keys : Option KeySet) : State where
  configured := configured
  now := 0
  cache := keys.map fun keys => ⟨keys, 0⟩
  attempts := []
  fetches := []

/-- `JWKS_TTL` -/
def jwksTtl : Nat := 600000

/-- `JWKS_MIN_REFRESH_INTERVAL` -/
def jwksMinRefreshInterval : Nat := 60000

/-- A sign-in begins, looks at the cache, or gets what `fetch_jwks` has come to. -/
inductive Label where
  | wait (elapsed : Nat)
  | verify (token : Assertion) (loopback : Bool)
  | ask (n : Nat)
  | fetched (n : Nat) (result : Except AccessError KeySet)

/-- A sign-in goes on with a key set. -/
def Attempt.proceed (attempt : Attempt) (force : Bool) (keys : KeySet) : Attempt :=
  match verifyAssertion attempt.token keys with
  | .error .unknownKey =>
      { attempt with stage := if force then .done (.error .unknownKey) else .asking true }
  | result => { attempt with stage := .done result }

namespace State

/-- The verification is in a new stage. -/
def setAttempt (state : State) (n : Nat) (attempt : Attempt) : State :=
  { state with attempts := state.attempts.set n attempt }

/-- The cached keys that `keys` returns without a fetch. -/
def usable (state : State) (force : Bool) : Option KeySet :=
  (state.cache.filter fun cached =>
    let age := state.now - cached.fetchedAt
    force && age < jwksMinRefreshInterval || !force && age < jwksTtl).map CachedKeys.keys

/-- A sign-in names a key that is not in the current key set. -/
def isUnknown (state : State) (token : Assertion) : Bool :=
  match token.kid with
  | .ok kid => state.cache.all fun cached => (cached.keys.get kid).isNone
  | .error _ => false

/-- The beginning of `verify`. -/
def verify (state : State) (token : Assertion) (loopback : Bool) : State :=
  let stage := if !state.configured then .done (.error .notConfigured)
    else if !loopback then .done (.error .notFromEdge)
    else .asking false
  { state with attempts := state.attempts ++ [⟨token, stage⟩] }

/-- `keys` up to the fetch. -/
def ask (state : State) (n : Nat) (attempt : Attempt) (force : Bool) : State :=
  match state.usable force with
  | some keys => state.setAttempt n (attempt.proceed force keys)
  | none =>
      let sent : Fetch := ⟨state.now, state.isUnknown attempt.token, .sent⟩
      { state with fetches := state.fetches ++ [sent] }.setAttempt n
        { attempt with stage := .fetching force state.fetches.length }

/-- The fetch has come to a new status. -/
def setStatus (state : State) (fetch : Nat) (status : Status) : State :=
  { state with fetches := state.fetches.modify fetch fun sent => { sent with status := status } }

/-- `keys` after the fetch. -/
def fetched (state : State) (n : Nat) (attempt : Attempt) (force : Bool) (fetch : Nat) :
    Except AccessError KeySet → State
  | .ok keys =>
      ({ state with cache := some ⟨keys, state.now⟩ }.setStatus fetch .succeeded).setAttempt n
        (attempt.proceed force keys)
  | .error error =>
      (state.setStatus fetch .failed).setAttempt n <|
        match state.cache with
        | some cached => attempt.proceed force cached.keys
        | none => { attempt with stage := .done (.error error) }

end State

/-- One step. -/
def step : Action State Label
  | state, .wait elapsed => some { state with now := state.now + elapsed }
  | state, .verify token loopback => some (state.verify token loopback)
  | state, .ask n =>
      match state.attempts[n]? with
      | some attempt =>
          match attempt.stage with
          | .asking force => some (state.ask n attempt force)
          | _ => none
      | none => none
  | state, .fetched n result =>
      match state.attempts[n]? with
      | some attempt =>
          match attempt.stage with
          | .fetching force fetch => some (state.fetched n attempt force fetch result)
          | _ => none
      | none => none

/-- The time of a fetch for a key that was not in the key set. -/
def Fetch.unknownAt (fetch : Fetch) : Option Nat :=
  if fetch.unknown then some fetch.sentAt else none

/-- Sign-ins that name an unknown key send one fetch in any interval, and once a fetch has
succeeded there are keys. -/
structure Floored (state : State) : Prop where
  spaced : Spaced jwksMinRefreshInterval (state.fetches.filterMap Fetch.unknownAt)
  kept : (∃ fetch ∈ state.fetches, fetch.status = .succeeded) → state.cache.isSome

/-- Whether a sign-in that is about to look into the cache looks a second time. -/
def Stage.asks? : Stage → Option Bool
  | .asking force => some force
  | _ => none

/-- When a sign-in that names an unknown key finds the keys too old, each fetch that such
sign-ins have sent within the last interval has succeeded. -/
def Awaited (state : State) : Label → Prop
  | .ask n => ∀ attempt ∈ state.attempts[n]?, ∀ force ∈ attempt.stage.asks?,
      (state.usable force).isNone → state.isUnknown attempt.token = true →
        ∀ fetch ∈ state.fetches, fetch.unknown = true →
          state.now < fetch.sentAt + jwksMinRefreshInterval → fetch.status = .succeeded
  | _ => True

instance (state : State) : ∀ label, Decidable (Awaited state label)
  | .ask n => inferInstanceAs <| Decidable <|
      ∀ attempt ∈ state.attempts[n]?, ∀ force ∈ attempt.stage.asks?,
        (state.usable force).isNone → state.isUnknown attempt.token = true →
          ∀ fetch ∈ state.fetches, fetch.unknown = true →
            state.now < fetch.sentAt + jwksMinRefreshInterval → fetch.status = .succeeded
  | .wait _ | .verify _ _ | .fetched _ _ => isTrue trivial

/-- What every step of the cache keeps. -/
structure Carried (state : State) : Prop where
  floored : Floored state
  past : ∀ fetch ∈ state.fetches, fetch.sentAt ≤ state.now
  fresh : ∀ fetch ∈ state.fetches, fetch.status = .succeeded →
    ∃ cached ∈ state.cache, fetch.sentAt ≤ cached.fetchedAt

variable {state next : State} {label : Label} {n : Nat} {attempt : Attempt} {force : Bool}

/-- Keys that were fetched within the last interval are used. -/
theorem usable_of_recent {cached : CachedKeys} (isCached : state.cache = some cached)
    (recent : state.now < cached.fetchedAt + jwksMinRefreshInterval) :
    state.usable force = some cached.keys := by
  have young : state.now - cached.fetchedAt < jwksMinRefreshInterval ∧
      state.now - cached.fetchedAt < jwksTtl := by
    unfold jwksMinRefreshInterval at *
    unfold jwksTtl
    omega
  unfold State.usable
  rw [isCached]
  cases force <;> simp [Option.filter, young]

/-- A sign-in that may use no keys finds no fetch of the last interval that succeeded. -/
theorem Carried.not_recent (carried : Carried state) (unusable : state.usable force = none)
    {fetch : Fetch} (mem : fetch ∈ state.fetches) (succeeded : fetch.status = .succeeded) :
    fetch.sentAt + jwksMinRefreshInterval ≤ state.now := by
  rcases carried.fresh fetch mem succeeded with ⟨cached, isCached, after⟩
  by_contra recent
  have usable : state.usable force = some cached.keys := usable_of_recent isCached (by omega)
  rw [unusable] at usable
  cases usable

theorem mem_unknownAt_iff {time : Nat} :
    time ∈ state.fetches.filterMap Fetch.unknownAt ↔
      ∃ fetch ∈ state.fetches, fetch.unknown = true ∧ fetch.sentAt = time := by
  rw [List.mem_filterMap]
  constructor
  · rintro ⟨fetch, mem, sent⟩
    unfold Fetch.unknownAt at sent
    split at sent
    · next unknown => exact ⟨fetch, mem, unknown, Option.some.inj sent⟩
    · cases sent
  · rintro ⟨fetch, mem, unknown, rfl⟩
    exact ⟨fetch, mem, by rw [Fetch.unknownAt, if_pos unknown]⟩

theorem ask_of_unusable (unusable : state.usable force = none) :
    (state.ask n attempt force).fetches
        = state.fetches ++ [⟨state.now, state.isUnknown attempt.token, .sent⟩] ∧
      (state.ask n attempt force).cache = state.cache ∧
        (state.ask n attempt force).now = state.now := by
  unfold State.ask
  rw [unusable]
  exact ⟨rfl, rfl, rfl⟩

theorem ask_of_usable {keys : KeySet} (usable : state.usable force = some keys) :
    (state.ask n attempt force).fetches = state.fetches ∧
      (state.ask n attempt force).cache = state.cache ∧
        (state.ask n attempt force).now = state.now := by
  unfold State.ask
  rw [usable]
  exact ⟨rfl, rfl, rfl⟩

/-- Where the fetches, the cache and the time are as before, nothing is lost. -/
theorem Carried.congr (carried : Carried state)
    (same : next.fetches = state.fetches ∧ next.cache = state.cache ∧ next.now = state.now) :
    Carried next := by
  rcases same with ⟨fetches, cache, now⟩
  constructor
  · constructor
    · rw [fetches]
      exact carried.floored.spaced
    · rw [fetches, cache]
      exact carried.floored.kept
  · rw [fetches, now]
    exact carried.past
  · rw [fetches, cache]
    exact carried.fresh

theorem mem_setStatus {fetch : Fetch} {i : Nat} {status : Status}
    (mem : fetch ∈ (state.setStatus i status).fetches) :
    fetch ∈ state.fetches ∨ ∃ sent ∈ state.fetches, fetch = { sent with status := status } := by
  rcases List.getElem?_of_mem mem with ⟨m, there⟩
  simp only [State.setStatus, List.getElem?_modify, Option.map_eq_map,
    Option.map_eq_some_iff] at there
  rcases there with ⟨sent, here, same⟩
  have sentMem := List.mem_of_getElem? here
  split at same
  · exact Or.inr ⟨sent, sentMem, same.symm⟩
  · rw [← same]
    exact Or.inl sentMem

theorem unknownAt_setStatus (state : State) (i : Nat) (status : Status) :
    (state.setStatus i status).fetches.filterMap Fetch.unknownAt
      = state.fetches.filterMap Fetch.unknownAt := by
  have unread : ∀ fetch : Fetch, Fetch.unknownAt { fetch with status := status }
      = fetch.unknownAt := fun _ => rfl
  exact filterMap_modify unread state.fetches i

theorem Carried.sentAt_le {i : Nat} {status : Status} {fetch : Fetch}
    (carried : Carried state) (mem : fetch ∈ (state.setStatus i status).fetches) :
    fetch.sentAt ≤ state.now := by
  rcases mem_setStatus mem with here | ⟨sent, here, rfl⟩
  · exact carried.past fetch here
  · exact carried.past sent here

/-- A fetch that has succeeded replaces the keys. -/
theorem Carried.fetched_ok (carried : Carried state) (fetch : Nat) (keys : KeySet) :
    Carried (state.fetched n attempt force fetch (.ok keys)) := by
  constructor
  · constructor
    · have same := unknownAt_setStatus state fetch .succeeded
      exact same.symm ▸ carried.floored.spaced
    · intro
      rfl
  · intro sent mem
    have here : sent ∈ (state.setStatus fetch .succeeded).fetches := mem
    exact carried.sentAt_le here
  · intro sent mem _
    have here : sent ∈ (state.setStatus fetch .succeeded).fetches := mem
    exact ⟨⟨keys, state.now⟩, rfl, carried.sentAt_le here⟩

/-- A fetch that has failed leaves the keys. -/
theorem Carried.fetched_error (carried : Carried state) (fetch : Nat) (error : AccessError) :
    Carried (state.fetched n attempt force fetch (.error error)) := by
  have earlier : ∀ sent ∈ (state.setStatus fetch .failed).fetches, sent.status = .succeeded →
      sent ∈ state.fetches := by
    intro sent mem succeeded
    rcases mem_setStatus mem with here | ⟨other, -, rfl⟩
    · exact here
    · cases succeeded
  constructor
  · constructor
    · have same := unknownAt_setStatus state fetch .failed
      exact same.symm ▸ carried.floored.spaced
    · rintro ⟨sent, mem, succeeded⟩
      exact carried.floored.kept ⟨sent, earlier sent mem succeeded, succeeded⟩
  · intro sent mem
    have here : sent ∈ (state.setStatus fetch .failed).fetches := mem
    exact carried.sentAt_le here
  · intro sent mem succeeded
    exact carried.fresh sent (earlier sent mem succeeded) succeeded

/-- A fetch is sent in time exactly if the ones of the last interval have succeeded. -/
theorem Carried.spaced_ask_iff (carried : Carried state) (unusable : state.usable force = none) :
    Spaced jwksMinRefreshInterval ((state.ask n attempt force).fetches.filterMap Fetch.unknownAt) ↔
      (state.isUnknown attempt.token = true → ∀ fetch ∈ state.fetches, fetch.unknown = true →
        state.now < fetch.sentAt + jwksMinRefreshInterval → fetch.status = .succeeded) := by
  have spaced := carried.floored.spaced
  rw [(ask_of_unusable unusable).1, List.filterMap_append]
  cases unknown : state.isUnknown attempt.token with
  | false =>
      have none : [(⟨state.now, false, .sent⟩ : Fetch)].filterMap Fetch.unknownAt = [] := rfl
      rw [none, List.append_nil]
      constructor
      · intro _ known
        cases known
      · intro
        exact spaced
  | true =>
      have one : [(⟨state.now, true, .sent⟩ : Fetch)].filterMap Fetch.unknownAt = [state.now] := rfl
      rw [one, spaced_append_iff (by decide)]
      · constructor
        · rintro ⟨-, apart⟩ _ fetch mem isUnknown recent
          have far := apart fetch.sentAt (mem_unknownAt_iff.mpr ⟨fetch, mem, isUnknown, rfl⟩)
          omega
        · intro awaited
          refine ⟨spaced, ?_⟩
          intro time mem
          rcases mem_unknownAt_iff.mp mem with ⟨fetch, here, isUnknown, rfl⟩
          by_contra recent
          have succeeded := awaited rfl fetch here isUnknown (by omega)
          exact recent (carried.not_recent unusable here succeeded)
      · intro time mem
        rcases mem_unknownAt_iff.mp mem with ⟨fetch, here, -, rfl⟩
        exact carried.past fetch here

theorem Carried.ask (carried : Carried state)
    (spaced : Spaced jwksMinRefreshInterval
      ((state.ask n attempt force).fetches.filterMap Fetch.unknownAt)) :
    Carried (state.ask n attempt force) := by
  cases usable : state.usable force with
  | some keys => exact carried.congr (ask_of_usable usable)
  | none =>
      have asked : (state.ask n attempt force).fetches
            = state.fetches ++ [⟨state.now, state.isUnknown attempt.token, .sent⟩] ∧
          (state.ask n attempt force).cache = state.cache ∧
            (state.ask n attempt force).now = state.now := ask_of_unusable usable
      rcases asked with ⟨fetches, cache, now⟩
      have earlier : ∀ fetch ∈ (state.ask n attempt force).fetches, fetch.status = .succeeded →
          fetch ∈ state.fetches := by
        intro fetch mem succeeded
        rw [fetches] at mem
        rcases List.mem_append.mp mem with here | this
        · exact here
        · rw [List.mem_singleton.mp this] at succeeded
          cases succeeded
      constructor
      · refine ⟨spaced, ?_⟩
        rintro ⟨fetch, mem, succeeded⟩
        rw [cache]
        exact carried.floored.kept ⟨fetch, earlier fetch mem succeeded, succeeded⟩
      · intro fetch mem
        rw [fetches] at mem
        rw [now]
        rcases List.mem_append.mp mem with here | this
        · exact carried.past fetch here
        · cases List.mem_singleton.mp this
          exact Nat.le_refl _
      · intro fetch mem succeeded
        rw [cache]
        exact carried.fresh fetch (earlier fetch mem succeeded) succeeded

/-- A step keeps everything if it keeps the distance of the fetches. -/
theorem Carried.step (carried : Carried state) (stepEq : KeySets.step state label = some next)
    (spaced : Spaced jwksMinRefreshInterval (next.fetches.filterMap Fetch.unknownAt)) :
    Carried next := by
  cases label with
  | wait elapsed =>
      cases stepEq
      refine ⟨⟨carried.floored.spaced, carried.floored.kept⟩, ?_, carried.fresh⟩
      intro fetch mem
      exact Nat.le_trans (carried.past fetch mem) (Nat.le_add_right _ _)
  | verify token loopback =>
      cases stepEq
      exact carried.congr ⟨rfl, rfl, rfl⟩
  | ask n =>
      simp only [KeySets.step] at stepEq
      split at stepEq
      · split at stepEq
        · cases stepEq
          exact carried.ask spaced
        · cases stepEq
      · cases stepEq
  | fetched n result =>
      simp only [KeySets.step] at stepEq
      split at stepEq
      · split at stepEq
        · next force fetch _ =>
          cases stepEq
          cases result with
          | ok keys => exact carried.fetched_ok fetch keys
          | error error => exact carried.fetched_error fetch error
        · cases stepEq
      · cases stepEq

/-- A step keeps the distance of the fetches exactly if it waits for the last ones. -/
theorem Carried.spaced_step_iff (carried : Carried state)
    (stepEq : KeySets.step state label = some next) :
    Spaced jwksMinRefreshInterval (next.fetches.filterMap Fetch.unknownAt) ↔
      Awaited state label := by
  have spaced := carried.floored.spaced
  cases label with
  | wait elapsed =>
      cases stepEq
      exact ⟨fun _ => trivial, fun _ => spaced⟩
  | verify token loopback =>
      cases stepEq
      exact ⟨fun _ => trivial, fun _ => spaced⟩
  | ask n =>
      simp only [KeySets.step] at stepEq
      split at stepEq
      · next attempt there =>
        split at stepEq
        · next force asking =>
          cases stepEq
          have asks : attempt.stage.asks? = some force := by
            rw [asking]
            rfl
          have met : Awaited state (.ask n) ↔ ((state.usable force).isNone →
              state.isUnknown attempt.token = true → ∀ fetch ∈ state.fetches,
                fetch.unknown = true → state.now < fetch.sentAt + jwksMinRefreshInterval →
                  fetch.status = .succeeded) := by
            constructor
            · intro awaited
              exact awaited attempt there force asks
            · intro awaited other otherThere otherForce otherAsks
              cases Option.some.inj (there.symm.trans otherThere)
              cases Option.some.inj (asks.symm.trans otherAsks)
              exact awaited
          rw [met]
          cases usable : state.usable force with
          | some keys =>
              rw [(ask_of_usable usable).1]
              simp [spaced]
          | none =>
              rw [carried.spaced_ask_iff usable]
              simp
        · cases stepEq
      · cases stepEq
  | fetched n result =>
      have after := carried.step stepEq
      simp only [KeySets.step] at stepEq
      split at stepEq
      · split at stepEq
        · next force fetch _ =>
          cases stepEq
          refine ⟨fun _ => trivial, fun _ => ?_⟩
          cases result with
          | ok keys => exact (carried.fetched_ok fetch keys).floored.spaced
          | error error => exact (carried.fetched_error fetch error).floored.spaced
        · cases stepEq
      · cases stepEq

theorem carried_init (configured : Bool) (keys : Option KeySet) :
    Carried (.init configured keys) where
  floored := by
    constructor
    · intro start
      exact Nat.zero_le 1
    · rintro ⟨fetch, mem, -⟩
      cases mem
  past _ mem := by cases mem
  fresh _ mem := by cases mem

/-- Throughout a run the sign-ins that name unknown keys send at most one fetch in any
interval, and keys are kept, exactly if such a sign-in never fetches while a fetch that
another sent within the last interval is under way or has failed. -/
theorem floored_throughout_iff {configured : Bool} {keys : Option KeySet} {labels : List Label}
    {target : State} (ran : run step (.init configured keys) labels = some target) :
    (∀ count middle, run step (.init configured keys) (labels.take count) = some middle →
        Floored middle) ↔
      Along step Awaited (.init configured keys) labels := by
  have floored : ∀ ⦃state⦄, Carried state → Floored state := fun _ carried => carried.floored
  apply throughout_iff_along_of floored _ _ (carried_init configured keys) ran
  · intro state label next carried awaited stepEq
    exact carried.step stepEq ((carried.spaced_step_iff stepEq).mpr awaited)
  · intro state label next carried stepEq after
    exact (carried.spaced_step_iff stepEq).mp after.spaced

/-- A token that names a key, and passes under any. -/
def naming (kid : String) : Assertion where
  kid := .ok kid
  check _ := .ok ⟨"operator@example.com", ""⟩
  malformed := by simp
  known _ := by simp

/-- A sign-in whose key is found by a second fetch, a minute after the first. -/
theorem floored_rotation :
    ∃ target, run step (.init true (some [("old", ⟨[], []⟩)]))
        [.wait 60000, .verify (naming "new") true, .ask 0, .ask 0,
          .fetched 0 (.ok [("new", ⟨[], []⟩)])] = some target ∧ Floored target := by
  have runs : (run step (.init true (some [("old", ⟨[], []⟩)]))
      [.wait 60000, .verify (naming "new") true, .ask 0, .ask 0,
        .fetched 0 (.ok [("new", ⟨[], []⟩)])]).isSome = true := by decide +kernel
  rcases Option.isSome_iff_exists.mp runs with ⟨target, ran⟩
  exact ⟨target, ran, (floored_throughout_iff ran).mpr (by decide +kernel) 5 target ran⟩

/-- Where the fetch fails, each sign-in sends another. -/
theorem failing_fetches_repeated :
    ¬ ∀ configured keys labels target,
      run step (.init configured keys) labels = some target → Floored target := by
  intro floored
  let labels : List Label := [.verify (naming "a") true, .ask 0, .fetched 0 (.error (.jwks "")),
    .verify (naming "b") true, .ask 1]
  have runs : (run step (.init true none) labels).isSome = true := by decide +kernel
  rcases Option.isSome_iff_exists.mp runs with ⟨target, ran⟩
  have two : (run step (.init true none) labels).map
      (fun target => target.fetches.filterMap Fetch.unknownAt) = some [0, 0] := rfl
  rw [ran, Option.map_some] at two
  have few := (floored true none labels target ran).spaced 0
  rw [Option.some.inj two] at few
  exact absurd few (by decide)

end ClotoCore.Access.KeySets
