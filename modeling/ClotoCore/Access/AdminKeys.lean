import ClotoCore.Transition.Run

/-!
# The admin key and its retirement

The key that requests are checked against is in memory, and in a file or in the
environment for the next start.  A key that is invalidated has its fingerprint in a table
and in a set in memory, which a sweep brings together.  A browser session stands on the key
that its sign-in was authorised by.  All of these are changed in steps of their own.
-/

namespace ClotoCore.Access.AdminKeys

open ClotoCore.Transition

/-- A key, which stands for its fingerprint as well; keys are generated in order. -/
abbrev Key := Nat

/-- A browser session, by its token, with the key that its sign-in stood on.  The key is
not read by a step. -/
structure Session where
  token : Nat
  key : Option Key
  expiresAt : Nat

/-- `issue_session`: the previous session is to be revoked, the new one to be minted. -/
inductive Issue where
  | authorised
  | cleared
  | minted

/-- A request that may be answered with a session cookie. -/
structure SignIn where
  key : Option Key
  cookie : Option Nat
  stage : Issue

/-- `invalidate_api_key`: checked, then in the table, then in the set. -/
inductive Revocation where
  | checked
  | stored
  | ended
  deriving DecidableEq

/-- A request that revokes the key which it was sent with. -/
structure Invalidation where
  key : Key
  stage : Revocation

/-- `regenerate_api_key`: how far the new key has come, and at last which one it has
replaced. -/
inductive Rotation where
  | generated
  | written
  | persisted
  | swapped (old : Option Key)
  | ended
  deriving DecidableEq

/-- A request for a new key, with the key that it was sent with. -/
structure Regeneration where
  key : Key
  stage : Rotation

/-- What is observed: a request is admitted on the strength of a key, or of a session that
stands on it; an invalidation or a regeneration returns success. -/
inductive Event where
  | admitted (key : Option Key)
  | invalidated (key : Key)
  | replaced (key : Key)
  deriving DecidableEq

/-- The key that is retired from here on. -/
def Event.retired? : Event → Option Key
  | .admitted _ => none
  | .invalidated key | .replaced key => some key

/-- `AppState` as far as admin keys are concerned, the key of the environment, the `.env`
file with its temporary file (which a failed write leaves without a key), the table
`revoked_keys`, and the requests that are under way. -/
structure State where
  now : Nat
  fresh : Key
  environment : Option Key
  file : Option Key
  temporary : Option (Option Key)
  rows : List (Key × Nat)
  adminApiKey : Option Key
  revokedKeys : List Key
  sessions : List Session
  tokens : Nat
  signIns : List SignIn
  invalidations : List Invalidation
  regenerations : List Regeneration
  sweeping : Option (List Key)
  rotated : Bool
  log : List Event

/-- The key of the environment goes before that of the file. -/
def State.bootKey (state : State) : Option Key :=
  state.environment.or state.file

/-- The first start. -/
def State.init (environment file : Option Key) : State where
  now := 0
  fresh := max (environment.getD 0) (file.getD 0) + 1
  environment := environment
  file := file
  temporary := none
  rows := []
  adminApiKey := environment.or file
  revokedKeys := []
  sessions := []
  tokens := 0
  signIns := []
  invalidations := []
  regenerations := []
  sweeping := none
  rotated := false
  log := []

/-- What a request carries, and whether the set of revoked keys is locked when it is
checked. -/
structure Credentials where
  cookie : Option Nat
  header : Option Key
  query : Option Key
  locked : Bool

/-- The check that a handler makes of its own. -/
inductive Check where
  | unchecked
  | checkAuth
  | checkAuthWithQuery
  deriving DecidableEq

/-- `DEFAULT_TTL_MINUTES`, in milliseconds. -/
def defaultTtl : Nat := 480 * 60 * 1000

/-- The days that a revoked key is kept, in milliseconds. -/
def revokedTtl : Nat := 90 * 24 * 60 * 60 * 1000

/-! ## Requests -/

namespace State

/-- `resolve` -/
def resolve (state : State) (token : Nat) : Option Session :=
  (state.sessions.find? fun session => session.token == token).filter fun session =>
    state.now < session.expiresAt

/-- `check_auth_with_query`, in a release build. -/
def checkAuthWithQuery (state : State) (header query : Option Key) (locked : Bool) : Bool :=
  match state.adminApiKey, header.or query with
  | some required, some provided =>
      provided == required && !locked && !state.revokedKeys.contains provided
  | _, _ => false

/-- `check_auth` -/
def checkAuth (state : State) (header : Option Key) (locked : Bool) : Bool :=
  state.checkAuthWithQuery header none locked

/-- `authenticate_browser_session`: the session, and the live key for the header. -/
def authenticateBrowserSession (state : State) (cookie : Option Nat) : Option (Session × Key) :=
  (cookie.bind state.resolve).bind fun session =>
    state.adminApiKey.map fun key => (session, key)

/-- `auth_middleware`: what the request stands on, and what it carries from here on. -/
def authMiddleware (state : State) (request : Credentials) :
    Option (Option Key × Credentials) :=
  match state.authenticateBrowserSession request.cookie with
  | some (session, key) => some (session.key, { request with header := some key })
  | none =>
      if state.checkAuthWithQuery request.header request.query request.locked then
        some (request.header.or request.query, request)
      else none

/-- The check of the handler. -/
def checks (state : State) (request : Credentials) : Check → Bool
  | .unchecked => true
  | .checkAuth => state.checkAuth request.header request.locked
  | .checkAuthWithQuery =>
      state.checkAuthWithQuery request.header request.query request.locked

/-- A request passes the layer and its handler's own check. -/
def passes (state : State) (request : Credentials) (check : Check) :
    Option (Option Key × Credentials) :=
  (state.authMiddleware request).filter fun admitted => state.checks admitted.2 check

/-- A request is refused, or goes on in its handler. -/
def serve (state : State) (request : Credentials) (check : Check)
    (handler : State → Option Key → Credentials → State) : State :=
  match state.passes request check with
  | some (key, request) =>
      handler { state with log := state.log ++ [.admitted key] } key request
  | none => state

/-- `revoke` -/
def revoke (state : State) : Option Nat → State
  | some token =>
      { state with sessions := state.sessions.filter fun session => session.token != token }
  | none => state

/-- `create_session` and `create_session_from_access`, up to `issue_session`. -/
def beginSignIn (state : State) (key : Option Key) (cookie : Option Nat) : State :=
  { state with signIns := state.signIns ++ [⟨key, cookie, .authorised⟩] }

/-- The sign-in is in a new stage. -/
def setSignIn (state : State) (n : Nat) (stage : Issue) : State :=
  { state with signIns := state.signIns.modify n fun signIn => { signIn with stage := stage } }

/-- `mint` -/
def mint (state : State) (key : Option Key) : State :=
  { state with
    sessions := (state.sessions.filter fun session => state.now < session.expiresAt) ++
      [⟨state.tokens, key, state.now + defaultTtl⟩]
    tokens := state.tokens + 1 }

/-- `invalidate_api_key`, up to the table: the key is the one in the header. -/
def beginInvalidation (state : State) : Option Key → State
  | some key => { state with invalidations := state.invalidations ++ [⟨key, .checked⟩] }
  | none => state

/-- The revocation is in a new stage. -/
def setInvalidation (state : State) (n : Nat) (stage : Revocation) : State :=
  { state with
    invalidations := state.invalidations.modify n fun invalidation =>
      { invalidation with stage := stage } }

/-- `revoke_api_key`: a key that is in the table keeps its row. -/
def revokeApiKey (state : State) (key : Key) : State :=
  if state.rows.any fun row => row.1 == key then state
  else { state with rows := state.rows ++ [(key, state.now)] }

/-- `regenerate_api_key`, up to the file. -/
def beginRegeneration (state : State) : State :=
  { state with
    fresh := state.fresh + 1
    regenerations := state.regenerations ++ [⟨state.fresh, .generated⟩] }

/-- The exchange of the key is in a new stage. -/
def setRegeneration (state : State) (n : Nat) (stage : Rotation) : State :=
  { state with
    regenerations := state.regenerations.modify n fun regeneration =>
      { regeneration with stage := stage } }

/-- The first half of `persist_key`. -/
def writeTemporary (state : State) (n : Nat) (key : Key) (written : Bool) : State :=
  if written then { state with temporary := some (some key) }.setRegeneration n .written
  else { state with temporary := some none }.setRegeneration n .ended

/-- The second half of `persist_key`: the file becomes what is in the temporary one. -/
def renameTemporary (state : State) (n : Nat) (renamed : Bool) : State :=
  match state.temporary with
  | some content =>
      if renamed then
        { state with file := content, temporary := none }.setRegeneration n .persisted
      else state.setRegeneration n .ended
  | none => state.setRegeneration n .ended

/-- `install_admin_api_key`, up to the sessions. -/
def swap (state : State) (n : Nat) (key : Key) : State :=
  { state with adminApiKey := some key, rotated := true }.setRegeneration n
    (.swapped state.adminApiKey)

/-- `revoke_all`, and the end of `regenerate_api_key`. -/
def finish (state : State) (n : Nat) (old : Option Key) : State :=
  { state with
    sessions := []
    log := state.log ++ (old.map Event.replaced).toList }.setRegeneration n .ended

/-- `cleanup_revoked_keys`, whose two statements can each fail. -/
def cleanupRevokedKeys (state : State) (deleted read : Bool) : State :=
  if deleted then
    let rows := state.rows.filter fun row => !decide (row.2 + revokedTtl < state.now)
    { state with rows := rows, sweeping := if read then some (rows.map Prod.fst) else none }
  else { state with sweeping := none }

/-- The kernel is started again. -/
def restart (state : State) (loaded : Bool) : State :=
  { state with
    adminApiKey := state.bootKey
    revokedKeys := if loaded then state.rows.map Prod.fst else []
    sessions := []
    signIns := []
    invalidations := []
    regenerations := []
    sweeping := none
    rotated := false }

end State

/-- A request, or a step of what it has begun; a step of the sweep; a restart. -/
inductive Label where
  | wait (elapsed : Nat)
  | request (request : Credentials) (check : Check)
  | signIn (request : Credentials)
  | accessSignIn (cookie : Option Nat)
  | clear (n : Nat)
  | mint (n : Nat)
  | signOut (request : Credentials)
  | invalidate (request : Credentials)
  | store (n : Nat) (stored : Bool)
  | remember (n : Nat)
  | regenerate (request : Credentials)
  | write (n : Nat) (written : Bool)
  | rename (n : Nat) (renamed : Bool)
  | swap (n : Nat)
  | finish (n : Nat)
  | abandon (n : Nat)
  | sweep (deleted read : Bool)
  | refill
  | restart (loaded : Bool)

/-- One step.  The key is checked and acted on without another step between. -/
def step : Action State Label
  | state, .wait elapsed => some { state with now := state.now + elapsed }
  | state, .request request check => some (state.serve request check fun state _ _ => state)
  | state, .signIn request =>
      some (state.serve request .unchecked fun state key request =>
        state.beginSignIn key request.cookie)
  | state, .accessSignIn cookie => some (state.beginSignIn none cookie)
  | state, .clear n =>
      (state.signIns[n]?).bind fun signIn =>
        match signIn.stage with
        | .authorised => some ((state.revoke signIn.cookie).setSignIn n .cleared)
        | _ => none
  | state, .mint n =>
      (state.signIns[n]?).bind fun signIn =>
        match signIn.stage with
        | .cleared => some ((state.mint signIn.key).setSignIn n .minted)
        | _ => none
  | state, .signOut request =>
      some (state.serve request .unchecked fun state _ request => state.revoke request.cookie)
  | state, .invalidate request =>
      some (state.serve request .checkAuth fun state _ request =>
        state.beginInvalidation request.header)
  | state, .store n stored =>
      (state.invalidations[n]?).bind fun invalidation =>
        match invalidation.stage with
        | .checked => some <|
            if stored then (state.revokeApiKey invalidation.key).setInvalidation n .stored
            else state.setInvalidation n .ended
        | _ => none
  | state, .remember n =>
      (state.invalidations[n]?).bind fun invalidation =>
        match invalidation.stage with
        | .stored => some <|
            { state with
              revokedKeys := invalidation.key :: state.revokedKeys
              log := state.log ++ [Event.invalidated invalidation.key] }.setInvalidation n .ended
        | _ => none
  | state, .regenerate request =>
      some (state.serve request .checkAuth fun state _ _ => state.beginRegeneration)
  | state, .write n written =>
      (state.regenerations[n]?).bind fun regeneration =>
        match regeneration.stage with
        | .generated => some (state.writeTemporary n regeneration.key written)
        | _ => none
  | state, .rename n renamed =>
      (state.regenerations[n]?).bind fun regeneration =>
        match regeneration.stage with
        | .written => some (state.renameTemporary n renamed)
        | _ => none
  | state, .swap n =>
      (state.regenerations[n]?).bind fun regeneration =>
        match regeneration.stage with
        | .persisted => some (state.swap n regeneration.key)
        | _ => none
  | state, .finish n =>
      (state.regenerations[n]?).bind fun regeneration =>
        match regeneration.stage with
        | .swapped old => some (state.finish n old)
        | _ => none
  | state, .abandon n =>
      (state.regenerations[n]?).bind fun regeneration =>
        match regeneration.stage with
        | .swapped _ => some (state.setRegeneration n .ended)
        | _ => none
  | state, .sweep deleted read => some (state.cleanupRevokedKeys deleted read)
  | state, .refill =>
      state.sweeping.map fun remaining =>
        { state with revokedKeys := remaining, sweeping := none }
  | state, .restart loaded => some (state.restart loaded)

/-! ## Retired keys -/

/-- No request is admitted on a key that has been retired. -/
def Stays (log : List Event) : Prop :=
  log.Pairwise fun earlier later => ∀ key ∈ earlier.retired?, later ≠ .admitted (some key)

/-- A retired key stays retired, and once all regenerations since the start have come to
their end the live key is the one in the file. -/
structure Retired (state : State) : Prop where
  stays : Stays state.log
  settled : state.rotated = true →
    (∀ regeneration ∈ state.regenerations, regeneration.stage = .ended) →
      state.adminApiKey = state.file

/-- A session of an invalidated key is used where the handler makes a check of its own. -/
def Checked (state : State) (request : Credentials) (check : Check) : Prop :=
  check = .unchecked → ∀ token ∈ request.cookie, ∀ session ∈ state.resolve token,
    ∀ key ∈ session.key, Event.invalidated key ∉ state.log

/-- What leaves nothing behind: a session is minted only on a key that is not replaced and,
if it is invalidated, is the live one; an invalidated key that is not the live one has no
session when the invalidation or the swap that made it so takes effect; of the keys that
are persisted at one time the one in the file is swapped in last; what fills the set of
revoked keys has the live key in it if it is invalidated; and a start is not with a key
that was replaced. -/
def Kept (state : State) : Label → Prop
  | .request request check => Checked state request check
  | .signIn request | .signOut request => Checked state request .unchecked
  | .mint n => ∀ signIn ∈ state.signIns[n]?, ∀ key ∈ signIn.key,
      Event.replaced key ∉ state.log ∧
        (Event.invalidated key ∈ state.log → state.adminApiKey = some key)
  | .remember n => ∀ invalidation ∈ state.invalidations[n]?,
      state.adminApiKey ≠ some invalidation.key → ∀ session ∈ state.sessions,
        state.now < session.expiresAt → session.key ≠ some invalidation.key
  | .swap n => ∀ regeneration ∈ state.regenerations[n]?,
      (∀ session ∈ state.sessions, state.now < session.expiresAt → ∀ key ∈ session.key,
        Event.invalidated key ∉ state.log) ∧
        (state.file = some regeneration.key ∨ ∃ other ∈ state.regenerations,
          other.stage = .persisted ∧ other.key ≠ regeneration.key)
  | .refill => ∀ remaining ∈ state.sweeping, ∀ key ∈ state.adminApiKey,
      Event.invalidated key ∈ state.log → key ∈ remaining
  | .restart loaded => ∀ key ∈ state.bootKey, Event.replaced key ∉ state.log ∧
      (Event.invalidated key ∈ state.log → loaded = true ∧ key ∈ state.rows.map Prod.fst)
  | .wait _ | .accessSignIn _ | .clear _ | .invalidate _ | .store _ _ | .regenerate _
  | .write _ _ | .rename _ _ | .finish _ | .abandon _ | .sweep _ _ => True

instance (state : State) (request : Credentials) (check : Check) :
    Decidable (Checked state request check) :=
  inferInstanceAs <| Decidable <|
    check = .unchecked → ∀ token ∈ request.cookie, ∀ session ∈ state.resolve token,
      ∀ key ∈ session.key, Event.invalidated key ∉ state.log

instance (state : State) : ∀ label, Decidable (Kept state label)
  | .request request check => inferInstanceAs (Decidable (Checked state request check))
  | .signIn request | .signOut request =>
      inferInstanceAs (Decidable (Checked state request .unchecked))
  | .mint n => inferInstanceAs <| Decidable <|
      ∀ signIn ∈ state.signIns[n]?, ∀ key ∈ signIn.key,
        Event.replaced key ∉ state.log ∧
          (Event.invalidated key ∈ state.log → state.adminApiKey = some key)
  | .remember n => inferInstanceAs <| Decidable <|
      ∀ invalidation ∈ state.invalidations[n]?,
        state.adminApiKey ≠ some invalidation.key → ∀ session ∈ state.sessions,
          state.now < session.expiresAt → session.key ≠ some invalidation.key
  | .swap n => inferInstanceAs <| Decidable <|
      ∀ regeneration ∈ state.regenerations[n]?,
        (∀ session ∈ state.sessions, state.now < session.expiresAt → ∀ key ∈ session.key,
          Event.invalidated key ∉ state.log) ∧
          (state.file = some regeneration.key ∨ ∃ other ∈ state.regenerations,
            other.stage = .persisted ∧ other.key ≠ regeneration.key)
  | .refill => inferInstanceAs <| Decidable <|
      ∀ remaining ∈ state.sweeping, ∀ key ∈ state.adminApiKey,
        Event.invalidated key ∈ state.log → key ∈ remaining
  | .restart loaded => inferInstanceAs <| Decidable <|
      ∀ key ∈ state.bootKey, Event.replaced key ∉ state.log ∧
        (Event.invalidated key ∈ state.log → loaded = true ∧ key ∈ state.rows.map Prod.fst)
  | .wait _ | .accessSignIn _ | .clear _ | .invalidate _ | .store _ _ | .regenerate _
  | .write _ _ | .rename _ _ | .finish _ | .abandon _ | .sweep _ _ => isTrue trivial

end ClotoCore.Access.AdminKeys
