import ClotoCore.Mcp.SealDowngrade

/-!
# Servers left in the status Connecting

Between the status `Connecting` and the registration a call of `connect_server`
can end early.  The exits that call `set_server_error` leave the error status
behind; a missing URL, an unset bearer variable and pending permissions of the
server leave `Connecting`.
-/

namespace ClotoCore.Mcp

variable {kernel : Kernel} {world : Surroundings} {manager : Manager} {config : McpServerConfig}

/-! ## The statement -/

/-- After a call that returns an error the server is not `Connecting`, and a
later start is not refused because it is starting, unless a restart was under
way before. -/
def NotWedged (kernel : Kernel) (world : Surroundings) (manager : Manager)
    (config : McpServerConfig) : Prop :=
  ∀ message, (connectServer kernel world manager config).result = .error message →
    (connectServer kernel world manager config).manager.statusOf config.id ≠ some .connecting ∧
      (manager.statusOf config.id ≠ some .restarting →
        ((connectServer kernel world manager config).manager.statusOf config.id).bind startRefusal
          ≠ some .alreadyStarting)

/-- A gate before the launch refuses, or the seal cannot be checked at all: the
status stays what it was. -/
def RefusedEarly (kernel : Kernel) (world : Surroundings) (config : McpServerConfig)
    (existing : Option ServerStatus) : Prop :=
  (∃ stop, checkGates kernel world config existing = .error stop) ∨
    (config.isHttpTransport = false ∧ ∃ message, sealStatus kernel world config = .error message)

/-- The server passes the gates and its seal. -/
def Admitted (kernel : Kernel) (world : Surroundings) (config : McpServerConfig)
    (existing : Option ServerStatus) : Prop :=
  checkGates kernel world config existing = .ok () ∧
    ∃ level, effectiveTrustLevel kernel world config = .ok level

/-- The address or the bearer of a remote server is missing, or the server that
answers asks for permissions that are pending. -/
def Stranded (kernel : Kernel) (world : Surroundings) (config : McpServerConfig) : Prop :=
  (∃ message, httpRefusal kernel config = some message) ∨
    httpRefusal kernel config = none ∧
      ∃ session, world.session = some session ∧
        ∃ stop, permissionFlow kernel world config session = .error stop

/-- The configurations and surroundings in which a call leaves `Connecting`. -/
def LeavesConnecting (kernel : Kernel) (world : Surroundings) (config : McpServerConfig)
    (existing : Option ServerStatus) : Prop :=
  (existing = some .connecting ∧ RefusedEarly kernel world config existing) ∨
    (existing ≠ none ∧ Admitted kernel world config existing ∧ Stranded kernel world config)

/-! ## Which exits call `set_server_error` -/

/-- Of the seal's refusals, the mismatch does. -/
theorem marksError_of_effectiveTrustLevel {stop : Stop}
    (refused : effectiveTrustLevel kernel world config = .error stop) :
    stop.marksError = false ↔
      config.isHttpTransport = false ∧
        ∃ message, sealStatus kernel world config = .error message := by
  unfold effectiveTrustLevel at refused
  split at refused
  · contradiction
  · rename_i stdio
    split at refused
    · rename_i message unchecked
      cases refused
      exact ⟨fun _ => ⟨Bool.eq_false_iff.mpr stdio, message, unchecked⟩, fun _ => rfl⟩
    · rename_i status checked
      have marked : stop.marksError = true := by
        unfold judgeSeal at refused
        dsimp only at refused
        split at refused <;> first | contradiction | (cases refused; rfl)
      rw [marked, checked]
      simp

/-- A refusal before the launch leaves the status alone where a gate refused or
the seal could not be checked. -/
theorem marksError_of_admission {existing : Option ServerStatus} {stop : Stop}
    (refused : admission kernel world config existing = .error stop) :
    stop.marksError = false ↔ RefusedEarly kernel world config existing := by
  simp only [admission, bind_eq_error_iff] at refused
  rcases refused with gates | ⟨passed, gates, unsealed | ⟨level, -, ended⟩⟩
  · exact ⟨fun _ => .inl ⟨stop, gates⟩, fun _ => marksError_of_checkGates gates⟩
  · rw [marksError_of_effectiveTrustLevel unsealed, RefusedEarly, gates]
    simp
  · contradiction

/-- Nothing is established where the address or the bearer is missing. -/
theorem connectAttempts_of_refusal {message : String}
    (refused : httpRefusal kernel config = some message) {profile : Option IsolationProfile}
    {number : Nat} {rest : List Nat} {lastError : String} :
    (connectAttempts kernel world config profile (number :: rest) lastError).2 =
      .error ⟨message, false⟩ := by
  rw [connectAttempts, refused]

/-- Otherwise the attempts fail with an error that is marked, and where none of
them connects. -/
theorem connectAttempts_of_reachable (reachable : httpRefusal kernel config = none)
    {profile : Option IsolationProfile} {numbers : List Nat} {lastError : String} {stop : Stop}
    (failed : (connectAttempts kernel world config profile numbers lastError).2 = .error stop) :
    stop.marksError = true ∧ numbers.findSome? world.answer = none := by
  induction numbers generalizing lastError with
  | nil =>
      cases failed
      exact ⟨rfl, rfl⟩
  | cons number rest ih =>
      rw [connectAttempts, reachable] at failed
      rw [List.findSome?_cons, Surroundings.answer]
      cases outcome : world.attempt number with
      | unreached error | failed error =>
          rw [outcome] at failed
          exact ih failed
      | connected session =>
          rw [outcome] at failed
          contradiction

theorem marksError_of_acknowledge {session : Session} {stop : Stop}
    (failed : acknowledge config session = .error stop) : stop.marksError = true := by
  unfold acknowledge at failed
  split at failed
  · cases failed
    rfl
  · contradiction

theorem marksError_of_permissionFlow {session : Session} {stop : Stop}
    (pending : permissionFlow kernel world config session = .error stop) :
    stop.marksError = false := by
  unfold permissionFlow at pending
  split at pending
  · split at pending
    · exact marksError_of_refusePending pending
    · contradiction
  · contradiction

/-- The exits after `Connecting` that do not call it are the stranded ones. -/
theorem marksError_of_establish {profile : Option IsolationProfile} {stop : Stop}
    (failed : (establish kernel world config profile).2 = .error stop) :
    stop.marksError = false ↔ Stranded kernel world config := by
  simp only [establish, bind_eq_error_iff] at failed
  cases refusal : httpRefusal kernel config with
  | some message =>
      rw [connectAttempts_of_refusal refusal] at failed
      rcases failed with same | ⟨session, connected, -⟩
      · cases same
        exact ⟨fun _ => .inl ⟨message, refusal⟩, fun _ => rfl⟩
      · contradiction
  | none =>
      rcases failed with attempts | ⟨session, connected,
        flow | ⟨granted, passed, sent | ⟨-, -, ended⟩⟩⟩
      · rcases connectAttempts_of_reachable refusal attempts with ⟨marked, silent⟩
        simp [marked, Stranded, refusal, Surroundings.session, silent]
      · simp only [marksError_of_permissionFlow flow, true_iff]
        exact .inr ⟨refusal, session, connectAttempts_session connected, stop, flow⟩
      · have answered : world.session = some session := connectAttempts_session connected
        simp [marksError_of_acknowledge sent, Stranded, refusal, answered, passed]
      · contradiction

/-- What is admitted was not refused early. -/
theorem not_refusedEarly_of_admission {existing : Option ServerStatus}
    {profile : Option IsolationProfile}
    (admitted : admission kernel world config existing = .ok profile) :
    ¬RefusedEarly kernel world config existing := by
  rcases admit_eq_ok_iff.mp admitted with ⟨gates, level, effective, -⟩
  rintro (⟨stop, refused⟩ | ⟨stdio, message, unchecked⟩)
  · rw [gates] at refused
    contradiction
  · rw [effectiveTrustLevel, stdio, if_neg Bool.false_ne_true, unchecked] at effective
    contradiction

/-- What is established was not stranded. -/
theorem not_stranded_of_establish {profile : Option IsolationProfile} {session : Session}
    (established : (establish kernel world config profile).2 = .ok session) :
    ¬Stranded kernel world config := by
  rcases establish_eq_ok_iff.mp established with ⟨attempted, flow, -⟩
  rintro (⟨message, refused⟩ | ⟨-, found, answered, stop, pending⟩)
  · rw [connectAttempts_of_refusal refused] at attempted
    contradiction
  · rw [session_of_establish established] at answered
    cases answered
    rw [flow] at pending
    contradiction

/-! ## The status that is left -/

/-- An early return leaves the error status or the one it found. -/
theorem statusOf_leave (stop : Stop) (manager : Manager) (id : String) :
    (stop.leave manager id).statusOf id =
      if stop.marksError then (manager.statusOf id).map fun _ => .error stop.message
      else manager.statusOf id := by
  unfold Stop.leave
  split
  · exact Manager.statusOf_setServerError manager id stop.message
  · rfl

/-- What the status of a server says about a later start. -/
theorem notWedged_of_status {existing left : Option ServerStatus}
    (connecting : left ≠ some .connecting) (restarting : left = some .restarting →
      existing = some .restarting) :
    left ≠ some .connecting ∧
      (existing ≠ some .restarting → left.bind startRefusal ≠ some .alreadyStarting) := by
  constructor
  · exact connecting
  · intro notRestarting refused
    rcases Option.bind_eq_some_iff.mp refused with ⟨status, rfl, starting⟩
    cases status with
    | connecting => exact connecting rfl
    | restarting => exact notRestarting (restarting rfl)
    | registered | connected | draining | disconnected | error message => cases starting

/-- A call leaves the server in `Connecting` exactly in the surroundings in which
it is refused while it was already there, or stranded after it got there. -/
theorem notWedged_iff (kernel : Kernel) (world : Surroundings) (manager : Manager)
    (config : McpServerConfig) :
    NotWedged kernel world manager config ↔
      ¬LeavesConnecting kernel world config (manager.statusOf config.id) := by
  rcases connectServer_cases kernel world manager config with
    ⟨stop, refused, called⟩ | ⟨profile, stop, admitted, ended, called⟩ |
    ⟨profile, session, admitted, established, called⟩
  · have notAdmitted : ¬Admitted kernel world config (manager.statusOf config.id) := by
      rintro ⟨gates, level, effective⟩
      rw [admit_eq_ok_iff.mpr ⟨gates, level, effective, rfl⟩] at refused
      contradiction
    have leaves : LeavesConnecting kernel world config (manager.statusOf config.id) ↔
        manager.statusOf config.id = some .connecting ∧ stop.marksError = false := by
      rw [LeavesConnecting, marksError_of_admission refused]
      tauto
    rw [leaves, NotWedged, called]
    simp only [statusOf_leave]
    constructor
    · rintro notWedged ⟨connecting, unmarked⟩
      have status := (notWedged stop.message rfl).1
      rw [unmarked, if_neg Bool.false_ne_true] at status
      exact status connecting
    · intro condition message returned
      apply notWedged_of_status
      · intro connecting
        split at connecting
        · simp at connecting
        · rename_i unmarked
          exact condition ⟨connecting, Bool.eq_false_iff.mpr unmarked⟩
      · intro restarting
        split at restarting
        · simp at restarting
        · exact restarting
  · rcases admit_eq_ok_iff.mp admitted with ⟨gates, level, effective, -⟩
    have leaves : LeavesConnecting kernel world config (manager.statusOf config.id) ↔
        manager.statusOf config.id ≠ none ∧ stop.marksError = false := by
      have passes : Admitted kernel world config (manager.statusOf config.id) :=
        ⟨gates, level, effective⟩
      rw [LeavesConnecting, marksError_of_establish ended]
      simp only [not_refusedEarly_of_admission admitted, passes, and_false, false_or, true_and]
    rw [leaves, NotWedged, called]
    simp only [statusOf_leave, Manager.statusOf_setStatus]
    constructor
    · rintro notWedged ⟨present, unmarked⟩
      have status := (notWedged stop.message rfl).1
      rw [unmarked, if_neg Bool.false_ne_true] at status
      rcases Option.ne_none_iff_exists'.mp present with ⟨existing, existingEq⟩
      apply status
      rw [existingEq]
      rfl
    · intro condition message returned
      apply notWedged_of_status
      · intro connecting
        split at connecting
        · simp at connecting
        · rename_i unmarked
          rcases Option.map_eq_some_iff.mp connecting with ⟨existing, existingEq, -⟩
          apply condition
          constructor
          · rw [existingEq]
            exact Option.some_ne_none existing
          · exact Bool.eq_false_iff.mpr unmarked
      · intro restarting
        split at restarting <;> simp at restarting
  · have finished : ¬LeavesConnecting kernel world config (manager.statusOf config.id) := by
      rintro (⟨-, early⟩ | ⟨-, -, stranded⟩)
      · exact not_refusedEarly_of_admission admitted early
      · exact not_stranded_of_establish established stranded
    rw [NotWedged, called]
    simp [finished]

/-! ## A remote server without an address -/

/-- No call wedges a server. -/
def NeverWedged : Prop :=
  ∀ (kernel : Kernel) (world : Surroundings) (manager : Manager) (config : McpServerConfig),
    NotWedged kernel world manager config

/-- A remote server whose configuration has no URL. -/
def addressless : McpServerConfig :=
  { McpServerConfig.default with id := "remote", transport := "streamable-http" }

/-- A manager with one stopped server. -/
def stoppedOnly (config : McpServerConfig) : Manager :=
  { Manager.empty with
    servers := Function.update Manager.empty.servers config.id
      (some (Manager.stoppedHandle ⟨config, none, [], none, .registered, none⟩)) }

/-- Starting a stopped server without an address leaves it in `Connecting`. -/
theorem not_neverWedged : ¬NeverWedged := by
  intro never
  have notWedged := never strictKernel (answering readerSession) (stoppedOnly addressless)
    addressless
  have failed : (connectServer strictKernel (answering readerSession) (stoppedOnly addressless)
      addressless).result =
        .error "MCP server 'remote': transport is 'streamable-http' but no url configured" := by
    decide +kernel
  have connecting : (connectServer strictKernel (answering readerSession)
      (stoppedOnly addressless) addressless).manager.statusOf "remote" = some .connecting := by
    decide +kernel
  exact (notWedged _ failed).1 connecting

end ClotoCore.Mcp
