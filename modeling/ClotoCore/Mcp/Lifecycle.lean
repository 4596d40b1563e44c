import ClotoCore.Mcp.Connect
import ClotoCore.Transition.Run

/-!
# Calls that overlap

A connection takes the lock on the servers several times, and a stop, a removal,
a drain or the health monitor can come between.  Each call that is under way is
a task, and one step of a task is what it does under the lock once.  The two
indexes that are updated outside of the lock are updated in the same step here;
nothing that follows reads them.
-/

namespace ClotoCore.Mcp

open ClotoCore.Transition

/-! ## Tasks -/

/-- A call that is under way, at the place where it next takes the lock.
`monitored` marks the restarts of the health monitor, which report a failure. -/
inductive Task where
  /-- `connect_server` is called and waits for the connect lock of its id. -/
  | calling (config : McpServerConfig) (monitored : Bool)
  /-- The gates and the seal are passed. -/
  | admitted (config : McpServerConfig) (profile : Option IsolationProfile) (monitored : Bool)
  /-- The status `Connecting` is set. -/
  | connecting (config : McpServerConfig) (profile : Option IsolationProfile) (monitored : Bool)
  /-- The server has answered, and the previous client is about to be taken. -/
  | established (config : McpServerConfig) (profile : Option IsolationProfile) (session : Session)
  /-- The previous client is gone, and the handle is about to be inserted. -/
  | reaped (config : McpServerConfig) (profile : Option IsolationProfile) (session : Session)
  /-- An early return that is about to settle the status. -/
  | failing (id : String) (stop : Stop) (monitored : Bool)
  /-- `restart_server` has set `Restarting`. -/
  | restarting (id : String) (monitored : Bool)
  /-- `restart_server` has stopped the server. -/
  | stopped (id : String) (monitored : Bool)
  /-- The health monitor waits before it restarts a dead server. -/
  | waiting (id : String)
  /-- The health monitor has looked at the status again. -/
  | cleared (id : String)
  /-- The restart of the health monitor has failed. -/
  | reporting (id message : String)
  /-- A drain waits before it stops the server it found. -/
  | draining (id : String) (client : Option Nat)

/-- The id whose connect lock a task holds. -/
def Task.locks : Task → Option String
  | .admitted config _ _ => some config.id
  | .connecting config _ _ => some config.id
  | .established config _ _ => some config.id
  | .reaped config _ _ => some config.id
  | .failing id _ _ => some id
  | _ => none

/-- The id that a connection or a restart is under way for.  The health monitor
is under way from the moment it has looked at the status again. -/
def Task.inFlight : Task → Option String
  | .calling config _ => some config.id
  | .admitted config _ _ => some config.id
  | .connecting config _ _ => some config.id
  | .established config _ _ => some config.id
  | .reaped config _ _ => some config.id
  | .failing id _ _ => some id
  | .restarting id _ => some id
  | .stopped id _ => some id
  | .waiting _ => none
  | .cleared id => some id
  | .reporting id _ => some id
  | .draining _ _ => none

/-- What a drain found when it began and what it stopped when it ended. -/
structure Drained where
  id : String
  found : Option Nat
  stopped : Option Nat

/-- The manager and the calls that are under way.  `settled` holds of the ids
for which a stop or a removal has returned and no start was called since; no
step reads it. -/
structure System where
  manager : Manager
  tasks : List Task
  nextClient : Nat
  settled : String → Bool
  drained : List Drained

/-- The system of a kernel that has just started. -/
def System.initial : System where
  manager := .empty
  tasks := []
  nextClient := 0
  settled := fun _ => false
  drained := []

/-! ## Steps -/

/-- What one step of a task leaves behind. -/
structure Effect where
  manager : Manager
  next : Option Task
  /-- The drain that the step ends. -/
  ended : Option Drained

/-- A step that ends no drain. -/
def Effect.of (manager : Manager) (next : Option Task) : Effect :=
  ⟨manager, next, none⟩

/-- The client of a server that is there. -/
def Manager.clientOf (manager : Manager) (id : String) : Option Nat :=
  (manager.servers id).bind McpServerHandle.client

/-- What the health monitor does with a failure of its restart. -/
def report (id message : String) (monitored : Bool) : Option Task :=
  if monitored then some (.reporting id message) else none

/-- The next step of a task. -/
def advanceTask (kernel : Kernel) (world : Surroundings) (stored : Except String McpServerConfig)
    (manager : Manager) (nextClient : Nat) : Task → Effect
  | .calling config monitored =>
      match admission kernel world config (manager.statusOf config.id) with
      | .error stop => .of manager (some (.failing config.id stop monitored))
      | .ok profile => .of manager (some (.admitted config profile monitored))
  | .admitted config profile monitored =>
      .of (manager.setStatus config.id .connecting) (some (.connecting config profile monitored))
  | .connecting config profile monitored =>
      match (establish kernel world config profile).2 with
      | .error stop => .of manager (some (.failing config.id stop monitored))
      | .ok session =>
          .of manager (some (.established config profile { session with client := nextClient }))
  | .established config profile session =>
      .of (manager.takeClient config.id) (some (.reaped config profile session))
  | .reaped config profile session =>
      .of (manager.register (session.handle kernel config profile) session.toolsForCapability) none
  | .failing id stop monitored => .of (stop.leave manager id) (report id stop.message monitored)
  | .restarting id monitored =>
      .of ((manager.stopServer id).toOption.getD manager) (some (.stopped id monitored))
  | .stopped id monitored =>
      match startConfig manager id stored with
      | .error message => .of manager (report id message monitored)
      | .ok config => .of manager (some (.calling config monitored))
  | .waiting id =>
      match manager.statusOf id with
      | none | some .disconnected | some .draining => .of manager none
      | some _ => .of manager (some (.cleared id))
  | .cleared id => .of (manager.setStatus id .restarting) (some (.restarting id true))
  | .reporting id message =>
      .of (manager.setStatus id (.error s!"Auto-restart failed: {message}")) none
  | .draining id client =>
      match manager.stopServer id with
      | .error _ => .of manager none
      | .ok stopped => ⟨stopped, none, some ⟨id, client, manager.clientOf id⟩⟩

/-- A call, or the next step of one that is under way. -/
inductive Label where
  | connect (config : McpServerConfig)
  | start (id : String) (stored : Except String McpServerConfig)
  | restart (id : String)
  | stop (id : String)
  /-- A removal, and whether its row could be deleted. -/
  | remove (id : String) (deleted : Bool)
  | drain (id : String)
  /-- The health monitor finds a dead server. -/
  | monitor (id : String)
  | advance (index : Nat) (world : Surroundings) (stored : Except String McpServerConfig)

/-- A row of the database is found by its name. -/
def storedUnder (id : String) : Except String McpServerConfig → Bool
  | .ok config => config.id == id
  | .error _ => true

/-- A step of a task waits for the connect lock, and a start reads its own row. -/
def enabled (tasks : List Task) (stored : Except String McpServerConfig) : Task → Bool
  | .calling config _ => tasks.all fun other => other.locks != some config.id
  | .stopped id _ => storedUnder id stored
  | _ => true

/-- A server that the health monitor counts as dead: its client is gone, or it
has none and is in the error status.  Whether a client is alive is the system's. -/
def mayBeDead (handle : McpServerHandle) : Bool :=
  match handle.client, handle.status with
  | some _, _ => true
  | none, .error _ => true
  | none, _ => false

/-- One step of the system. -/
def lifecycleStep (kernel : Kernel) : Action System Label := fun system label =>
  match label with
  | .connect config =>
      some
        { system with
          tasks := .calling config false :: system.tasks
          settled := Function.update system.settled config.id false }
  | .start id stored =>
      if storedUnder id stored then
        match startConfig system.manager id stored with
        | .error _ => some { system with settled := Function.update system.settled id false }
        | .ok config =>
            some
              { system with
                tasks := .calling config false :: system.tasks
                settled := Function.update system.settled id false }
      else none
  | .restart id =>
      some
        { system with
          manager := system.manager.setStatus id .restarting
          tasks := .restarting id false :: system.tasks
          settled := Function.update system.settled id false }
  | .stop id =>
      match system.manager.stopServer id with
      | .error _ => some system
      | .ok stopped =>
          some
            { system with
              manager := stopped
              settled := Function.update system.settled id true }
  | .remove id deleted =>
      match system.manager.removeServer id with
      | .error _ => some system
      | .ok removed =>
          some
            { system with
              manager := removed
              settled :=
                if deleted then Function.update system.settled id true else system.settled }
  | .drain id =>
      match system.manager.servers id with
      | none => some system
      | some handle =>
          some
            { system with
              manager := system.manager.setStatus id .draining
              tasks := .draining id handle.client :: system.tasks }
  | .monitor id =>
      match system.manager.servers id with
      | none => none
      | some handle =>
          if mayBeDead handle then some { system with tasks := .waiting id :: system.tasks }
          else none
  | .advance index world stored =>
      match system.tasks[index]? with
      | none => none
      | some task =>
          if enabled system.tasks stored task then
            let effect := advanceTask kernel world stored system.manager system.nextClient task
            some
              { manager := effect.manager
                tasks := effect.next.toList ++ system.tasks.eraseIdx index
                nextClient := system.nextClient + 1
                settled :=
                  match effect.ended with
                  | none => system.settled
                  | some drained => Function.update system.settled drained.id true
                drained := effect.ended.toList ++ system.drained }
          else none

/-! ## What a call changes -/

/-- Every handle is kept under the id of its configuration. -/
def Keyed (manager : Manager) : Prop :=
  ∀ id handle, manager.servers id = some handle → handle.config.id = id

/-- Only the handle of one server and the routes to it change, and its client is
lost or kept. -/
structure OnlyAt (id : String) (before after : Manager) : Prop where
  servers : ∀ other, other ≠ id → after.servers other = before.servers other
  routes : ∀ name other, other ≠ id → after.toolIndex name = some other →
    before.toolIndex name = some other

/-- The client of every server is lost or kept. -/
def KeepsClients (before after : Manager) : Prop :=
  ∀ id, after.clientOf id = none ∨ after.clientOf id = before.clientOf id

section Changes

variable {kernel : Kernel} {world : Surroundings} {stored : Except String McpServerConfig}
  {manager : Manager} {id : String}

theorem OnlyAt.refl (id : String) (manager : Manager) : OnlyAt id manager manager :=
  ⟨fun _ _ => rfl, fun _ _ _ routed => routed⟩

theorem KeepsClients.refl (manager : Manager) : KeepsClients manager manager :=
  fun _ => .inr rfl

theorem onlyAt_modify {change : McpServerHandle → McpServerHandle} :
    OnlyAt id manager (manager.modify id change) := by
  constructor
  · intro other apart
    exact Manager.modify_of_ne manager apart change
  · intro name other apart routed
    rw [Manager.modify_toolIndex] at routed
    exact routed

theorem keyed_modify {change : McpServerHandle → McpServerHandle}
    (kept : ∀ handle, (change handle).config = handle.config) (keyed : Keyed manager) :
    Keyed (manager.modify id change) := by
  intro other handle here
  by_cases same : other = id
  · subst same
    rw [Manager.modify_self] at here
    rcases Option.map_eq_some_iff.mp here with ⟨old, there, rfl⟩
    rw [kept]
    exact keyed other old there
  · rw [Manager.modify_of_ne manager same] at here
    exact keyed other handle here

theorem keepsClients_modify {change : McpServerHandle → McpServerHandle}
    (kept : ∀ handle, (change handle).client = none ∨ (change handle).client = handle.client) :
    KeepsClients manager (manager.modify id change) := by
  intro other
  by_cases same : other = id
  · subst same
    unfold Manager.clientOf
    rw [Manager.modify_self]
    cases manager.servers other with
    | none => exact .inl rfl
    | some handle => exact kept handle
  · unfold Manager.clientOf
    rw [Manager.modify_of_ne manager same]
    exact .inr rfl

theorem onlyAt_leave {stop : Stop} : OnlyAt id manager (stop.leave manager id) := by
  unfold Stop.leave
  split
  · exact onlyAt_modify
  · exact .refl id manager

theorem keyed_leave {stop : Stop} (keyed : Keyed manager) : Keyed (stop.leave manager id) := by
  unfold Stop.leave
  split
  · exact keyed_modify (fun _ => rfl) keyed
  · exact keyed

theorem keepsClients_leave {stop : Stop} : KeepsClients manager (stop.leave manager id) := by
  unfold Stop.leave
  split
  · exact keepsClients_modify fun _ => .inl rfl
  · exact .refl manager

theorem onlyAt_clear {handle : McpServerHandle} : OnlyAt id manager (manager.clear id handle) := by
  constructor
  · intro other apart
    exact Function.update_of_ne apart ..
  · intro name other apart routed
    simp only [Manager.clear] at routed
    split at routed
    · contradiction
    · exact routed

theorem keyed_clear {handle : McpServerHandle} (here : manager.servers id = some handle)
    (keyed : Keyed manager) : Keyed (manager.clear id handle) := by
  intro other found there
  by_cases same : other = id
  · subst same
    simp only [Manager.clear, Function.update_self, Option.some.injEq] at there
    subst there
    exact keyed other handle here
  · rw [onlyAt_clear.servers other same] at there
    exact keyed other found there

theorem keepsClients_clear {handle : McpServerHandle} :
    KeepsClients manager (manager.clear id handle) := by
  intro other
  by_cases same : other = id
  · subst same
    left
    simp [Manager.clientOf, Manager.clear, Manager.stoppedHandle]
  · right
    unfold Manager.clientOf
    rw [onlyAt_clear.servers other same]

/-- A stop that succeeds finds a handle and clears it. -/
theorem stopServer_eq_ok {stopped : Manager} (stops : manager.stopServer id = .ok stopped) :
    ∃ handle, manager.servers id = some handle ∧ stopped = manager.clear id handle := by
  unfold Manager.stopServer at stops
  cases here : manager.servers id with
  | none =>
      rw [here] at stops
      contradiction
  | some handle =>
      rw [here] at stops
      dsimp only at stops
      split at stops
      · contradiction
      · cases stops
        exact ⟨handle, rfl, rfl⟩

theorem onlyAt_register {handle : McpServerHandle}
    {toolsForCapability : Option (List (String × List String))} :
    OnlyAt handle.config.id manager (manager.register handle toolsForCapability) := by
  constructor
  · intro other apart
    exact Function.update_of_ne apart ..
  · intro name other apart routed
    simp only [Manager.register] at routed
    split at routed
    · exact routed
    · rw [Manager.indexTools_apply] at routed
      split at routed
      · cases routed
        exact absurd rfl apart
      · exact routed

theorem keyed_register {handle : McpServerHandle}
    {toolsForCapability : Option (List (String × List String))} (keyed : Keyed manager) :
    Keyed (manager.register handle toolsForCapability) := by
  intro other found there
  by_cases same : other = handle.config.id
  · subst same
    simp only [Manager.register, Function.update_self, Option.some.injEq] at there
    rw [there]
  · rw [onlyAt_register.servers other same] at there
    exact keyed other found there

end Changes

/-! ## One step of a task -/

/-- The server that a task is about. -/
def Task.id : Task → String
  | .calling config _ => config.id
  | .admitted config _ _ => config.id
  | .connecting config _ _ => config.id
  | .established config _ _ => config.id
  | .reaped config _ _ => config.id
  | .failing id _ _ => id
  | .restarting id _ => id
  | .stopped id _ => id
  | .waiting id => id
  | .cleared id => id
  | .reporting id _ => id
  | .draining id _ => id

theorem id_of_inFlight {task : Task} {id : String} (inFlight : task.inFlight = some id) :
    task.id = id := by
  cases task <;> first | exact Option.some.inj inFlight | contradiction

/-- A step that waits to insert a handle. -/
def Task.registers : Task → Bool
  | .reaped _ _ _ => true
  | _ => false

/-- A drain that waits. -/
def Task.drains : Task → Bool
  | .draining _ _ => true
  | _ => false

/-- What may be left of a task: a task for the same server that is no drain. -/
def Follows (task : Task) (next : Option Task) : Prop :=
  ∀ following, next = some following → following.id = task.id ∧ following.drains = false

/-- What a step says about the drain it ends, if it ends one. -/
def Ends (manager : Manager) (task : Task) (ended : Option Drained) : Prop :=
  ∀ drained, ended = some drained →
    task = .draining drained.id drained.found ∧ drained.stopped = manager.clientOf drained.id

/-- What a step of a task can do. -/
structure Advances (manager : Manager) (task : Task) (effect : Effect) : Prop where
  keyed : Keyed effect.manager
  onlyAt : OnlyAt task.id manager effect.manager
  keepsClients : task.registers = false → KeepsClients manager effect.manager
  follows : Follows task effect.next
  ends : Ends manager task effect.ended

section Advancing

variable {kernel : Kernel} {world : Surroundings} {stored : Except String McpServerConfig}
  {manager : Manager} {nextClient : Nat} {tasks : List Task} {task : Task} {next : Option Task}
  {id : String}

theorem follows_none : Follows task none := by
  intro following same
  cases same

theorem follows_some {following : Task} (own : following.id = task.id)
    (plain : following.drains = false) : Follows task (some following) := by
  rintro other same
  cases same
  exact ⟨own, plain⟩

theorem follows_report {message : String} {monitored : Bool} (own : task.id = id) :
    Follows task (report id message monitored) := by
  unfold report
  split
  · exact follows_some own.symm rfl
  · exact follows_none

theorem ends_none : Ends manager task none := by
  intro drained same
  cases same

/-- A step that leaves the manager alone. -/
theorem advances_of_same (keyed : Keyed manager) (follows : Follows task next) :
    Advances manager task (.of manager next) where
  keyed := keyed
  onlyAt := .refl _ _
  keepsClients := fun _ => .refl _
  follows := follows
  ends := ends_none

/-- A step that changes a handle, but neither its configuration nor its client
for another one. -/
theorem advances_of_modify (keyed : Keyed manager) {change : McpServerHandle → McpServerHandle}
    (configKept : ∀ handle, (change handle).config = handle.config)
    (clientKept : ∀ handle, (change handle).client = none ∨ (change handle).client = handle.client)
    (own : task.id = id) (follows : Follows task next) :
    Advances manager task (.of (manager.modify id change) next) where
  keyed := keyed_modify configKept keyed
  onlyAt := own ▸ onlyAt_modify
  keepsClients := fun _ => keepsClients_modify clientKept
  follows := follows
  ends := ends_none

/-- A step that changes the status. -/
theorem advances_of_setStatus (keyed : Keyed manager) {status : ServerStatus} (own : task.id = id)
    (follows : Follows task next) :
    Advances manager task (.of (manager.setStatus id status) next) :=
  advances_of_modify keyed (fun _ => rfl) (fun _ => .inr rfl) own follows

/-- A step that stops the server, or fails to. -/
theorem advances_of_clear (keyed : Keyed manager) {handle : McpServerHandle}
    (here : manager.servers id = some handle) (own : task.id = id) (follows : Follows task next)
    {ended : Option Drained} (ends : Ends manager task ended) :
    Advances manager task ⟨manager.clear id handle, next, ended⟩ where
  keyed := keyed_clear here keyed
  onlyAt := own ▸ onlyAt_clear
  keepsClients := fun _ => keepsClients_clear
  follows := follows
  ends := ends

/-- The configuration of a start is kept under the id that is started. -/
theorem id_of_startConfig (keyed : Keyed manager) (ownRow : storedUnder id stored = true)
    {config : McpServerConfig} (found : startConfig manager id stored = .ok config) :
    config.id = id := by
  unfold startConfig at found
  cases here : manager.servers id with
  | none =>
      rw [here] at found
      dsimp only at found
      rw [found] at ownRow
      exact beq_iff_eq.mp ownRow
  | some handle =>
      rw [here] at found
      dsimp only at found
      split at found
      · contradiction
      · cases found
        exact keyed id handle here

/-- Every step of a task is about its own server. -/
theorem advanceTask_spec (keyed : Keyed manager) (ready : enabled tasks stored task = true) :
    Advances manager task (advanceTask kernel world stored manager nextClient task) := by
  cases task with
  | calling config monitored =>
      unfold advanceTask
      dsimp only
      split
      · exact advances_of_same keyed (follows_some rfl rfl)
      · exact advances_of_same keyed (follows_some rfl rfl)
  | admitted config profile monitored =>
      unfold advanceTask
      apply advances_of_setStatus keyed
      · rfl
      · exact follows_some rfl rfl
  | connecting config profile monitored =>
      unfold advanceTask
      dsimp only
      split
      · exact advances_of_same keyed (follows_some rfl rfl)
      · exact advances_of_same keyed (follows_some rfl rfl)
  | established config profile session =>
      unfold advanceTask
      apply advances_of_modify keyed
      · intro handle
        rfl
      · intro handle
        exact .inl rfl
      · rfl
      · exact follows_some rfl rfl
  | reaped config profile session =>
      have onlyAt : OnlyAt (session.handle kernel config profile).config.id manager
          (manager.register (session.handle kernel config profile) session.toolsForCapability) :=
        onlyAt_register
      constructor
      · exact keyed_register keyed
      · exact onlyAt
      · intro waits
        contradiction
      · exact follows_none
      · exact ends_none
  | failing id stop monitored =>
      constructor
      · exact keyed_leave keyed
      · exact onlyAt_leave
      · intro
        exact keepsClients_leave
      · exact follows_report rfl
      · exact ends_none
  | restarting id monitored =>
      have follows : Follows (.restarting id monitored) (some (.stopped id monitored)) :=
        follows_some rfl rfl
      unfold advanceTask
      dsimp only
      cases stops : manager.stopServer id with
      | error message => exact advances_of_same keyed follows
      | ok stopped =>
          rcases stopServer_eq_ok stops with ⟨handle, here, rfl⟩
          exact advances_of_clear keyed here rfl follows ends_none
  | stopped id monitored =>
      unfold advanceTask
      dsimp only
      split
      · exact advances_of_same keyed (follows_report rfl)
      · rename_i config found
        exact advances_of_same keyed (follows_some (id_of_startConfig keyed ready found) rfl)
  | waiting id =>
      unfold advanceTask
      dsimp only
      split
      · exact advances_of_same keyed follows_none
      · exact advances_of_same keyed follows_none
      · exact advances_of_same keyed follows_none
      · exact advances_of_same keyed (follows_some rfl rfl)
  | cleared id =>
      unfold advanceTask
      apply advances_of_setStatus keyed
      · rfl
      · exact follows_some rfl rfl
  | reporting id message =>
      unfold advanceTask
      apply advances_of_setStatus keyed
      · rfl
      · exact follows_none
  | draining id client =>
      unfold advanceTask
      dsimp only
      split
      · exact advances_of_same keyed follows_none
      · rename_i stopped stops
        rcases stopServer_eq_ok stops with ⟨handle, here, rfl⟩
        apply advances_of_clear keyed here rfl follows_none
        intro drained same
        cases same
        exact ⟨rfl, rfl⟩

end Advancing

end ClotoCore.Mcp
