import ClotoCore.Mcp.Lifecycle
import ClotoCore.Mcp.Routing

/-!
# Whether a stop is final

A stop or a removal that meets a connection under way is undone by its
registration, and a drain stops whatever runs when its time is over.  Where
nothing is under way, and nothing is registered while a drain waits, both are
final.
-/

namespace ClotoCore.Mcp

open ClotoCore.Transition

/-! ## What is final -/

/-- What a settled id and an ended drain stand for: the server is not connected
and nothing is routed to it, and a drain stopped no other client than the one it
found. -/
structure Final (system : System) : Prop where
  stopped : ∀ id, system.settled id = true →
    system.manager.statusOf id ≠ some .connected ∧ ∀ name, system.manager.toolIndex name ≠ some id
  drained : ∀ entry ∈ system.drained, entry.stopped = none ∨ entry.stopped = entry.found

/-- No connection and no restart of a server is under way. -/
def Finished (tasks : List Task) (id : String) : Prop :=
  ∀ task ∈ tasks, task.inFlight ≠ some id

/-- A step of a task that is in order: a drain whose stop succeeds finds nothing
under way, and no handle is inserted while a drain of its server waits. -/
def OrderlyTask (system : System) : Task → Prop
  | .draining id _ =>
      (∃ stopped, system.manager.stopServer id = .ok stopped) → Finished system.tasks id
  | .reaped config _ _ => ∀ client, .draining config.id client ∉ system.tasks
  | _ => True

/-- A call or a step that is in order: a stop or a removal that succeeds finds
nothing under way, and a removal finds no route to the server but under the
names that its handle lists. -/
def Orderly (system : System) : Label → Prop
  | .stop id => (∃ stopped, system.manager.stopServer id = .ok stopped) → Finished system.tasks id
  | .remove id deleted => deleted = true → ∀ handle, system.manager.servers id = some handle →
      Finished system.tasks id ∧
        ∀ name, system.manager.toolIndex name = some id → name ∈ handle.toolNames
  | .advance index _ _ => ∀ task, system.tasks[index]? = some task → OrderlyTask system task
  | _ => True

/-! ## The invariant -/

/-- A server that is down and for which nothing is under way. -/
structure Quiet (manager : Manager) (tasks : List Task) (id : String) : Prop where
  idle : ∀ handle, manager.servers id = some handle →
    handle.client = none ∧ (handle.status = .disconnected ∨ handle.status = .draining)
  unrouted : ∀ name, manager.toolIndex name ≠ some id
  finished : Finished tasks id

/-- The server of a waiting drain has the client that the drain found, or none. -/
def DrainsFound (manager : Manager) (tasks : List Task) : Prop :=
  ∀ id client, .draining id client ∈ tasks →
    manager.clientOf id = none ∨ manager.clientOf id = client

/-- What holds in every state of an orderly run. -/
structure Sound (system : System) : Prop where
  keyed : Keyed system.manager
  quiet : ∀ id, system.settled id = true → Quiet system.manager system.tasks id
  drainsFound : DrainsFound system.manager system.tasks
  drained : ∀ entry ∈ system.drained, entry.stopped = none ∨ entry.stopped = entry.found

theorem sound_initial : Sound .initial := by
  constructor
  · intro id handle here
    cases here
  · intro id settled
    cases settled
  · intro id client mem
    cases mem
  · intro entry mem
    cases mem

theorem Sound.final {system : System} (sound : Sound system) : Final system := by
  constructor
  · intro id settled
    have quiet := sound.quiet id settled
    constructor
    · intro connected
      rcases Option.map_eq_some_iff.mp connected with ⟨handle, here, status⟩
      rcases (quiet.idle handle here).2 with disconnected | draining
      · rw [disconnected] at status
        contradiction
      · rw [draining] at status
        contradiction
    · exact quiet.unrouted
  · exact sound.drained

section Preservation

variable {kernel : Kernel} {world : Surroundings} {stored : Except String McpServerConfig}
  {before after : Manager} {tasks rest : List Task} {task : Task} {nextClient : Nat}
  {id acting : String}

/-- What is done to another server leaves a quiet one quiet. -/
theorem Quiet.frame (quiet : Quiet before tasks id) (apart : id ≠ acting)
    (onlyAt : OnlyAt acting before after)
    (fewer : ∀ other ∈ rest, other.inFlight = some id → other ∈ tasks) : Quiet after rest id := by
  constructor
  · intro handle here
    rw [onlyAt.servers id apart] at here
    exact quiet.idle handle here
  · intro name routed
    exact quiet.unrouted name (onlyAt.routes name id apart routed)
  · intro other mem inFlight
    exact quiet.finished other (fewer other mem inFlight) inFlight

theorem Quiet.fewer (quiet : Quiet before tasks id) (fewer : ∀ other ∈ rest, other ∈ tasks) :
    Quiet before rest id :=
  ⟨quiet.idle, quiet.unrouted, fun other mem => quiet.finished other (fewer other mem)⟩

/-- A stop makes a server quiet for which nothing is under way. -/
theorem quiet_clear {handle : McpServerHandle} (finished : Finished tasks id) :
    Quiet (before.clear id handle) tasks id := by
  constructor
  · intro other here
    simp only [Manager.clear, Function.update_self, Option.some.injEq] at here
    rw [← here]
    exact ⟨rfl, .inl rfl⟩
  · intro name routed
    simp only [Manager.clear] at routed
    split at routed
    · contradiction
    · contradiction
  · exact finished

/-- A task that is not under way leaves its own quiet server quiet. -/
theorem Quiet.advance (quiet : Quiet before tasks task.id) (mem : task ∈ tasks)
    (fewer : ∀ other ∈ rest, other ∈ tasks) :
    Quiet (advanceTask kernel world stored before nextClient task).manager
      ((advanceTask kernel world stored before nextClient task).next.toList ++ rest) task.id := by
  have resting := quiet.finished task mem
  have same : Quiet before ([] ++ rest) task.id := quiet.fewer fewer
  cases task with
  | calling | admitted | connecting | established | reaped | failing | restarting | stopped
  | cleared | reporting => exact absurd rfl resting
  | waiting id =>
      unfold advanceTask
      dsimp only
      split
      · exact same
      · exact same
      · exact same
      · -- A quiet server is stopped or draining, so the monitor does not go on.
        rename_i status notDisconnected notDraining known
        rcases Option.map_eq_some_iff.mp known with ⟨handle, here, statusEq⟩
        rcases (quiet.idle handle here).2 with disconnected | draining
        · exact absurd (statusEq.symm.trans disconnected) notDisconnected
        · exact absurd (statusEq.symm.trans draining) notDraining
  | draining id client =>
      unfold advanceTask
      dsimp only
      split
      · exact same
      · rename_i stopped stops
        rcases stopServer_eq_ok stops with ⟨handle, here, rfl⟩
        exact quiet_clear fun other otherMem => quiet.finished other (fewer other otherMem)

/-- Clients that are lost or kept are those that the drains found. -/
theorem DrainsFound.keep (found : DrainsFound before tasks) (keeps : KeepsClients before after)
    (fewer : ∀ id client, .draining id client ∈ rest → .draining id client ∈ tasks) :
    DrainsFound after rest := by
  intro id client mem
  rcases keeps id with lost | kept
  · exact .inl lost
  · rw [kept]
    exact found id client (fewer id client mem)

end Preservation

/-- A new task in front changes nothing for servers it is not under way for. -/
theorem Quiet.cons {manager : Manager} {tasks : List Task} {task : Task} {id : String}
    (quiet : Quiet manager tasks id) (apart : task.inFlight ≠ some id) :
    Quiet manager (task :: tasks) id := by
  constructor
  · exact quiet.idle
  · exact quiet.unrouted
  · intro other mem
    rcases List.mem_cons.mp mem with rfl | old
    · exact apart
    · exact quiet.finished other old

section Steps

variable {kernel : Kernel} {system next : System} {id : String}

/-- A new call that starts a server leaves every other server as it was. -/
theorem sound_of_start (sound : Sound system) {task : Task} (own : task.id = id)
    (plain : task.drains = false) {manager : Manager} (keyed : Keyed manager)
    (onlyAt : OnlyAt id system.manager manager) (keeps : KeepsClients system.manager manager) :
    Sound
      { system with
        manager
        tasks := task :: system.tasks
        settled := Function.update system.settled id false } := by
  have notDrain {other : String} {client : Option Nat}
      (mem : Task.draining other client ∈ task :: system.tasks) :
      Task.draining other client ∈ system.tasks := by
    rcases List.mem_cons.mp mem with rfl | old
    · contradiction
    · exact old
  constructor
  · exact keyed
  · intro other settled
    by_cases same : other = id
    · subst same
      dsimp only at settled
      rw [Function.update_self] at settled
      contradiction
    · dsimp only at settled
      rw [Function.update_of_ne same] at settled
      apply (sound.quiet other settled).frame same onlyAt
      intro found mem inFlight
      rcases List.mem_cons.mp mem with rfl | old
      · exact absurd ((id_of_inFlight inFlight).symm.trans own) same
      · exact old
  · exact sound.drainsFound.keep keeps fun _ _ => notDrain
  · exact sound.drained

theorem sound_stop (sound : Sound system) (orderly : Orderly system (.stop id))
    (stepEq : lifecycleStep kernel system (.stop id) = some next) : Sound next := by
  unfold lifecycleStep at stepEq
  dsimp only at stepEq
  split at stepEq
  · cases stepEq
    exact sound
  · rename_i stopped stops
    cases stepEq
    rcases stopServer_eq_ok stops with ⟨handle, here, rfl⟩
    constructor
    · exact keyed_clear here sound.keyed
    · intro other settled
      by_cases same : other = id
      · subst same
        exact quiet_clear (orderly ⟨_, stops⟩)
      · dsimp only at settled
        rw [Function.update_of_ne same] at settled
        exact (sound.quiet other settled).frame same onlyAt_clear fun _ mem _ => mem
    · exact sound.drainsFound.keep keepsClients_clear fun _ _ mem => mem
    · exact sound.drained

/-- A removal leaves no handle, and no route but under names that the handle did
not list. -/
theorem removeServer_eq_ok {manager removed : Manager}
    (removes : manager.removeServer id = .ok removed) :
    ∃ handle, manager.servers id = some handle ∧ removed.servers id = none ∧
      OnlyAt id manager removed ∧
      ∀ name, removed.toolIndex name = some id →
        manager.toolIndex name = some id ∧ name ∉ handle.toolNames := by
  unfold Manager.removeServer Manager.disconnectServer at removes
  cases here : manager.servers id with
  | none =>
      rw [here] at removes
      contradiction
  | some handle =>
      rw [here] at removes
      cases removes
      refine ⟨handle, rfl, Function.update_self .., ?_, ?_⟩
      · constructor
        · intro other apart
          exact Function.update_of_ne apart ..
        · intro name other apart routed
          dsimp only at routed
          split at routed
          · contradiction
          · exact routed
      · intro name routed
        dsimp only at routed
        split at routed
        · contradiction
        · rename_i unlisted
          exact ⟨routed, fun mem => unlisted (List.contains_iff_mem.mpr mem)⟩

theorem sound_remove (sound : Sound system) {deleted : Bool}
    (orderly : Orderly system (.remove id deleted))
    (stepEq : lifecycleStep kernel system (.remove id deleted) = some next) : Sound next := by
  unfold lifecycleStep at stepEq
  dsimp only at stepEq
  split at stepEq
  · cases stepEq
    exact sound
  · rename_i removed removes
    cases stepEq
    rcases removeServer_eq_ok removes with ⟨handle, here, gone, onlyAt, left⟩
    constructor
    · intro other found there
      by_cases same : other = id
      · subst same
        rw [gone] at there
        contradiction
      · rw [onlyAt.servers other same] at there
        exact sound.keyed other found there
    · intro other settled
      by_cases same : other = id
      · subst same
        have finished : Finished system.tasks other ∧
            ∀ name, system.manager.toolIndex name = some other → name ∈ handle.toolNames := by
          cases deleted with
          | true => exact orderly rfl handle here
          | false =>
              have quiet := sound.quiet other settled
              exact ⟨quiet.finished, fun name routed => absurd routed (quiet.unrouted name)⟩
        constructor
        · intro found there
          rw [gone] at there
          contradiction
        · intro name routed
          rcases left name routed with ⟨before, unlisted⟩
          exact unlisted (finished.2 name before)
        · exact finished.1
      · have settledBefore : system.settled other = true := by
          cases deleted with
          | true => simpa [Function.update_of_ne same] using settled
          | false => exact settled
        exact (sound.quiet other settledBefore).frame same onlyAt fun _ mem _ => mem
    · apply sound.drainsFound.keep _ fun _ _ mem => mem
      intro other
      by_cases same : other = id
      · subst same
        left
        rw [Manager.clientOf, gone]
        rfl
      · right
        rw [Manager.clientOf, onlyAt.servers other same]
        rfl
    · exact sound.drained

theorem sound_drain (sound : Sound system)
    (stepEq : lifecycleStep kernel system (.drain id) = some next) : Sound next := by
  unfold lifecycleStep at stepEq
  dsimp only at stepEq
  split at stepEq
  · cases stepEq
    exact sound
  · rename_i handle here
    cases stepEq
    have clientKept (other : String) :
        (system.manager.setStatus id .draining).clientOf other = system.manager.clientOf other := by
      unfold Manager.clientOf Manager.setStatus
      by_cases same : other = id
      · subst same
        rw [Manager.modify_self, here]
        rfl
      · rw [Manager.modify_of_ne _ same]
    constructor
    · exact keyed_modify (fun _ => rfl) sound.keyed
    · intro other settled
      have quiet := sound.quiet other settled
      have resting : (Task.draining id handle.client).inFlight ≠ some other := by
        intro same
        cases same
      apply Quiet.cons _ resting
      by_cases same : other = id
      · subst same
        constructor
        · intro found there
          rw [Manager.setStatus, Manager.modify_self, here] at there
          cases there
          exact ⟨(quiet.idle handle here).1, .inr rfl⟩
        · intro name routed
          rw [Manager.setStatus, Manager.modify_toolIndex] at routed
          exact quiet.unrouted name routed
        · exact quiet.finished
      · exact quiet.frame same onlyAt_modify fun _ mem _ => mem
    · intro other client mem
      rw [clientKept]
      rcases List.mem_cons.mp mem with new | old
      · cases new
        right
        rw [Manager.clientOf, here]
        rfl
      · exact sound.drainsFound other client old
    · exact sound.drained

theorem sound_monitor (sound : Sound system)
    (stepEq : lifecycleStep kernel system (.monitor id) = some next) : Sound next := by
  unfold lifecycleStep at stepEq
  dsimp only at stepEq
  split at stepEq
  · contradiction
  · split at stepEq
    · cases stepEq
      constructor
      · exact sound.keyed
      · intro other settled
        apply (sound.quiet other settled).cons
        intro same
        cases same
      · intro other client mem
        rcases List.mem_cons.mp mem with new | old
        · contradiction
        · exact sound.drainsFound other client old
      · exact sound.drained
    · contradiction

/-- A step that inserts a handle has no drain of that server waiting. -/
theorem drainsFound_advance {manager : Manager} {tasks rest : List Task} {task : Task}
    {effect : Effect} (spec : Advances manager task effect) (found : DrainsFound manager tasks)
    (orderly : task.registers = true → ∀ client, .draining task.id client ∉ tasks)
    (fewer : ∀ other ∈ rest, other ∈ tasks) :
    DrainsFound effect.manager (effect.next.toList ++ rest) := by
  have waiting {id : String} {client : Option Nat}
      (mem : .draining id client ∈ effect.next.toList ++ rest) : .draining id client ∈ tasks := by
    rcases List.mem_append.mp mem with new | old
    · have plain := (spec.follows _ (Option.mem_toList.mp new)).2
      contradiction
    · exact fewer _ old
  cases registers : task.registers with
  | false => exact found.keep (spec.keepsClients registers) fun _ _ => waiting
  | true =>
      intro id client mem
      have apart : id ≠ task.id := by
        rintro rfl
        exact orderly registers client (waiting mem)
      rw [Manager.clientOf, spec.onlyAt.servers id apart]
      exact found id client (waiting mem)

/-- A step of a task leaves a quiet server quiet. -/
theorem Quiet.step {world : Surroundings} {stored : Except String McpServerConfig}
    {manager : Manager} {tasks rest : List Task} {task : Task} {nextClient : Nat}
    (quiet : Quiet manager tasks id) (mem : task ∈ tasks)
    (spec : Advances manager task (advanceTask kernel world stored manager nextClient task))
    (fewer : ∀ other ∈ rest, other ∈ tasks) :
    Quiet (advanceTask kernel world stored manager nextClient task).manager
      ((advanceTask kernel world stored manager nextClient task).next.toList ++ rest) id := by
  by_cases same : id = task.id
  · subst same
    exact quiet.advance mem fewer
  · apply quiet.frame same spec.onlyAt
    intro other otherMem inFlight
    rcases List.mem_append.mp otherMem with new | old
    · have own := (spec.follows other (Option.mem_toList.mp new)).1
      exact absurd ((id_of_inFlight inFlight).symm.trans own) same
    · exact fewer other old

/-- A drain in order that ends leaves its server quiet. -/
theorem quiet_of_ended {world : Surroundings} {stored : Except String McpServerConfig}
    {rest : List Task} {task : Task} {nextClient : Nat} {drained : Drained}
    (orderly : OrderlyTask system task) (fewer : ∀ other ∈ rest, other ∈ system.tasks)
    (ended : (advanceTask kernel world stored system.manager nextClient task).ended = some drained)
    (isDrain : task = .draining drained.id drained.found) :
    Quiet (advanceTask kernel world stored system.manager nextClient task).manager
      ((advanceTask kernel world stored system.manager nextClient task).next.toList ++ rest)
      drained.id := by
  subst isDrain
  unfold advanceTask at ended ⊢
  dsimp only at ended ⊢
  cases stops : system.manager.stopServer drained.id with
  | error message =>
      rw [stops] at ended
      contradiction
  | ok stopped =>
      rcases stopServer_eq_ok stops with ⟨handle, here, rfl⟩
      have finished : Finished system.tasks drained.id := orderly ⟨_, stops⟩
      exact quiet_clear fun other mem => finished other (fewer other mem)

theorem sound_advance (sound : Sound system) {index : Nat} {world : Surroundings}
    {stored : Except String McpServerConfig}
    (orderly : Orderly system (.advance index world stored))
    (stepEq : lifecycleStep kernel system (.advance index world stored) = some next) :
    Sound next := by
  unfold lifecycleStep at stepEq
  dsimp only at stepEq
  cases here : system.tasks[index]? with
  | none =>
      rw [here] at stepEq
      contradiction
  | some task =>
      rw [here] at stepEq
      dsimp only at stepEq
      split at stepEq
      · rename_i ready
        cases stepEq
        have mem : task ∈ system.tasks := List.mem_of_getElem? here
        have inOrder : OrderlyTask system task := orderly task here
        have fewer : ∀ other ∈ system.tasks.eraseIdx index, other ∈ system.tasks :=
          fun _ => List.mem_of_mem_eraseIdx
        have spec : Advances system.manager task
            (advanceTask kernel world stored system.manager system.nextClient task) :=
          advanceTask_spec sound.keyed ready
        constructor
        · exact spec.keyed
        · intro id settled
          dsimp only at settled
          cases ended : (advanceTask kernel world stored system.manager system.nextClient
              task).ended with
          | none =>
              rw [ended] at settled
              exact (sound.quiet id settled).step mem spec fewer
          | some drained =>
              rw [ended] at settled
              dsimp only at settled
              by_cases same : id = drained.id
              · subst same
                exact quiet_of_ended inOrder fewer ended (spec.ends drained ended).1
              · rw [Function.update_of_ne same] at settled
                exact (sound.quiet id settled).step mem spec fewer
        · apply drainsFound_advance spec sound.drainsFound _ fewer
          intro registers
          cases task <;> first | exact inOrder | contradiction
        · intro drained drainedMem
          rcases List.mem_append.mp drainedMem with new | old
          · rcases spec.ends drained (Option.mem_toList.mp new) with ⟨isDrain, stopped⟩
            rw [stopped]
            exact sound.drainsFound drained.id drained.found (isDrain ▸ mem)
          · exact sound.drained drained old
      · contradiction

theorem sound_step (sound : Sound system) {label : Label} (orderly : Orderly system label)
    (stepEq : lifecycleStep kernel system label = some next) : Sound next := by
  cases label with
  | connect config =>
      cases stepEq
      exact sound_of_start sound rfl rfl sound.keyed (.refl _ _) (.refl _)
  | start id stored =>
      unfold lifecycleStep at stepEq
      dsimp only at stepEq
      split at stepEq
      · rename_i ownRow
        split at stepEq
        · cases stepEq
          constructor
          · exact sound.keyed
          · intro other settled
            dsimp only at settled
            by_cases same : other = id
            · subst same
              rw [Function.update_self] at settled
              contradiction
            · rw [Function.update_of_ne same] at settled
              exact sound.quiet other settled
          · exact sound.drainsFound
          · exact sound.drained
        · rename_i config found
          cases stepEq
          have own : (Task.calling config false).id = id :=
            id_of_startConfig sound.keyed ownRow found
          exact sound_of_start sound own rfl sound.keyed (.refl _ _) (.refl _)
      · contradiction
  | restart id =>
      cases stepEq
      apply sound_of_start sound rfl rfl
      · exact keyed_modify (fun _ => rfl) sound.keyed
      · exact onlyAt_modify
      · exact keepsClients_modify fun _ => .inr rfl
  | stop id => exact sound_stop sound orderly stepEq
  | remove id deleted => exact sound_remove sound orderly stepEq
  | drain id => exact sound_drain sound stepEq
  | monitor id => exact sound_monitor sound stepEq
  | advance index world stored => exact sound_advance sound orderly stepEq

end Steps

/-- In every run whose steps are in order, a stop and a removal are final and a
drain stops only what it found. -/
theorem final_of_orderly_run (kernel : Kernel) (labels : List Label) (system : System)
    (orderly : Along (lifecycleStep kernel) Orderly .initial labels)
    (ran : run (lifecycleStep kernel) .initial labels = some system) : Final system := by
  have sound : Sound system := by
    apply run_invariant_along Sound _ sound_initial orderly ran
    intro state label next held meets stepEq
    exact sound_step held meets stepEq
  exact sound.final

/-! ## Steps one after the other -/

/-- A step that meets no other call: a stop finds nothing under way, nothing is
drained and nothing is removed. -/
def Sequential (system : System) : Label → Prop
  | .stop _ => system.tasks.isEmpty = true
  | .remove _ _ => False
  | .advance _ _ _ => ∀ task ∈ system.tasks, task.drains = false
  | _ => True

instance (system : System) (label : Label) : Decidable (Sequential system label) :=
  match label with
  | .connect _ | .start _ _ | .restart _ | .drain _ | .monitor _ => isTrue trivial
  | .stop _ => inferInstanceAs (Decidable (system.tasks.isEmpty = true))
  | .remove _ _ => isFalse id
  | .advance _ _ _ => inferInstanceAs (Decidable (∀ task ∈ system.tasks, task.drains = false))

theorem orderly_of_sequential {system : System} {label : Label}
    (sequential : Sequential system label) : Orderly system label := by
  cases label with
  | stop id =>
      intro
      have empty : system.tasks = [] := List.isEmpty_iff.mp sequential
      rw [empty]
      intro task mem
      cases mem
  | remove id deleted => exact sequential.elim
  | advance index world stored =>
      intro task here
      have mem : task ∈ system.tasks := List.mem_of_getElem? here
      cases task with
      | draining id client =>
          have plain := sequential _ mem
          contradiction
      | reaped config profile session =>
          intro client drainMem
          have plain := sequential _ drainMem
          contradiction
      | calling | admitted | connecting | established | failing | restarting | stopped | waiting
      | cleared | reporting => trivial
  | connect | start | restart | drain | monitor => trivial

/-- A server is connected from start to end, and stopped. -/
def connectThenStop : List Label :=
  .connect (nodeServer "a") :: List.replicate 5 (.advance 0 (fileServer 0) (.error ""))
    ++ [.stop "a"]

theorem final_of_orderly_run_connectThenStop :
    ∃ system, run (lifecycleStep openKernel) .initial connectThenStop = some system ∧
      system.settled "a" = true ∧ Final system := by
  have settles : (run (lifecycleStep openKernel) .initial connectThenStop).map
      (fun system => system.settled "a") = some true := by decide +kernel
  rcases Option.map_eq_some_iff.mp settles with ⟨system, ran, settled⟩
  have sequential : Along (lifecycleStep openKernel) Sequential .initial connectThenStop := by
    decide +kernel
  have orderly := sequential.mono fun _ _ => orderly_of_sequential
  exact ⟨system, ran, settled, final_of_orderly_run openKernel connectThenStop system orderly ran⟩

/-! ## A stop that meets a connection -/

/-- A stop and a removal are final in every state that the steps reach. -/
def StopIsFinal : Prop :=
  ∀ (kernel : Kernel) (labels : List Label) (system : System),
    run (lifecycleStep kernel) .initial labels = some system → Final system

/-- The server is started again, and the second stop comes while it connects. -/
def stopWhileConnecting : List Label :=
  connectThenStop ++ .start "a" (.error "")
    :: List.replicate 2 (.advance 0 (fileServer 1) (.error ""))
    ++ .stop "a" :: List.replicate 3 (.advance 0 (fileServer 1) (.error ""))

/-- The stopped server is connected. -/
theorem not_stopIsFinal : ¬StopIsFinal := by
  intro isFinal
  have outcome : (run (lifecycleStep openKernel) .initial stopWhileConnecting).map
      (fun system => (system.settled "a", system.manager.statusOf "a")) =
        some (true, some .connected) := by decide +kernel
  rcases Option.map_eq_some_iff.mp outcome with ⟨system, ran, found⟩
  rcases Prod.mk.inj found with ⟨settled, connected⟩
  exact ((isFinal openKernel stopWhileConnecting system ran).stopped "a" settled).1 connected

end ClotoCore.Mcp
