import ClotoCore.Mcp.Connect
import ClotoCore.Transition.Run

/-!
# Routes and the servers behind them

Three indexes name servers and tools: the routing index, the searchable index
and the capability mappings.  They are coherent when every entry names a
connected server that lists the tool, and every tool of a connected server that
is no engine can be reached.  A stop takes a name out of the routing index and
does not look for another server that lists it.
-/

namespace ClotoCore.Mcp

open ClotoCore.Approval ClotoCore.Transition

/-! ## Coherence -/

/-- A connected server that lists a tool. -/
def Lists (manager : Manager) (id toolName : String) : Prop :=
  ∃ handle, manager.servers id = some handle ∧ handle.status = .connected ∧
    toolName ∈ handle.toolNames

/-- A connected server that is no engine and lists a tool. -/
def Offers (manager : Manager) (id toolName : String) : Prop :=
  ∃ handle, manager.servers id = some handle ∧ handle.status = .connected ∧
    toolName ∈ handle.toolNames ∧ toolsExposeReasoning handle.tools = false

/-- Every entry of every index is backed by a server, and every offered tool
that is not the kernel's own is routed. -/
structure Coherent (manager : Manager) : Prop where
  routed : ∀ name id, manager.toolIndex name = some id → Lists manager id name
  indexed : ∀ entry ∈ manager.richToolIndex, Lists manager entry.serverId entry.name
  dispatched : ∀ capability, ∀ mapping ∈ manager.dispatcher capability,
    Lists manager mapping.serverId mapping.toolName
  reachable : ∀ id name, Offers manager id name →
    McpClientManager.isKernelNativeTool name = false →
      ∃ other, manager.toolIndex name = some other ∧ Lists manager other name

theorem coherent_empty : Coherent .empty := by
  constructor
  · intro name id routed
    cases routed
  · intro entry mem
    cases mem
  · intro capability mapping mem
    cases mem
  · rintro id name ⟨handle, here, -⟩
    cases here

theorem Offers.lists {manager : Manager} {id name : String} (offers : Offers manager id name) :
    Lists manager id name := by
  rcases offers with ⟨handle, here, connected, mem, -⟩
  exact ⟨handle, here, connected, mem⟩

section Frame

variable {before after : Manager} {id other name : String}

/-- What a server lists depends on its own handle only. -/
theorem lists_congr (same : after.servers other = before.servers other) :
    Lists after other name ↔ Lists before other name := by
  rw [Lists, Lists, same]

theorem offers_congr (same : after.servers other = before.servers other) :
    Offers after other name ↔ Offers before other name := by
  rw [Offers, Offers, same]

/-- A change of the handle of one server that is connected neither before nor
after leaves the indexes coherent. -/
theorem Coherent.of_idle (coherent : Coherent before)
    (frame : ∀ other, other ≠ id → after.servers other = before.servers other)
    (idleBefore : before.statusOf id ≠ some .connected)
    (idleAfter : after.statusOf id ≠ some .connected)
    (toolIndexEq : after.toolIndex = before.toolIndex)
    (richEq : after.richToolIndex = before.richToolIndex)
    (dispatcherEq : after.dispatcher = before.dispatcher) : Coherent after := by
  have notHere {manager : Manager} (idle : manager.statusOf id ≠ some .connected) {name : String} :
      ¬Lists manager id name := by
    rintro ⟨handle, here, connected, -⟩
    apply idle
    rw [Manager.statusOf, here, Option.map_some, connected]
  have keeps {other name : String} (lists : Lists before other name) : Lists after other name := by
    by_cases same : other = id
    · rw [same] at lists
      exact absurd lists (notHere idleBefore)
    · exact (lists_congr (frame other same)).mpr lists
  constructor
  · intro name owner routed
    rw [toolIndexEq] at routed
    exact keeps (coherent.routed name owner routed)
  · intro entry mem
    rw [richEq] at mem
    exact keeps (coherent.indexed entry mem)
  · intro capability mapping mem
    rw [dispatcherEq] at mem
    exact keeps (coherent.dispatched capability mapping mem)
  · intro other name offers notKernel
    by_cases same : other = id
    · rw [same] at offers
      exact absurd offers.lists (notHere idleAfter)
    · rcases coherent.reachable other name ((offers_congr (frame other same)).mp offers) notKernel
        with ⟨owner, routed, lists⟩
      exact ⟨owner, by rw [toolIndexEq, routed], keeps lists⟩

end Frame

/-! ## The indexes after a registration -/

theorem mem_addServerTools {entries : List ToolIndexEntry} {id : String} {tools : List McpTool}
    {securityFn : String → Option ToolSecurityMetadata} {entry : ToolIndexEntry}
    (mem : entry ∈ Manager.addServerTools entries id tools securityFn) :
    (entry ∈ entries ∧ entry.serverId ≠ id) ∨
      (entry.serverId = id ∧ entry.name ∈ tools.map McpTool.name) := by
  rcases List.mem_append.mp mem with kept | added
  · left
    simpa [Manager.removeServerTools] using kept
  · right
    rcases List.mem_map.mp added with ⟨tool, toolMem, rfl⟩
    exact ⟨rfl, List.mem_map_of_mem (List.mem_filter.mp toolMem).1⟩

theorem mem_add {dispatcher : Dispatcher} {capability other : CapabilityType}
    {mapping new : CapabilityMapping} (mem : mapping ∈ dispatcher.add capability new other) :
    mapping ∈ dispatcher other ∨ mapping = new := by
  unfold Dispatcher.add at mem
  split at mem
  · exact .inl mem
  · by_cases same : other = capability
    · subst same
      rw [Function.update_self] at mem
      simpa using mem
    · rw [Function.update_of_ne same] at mem
      exact .inl mem

/-- A mapping that is built from a tool list names a tool of the list. -/
theorem mem_buildFromTools {dispatcher : Dispatcher} {id : String} {tools : List McpTool}
    {capability : CapabilityType} {mapping : CapabilityMapping}
    (mem : mapping ∈ dispatcher.buildFromTools id tools capability) :
    mapping ∈ dispatcher capability ∨
      (mapping.serverId = id ∧ mapping.toolName ∈ tools.map McpTool.name) := by
  induction tools generalizing dispatcher with
  | nil => exact .inl mem
  | cons tool rest ih =>
      rw [Dispatcher.buildFromTools, List.foldl_cons] at mem
      rcases ih mem with earlier | ⟨server, listed⟩
      · cases classified : classifyTool tool.name with
        | none =>
            simp only [classified] at earlier
            exact .inl earlier
        | some key =>
            simp only [classified] at earlier
            rcases mem_add earlier with old | rfl
            · exact .inl old
            · exact .inr ⟨rfl, List.mem_cons_self⟩
      · exact .inr ⟨server, List.mem_cons_of_mem _ listed⟩

/-- The names under one key of a manifest. -/
theorem mem_foldl_add {mappings : Dispatcher} {id : String} {key capability : CapabilityType}
    {names : List String} {mapping : CapabilityMapping}
    (mem : mapping ∈ names.foldl (fun mappings name => mappings.add key ⟨id, name⟩) mappings
      capability) :
    mapping ∈ mappings capability ∨ (mapping.serverId = id ∧ mapping.toolName ∈ names) := by
  induction names generalizing mappings with
  | nil => exact .inl mem
  | cons name rest ih =>
      rcases ih mem with earlier | ⟨server, listed⟩
      · rcases mem_add earlier with old | rfl
        · exact .inl old
        · exact .inr ⟨rfl, List.mem_cons_self⟩
      · exact .inr ⟨server, List.mem_cons_of_mem _ listed⟩

/-- A mapping that is built from a manifest names a tool of the manifest, under
a key that is a capability. -/
theorem mem_buildFromCapabilities {dispatcher : Dispatcher} {id : String}
    {manifest : List (String × List String)} {capability : CapabilityType}
    {mapping : CapabilityMapping}
    (mem : mapping ∈ dispatcher.buildFromCapabilities id manifest capability) :
    mapping ∈ dispatcher capability ∨
      (mapping.serverId = id ∧ ∃ entry ∈ manifest,
        (CapabilityType.fromStr entry.1).isSome ∧ mapping.toolName ∈ entry.2) := by
  induction manifest generalizing dispatcher with
  | nil => exact .inl mem
  | cons entry rest ih =>
      rw [Dispatcher.buildFromCapabilities, List.foldl_cons] at mem
      rcases ih mem with earlier | ⟨server, found, foundMem, named, listed⟩
      · cases named : CapabilityType.fromStr entry.1 with
        | none =>
            simp only [named] at earlier
            exact .inl earlier
        | some key =>
            simp only [named] at earlier
            rcases mem_foldl_add earlier with old | ⟨server, listed⟩
            · exact .inl old
            · exact .inr ⟨server, entry, List.mem_cons_self, by rw [named]; rfl, listed⟩
      · exact .inr ⟨server, found, List.mem_cons_of_mem _ foundMem, named, listed⟩

theorem mem_add_of_mem {dispatcher : Dispatcher} {capability other : CapabilityType}
    {mapping new : CapabilityMapping} (mem : mapping ∈ dispatcher other) :
    mapping ∈ dispatcher.add capability new other := by
  unfold Dispatcher.add
  split
  · exact mem
  · by_cases same : other = capability
    · subst same
      rw [Function.update_self]
      exact List.mem_append_left _ mem
    · rw [Function.update_of_ne same]
      exact mem

theorem mem_add_self {dispatcher : Dispatcher} {capability : CapabilityType}
    {new : CapabilityMapping} : new ∈ dispatcher.add capability new capability := by
  unfold Dispatcher.add
  split
  · rename_i there
    exact List.contains_iff_mem.mp there
  · rw [Function.update_self]
    exact List.mem_append_right _ List.mem_cons_self

/-- Pushing names keeps what is there and adds each of them. -/
theorem mem_foldl_add_of {mappings : Dispatcher} {id : String} {key capability : CapabilityType}
    {names : List String} {mapping : CapabilityMapping}
    (given : mapping ∈ mappings capability ∨
      (capability = key ∧ mapping.serverId = id ∧ mapping.toolName ∈ names)) :
    mapping ∈ names.foldl (fun mappings name => mappings.add key ⟨id, name⟩) mappings
      capability := by
  induction names generalizing mappings with
  | nil =>
      rcases given with old | ⟨-, -, mem⟩
      · exact old
      · cases mem
  | cons name rest ih =>
      apply ih
      rcases given with old | ⟨rfl, rfl, mem⟩
      · exact .inl (mem_add_of_mem old)
      · rcases List.mem_cons.mp mem with rfl | later
        · exact .inl mem_add_self
        · exact .inr ⟨rfl, rfl, later⟩

/-- Every name under a capability of a manifest gets a mapping. -/
theorem mem_buildFromCapabilities_of {dispatcher : Dispatcher} {id : String}
    {manifest : List (String × List String)} {capability : CapabilityType}
    {mapping : CapabilityMapping}
    (given : mapping ∈ dispatcher capability ∨
      (mapping.serverId = id ∧ ∃ entry ∈ manifest,
        CapabilityType.fromStr entry.1 = some capability ∧ mapping.toolName ∈ entry.2)) :
    mapping ∈ dispatcher.buildFromCapabilities id manifest capability := by
  induction manifest generalizing dispatcher with
  | nil =>
      rcases given with old | ⟨-, entry, mem, -⟩
      · exact old
      · cases mem
  | cons entry rest ih =>
      rw [Dispatcher.buildFromCapabilities, List.foldl_cons]
      apply ih
      rcases given with old | ⟨server, found, mem, named, listed⟩
      · left
        cases CapabilityType.fromStr entry.1 with
        | none => exact old
        | some key => exact mem_foldl_add_of (.inl old)
      · rcases List.mem_cons.mp mem with rfl | later
        · left
          simp only [named]
          exact mem_foldl_add_of (.inr ⟨rfl, server, listed⟩)
        · exact .inr ⟨server, found, later, named, listed⟩

/-! ## Stopping and removing -/

/-- No tool that is routed to the server is offered by another one. -/
def SafeStop (manager : Manager) (id : String) : Prop :=
  ∀ name, manager.toolIndex name = some id → McpClientManager.isKernelNativeTool name = false →
    ∀ other, other ≠ id → ¬Offers manager other name

/-- The server has no capability mapping, and no tool that it lists is offered
by another one. -/
def SafeDisconnect (manager : Manager) (id : String) : Prop :=
  ∀ handle, manager.servers id = some handle →
    (∀ capability, ∀ mapping ∈ manager.dispatcher capability, mapping.serverId ≠ id) ∧
      ∀ name ∈ handle.toolNames, McpClientManager.isKernelNativeTool name = false →
        ∀ other, other ≠ id → ¬Offers manager other name

section Leaving

variable {manager : Manager} {id : String} {handle : McpServerHandle}

theorem not_offers_clear {name : String} : ¬Offers (manager.clear id handle) id name := by
  rintro ⟨stopped, here, connected, -⟩
  have same : (manager.clear id handle).servers id = some (Manager.stoppedHandle handle) :=
    Function.update_self ..
  rw [same] at here
  cases here
  contradiction

/-- A safe stop leaves the indexes coherent. -/
theorem coherent_clear (coherent : Coherent manager) (safe : SafeStop manager id) :
    Coherent (manager.clear id handle) := by
  have frame (other : String) (apart : other ≠ id) :
      (manager.clear id handle).servers other = manager.servers other :=
    Function.update_of_ne apart ..
  constructor
  · intro name owner routed
    simp only [Manager.clear] at routed
    split at routed
    · contradiction
    · rename_i elsewhere
      have apart : owner ≠ id := by
        rintro rfl
        exact elsewhere routed
      exact (lists_congr (frame owner apart)).mpr (coherent.routed name owner routed)
  · intro entry mem
    rcases List.mem_filter.mp mem with ⟨entryMem, apart⟩
    exact (lists_congr (frame _ (bne_iff_ne.mp apart))).mpr (coherent.indexed entry entryMem)
  · intro capability mapping mem
    rcases List.mem_filter.mp mem with ⟨mappingMem, apart⟩
    exact (lists_congr (frame _ (bne_iff_ne.mp apart))).mpr
      (coherent.dispatched capability mapping mappingMem)
  · intro other name offers notKernel
    by_cases same : other = id
    · rw [same] at offers
      exact absurd offers not_offers_clear
    · have offered := (offers_congr (frame other same)).mp offers
      rcases coherent.reachable other name offered notKernel with ⟨owner, routed, lists⟩
      have apart : owner ≠ id := by
        rintro rfl
        exact safe name routed notKernel other same offered
      refine ⟨owner, ?_, (lists_congr (frame owner apart)).mpr lists⟩
      simp only [Manager.clear, routed, Option.some.injEq, apart, if_false]

/-- An unsafe stop leaves a tool unreachable. -/
theorem safeStop_of_coherent_clear (coherent : Coherent (manager.clear id handle)) :
    SafeStop manager id := by
  intro name routed notKernel other apart offers
  have frame : (manager.clear id handle).servers other = manager.servers other :=
    Function.update_of_ne apart ..
  rcases coherent.reachable other name ((offers_congr frame).mpr offers) notKernel with
    ⟨owner, stillRouted, -⟩
  simp [Manager.clear, routed] at stillRouted

/-- A stop of a server that is there keeps coherence exactly if it is safe. -/
theorem coherent_clear_iff (coherent : Coherent manager) :
    Coherent (manager.clear id handle) ↔ SafeStop manager id :=
  ⟨safeStop_of_coherent_clear, coherent_clear coherent⟩

/-- Nothing is routed to a server that is not connected. -/
theorem safeStop_of_idle (coherent : Coherent manager)
    (idle : manager.statusOf id ≠ some .connected) : SafeStop manager id := by
  intro name routed
  rcases coherent.routed name id routed with ⟨handle, here, connected, -⟩
  rw [Manager.statusOf, here, Option.map_some, connected] at idle
  exact absurd rfl idle

/-- Whether a stop succeeds or not, it keeps coherence exactly if it is safe. -/
theorem coherent_stopServer_iff (coherent : Coherent manager) :
    Coherent ((manager.stopServer id).toOption.getD manager) ↔ SafeStop manager id := by
  unfold Manager.stopServer
  cases here : manager.servers id with
  | none =>
      constructor
      · intro
        apply safeStop_of_idle coherent
        rw [Manager.statusOf, here]
        intro impossible
        cases impossible
      · intro
        exact coherent
  | some handle =>
      dsimp only
      split
      · rename_i stopped
        constructor
        · intro
          apply safeStop_of_idle coherent
          rw [Manager.statusOf, here, Option.map_some, stopped]
          decide
        · intro
          exact coherent
      · exact coherent_clear_iff coherent

/-- An unsafe removal leaves a tool unreachable or a mapping without a server. -/
theorem safeDisconnect_of_coherent {removed : Manager}
    (removes : manager.disconnectServer id = .ok removed) (coherent : Coherent removed) :
    SafeDisconnect manager id := by
  unfold Manager.disconnectServer at removes
  intro handle here
  rw [here] at removes
  cases removes
  constructor
  · rintro capability mapping mem rfl
    rcases coherent.dispatched capability mapping mem with ⟨gone, there, -⟩
    dsimp only at there
    rw [Function.update_self] at there
    contradiction
  · intro name listed notKernel other apart offers
    have frame : Function.update manager.servers id none other = manager.servers other :=
      Function.update_of_ne apart ..
    rcases coherent.reachable other name ((offers_congr frame).mpr offers) notKernel with
      ⟨owner, stillRouted, -⟩
    dsimp only at stillRouted
    rw [if_pos (List.contains_iff_mem.mpr listed)] at stillRouted
    contradiction

/-- A safe removal leaves the indexes coherent. -/
theorem coherent_disconnectServer (coherent : Coherent manager) (safe : SafeDisconnect manager id)
    {removed : Manager} (removes : manager.disconnectServer id = .ok removed) :
    Coherent removed := by
  unfold Manager.disconnectServer at removes
  split at removes
  · contradiction
  · rename_i handle here
    cases removes
    rcases safe handle here with ⟨unmapped, unshared⟩
    have frame (other : String) (apart : other ≠ id) :
        Function.update manager.servers id none other = manager.servers other :=
      Function.update_of_ne apart ..
    -- What is routed to the removed server is one of its own tools.
    have listed {name : String} (routed : manager.toolIndex name = some id) :
        name ∈ handle.toolNames := by
      rcases coherent.routed name id routed with ⟨other, there, -, mem⟩
      rw [here] at there
      cases there
      exact mem
    constructor
    · intro name owner routed
      dsimp only at routed
      split at routed
      · contradiction
      · rename_i kept
        have apart : owner ≠ id := by
          rintro rfl
          exact kept (List.contains_iff_mem.mpr (listed routed))
        exact (lists_congr (frame owner apart)).mpr (coherent.routed name owner routed)
    · intro entry mem
      rcases List.mem_filter.mp mem with ⟨entryMem, apart⟩
      exact (lists_congr (frame _ (bne_iff_ne.mp apart))).mpr (coherent.indexed entry entryMem)
    · intro capability mapping mem
      exact (lists_congr (frame _ (unmapped capability mapping mem))).mpr
        (coherent.dispatched capability mapping mem)
    · intro other name offers notKernel
      by_cases same : other = id
      · rw [same] at offers
        rcases offers with ⟨gone, there, -⟩
        dsimp only at there
        rw [Function.update_self] at there
        contradiction
      · have offered : Offers manager other name := (offers_congr (frame other same)).mp offers
        rcases coherent.reachable other name offered notKernel with ⟨owner, routed, lists⟩
        have kept : name ∉ handle.toolNames := fun mem =>
          unshared name mem notKernel other same offered
        have apart : owner ≠ id := by
          rintro rfl
          exact kept (listed routed)
        refine ⟨owner, ?_, (lists_congr (frame owner apart)).mpr lists⟩
        dsimp only
        rw [if_neg (fun mem => kept (List.contains_iff_mem.mp mem)), routed]

/-- Whether a removal succeeds or not, it keeps coherence exactly if it is safe. -/
theorem coherent_disconnectServer_iff (coherent : Coherent manager) :
    Coherent ((manager.disconnectServer id).toOption.getD manager) ↔ SafeDisconnect manager id := by
  cases removes : manager.disconnectServer id with
  | error message =>
      constructor
      · intro remains handle here
        rw [Manager.disconnectServer, here] at removes
        contradiction
      · intro
        exact coherent
  | ok removed =>
      exact ⟨safeDisconnect_of_coherent removes,
        fun safe => coherent_disconnectServer coherent safe removes⟩

end Leaving

/-! ## Registering -/

/-- Every tool that a manifest offers under a capability is in the tool list. -/
def ManifestListed (toolsForCapability : Option (List (String × List String)))
    (toolNames : List String) : Prop :=
  ∀ manifest, toolsForCapability = some manifest → ∀ entry ∈ manifest,
    (CapabilityType.fromStr entry.1).isSome → ∀ name ∈ entry.2, name ∈ toolNames

/-- A reserved name is one of the kernel's own. -/
theorem isReservedName_of_not_kernel {name : String}
    (notKernel : McpClientManager.isKernelNativeTool name = false) :
    isReservedName name = false := by
  rw [McpClientManager.isKernelNativeTool, Bool.or_eq_false_iff] at notKernel
  exact notKernel.1

/-- The registration of a server that was not connected, over whatever handle
it had, leaves the indexes coherent. -/
theorem coherent_register {manager : Manager} (coherent : Coherent manager)
    {handle : McpServerHandle} (idle : manager.statusOf handle.config.id ≠ some .connected)
    (connected : handle.status = .connected)
    {toolsForCapability : Option (List (String × List String))}
    (listed : ManifestListed toolsForCapability handle.toolNames) :
    Coherent (manager.register handle toolsForCapability) := by
  have frame (other : String) (apart : other ≠ handle.config.id) :
      (manager.register handle toolsForCapability).servers other = manager.servers other :=
    Function.update_of_ne apart ..
  have here : (manager.register handle toolsForCapability).servers handle.config.id = some handle :=
    Function.update_self ..
  have listsHere {name : String} (mem : name ∈ handle.toolNames) :
      Lists (manager.register handle toolsForCapability) handle.config.id name :=
    ⟨handle, here, connected, mem⟩
  -- Nothing was listed under the id before, so what was listed still is.
  have keeps {other name : String} (lists : Lists manager other name) :
      Lists (manager.register handle toolsForCapability) other name := by
    have apart : other ≠ handle.config.id := by
      rintro rfl
      rcases lists with ⟨old, there, oldConnected, -⟩
      apply idle
      rw [Manager.statusOf, there, Option.map_some, oldConnected]
    exact (lists_congr (frame other apart)).mpr lists
  constructor
  · intro name owner routed
    simp only [Manager.register] at routed
    split at routed
    · exact keeps (coherent.routed name owner routed)
    · rw [Manager.indexTools_apply] at routed
      split at routed
      · rename_i own
        cases routed
        exact listsHere own.1
      · exact keeps (coherent.routed name owner routed)
  · intro entry mem
    simp only [Manager.register] at mem
    split at mem
    · exact keeps (coherent.indexed entry mem)
    · rcases mem_addServerTools mem with ⟨old, -⟩ | ⟨server, own⟩
      · exact keeps (coherent.indexed entry old)
      · rw [server]
        exact listsHere own
  · intro capability mapping mem
    simp only [Manager.register] at mem
    cases manifestEq : toolsForCapability with
    | none =>
        rw [manifestEq] at mem
        rcases mem_buildFromTools mem with old | ⟨server, own⟩
        · rw [← manifestEq]
          exact keeps (coherent.dispatched capability mapping old)
        · rw [server, ← manifestEq]
          exact listsHere own
    | some manifest =>
        rw [manifestEq] at mem
        rcases mem_buildFromCapabilities mem with old | ⟨server, entry, entryMem, named, own⟩
        · rw [← manifestEq]
          exact keeps (coherent.dispatched capability mapping old)
        · rw [server, ← manifestEq]
          exact listsHere (listed manifest manifestEq entry entryMem named _ own)
  · intro other name offers notKernel
    have unreserved := isReservedName_of_not_kernel notKernel
    by_cases engine : toolsExposeReasoning handle.tools = true
    · -- An engine leaves the routing index as it is.
      have apart : other ≠ handle.config.id := by
        rintro rfl
        rcases offers with ⟨same, there, -, -, notEngine⟩
        rw [here] at there
        cases there
        rw [engine] at notEngine
        contradiction
      rcases coherent.reachable other name ((offers_congr (frame other apart)).mp offers) notKernel
        with ⟨owner, routed, lists⟩
      refine ⟨owner, ?_, keeps lists⟩
      simp only [Manager.register, engine, if_true, routed]
    · have index : (manager.register handle toolsForCapability).toolIndex name =
          if name ∈ handle.toolNames ∧ isReservedName name = false then some handle.config.id
          else manager.toolIndex name := by
        simp only [Manager.register, engine, Bool.false_eq_true, if_false]
        exact Manager.indexTools_apply ..
      by_cases own : name ∈ handle.toolNames
      · exact ⟨handle.config.id, by rw [index, if_pos ⟨own, unreserved⟩], listsHere own⟩
      · have apart : other ≠ handle.config.id := by
          rintro rfl
          rcases offers with ⟨same, there, -, mem, -⟩
          rw [here] at there
          cases there
          exact own mem
        rcases coherent.reachable other name ((offers_congr (frame other apart)).mp offers)
          notKernel with ⟨owner, routed, lists⟩
        exact ⟨owner, by rw [index, if_neg (fun both => own both.1), routed], keeps lists⟩

/-- A registration whose manifest names a tool that is not listed leaves a
mapping without a tool. -/
theorem manifestListed_of_coherent_register {manager : Manager} {handle : McpServerHandle}
    {toolsForCapability : Option (List (String × List String))}
    (coherent : Coherent (manager.register handle toolsForCapability)) :
    ManifestListed toolsForCapability handle.toolNames := by
  rintro manifest rfl entry entryMem isCapability name mem
  rcases Option.isSome_iff_exists.mp isCapability with ⟨capability, named⟩
  have mapped : ⟨handle.config.id, name⟩ ∈
      (manager.register handle (some manifest)).dispatcher capability :=
    mem_buildFromCapabilities_of (.inr ⟨rfl, entry, entryMem, named, mem⟩)
  rcases coherent.dispatched capability _ mapped with ⟨other, there, -, listed⟩
  simp only [Manager.register, Function.update_self, Option.some.injEq] at there
  rw [there]
  exact listed

/-! ## Connecting -/

/-- A call that registers a server registers it with a manifest that its tool
list bears out. -/
def SafeRegistration (world : Surroundings) (connection : Connection) : Prop :=
  ∀ names, connection.result = .ok names → ∀ session, world.session = some session →
    ManifestListed session.toolsForCapability (session.tools.map McpTool.name)

section Connecting

variable {kernel : Kernel} {world : Surroundings} {manager : Manager} {config : McpServerConfig}
  {id : String} {stored : Except String McpServerConfig}

/-- A change of a handle that is connected neither before nor after. -/
theorem Coherent.modify (coherent : Coherent manager) (idle : manager.statusOf id ≠ some .connected)
    {change : McpServerHandle → McpServerHandle}
    (idles : ∀ handle, manager.servers id = some handle → (change handle).status ≠ .connected) :
    Coherent (manager.modify id change) := by
  apply coherent.of_idle (fun other apart => Manager.modify_of_ne manager apart change) idle
  · intro connected
    rw [Manager.statusOf, Manager.modify_self] at connected
    simp only [Option.map_eq_some_iff] at connected
    rcases connected with ⟨-, ⟨handle, here, rfl⟩, status⟩
    exact idles handle here status
  · exact Manager.modify_toolIndex ..
  · exact Manager.modify_richToolIndex ..
  · exact Manager.modify_dispatcher ..

theorem Coherent.setStatus (coherent : Coherent manager)
    (idle : manager.statusOf id ≠ some .connected) {status : ServerStatus}
    (other : status ≠ .connected) : Coherent (manager.setStatus id status) :=
  coherent.modify idle fun _ _ => other

/-- An early return changes a handle that is not connected, if any. -/
theorem Coherent.leave (coherent : Coherent manager) {stop : Stop}
    (idle : stop.marksError = true → manager.statusOf id ≠ some .connected) :
    Coherent (stop.leave manager id) := by
  unfold Stop.leave
  split
  · rename_i marked
    apply coherent.modify (idle marked)
    intro handle here
    simp
  · exact coherent

/-- A connection keeps coherence exactly if it is safe. -/
theorem coherent_connectServer_iff (coherent : Coherent manager) :
    Coherent (connectServer kernel world manager config).manager ↔
      SafeRegistration world (connectServer kernel world manager config) := by
  have marked {status : ServerStatus} (other : status ≠ .connected) :
      (manager.setStatus config.id status).statusOf config.id ≠ some .connected := by
    rw [Manager.statusOf_setStatus]
    cases manager.statusOf config.id <;> simp [other]
  rcases connectServer_cases kernel world manager config with
    ⟨stop, refused, called⟩ | ⟨profile, stop, admitted, -, called⟩ |
    ⟨profile, session, admitted, established, called⟩
  · have left : Coherent (stop.leave manager config.id) := by
      apply coherent.leave
      intro marks
      simp only [admission, bind_eq_error_iff] at refused
      rcases refused with gates | ⟨granted, gates, -⟩
      · rw [marksError_of_checkGates gates] at marks
        contradiction
      · exact not_connected_of_checkGates gates
    rw [called]
    constructor
    · intro _ names returned
      cases returned
    · exact fun _ => left
  · rcases admit_eq_ok_iff.mp admitted with ⟨gates, -⟩
    have left : Coherent (stop.leave (manager.setStatus config.id .connecting) config.id) :=
      (coherent.setStatus (not_connected_of_checkGates gates) (by decide)).leave
        fun _ => marked (by decide)
    rw [called]
    constructor
    · intro _ names returned
      cases returned
    · exact fun _ => left
  · rcases admit_eq_ok_iff.mp admitted with ⟨gates, -⟩
    have idle : (manager.setStatus config.id .connecting).statusOf config.id ≠ some .connected :=
      marked (by decide)
    have connecting : Coherent (manager.setStatus config.id .connecting) :=
      coherent.setStatus (not_connected_of_checkGates gates) (by decide)
    have taken : Coherent ((manager.setStatus config.id .connecting).takeClient config.id) := by
      apply connecting.modify idle
      intro handle here connected
      apply idle
      rw [Manager.statusOf, here, Option.map_some]
      exact congrArg some connected
    rw [called]
    constructor
    · intro registered names returned other answered
      rw [session_of_establish established] at answered
      cases answered
      exact manifestListed_of_coherent_register registered
    · intro safe
      apply coherent_register taken
      · rw [Manager.statusOf, Manager.takeClient, Session.handle, Manager.modify_self,
          Option.map_map]
        exact idle
      · rfl
      · exact safe _ rfl session (session_of_establish established)

/-- A start keeps coherence exactly if its connection is safe. -/
theorem coherent_startServer_iff (coherent : Coherent manager) :
    Coherent (startServer kernel world manager id stored).manager ↔
      SafeRegistration world (startServer kernel world manager id stored) := by
  unfold startServer
  split
  · constructor
    · intro _ names returned
      cases returned
    · exact fun _ => coherent
  · exact coherent_connectServer_iff coherent

/-- The stop inside a restart stops every server that is there. -/
theorem stopForRestart_of_some {handle : McpServerHandle}
    (here : manager.servers id = some handle) :
    stopForRestart manager id = manager.clear id handle := by
  have restarting : manager.setStatus id .restarting =
      { manager with
        servers := Function.update manager.servers id
          (some { handle with status := .restarting }) } := by
    simp only [Manager.setStatus, Manager.modify, here]
  simp [stopForRestart, restarting, Manager.stopServer, Manager.clear, Manager.stoppedHandle]

theorem stopForRestart_of_none (absent : manager.servers id = none) :
    stopForRestart manager id = manager := by
  have unchanged : manager.setStatus id .restarting = manager := by
    simp only [Manager.setStatus, Manager.modify, absent]
  simp [stopForRestart, unchanged, Manager.stopServer, absent]

/-- The stop inside a restart keeps coherence exactly if it is safe. -/
theorem coherent_stopForRestart_iff (coherent : Coherent manager) :
    Coherent (stopForRestart manager id) ↔ SafeStop manager id := by
  cases here : manager.servers id with
  | none =>
      rw [stopForRestart_of_none here]
      constructor
      · intro
        apply safeStop_of_idle coherent
        rw [Manager.statusOf, here]
        intro impossible
        cases impossible
      · intro
        exact coherent
  | some handle =>
      rw [stopForRestart_of_some here]
      exact coherent_clear_iff coherent

end Connecting

/-! ## Runs -/

/-- An operation on the manager, with the surroundings that a connection meets.
`restart_server` is its stop followed by its start. -/
inductive Operation where
  | connect (world : Surroundings) (config : McpServerConfig)
  | start (world : Surroundings) (id : String) (stored : Except String McpServerConfig)
  | stopForRestart (id : String)
  | stop (id : String)
  | disconnect (id : String)
  | remove (id : String)

/-- What an operation leaves behind; one that fails at once leaves everything
as it was. -/
def operate (kernel : Kernel) (manager : Manager) : Operation → Manager
  | .connect world config => (connectServer kernel world manager config).manager
  | .start world id stored => (startServer kernel world manager id stored).manager
  | .stopForRestart id => ClotoCore.Mcp.stopForRestart manager id
  | .stop id => (manager.stopServer id).toOption.getD manager
  | .disconnect id => (manager.disconnectServer id).toOption.getD manager
  | .remove id => (manager.removeServer id).toOption.getD manager

/-- Every operation can be called in every state. -/
def routingStep (kernel : Kernel) : Action Manager Operation :=
  fun manager operation => some (operate kernel manager operation)

/-- No operation takes a name from a server that another one shares it with, no
removal leaves a capability mapping behind, and no manifest names a tool that is
not listed. -/
def SafeOperation (kernel : Kernel) (manager : Manager) : Operation → Prop
  | .connect world config => SafeRegistration world (connectServer kernel world manager config)
  | .start world id stored => SafeRegistration world (startServer kernel world manager id stored)
  | .stopForRestart id => SafeStop manager id
  | .stop id => SafeStop manager id
  | .disconnect id => SafeDisconnect manager id
  | .remove id => SafeDisconnect manager id

/-- Every operation keeps coherence exactly if it is safe. -/
theorem coherent_operate_iff {kernel : Kernel} {manager : Manager} {operation : Operation}
    (coherent : Coherent manager) :
    Coherent (operate kernel manager operation) ↔ SafeOperation kernel manager operation := by
  cases operation with
  | connect world config => exact coherent_connectServer_iff coherent
  | start world id stored => exact coherent_startServer_iff coherent
  | stopForRestart id => exact coherent_stopForRestart_iff coherent
  | stop id => exact coherent_stopServer_iff coherent
  | disconnect id => exact coherent_disconnectServer_iff coherent
  | remove id => exact coherent_disconnectServer_iff coherent

/-- Every operation succeeds or leaves the state alone, so every run goes on. -/
theorem run_routingStep (kernel : Kernel) (manager : Manager) (operations : List Operation) :
    run (routingStep kernel) manager operations =
      some (operations.foldl (operate kernel) manager) :=
  run_eq_some_foldl (fun _ _ => rfl) manager operations

/-- In a run from the empty manager, the indexes are coherent in every state
exactly if every operation is safe in the state it is called in. -/
theorem coherent_throughout_iff (kernel : Kernel) (operations : List Operation) :
    (∀ count manager, run (routingStep kernel) .empty (operations.take count) = some manager →
        Coherent manager) ↔
      Along (routingStep kernel) (SafeOperation kernel) .empty operations := by
  apply throughout_iff_along _ coherent_empty (run_routingStep kernel .empty operations)
  intro state operation next coherent stepEq
  cases stepEq
  exact coherent_operate_iff coherent

/-! ## Two servers that share a tool -/

/-- Coherence holds in every state that the operations reach. -/
def RoutingCoherent : Prop :=
  ∀ (kernel : Kernel) (operations : List Operation) (manager : Manager),
    run (routingStep kernel) .empty operations = some manager → Coherent manager

/-- A kernel that does not ask for seals and isolates nothing. -/
def openKernel : Kernel where
  crate :=
    { fromStrLossy := fun _ => .untrusted
      parse := fun _ => none
      checkSeal := fun _ _ _ => .ok .unsigned
      missing := by simp
      skipped := by simp }
  sha256 := fun message => message
  allowUnsigned := false
  isolationEnabled := false
  sandboxBaseDir := "/data/sandbox"
  yoloExceptions := []
  envVar := fun _ => none

/-- A server that lists one tool for files. -/
def fileServer (client : Nat) : Surroundings where
  manifestRefusal := none
  permissionGate := ⟨false, fun _ => false⟩
  entryPointExists := false
  sealKey := .ok []
  installRoot := none
  attempt := fun _ => .connected
    { client
      protocolEra := .modern
      mgpServerCaps := none
      initializedNotification := .ok ()
      listTools := .ok [⟨"read_file", none⟩] }
  permissionFlow := ⟨false, fun _ => false⟩

/-- A node server under an id. -/
def nodeServer (id : String) : McpServerConfig :=
  { McpServerConfig.default with id, command := "node" }

/-- Two servers with the same tool are connected, and the second one is stopped. -/
def stopOneOfTwo : List Operation :=
  [.connect (fileServer 0) (nodeServer "a"), .connect (fileServer 1) (nodeServer "b"), .stop "b"]

/-- The tool of the server that is left cannot be reached. -/
theorem not_routingCoherent : ¬RoutingCoherent := by
  intro coherent
  let manager := stopOneOfTwo.foldl (operate openKernel) .empty
  have reached : Coherent manager :=
    coherent openKernel stopOneOfTwo manager (run_routingStep openKernel .empty stopOneOfTwo)
  have unrouted : manager.toolIndex "read_file" = none := by decide +kernel
  have offers : Offers manager "a" "read_file" :=
    ⟨(fileServer 0 |>.session.get (by rfl)).handle openKernel (nodeServer "a") none, rfl, rfl,
      by decide, by decide⟩
  rcases reached.reachable "a" "read_file" offers (by decide +kernel) with ⟨owner, routed, -⟩
  rw [unrouted] at routed
  contradiction

end ClotoCore.Mcp
