import ClotoCore.Mcp.Settings

/-!
# Saving the settings of a server

The environment that is shown is laid together from the config and the row, and only the
row is looked at when it comes back.  Saving it as it is keeps the variables of the row;
of those that only the config has it keeps the ones that are shown as they are.  A request
takes its fields one after the other, and what went before an error stays.
-/

namespace ClotoCore.Mcp.Settings

open ClotoCore.Json ClotoCore.Lookup

variable {kernel : Kernel} {id name : String} {server : Server} {faults : Faults} {body : Value}

/-! ## What the kernel supplies -/

/-- The model of a provider that has one. -/
def ownModel (kernel : Kernel) (id : String) : Option String :=
  ((kernel.getLlmProvider id).map LlmProvider.modelId).filter fun model => !model.isEmpty

/-- Whether the thinking of a model is suppressed, where its provider says so. -/
def ownPrefill (kernel : Kernel) (id : String) : Option String :=
  match ownModel kernel id, (kernel.getLlmProvider id).map LlmProvider.thinkingMode with
  | some _, some "on" => some "false"
  | some _, some "off" => some "true"
  | _, _ => none

/-- The address of the kernel, where it is known. -/
def ownUrl (kernel : Kernel) : Option String :=
  if kernel.kernelChildUrl.isEmpty then none else some kernel.kernelChildUrl

/-- The variable that the model of a server is given in. -/
def modelKey (kernel : Kernel) (id : String) : String :=
  kernel.toUppercase id ++ "_MODEL"

/-- The variable that the prefill of a server is given in. -/
def prefillKey (kernel : Kernel) (id : String) : String :=
  kernel.toUppercase id ++ "_REASONING_PREFILL"

theorem modelKey_ne_prefillKey : modelKey kernel id ≠ prefillKey kernel id := by
  intro same
  have texts := congrArg (fun text => text.toList.length) same
  simp [modelKey, prefillKey] at texts

theorem modelKey_ne_kernelUrlEnv : modelKey kernel id ≠ kernelUrlEnv := by
  intro same
  have texts := congrArg (fun text => text.toList.reverse) same
  simp [modelKey, kernelUrlEnv] at texts

theorem prefillKey_ne_kernelUrlEnv : prefillKey kernel id ≠ kernelUrlEnv := by
  intro same
  have texts := congrArg (fun text => text.toList.reverse) same
  simp [prefillKey, kernelUrlEnv] at texts

/-- What the kernel adds to the environment of an engine without a model: none for a
provider that names no model. -/
theorem augmentEngineEnv_of_model {env : Env} (own : ownModel kernel id = none) :
    augmentEngineEnv kernel id env = env := by
  unfold augmentEngineEnv
  cases found : kernel.getLlmProvider id with
  | none => simp
  | some provider =>
      have empty : provider.modelId.isEmpty = true := by
        simpa [ownModel, found] using own
      simp [empty]

theorem value_augmentEngineEnv_of_model {env : Env} {key model : String}
    (absent : env.value (modelKey kernel id) = none) (own : ownModel kernel id = some model) :
    (augmentEngineEnv kernel id env).value key =
      if key = modelKey kernel id then some model
      else if key = prefillKey kernel id then (ownPrefill kernel id).or (env.value key)
      else env.value key := by
  cases found : kernel.getLlmProvider id with
  | none => simp [ownModel, found] at own
  | some provider =>
      have ⟨named, same⟩ : provider.modelId.isEmpty = false ∧ provider.modelId = model := by
        have kept : provider.modelId = model ∧ ¬model = "" := by
          simpa [ownModel, found] using own
        exact ⟨by simp [kept.1, kept.2], kept.1⟩
      have own' : ownPrefill kernel id =
          if provider.thinkingMode = "on" then some "false"
          else if provider.thinkingMode = "off" then some "true" else none := by
        rw [ownPrefill, own, found, Option.map_some]
        split <;> simp_all
      have added : augmentEngineEnv kernel id env =
          (ownPrefill kernel id).elim (env.insert (modelKey kernel id, model)) fun prefill =>
            (env.insert (modelKey kernel id, model)).insert (prefillKey kernel id, prefill) := by
        have missing : env.value (kernel.toUppercase id ++ "_MODEL") = none := absent
        subst same
        simp only [augmentEngineEnv, missing, found, named, own', Option.isSome_none,
          Bool.false_eq_true, if_false]
        rcases provider with ⟨model, mode⟩
        by_cases on : mode = "on"
        · subst on
          rfl
        · by_cases off : mode = "off"
          · subst off
            rfl
          · simp only [on, off, if_false, Option.elim_none]
            rfl
      rw [added]
      by_cases isModel : key = modelKey kernel id
      · subst isModel
        rw [if_pos rfl]
        cases ownPrefill kernel id with
        | none => exact Dictionary.value_insert_self
        | some prefill =>
            rw [Option.elim_some, Dictionary.value_insert_ne modelKey_ne_prefillKey.symm,
              Dictionary.value_insert_self]
      · rw [if_neg isModel]
        by_cases isPrefill : key = prefillKey kernel id
        · subst isPrefill
          rw [if_pos rfl]
          cases ownPrefill kernel id with
          | none => exact Dictionary.value_insert_ne modelKey_ne_prefillKey
          | some prefill => exact Dictionary.value_insert_self
        · rw [if_neg isPrefill]
          cases ownPrefill kernel id with
          | none => exact Dictionary.value_insert_ne (Ne.symm isModel)
          | some prefill =>
              rw [Option.elim_some, Dictionary.value_insert_ne (Ne.symm isPrefill),
                Dictionary.value_insert_ne (Ne.symm isModel)]

/-- An engine gets its model where the environment has none, and then how it thinks. -/
theorem value_augmentEngineEnv {env : Env} {key : String} :
    (augmentEngineEnv kernel id env).value key =
      if key = modelKey kernel id then (env.value key).or (ownModel kernel id)
      else if key = prefillKey kernel id then
        if (env.value (modelKey kernel id)).isNone then (ownPrefill kernel id).or (env.value key)
        else env.value key
      else env.value key := by
  cases present : env.value (modelKey kernel id) with
  | some model =>
      have unchanged : augmentEngineEnv kernel id env = env := by
        have there : (env.value (kernel.toUppercase id ++ "_MODEL")).isSome = true :=
          congrArg Option.isSome present
        simp [augmentEngineEnv, there]
      rw [unchanged]
      by_cases isModel : key = modelKey kernel id
      · rw [if_pos isModel, isModel, present, Option.some_or]
      · simp [isModel]
  | none =>
      cases own : ownModel kernel id with
      | none =>
          have silent : ownPrefill kernel id = none := by
            simp [ownPrefill, own]
          simp [augmentEngineEnv_of_model own, silent]
      | some model =>
          rw [value_augmentEngineEnv_of_model present own]
          by_cases isModel : key = modelKey kernel id
          · simp [isModel, present]
          · simp [isModel]

/-- What a child gets: the address of the kernel too, where the environment has none. -/
theorem value_childEnvFor {env : Env} {key : String} :
    (childEnvFor kernel id env).value key =
      if key = kernelUrlEnv then (env.value key).or (ownUrl kernel)
      else (augmentEngineEnv kernel id env).value key := by
  have kept : (augmentEngineEnv kernel id env).value kernelUrlEnv = env.value kernelUrlEnv := by
    rw [value_augmentEngineEnv, if_neg modelKey_ne_kernelUrlEnv.symm,
      if_neg prefillKey_ne_kernelUrlEnv.symm]
  by_cases isUrl : key = kernelUrlEnv
  · subst isUrl
    rw [if_pos rfl, childEnvFor, ownUrl, kept]
    by_cases unknown : kernel.kernelChildUrl.isEmpty = true
    · rw [if_pos unknown, if_pos unknown, kept, Option.or_none]
    · rw [if_neg unknown, if_neg unknown]
      cases present : env.value kernelUrlEnv with
      | none => simp
      | some url => simp [kept, present]
  · rw [if_neg isUrl, childEnvFor]
    split
    · rfl
    · split
      · rfl
      · exact Dictionary.value_insert_ne (Ne.symm isUrl)

/-! ## The same for a child -/

/-- Two environments from which the kernel makes the same: they differ at most in what it
supplies itself, where the one has it and the other leaves it to the kernel. -/
structure Alike (kernel : Kernel) (id : String) (after before : String → Option String) :
    Prop where
  others : ∀ key, key ≠ kernelUrlEnv → key ≠ modelKey kernel id → key ≠ prefillKey kernel id →
    after key = before key
  url : (after kernelUrlEnv).or (ownUrl kernel) = (before kernelUrlEnv).or (ownUrl kernel)
  model : (after (modelKey kernel id)).or (ownModel kernel id) =
    (before (modelKey kernel id)).or (ownModel kernel id)
  prefill :
    (if (after (modelKey kernel id)).isNone then
        (ownPrefill kernel id).or (after (prefillKey kernel id))
      else after (prefillKey kernel id)) =
    if (before (modelKey kernel id)).isNone then
      (ownPrefill kernel id).or (before (prefillKey kernel id))
    else before (prefillKey kernel id)

theorem childEnvFor_eq_iff {after before : Env} :
    (childEnvFor kernel id after).value = (childEnvFor kernel id before).value ↔
      Alike kernel id after.value before.value := by
  have modelUrl := @modelKey_ne_kernelUrlEnv kernel id
  have prefillUrl := @prefillKey_ne_kernelUrlEnv kernel id
  have prefillModel := (@modelKey_ne_prefillKey kernel id).symm
  constructor
  · intro same
    refine ⟨?_, ?_, ?_, ?_⟩
    · intro key notUrl notModel notPrefill
      simpa [value_childEnvFor, value_augmentEngineEnv, notUrl, notModel, notPrefill] using
        congrFun same key
    · simpa [value_childEnvFor] using congrFun same kernelUrlEnv
    · simpa [value_childEnvFor, value_augmentEngineEnv, modelUrl] using
        congrFun same (modelKey kernel id)
    · simpa [value_childEnvFor, value_augmentEngineEnv, prefillUrl, prefillModel] using
        congrFun same (prefillKey kernel id)
  · intro alike
    funext key
    rw [value_childEnvFor, value_childEnvFor, value_augmentEngineEnv, value_augmentEngineEnv]
    by_cases isUrl : key = kernelUrlEnv
    · rw [if_pos isUrl, if_pos isUrl, isUrl, alike.url]
    · rw [if_neg isUrl, if_neg isUrl]
      by_cases isModel : key = modelKey kernel id
      · rw [if_pos isModel, if_pos isModel, isModel, alike.model]
      · rw [if_neg isModel, if_neg isModel]
        by_cases isPrefill : key = prefillKey kernel id
        · rw [if_pos isPrefill, if_pos isPrefill, isPrefill, alike.prefill]
        · rw [if_neg isPrefill, if_neg isPrefill, alike.others key isUrl isModel isPrefill]

/-! ## What comes back -/

/-- The update that sends the environment back as it was shown. -/
def Shown.update (shown : Shown) : Value :=
  .object [("env", shown.envObject)]

/-- The map in which the masked values of an update are looked up. -/
def existingEnv (faults : Faults) (server : Server) : Env :=
  match faults.envRead, server.row with
  | none, some record => record.envMap
  | _, _ => Keyed.empty Prod.fst

/-- The map that an update stores. -/
def mergedEnv (faults : Faults) (server : Server) (envObj : List (String × Value)) : Env :=
  Dictionary.collect (sentValue (existingEnv faults server)) (Dictionary.ofList envObj)

/-- What is left of a variable when the settings are saved as they are shown.  A variable of
the row keeps its value, unless it is shown as it is and empty; behind the mask it keeps it
where the row can be read.  A variable that only the config has keeps a value that is shown
as it is and not empty. -/
def keptValue (kernel : Kernel) (server : Server) (record : McpServerRecord) (readable : Bool)
    (key : String) : Option String :=
  match record.envMap.value key, (getServerEnv server).value key with
  | some stored, _ =>
      if isSecret kernel key ∨ stored = "***" then
        if readable then some stored else none
      else if stored = "" then none
      else some stored
  | none, some running =>
      if isSecret kernel key ∨ running = "***" ∨ running = "" then none else some running
  | none, none => none

variable {record : McpServerRecord} {shown : Shown} {key : String}

theorem value_shown_env (has : server.row = some record)
    (answered : getMcpServerSettings kernel name server = .ok shown) :
    shown.env.value key =
      ((record.envMap.value key).or ((getServerEnv server).value key)).map
        (shownValue kernel key) := by
  simp only [getMcpServerSettings, has, Except.ok.injEq] at answered
  subst answered
  change Dictionary.value (Dictionary.mapValues _ _) key = _
  rw [Dictionary.value_mapValues, Dictionary.value_insertAll]

theorem existingEnv_eq (has : server.row = some record) :
    existingEnv faults server =
      if faults.envRead.isNone then record.envMap else Keyed.empty Prod.fst := by
  unfold existingEnv
  rw [has]
  cases faults.envRead <;> rfl

/-- What is stored for a variable as it was shown is what is left of it. -/
theorem value_mergedEnv (has : server.row = some record)
    (answered : getMcpServerSettings kernel name server = .ok shown) :
    (mergedEnv faults server (shown.env.items.map fun entry => (entry.1, .string entry.2))).value
        key = keptValue kernel server record faults.envRead.isNone key := by
  have sent : (Dictionary.ofList (shown.env.items.map fun entry =>
      (entry.1, Value.string entry.2))).value key = (shown.env.value key).map Value.string := by
    change (Dictionary.ofList
      (Dictionary.mapValues (fun _ text => Value.string text) shown.env).items).value key = _
    rw [Dictionary.value_ofList, Dictionary.value_mapValues]
  rw [mergedEnv, Dictionary.value_collect, sent, value_shown_env has answered,
    existingEnv_eq has, keptValue]
  cases stored : record.envMap.value key with
  | some value =>
      by_cases secret : isSecret kernel key = true
      · cases faults.envRead <;> simp [sentValue, shownValue, Value.asStr, secret, stored]
      · by_cases masked : value = "***"
        · cases faults.envRead <;> simp [sentValue, shownValue, Value.asStr, secret, stored, masked]
        · cases faults.envRead <;> simp [sentValue, shownValue, Value.asStr, secret, masked]
  | none =>
      cases running : (getServerEnv server).value key with
      | none => rfl
      | some value =>
          by_cases secret : isSecret kernel key = true
          · cases faults.envRead <;> simp [sentValue, shownValue, Value.asStr, secret, stored]
          · by_cases masked : value = "***"
            · cases faults.envRead <;>
                simp [sentValue, shownValue, Value.asStr, secret, stored, masked]
            · cases faults.envRead <;> simp [sentValue, shownValue, Value.asStr, secret, masked]

/-! ## What the server is given -/

/-- A restart does not change what the next one is done with. -/
theorem startConfig_restartServer {refused : Option String} :
    startConfig id (restartServer id refused server).2 = startConfig id server := by
  unfold restartServer
  cases started : startConfig id server with
  | error problem => exact started
  | ok config =>
      cases refused with
      | some problem => exact started
      | none => rfl

/-- The environment of a server that is replaced in its row, and in its config where it has
one, is the one it is started with. -/
theorem startConfig_replaced {env : Env} :
    startConfig id {
        row := server.row.map fun record => { record with env := some env }
        handle := server.handle.map fun config => { config with env } } =
      (startConfig id server).map fun config => { config with env } := by
  rcases server with ⟨row, handle⟩
  cases handle with
  | some config => rfl
  | none =>
      cases row with
      | none => rfl
      | some record =>
          unfold startConfig
          dsimp only [Option.map]
          split
          · split <;> rfl
          · rfl

/-- The update of the environment gets through to what the server is started with. -/
def GetsThrough (faults : Faults) (server : Server) : Prop :=
  faults.auth = none ∧ faults.envWrite = none ∧
    (server.handle.isSome = true → faults.envRewrite = none)

/-- What an update of the environment that is written leaves. -/
theorem updateEnv_written {envObj : List (String × Value)}
    (sent : (body.get "env").bind Value.asObject = some envObj)
    (written : faults.envWrite = none) :
    (updateEnv name faults body server).2 =
      (updateServerEnv name faults (mergedEnv faults server envObj) {
        row := server.row.map fun record =>
          { record with env := some (mergedEnv faults server envObj) }
        handle := server.handle }).2 := by
  rw [updateEnv, sent, written]
  rfl

theorem startConfig_updateEnv (name : String) (server : Server) {envObj : List (String × Value)}
    (sent : (body.get "env").bind Value.asObject = some envObj)
    (written : faults.envWrite = none) :
    startConfig name (updateEnv name faults body server).2 =
      if server.handle.isSome = true → faults.envRewrite = none then
        (startConfig name server).map fun config =>
          { config with env := mergedEnv faults server envObj }
      else startConfig name server := by
  rw [updateEnv_written sent written, updateServerEnv]
  cases rewritten : faults.envRewrite with
  | none =>
      rw [if_pos (fun _ => rfl)]
      change startConfig name (restartServer name faults.envReconnect _).2 = _
      rw [startConfig_restartServer, ← startConfig_replaced, Option.map_map]
      rfl
  | some problem =>
      rcases server with ⟨row, handle⟩
      cases handle with
      | some config =>
          rw [if_neg]
          · rfl
          · intro through
            cases through rfl
      | none =>
          rw [if_pos, ← startConfig_replaced]
          · rfl
          · intro absent
            cases absent

/-- The environment stays when it is saved as it is shown: a variable that the kernel does
not supply keeps its value, and of the others the kernel makes what it made. -/
def Kept (kernel : Kernel) (name : String) (server : Server) (record : McpServerRecord)
    (readable : Bool) : Prop :=
  ∀ config, startConfig name server = .ok config →
    if config.transport = "streamable-http" then
      ∀ key, keptValue kernel server record readable key = config.env.value key
    else Alike kernel name (keptValue kernel server record readable) config.env.value

/-- Only the environment is sent back. -/
theorem update_shown (authorized : faults.auth = none) :
    (updateMcpServerSettings name faults shown.update server).2 =
      (updateEnv name faults shown.update server).2 := by
  have noPolicy : (shown.update.get "default_policy").bind Value.asStr = none := by
    simp [Shown.update, Value.get, lastValue]
  have noToken : shown.update.get "auth_token" = none := by
    simp [Shown.update, Value.get, lastValue]
  simp only [updateMcpServerSettings, authorized, updateDefaultPolicy, noPolicy, updateAuthToken,
    noToken]
  cases stored : updateEnv name faults shown.update server with
  | mk answer after =>
      cases answer with
      | error problem => rfl
      | ok => rfl

theorem received_saved_iff (has : server.row = some record)
    (answered : getMcpServerSettings kernel name server = .ok shown) :
    received kernel name (updateMcpServerSettings name faults shown.update server).2 =
        received kernel name server ↔
      (GetsThrough faults server → Kept kernel name server record faults.envRead.isNone) := by
  have sent : (shown.update.get "env").bind Value.asObject =
      some (shown.env.items.map fun entry => (entry.1, .string entry.2)) := by
    simp [Shown.update, Value.get, lastValue, Shown.envObject, Value.asObject]
  cases authorized : faults.auth with
  | some problem => simp [updateMcpServerSettings, GetsThrough, authorized]
  | none =>
      rw [update_shown authorized]
      cases written : faults.envWrite with
      | some problem => simp [updateEnv, sent, written, GetsThrough]
      | none =>
          have after := startConfig_updateEnv name server sent written
          by_cases through : server.handle.isSome = true → faults.envRewrite = none
          · rw [if_pos through] at after
            have gets : GetsThrough faults server := ⟨authorized, written, through⟩
            cases started : startConfig name server with
            | error problem =>
                rw [started] at after
                simp [received, after, started, Kept, Except.map]
            | ok config =>
                rw [started] at after
                have kept := @value_mergedEnv kernel name server faults record shown
                have same : (mergedEnv faults server
                    (shown.env.items.map fun entry => (entry.1, .string entry.2))).value =
                      keptValue kernel server record faults.envRead.isNone :=
                  funext fun key => kept has answered
                by_cases remote : config.transport = "streamable-http"
                · simp [received, after, started, Kept, remote, gets, Except.map, same,
                    funext_iff]
                · simp [received, after, started, Kept, remote, gets, Except.map, same,
                    childEnvFor_eq_iff]
          · rw [if_neg through] at after
            have lost : ¬ GetsThrough faults server := fun gets => through gets.2.2
            simp [received, after, lost]

/-! ## What an error leaves -/

/-- The policy of an update is refused. -/
def PolicyRefused (faults : Faults) (body : Value) (server : Server) : Prop :=
  ∃ policy, (body.get "default_policy").bind Value.asStr = some policy ∧
    (policy ∉ ["opt-in", "opt-out"] ∨ faults.policyWrite ≠ none ∨ server.row = none)

/-- The bearer of an update is refused. -/
def TokenRefused (faults : Faults) (body : Value) (server : Server) : Prop :=
  ∃ value, body.get "auth_token" = some value ∧
    ((parseAuthTokenUpdate value).toOption = none ∨ faults.tokenRead ≠ none ∨
      (∀ record, server.row = some record → record.transport ≠ "streamable-http") ∨
      faults.tokenWrite ≠ none)

/-- The environment of an update is not written. -/
def EnvRefused (faults : Faults) (body : Value) : Prop :=
  ((body.get "env").bind Value.asObject).isSome = true ∧ faults.envWrite ≠ none

/-- The policy of an update, if any, is the one stored. -/
def PolicyHeld (body : Value) (server : Server) : Prop :=
  ∀ policy, (body.get "default_policy").bind Value.asStr = some policy →
    ∀ record, server.row = some record → record.defaultPolicy = policy

/-- The bearer of an update, if any, is the one stored and in memory, and no server comes
into memory with it. -/
def TokenHeld (name : String) (faults : Faults) (body : Value) (server : Server) : Prop :=
  ∀ value token, body.get "auth_token" = some value → parseAuthTokenUpdate value = .ok token →
    (∀ record, server.row = some record → record.authToken = token) ∧
      (∀ config, server.handle = some config → config.authToken = token) ∧
      (server.handle = none →
        faults.tokenReconnect ≠ none ∨ (startConfig name server).toOption = none)

/-- A request that is answered with an error after a field of it was taken changes nothing
with that field. -/
def Undone (name : String) (faults : Faults) (body : Value) (server : Server) : Prop :=
  faults.auth = none → ¬ PolicyRefused faults body server →
    (TokenRefused faults body server → PolicyHeld body server) ∧
      (¬ TokenRefused faults body server → EnvRefused faults body →
        PolicyHeld body server ∧ TokenHeld name faults body server)

/-- The server under the policy of an update. -/
def withPolicy (body : Value) (server : Server) : Server :=
  match (body.get "default_policy").bind Value.asStr with
  | none => server
  | some policy =>
      { server with row := server.row.map fun record => { record with defaultPolicy := policy } }

theorem updateDefaultPolicy_refused (name : String) (refused : PolicyRefused faults body server) :
    ∃ problem, updateDefaultPolicy name faults body server = (.error problem, server) := by
  rcases refused with ⟨policy, sent, cause⟩
  unfold updateDefaultPolicy
  rw [sent]
  dsimp only
  split
  · rename_i valid
    rcases cause with invalid | fails | absent
    · exact absurd valid invalid
    · rcases Option.ne_none_iff_exists'.mp fails with ⟨problem, fails⟩
      rw [fails]
      exact ⟨_, rfl⟩
    · rw [absent]
      cases faults.policyWrite with
      | none => exact ⟨_, rfl⟩
      | some problem => exact ⟨_, rfl⟩
  · exact ⟨_, rfl⟩

theorem updateDefaultPolicy_taken (taken : ¬ PolicyRefused faults body server) :
    updateDefaultPolicy name faults body server = (.ok (), withPolicy body server) := by
  unfold updateDefaultPolicy withPolicy
  cases sent : (body.get "default_policy").bind Value.asStr with
  | none => rfl
  | some policy =>
      have valid : policy ∈ ["opt-in", "opt-out"] := by
        by_contra invalid
        exact taken ⟨policy, sent, .inl invalid⟩
      have written : faults.policyWrite = none := by
        by_contra fails
        exact taken ⟨policy, sent, .inr (.inl fails)⟩
      cases has : server.row with
      | none => exact absurd ⟨policy, sent, .inr (.inr has)⟩ taken
      | some record =>
          dsimp only
          rw [if_pos valid, written]
          rfl

/-- Whether the bearer is taken does not depend on the policy. -/
theorem tokenRefused_withPolicy :
    TokenRefused faults body (withPolicy body server) ↔ TokenRefused faults body server := by
  unfold TokenRefused withPolicy
  cases (body.get "default_policy").bind Value.asStr with
  | none => rfl
  | some policy => cases has : server.row <;> simp

theorem updateAuthToken_refused (name : String) (refused : TokenRefused faults body server) :
    ∃ problem, updateAuthToken name faults body server = (.error problem, server) := by
  rcases refused with ⟨value, sent, cause⟩
  unfold updateAuthToken
  rw [sent]
  dsimp only
  cases parsed : parseAuthTokenUpdate value with
  | error problem => exact ⟨_, rfl⟩
  | ok token =>
      cases fails : faults.tokenRead with
      | some problem => exact ⟨_, rfl⟩
      | none =>
          cases has : server.row with
          | none => exact ⟨_, rfl⟩
          | some record =>
              dsimp only
              split
              · rename_i remote
                have broken : faults.tokenWrite ≠ none := by
                  rcases cause with bad | unread | other | broken
                  · rw [parsed] at bad
                    cases bad
                  · exact absurd fails unread
                  · exact absurd (by simpa using remote) (other record has)
                  · exact broken
                rcases Option.ne_none_iff_exists'.mp broken with ⟨problem, broken⟩
                simp [updateServerAuthToken, broken]
              · exact ⟨_, rfl⟩

/-- The server under the bearer of an update. -/
def withToken (name : String) (faults : Faults) (body : Value) (server : Server) : Server :=
  match (body.get "auth_token").map parseAuthTokenUpdate with
  | some (.ok authToken) =>
      (restartServer name faults.tokenReconnect {
        row := server.row.map fun record => { record with authToken }
        handle := server.handle.map fun config => { config with authToken } }).2
  | _ => server

theorem updateAuthToken_taken (name : String) (taken : ¬ TokenRefused faults body server) :
    ∃ answer, updateAuthToken name faults body server =
      (.ok answer, withToken name faults body server) := by
  unfold updateAuthToken withToken
  cases sent : body.get "auth_token" with
  | none => exact ⟨_, rfl⟩
  | some value =>
      dsimp only [Option.map]
      cases parsed : parseAuthTokenUpdate value with
      | error problem =>
          refine absurd ⟨value, sent, .inl ?_⟩ taken
          rw [parsed]
          rfl
      | ok token =>
          have readable : faults.tokenRead = none := by
            by_contra fails
            exact taken ⟨value, sent, .inr (.inl fails)⟩
          have written : faults.tokenWrite = none := by
            by_contra fails
            exact taken ⟨value, sent, .inr (.inr (.inr fails))⟩
          cases has : server.row with
          | none =>
              refine absurd ⟨value, sent, .inr (.inr (.inl ?_))⟩ taken
              intro record present
              rw [has] at present
              cases present
          | some record =>
              have remote : record.transport = "streamable-http" := by
                by_contra other
                refine taken ⟨value, sent, .inr (.inr (.inl ?_))⟩
                intro found present
                rw [has] at present
                cases present
                exact other
              simp [readable, remote, updateServerAuthToken, written, has]
              cases server.handle <;> rfl

theorem withPolicy_eq_iff : withPolicy body server = server ↔ PolicyHeld body server := by
  rcases server with ⟨row, handle⟩
  unfold withPolicy PolicyHeld
  cases (body.get "default_policy").bind Value.asStr with
  | none => simp
  | some policy =>
      cases row with
      | none => simp
      | some record =>
          rcases record with ⟨⟩
          simp [eq_comm]

/-- What a restart leaves of a server that is as it was. -/
theorem restartServer_eq_iff {refused : Option String} :
    (restartServer id refused server).2 = server ↔
      (server.handle = none → refused ≠ none ∨ (startConfig id server).toOption = none) := by
  rcases server with ⟨row, handle⟩
  unfold restartServer
  cases handle with
  | some config => cases refused <;> simp [startConfig]
  | none =>
      cases startConfig id ⟨row, none⟩ with
      | error problem => simp [Except.toOption]
      | ok config => cases refused <;> simp [Except.toOption]

theorem restartServer_row {refused : Option String} :
    (restartServer id refused server).2.row = server.row := by
  unfold restartServer
  cases startConfig id server with
  | error problem => rfl
  | ok config => cases refused <;> rfl

theorem restartServer_handle {refused : Option String} {config : McpServerConfig}
    (running : server.handle = some config) :
    (restartServer id refused server).2.handle = some config := by
  have started : startConfig id server = .ok config := by
    rw [startConfig, running]
  rw [restartServer, started]
  cases refused with
  | none => rfl
  | some problem => exact running

/-- Where a server is again what another one was, and is in memory where that one was, the
restart has changed nothing. -/
theorem eq_of_restartServer {refused : Option String} {before : Server}
    (running : before.handle.isSome = server.handle.isSome)
    (same : (restartServer id refused server).2 = before) : server = before := by
  subst same
  apply Server.ext restartServer_row.symm
  cases present : server.handle with
  | some config => exact (restartServer_handle present).symm
  | none =>
      rw [present] at running
      exact (Option.isSome_eq_false_iff.mp running |> Option.isNone_iff_eq_none.mp).symm

/-- A row holds a policy and a bearer already where it is the same with them. -/
theorem row_replaced_eq_iff {policy : String} {token : Option String} :
    { record with defaultPolicy := policy, authToken := token } = record ↔
      record.defaultPolicy = policy ∧ record.authToken = token := by
  rcases record with ⟨⟩
  simp [and_comm, eq_comm]

theorem config_replaced_eq_iff {config : McpServerConfig} {token : Option String} :
    { config with authToken := token } = config ↔ config.authToken = token := by
  rcases config with ⟨⟩
  simp [eq_comm]

/-- The server under the policy and the bearer of an update, before it is restarted. -/
theorem replaced_eq_iff {token : Option String} :
    ({ row := (withPolicy body server).row.map fun record => { record with authToken := token }
       handle := server.handle.map fun config => { config with authToken := token } } : Server)
        = server ↔
      PolicyHeld body server ∧ (∀ record, server.row = some record → record.authToken = token) ∧
        ∀ config, server.handle = some config → config.authToken = token := by
  have handles : (server.handle.map fun config => { config with authToken := token }) =
      server.handle ↔ ∀ config, server.handle = some config → config.authToken = token := by
    cases server.handle with
    | none => simp
    | some config => simp [config_replaced_eq_iff]
  have rows : ((withPolicy body server).row.map fun record => { record with authToken := token }) =
      server.row ↔ PolicyHeld body server ∧
        ∀ record, server.row = some record → record.authToken = token := by
    unfold withPolicy PolicyHeld
    cases (body.get "default_policy").bind Value.asStr with
    | none =>
        cases server.row with
        | none => simp
        | some record =>
            have kept := @row_replaced_eq_iff record record.defaultPolicy token
            simpa using kept
    | some policy =>
        cases server.row with
        | none => simp
        | some record => simp [row_replaced_eq_iff]
  rw [Server.ext_iff, ← and_assoc, ← rows, ← handles]

theorem withPolicy_handle : (withPolicy body server).handle = server.handle := by
  unfold withPolicy
  cases (body.get "default_policy").bind Value.asStr <;> rfl

/-- Nothing is left of a policy and a bearer that are taken where both are held already. -/
theorem withToken_withPolicy_eq_iff :
    withToken name faults body (withPolicy body server) = server ↔
      PolicyHeld body server ∧ TokenHeld name faults body server := by
  cases sent : body.get "auth_token" with
  | none => simp [withToken, sent, withPolicy_eq_iff, TokenHeld]
  | some value =>
      cases parsed : parseAuthTokenUpdate value with
      | error problem =>
          have vacuous : TokenHeld name faults body server := by
            intro other token here ok
            rw [sent] at here
            cases here
            rw [parsed] at ok
            cases ok
          simp [withToken, sent, parsed, withPolicy_eq_iff, vacuous]
      | ok token =>
          have held : TokenHeld name faults body server ↔
              (∀ record, server.row = some record → record.authToken = token) ∧
                (∀ config, server.handle = some config → config.authToken = token) ∧
                (server.handle = none →
                  faults.tokenReconnect ≠ none ∨ (startConfig name server).toOption = none) := by
            constructor
            · intro all
              exact all value token sent parsed
            · intro this other found here ok
              rw [sent] at here
              cases here
              rw [parsed] at ok
              cases ok
              exact this
          simp only [withToken, sent, parsed, withPolicy_handle, Option.map_some]
          rw [held]
          constructor
          · intro same
            have replaced := eq_of_restartServer (by simp) same
            rw [replaced] at same
            have ⟨policy, row, handle⟩ := replaced_eq_iff.mp replaced
            exact ⟨policy, row, handle, restartServer_eq_iff.mp same⟩
          · rintro ⟨policy, row, handle, idle⟩
            rw [replaced_eq_iff.mpr ⟨policy, row, handle⟩]
            exact restartServer_eq_iff.mpr idle

theorem updateEnv_refused (name : String) (refused : EnvRefused faults body) (server : Server) :
    ∃ problem, updateEnv name faults body server = (.error problem, server) := by
  rcases refused with ⟨sent, fails⟩
  rcases Option.isSome_iff_exists.mp sent with ⟨envObj, sent⟩
  rcases Option.ne_none_iff_exists'.mp fails with ⟨problem, fails⟩
  rw [updateEnv, sent, fails]
  exact ⟨_, rfl⟩

theorem updateEnv_taken (name : String) (taken : ¬ EnvRefused faults body) (server : Server) :
    ∃ after, updateEnv name faults body server = (.ok (), after) := by
  unfold updateEnv
  cases sent : (body.get "env").bind Value.asObject with
  | none => exact ⟨_, rfl⟩
  | some envObj =>
      have written : faults.envWrite = none := by
        by_contra fails
        refine taken ⟨?_, fails⟩
        rw [sent]
        rfl
      rw [written]
      exact ⟨_, rfl⟩

/-- An answer that is an error leaves the server as it was where nothing was taken before
it, or only what was there. -/
theorem error_unchanged_iff :
    (∀ problem, (updateMcpServerSettings name faults body server).1 = .error problem →
      (updateMcpServerSettings name faults body server).2 = server) ↔
      Undone name faults body server := by
  unfold updateMcpServerSettings Undone
  cases authorized : faults.auth with
  | some problem => simp
  | none =>
      by_cases policy : PolicyRefused faults body server
      · rcases updateDefaultPolicy_refused name policy with ⟨problem, refused⟩
        simp [refused, policy]
      · rw [updateDefaultPolicy_taken policy]
        by_cases token : TokenRefused faults body server
        · rcases updateAuthToken_refused name (tokenRefused_withPolicy.mpr token) with
            ⟨problem, refused⟩
          simp [refused, policy, token, withPolicy_eq_iff]
        · have taken : ¬ TokenRefused faults body (withPolicy body server) := by
            rwa [tokenRefused_withPolicy]
          rcases updateAuthToken_taken name taken with ⟨answer, stored⟩
          dsimp only
          rw [stored]
          by_cases env : EnvRefused faults body
          · rcases updateEnv_refused name env (withToken name faults body
              (withPolicy body server)) with ⟨problem, refused⟩
            simp [refused, policy, token, env, withToken_withPolicy_eq_iff]
          · rcases updateEnv_taken name env (withToken name faults body
              (withPolicy body server)) with ⟨after, written⟩
            cases null : answer.isNull <;> simp [written, null, token, env]

/-- Saving the settings as they are shown leaves what the server is given where nothing is
kept from what it has, and an error leaves the server where nothing new was taken before
it. -/
theorem saved_unchanged_iff (kernel : Kernel) (name : String) (server : Server) (faults : Faults)
    (body : Value) :
    ((∀ shown, getMcpServerSettings kernel name server = .ok shown →
      received kernel name (updateMcpServerSettings name faults shown.update server).2 =
        received kernel name server) ↔
      ∀ record, server.row = some record → GetsThrough faults server →
        Kept kernel name server record faults.envRead.isNone) ∧
    ((∀ problem, (updateMcpServerSettings name faults body server).1 = .error problem →
      (updateMcpServerSettings name faults body server).2 = server) ↔
      Undone name faults body server) := by
  refine ⟨?_, error_unchanged_iff⟩
  constructor
  · intro same record has
    cases answered : getMcpServerSettings kernel name server with
    | error problem => simp [getMcpServerSettings, has] at answered
    | ok shown => exact (received_saved_iff has answered).mp (same shown answered)
  · intro kept shown answered
    cases has : server.row with
    | none => simp [getMcpServerSettings, has] at answered
    | some record => exact (received_saved_iff has answered).mpr (kept record has)

/-! ## A secret of the config alone -/

/-- A kernel without providers and an address. -/
def plainKernel : Kernel where
  toUppercase := String.toUpper
  getLlmProvider _ := none
  kernelChildUrl := ""

/-- A server that runs with a secret of which its row does not know. -/
def runningSecret : Server where
  row := some {
    name := "search"
    command := "python3"
    args := some []
    env := some (Keyed.empty Prod.fst)
    transport := "stdio"
    url := none
    authToken := none
    autoRestart := true
    description := none
    defaultPolicy := "opt-in"
    isActive := true }
  handle := some {
    env := Dictionary.ofList [("SEARCH_API_KEY", "s3cret")]
    transport := "stdio"
    authToken := none }

/-- A policy, and a bearer that is not one. -/
def mixedBody : Value :=
  .object [("default_policy", .string "opt-out"), ("auth_token", .string "two words")]

/-- The secret is shown as the mask, for which nothing is found when it comes back.  And a
policy that was stored stays when the bearer after it is refused. -/
theorem secret_lost_policy_kept :
    (∃ shown, getMcpServerSettings plainKernel "search" runningSecret = .ok shown ∧
      received plainKernel "search"
          (updateMcpServerSettings "search" Faults.none shown.update runningSecret).2 ≠
        received plainKernel "search" runningSecret) ∧
    ∃ problem,
      (updateMcpServerSettings "search" Faults.none mixedBody runningSecret).1 = .error problem ∧
      (updateMcpServerSettings "search" Faults.none mixedBody runningSecret).2 ≠
        runningSecret := by
  constructor
  · refine ⟨_, rfl, ?_⟩
    intro same
    have values := congrArg (fun env => env.toOption.bind fun value => value "SEARCH_API_KEY") same
    revert values
    decide +kernel
  · refine ⟨_, rfl, ?_⟩
    intro same
    have policies := congrArg (fun server => server.row.map (·.defaultPolicy)) same
    revert policies
    decide +kernel

end ClotoCore.Mcp.Settings
