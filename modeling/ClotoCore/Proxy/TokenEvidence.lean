import ClotoCore.Encoding.Text
import ClotoCore.Transition.Run

/-!
# What an installation knows of its proxy's callers

Each request that the proxy of the language models serves is put on one record,
and the next start requires a token if the record says that all callers had one.
The record is read, changed and written in three steps, and what a process believes
to be on it already is held in two flags that are raised before anything is written.
The mark of an untrusted caller stays on the record as long as it is written, nobody
goes on before it is, and neither an older record nor a clear is written over it.
-/

namespace ClotoCore.Proxy

open ClotoCore.Encoding ClotoCore.Transition

/-- The two marks in the database. -/
structure TokenEvidence where
  /-- The proxy has served at least one request. -/
  served : Bool
  /-- At least one of them carried no valid token. -/
  untrusted : Bool
  deriving DecidableEq

/-- `TokenEvidence::default` -/
def TokenEvidence.empty : TokenEvidence where
  served := false
  untrusted := false

/-- `enforcement_default` -/
def enforcementDefault (evidence : TokenEvidence) : Bool :=
  evidence.served && !evidence.untrusted

/-- `evidence_after` -/
def evidenceAfter (prev : TokenEvidence) (untrusted : Bool) : TokenEvidence where
  served := true
  untrusted := prev.untrusted || untrusted

/-- The two headers that can carry the token, where they are text. -/
structure Headers where
  authorization : Option String
  proxyToken : Option String

/-- `token_presented` -/
def tokenPresented (headers : Headers) : Option String :=
  let bearer := "bearer "
  match headers.authorization.filter fun value =>
      eqIgnoreAsciiCase (String.ofList (value.toList.take bearer.length)) bearer with
  | some value => some (trim (String.ofList (value.toList.drop bearer.length)))
  | none => headers.proxyToken.map trim

/-- `token_matches` -/
def tokenMatches (presented : Option String) (expected : String) : Bool :=
  match presented with
  | some token => token == expected
  | none => false

/-- Where a request stands in `proxy_handler`: before the first or the second flag,
before the read or the write of `record_evidence`, or past it. -/
inductive Stage where
  | swapServed
  | swapUntrusted (newServed : Bool)
  | load
  | store (evidence : TokenEvidence)
  | recorded
  | ended

/-- A request on its way through the proxy. -/
structure Request where
  untrusted : Bool
  stage : Stage

/-- Where a call of `clear_token_evidence` stands. -/
inductive Clear where
  | resetServed
  | resetUntrusted
  | store
  | ended
  deriving DecidableEq

/-- The record on disk, and the process that is running.  No step reads which
requests have been served since the record was last cleared. -/
structure State where
  row : Option TokenEvidence
  token : String
  requireToken : Bool
  persistedServed : Bool
  persistedUntrusted : Bool
  requests : List Request
  clears : List Clear
  served : List Request

/-- `boot` ends the process and starts another one, with an explicit setting or with
none.  `readable` and `written` say whether a statement on the record succeeds. -/
inductive Label where
  | serve (headers : Headers)
  | swapServed (request : Nat)
  | swapUntrusted (request : Nat)
  | load (request : Nat) (readable : Bool)
  | store (request : Nat) (written : Bool)
  | answer (request : Nat)
  | clear
  | clearStep (clear : Nat) (written : Bool)
  | boot (token : String) (explicit : Option Bool) (readable : Bool)

namespace State

/-- A new installation. -/
def init (token : String) (explicit : Option Bool) : State where
  row := none
  token := token
  requireToken := explicit.getD (enforcementDefault .empty)
  persistedServed := false
  persistedUntrusted := false
  requests := []
  clears := []
  served := []

/-- `load_token_evidence` -/
def loadTokenEvidence (state : State) (readable : Bool) : TokenEvidence :=
  if readable then state.row.getD .empty else .empty

/-- `store_token_evidence` -/
def storeTokenEvidence (state : State) (evidence : TokenEvidence) (written : Bool) : State :=
  if written then { state with row := some evidence } else state

/-- The request is in a new stage. -/
def setStage (state : State) (n : Nat) (request : Request) (stage : Stage) : State :=
  { state with requests := state.requests.set n { request with stage := stage } }

/-- What `proxy_handler` does first. -/
def serve (state : State) (headers : Headers) : State :=
  let untrusted := !tokenMatches (tokenPresented headers) state.token
  if untrusted && state.requireToken then state
  else { state with requests := state.requests ++ [⟨untrusted, .swapServed⟩] }

/-- How `record_evidence` goes on once it knows what is new. -/
def afterSwaps (newServed newUntrusted : Bool) : Stage :=
  if !newServed && !newUntrusted then .recorded else .load

/-- One step of `clear_token_evidence`.  The record is cleared once its write succeeds. -/
def clearStep (state : State) (n : Nat) (written : Bool) : Clear → Option State
  | .resetServed =>
      some { state with persistedServed := false, clears := state.clears.set n .resetUntrusted }
  | .resetUntrusted =>
      some { state with persistedUntrusted := false, clears := state.clears.set n .store }
  | .store =>
      some
        { state.storeTokenEvidence .empty written with
          clears := state.clears.set n .ended
          served := if written then [] else state.served }
  | .ended => none

/-- The start of the next process. -/
def boot (state : State) (token : String) (explicit : Option Bool) (readable : Bool) : State :=
  { state with
    token := token
    requireToken := explicit.getD (enforcementDefault (state.loadTokenEvidence readable))
    persistedServed := false
    persistedUntrusted := false
    requests := []
    clears := [] }

end State

/-- One step. -/
def step : Action State Label
  | state, .serve headers => some (state.serve headers)
  | state, .swapServed n =>
      match state.requests[n]? with
      | some ⟨untrusted, .swapServed⟩ =>
          let newServed := !state.persistedServed
          some
            ({ state with persistedServed := true }.setStage n ⟨untrusted, .swapServed⟩
              (if untrusted then .swapUntrusted newServed else State.afterSwaps newServed false))
      | _ => none
  | state, .swapUntrusted n =>
      match state.requests[n]? with
      | some ⟨untrusted, .swapUntrusted newServed⟩ =>
          some
            ({ state with persistedUntrusted := true }.setStage n
              ⟨untrusted, .swapUntrusted newServed⟩
              (State.afterSwaps newServed (!state.persistedUntrusted)))
      | _ => none
  | state, .load n readable =>
      match state.requests[n]? with
      | some ⟨untrusted, .load⟩ =>
          some
            (state.setStage n ⟨untrusted, .load⟩
              (.store (evidenceAfter (state.loadTokenEvidence readable) untrusted)))
      | _ => none
  | state, .store n written =>
      match state.requests[n]? with
      | some ⟨untrusted, .store evidence⟩ =>
          some
            ((state.storeTokenEvidence evidence written).setStage n ⟨untrusted, .store evidence⟩
              .recorded)
      | _ => none
  | state, .answer n =>
      match state.requests[n]? with
      | some ⟨untrusted, .recorded⟩ =>
          let request : Request := ⟨untrusted, .recorded⟩
          some ({ state with served := state.served ++ [request] }.setStage n request .ended)
      | _ => none
  | state, .clear => some { state with clears := state.clears ++ [.resetServed] }
  | state, .clearStep n written =>
      match state.clears[n]? with
      | some stage => state.clearStep n written stage
      | none => none
  | state, .boot token explicit readable => some (state.boot token explicit readable)

/-- If a boot that reads the record now would require the token by default, every
request served since the record was last cleared carried it. -/
def NotOverclaimed (state : State) : Prop :=
  ∀ readable, enforcementDefault (state.loadTokenEvidence readable) = true →
    ∀ request ∈ state.served, request.untrusted = false

/-- The evidence that a request is about to write. -/
def Stage.evidence? : Stage → Option TokenEvidence
  | .store evidence => some evidence
  | _ => none

/-- A request has raised its flags and has yet to write what is new. -/
def Stage.writing : Stage → Bool
  | .load | .store _ => true
  | _ => false

/-- A request has gone past its flags and has not been let on. -/
def Stage.marked : Stage → Bool
  | .load | .store _ | .recorded => true
  | _ => false

/-- Nothing comes between the mark of an untrusted request and the record.  Its write
succeeds, and no request writes a record that it read before the mark was there.  It is let
on once no other one has the mark yet to write.  No untrusted request raises its flag
between the reset and the write of a clear, and none is on its way when that write is made. -/
def InTurn (state : State) : Label → Prop
  | .swapUntrusted _ => .store ∉ state.clears
  | .store n written => ∀ request ∈ state.requests[n]?, ∀ evidence ∈ request.stage.evidence?,
      if request.untrusted then written = true
      else written = true → (state.row.getD .empty).untrusted = true → evidence.untrusted = true
  | .answer n => ∀ request ∈ state.requests[n]?, request.untrusted = true →
      ∀ other ∈ state.requests, other.untrusted = true → other.stage.writing = false
  | .clearStep n written => written = true → state.clears[n]? = some .store →
      ∀ request ∈ state.requests, request.untrusted = true → request.stage.marked = false
  | _ => True

instance (state : State) : ∀ label, Decidable (InTurn state label)
  | .swapUntrusted _ => inferInstanceAs (Decidable (_ ∉ _))
  | .store n written => inferInstanceAs <| Decidable <|
      ∀ request ∈ state.requests[n]?, ∀ evidence ∈ request.stage.evidence?,
        if request.untrusted then written = true
        else written = true → (state.row.getD .empty).untrusted = true → evidence.untrusted = true
  | .answer n => inferInstanceAs <| Decidable <|
      ∀ request ∈ state.requests[n]?, request.untrusted = true →
        ∀ other ∈ state.requests, other.untrusted = true → other.stage.writing = false
  | .clearStep n written => inferInstanceAs <| Decidable <|
      written = true → state.clears[n]? = some .store →
        ∀ request ∈ state.requests, request.untrusted = true → request.stage.marked = false
  | .serve _ | .swapServed _ | .load _ _ | .clear | .boot _ _ _ => isTrue trivial

variable {state next : State} {label : Label} {n : Nat}

/-! ## What a process knows of the record -/

/-- The record says that a caller was untrusted. -/
def State.Marked (state : State) : Prop :=
  (state.row.getD .empty).untrusted = true

/-- An untrusted request has its mark yet to write. -/
def State.Writing (state : State) : Prop :=
  ∃ request ∈ state.requests, request.untrusted = true ∧ request.stage.writing = true

/-- What was served untrusted is on the record, and where a process takes it to be on the
record it is, or is about to be. -/
structure Sound (state : State) : Prop where
  served : ∀ request ∈ state.served, request.untrusted = true → state.Marked
  flag : state.persistedUntrusted = true → state.Marked ∨ state.Writing
  recorded : ∀ untrusted, ⟨untrusted, .recorded⟩ ∈ state.requests → untrusted = true →
    state.Marked ∨ state.Writing
  reset : .store ∈ state.clears → state.persistedUntrusted = false
  swapping : ∀ untrusted newServed, ⟨untrusted, .swapUntrusted newServed⟩ ∈ state.requests →
    untrusted = true
  storing : ∀ untrusted evidence, ⟨untrusted, .store evidence⟩ ∈ state.requests →
    untrusted = true → evidence.untrusted = true

theorem Sound.init (token : String) (explicit : Option Bool) : Sound (.init token explicit) where
  served _ mem := by cases mem
  flag isTrue := by cases isTrue
  recorded _ mem := by cases mem
  reset mem := by cases mem
  swapping _ _ mem := by cases mem
  storing _ _ mem := by cases mem

/-- A record that says of an untrusted caller does not ask for the token. -/
theorem Sound.notOverclaimed (sound : Sound state) : NotOverclaimed state := by
  intro readable enforced request mem
  cases isUntrusted : request.untrusted with
  | false => rfl
  | true =>
      have marked : (state.row.getD .empty).untrusted = true :=
        sound.served request mem isUntrusted
      cases readable with
      | false => cases enforced
      | true => simp [enforcementDefault, State.loadTokenEvidence, marked] at enforced

/-- A request that goes on keeps the mark of another in sight, and its own. -/
theorem State.Writing.set {old new : Request} {requests : List Request}
    (writing : state.Writing) (there : state.requests[n]? = some old)
    (set : requests = state.requests.set n new)
    (keeps : old.untrusted = true → old.stage.writing = true →
      new.untrusted = true ∧ new.stage.writing = true) :
    ∃ request ∈ requests, request.untrusted = true ∧ request.stage.writing = true := by
  subst set
  rcases writing with ⟨request, mem, untrusted, isWriting⟩
  rcases List.mem_iff_getElem?.mp mem with ⟨m, found⟩
  have within := (List.getElem?_eq_some_iff.mp there).1
  by_cases same : n = m
  · subst same
    cases found.symm.trans there
    exact ⟨new, List.mem_iff_getElem?.mpr ⟨n, List.getElem?_set_self within⟩,
      keeps untrusted isWriting⟩
  · refine ⟨request, List.mem_iff_getElem?.mpr ⟨m, ?_⟩, untrusted, isWriting⟩
    rw [List.getElem?_set_ne same]
    exact found

/-- Requests that go on without a mark, a write or an answer keep what a process knows. -/
theorem Sound.move {old new : Request} {served untrusted : Bool} (sound : Sound state)
    (there : state.requests[n]? = some old)
    (flag : untrusted = true → state.Marked ∨
      ({ state with requests := state.requests.set n new } : State).Writing)
    (keeps : old.untrusted = true → old.stage.writing = true →
      new.untrusted = true ∧ new.stage.writing = true)
    (recorded : new.stage = .recorded → new.untrusted = true → state.Marked ∨
      ({ state with requests := state.requests.set n new } : State).Writing)
    (reset : untrusted = true → .store ∉ state.clears)
    (swapping : ∀ newServed, new.stage = .swapUntrusted newServed → new.untrusted = true)
    (storing : ∀ evidence, new.stage = .store evidence → new.untrusted = true →
      evidence.untrusted = true) :
    Sound { state with
      requests := state.requests.set n new
      persistedServed := served
      persistedUntrusted := untrusted } := by
  have onward : state.Marked ∨ state.Writing → state.Marked ∨
      ({ state with requests := state.requests.set n new } : State).Writing :=
    fun known => known.imp_right fun writing => writing.set there rfl keeps
  constructor
  · exact sound.served
  · exact flag
  · intro isUntrusted mem untrustedEq
    rcases List.mem_or_eq_of_mem_set mem with before | rfl
    · exact onward (sound.recorded isUntrusted before untrustedEq)
    · exact recorded rfl untrustedEq
  · intro clearing
    cases isRaised : untrusted with
    | false => rfl
    | true => exact absurd clearing (reset isRaised)
  · intro isUntrusted newServed mem
    rcases List.mem_or_eq_of_mem_set mem with before | rfl
    · exact sound.swapping isUntrusted newServed before
    · exact swapping newServed rfl
  · intro isUntrusted evidence mem
    rcases List.mem_or_eq_of_mem_set mem with before | rfl
    · exact sound.storing isUntrusted evidence before
    · exact storing evidence rfl

/-- What is written over a mark has the mark, and an untrusted request writes it. -/
theorem Sound.store {untrusted written : Bool} {evidence : TokenEvidence} (sound : Sound state)
    (there : state.requests[n]? = some ⟨untrusted, .store evidence⟩)
    (meets : InTurn state (.store n written)) :
    Sound ((state.storeTokenEvidence evidence written).setStage n ⟨untrusted, .store evidence⟩
      .recorded) := by
  generalize isNext : (state.storeTokenEvidence evidence written).setStage n
    ⟨untrusted, .store evidence⟩ .recorded = next
  have requests : next.requests = state.requests.set n ⟨untrusted, .recorded⟩ := by
    subst isNext
    cases written <;> rfl
  have others : next.served = state.served ∧ next.clears = state.clears ∧
      next.persistedUntrusted = state.persistedUntrusted := by
    subst isNext
    cases written <;> exact ⟨rfl, rfl, rfl⟩
  have fresh := meets _ there evidence rfl
  have about := sound.storing untrusted evidence (List.mem_of_getElem? there)
  have own : untrusted = true → next.Marked := by
    rintro rfl
    rw [if_pos rfl] at fresh
    subst isNext fresh
    exact about rfl
  have kept : state.Marked → next.Marked := by
    intro marked
    cases untrusted with
    | true => exact own rfl
    | false =>
        subst isNext
        cases written with
        | false => exact marked
        | true => exact fresh rfl marked
  have onward : state.Marked ∨ state.Writing → next.Marked ∨ next.Writing := by
    rintro (marked | writing)
    · exact Or.inl (kept marked)
    · cases untrusted with
      | true => exact Or.inl (own rfl)
      | false =>
          right
          apply writing.set there requests
          intro isUntrusted
          cases isUntrusted
  constructor
  · rw [others.1]
    intro request mem isUntrusted
    exact kept (sound.served request mem isUntrusted)
  · rw [others.2.2]
    exact fun raised => onward (sound.flag raised)
  · rw [requests]
    intro isUntrusted mem untrustedEq
    rcases List.mem_or_eq_of_mem_set mem with before | same
    · exact onward (sound.recorded isUntrusted before untrustedEq)
    · cases same
      exact Or.inl (own untrustedEq)
  · rw [others.2.1, others.2.2]
    exact sound.reset
  · rw [requests]
    intro isUntrusted newServed mem
    rcases List.mem_or_eq_of_mem_set mem with before | same
    · exact sound.swapping isUntrusted newServed before
    · cases same
  · rw [requests]
    intro isUntrusted other mem
    rcases List.mem_or_eq_of_mem_set mem with before | same
    · exact sound.storing isUntrusted other before
    · cases same

/-- A step of a clear keeps what a process knows if no untrusted request is on its way. -/
theorem Sound.clearStep {stage : Clear} {written : Bool} (sound : Sound state)
    (there : state.clears[n]? = some stage) (meets : InTurn state (.clearStep n written))
    (stepEq : state.clearStep n written stage = some next) : Sound next := by
  cases stage with
  | resetServed =>
      rw [← Option.some.inj stepEq]
      refine ⟨sound.served, sound.flag, sound.recorded, ?_, sound.swapping, sound.storing⟩
      intro clearing
      rcases List.mem_or_eq_of_mem_set clearing with before | same
      · exact sound.reset before
      · cases same
  | resetUntrusted =>
      rw [← Option.some.inj stepEq]
      refine ⟨sound.served, ?_, sound.recorded, fun _ => rfl, sound.swapping, sound.storing⟩
      intro raised
      cases raised
  | store =>
      rw [← Option.some.inj stepEq]
      have lowered := sound.reset (List.mem_of_getElem? there)
      refine ⟨?_, ?_, ?_, ?_, ?_, ?_⟩
      · intro request mem isUntrusted
        cases written with
        | true => cases mem
        | false => exact sound.served request mem isUntrusted
      · intro raised
        cases written <;> cases lowered.symm.trans raised
      · intro isUntrusted mem untrustedEq
        cases written with
        | true => cases meets rfl there _ mem untrustedEq
        | false => exact sound.recorded isUntrusted mem untrustedEq
      · intro _
        cases written <;> exact lowered
      · intro isUntrusted newServed mem
        cases written <;> exact sound.swapping isUntrusted newServed mem
      · intro isUntrusted evidence mem
        cases written <;> exact sound.storing isUntrusted evidence mem
  | ended => cases stepEq

theorem afterSwaps_cases (newServed newUntrusted : Bool) :
    State.afterSwaps newServed newUntrusted = .load ∨
      State.afterSwaps newServed newUntrusted = .recorded ∧ newServed = false ∧
        newUntrusted = false := by
  cases newServed <;> cases newUntrusted <;> simp [State.afterSwaps]

theorem Sound.serve (sound : Sound state) (headers : Headers) : Sound (state.serve headers) := by
  unfold State.serve
  dsimp only
  split
  · exact sound
  · have onward : ∀ request : Request, state.Marked ∨ state.Writing → state.Marked ∨
        State.Writing { state with requests := state.requests ++ [request] } := by
      intro request
      apply Or.imp_right
      rintro ⟨other, mem, writing⟩
      exact ⟨other, List.mem_append_left _ mem, writing⟩
    refine ⟨sound.served, fun raised => onward _ (sound.flag raised), ?_, sound.reset, ?_, ?_⟩
    · intro isUntrusted mem untrustedEq
      rcases List.mem_append.mp mem with before | same
      · exact onward _ (sound.recorded isUntrusted before untrustedEq)
      · cases List.mem_singleton.mp same
    · intro isUntrusted newServed mem
      rcases List.mem_append.mp mem with before | same
      · exact sound.swapping isUntrusted newServed before
      · cases List.mem_singleton.mp same
    · intro isUntrusted evidence mem
      rcases List.mem_append.mp mem with before | same
      · exact sound.storing isUntrusted evidence before
      · cases List.mem_singleton.mp same

/-- The first flag says nothing of untrusted callers. -/
theorem Sound.swapServed {untrusted : Bool} {stage : Stage} (sound : Sound state)
    (there : state.requests[n]? = some ⟨untrusted, .swapServed⟩)
    (onto : if untrusted then ∃ newServed, stage = .swapUntrusted newServed
      else stage = .load ∨ stage = .recorded) :
    Sound { state with
      requests := state.requests.set n ⟨untrusted, stage⟩
      persistedServed := true } := by
  refine sound.move there ?_ ?_ ?_ ?_ ?_ ?_
  · intro raised
    refine (sound.flag raised).imp_right fun writing => writing.set there rfl ?_
    intro _ impossible
    cases impossible
  · intro _ impossible
    cases impossible
  · rintro recorded rfl
    rcases onto with ⟨newServed, rfl⟩
    cases recorded
  · intro raised clearing
    cases (sound.reset clearing).symm.trans raised
  · intro newServed swapping
    cases untrusted with
    | true => rfl
    | false => rcases onto with rfl | rfl <;> cases swapping
  · rintro evidence storing rfl
    rcases onto with ⟨newServed, rfl⟩
    cases storing

/-- Who raises the second flag is about to write, and who finds it raised knows of a mark. -/
theorem Sound.swapUntrusted {untrusted newServed : Bool} (sound : Sound state)
    (there : state.requests[n]? = some ⟨untrusted, .swapUntrusted newServed⟩)
    (meets : InTurn state (.swapUntrusted n)) :
    Sound ({ state with persistedUntrusted := true }.setStage n
      ⟨untrusted, .swapUntrusted newServed⟩
      (State.afterSwaps newServed (!state.persistedUntrusted))) := by
  cases sound.swapping untrusted newServed (List.mem_of_getElem? there)
  have within := (List.getElem?_eq_some_iff.mp there).1
  have known : state.Marked ∨ State.Writing
      ({ state with persistedUntrusted := true }.setStage n ⟨true, .swapUntrusted newServed⟩
        (State.afterSwaps newServed (!state.persistedUntrusted))) := by
    cases isRaised : state.persistedUntrusted with
    | true =>
        refine (sound.flag isRaised).imp_right fun writing => writing.set there rfl ?_
        intro _ impossible
        cases impossible
    | false =>
        right
        refine ⟨_, List.mem_iff_getElem?.mpr ⟨n, List.getElem?_set_self within⟩, rfl, ?_⟩
        rcases afterSwaps_cases newServed true with writes | ⟨-, -, impossible⟩
        · rw [Bool.not_false, writes]
          rfl
        · cases impossible
  refine sound.move there (fun _ => known) ?_ (fun _ _ => known) (fun _ => meets)
    (fun _ _ => rfl) ?_
  · intro _ impossible
    cases impossible
  · intro evidence storing
    rcases afterSwaps_cases newServed (!state.persistedUntrusted) with loads | ⟨recorded, -, -⟩
    · cases loads.symm.trans storing
    · cases recorded.symm.trans storing

/-- What is read is about to be written with the mark of the request. -/
theorem Sound.load {untrusted : Bool} (sound : Sound state)
    (there : state.requests[n]? = some ⟨untrusted, .load⟩) (prev : TokenEvidence) :
    Sound (state.setStage n ⟨untrusted, .load⟩ (.store (evidenceAfter prev untrusted))) := by
  refine sound.move there ?_ (fun isUntrusted _ => ⟨isUntrusted, rfl⟩) ?_ ?_ ?_ ?_
  · intro raised
    exact (sound.flag raised).imp_right fun writing =>
      writing.set there rfl fun isUntrusted _ => ⟨isUntrusted, rfl⟩
  · intro impossible
    cases impossible
  · intro raised clearing
    cases (sound.reset clearing).symm.trans raised
  · intro newServed impossible
    cases impossible
  · rintro evidence storing rfl
    cases storing
    simp [evidenceAfter]

/-- An untrusted request is let on once its mark is on the record. -/
theorem Sound.answer {untrusted : Bool} (sound : Sound state)
    (there : state.requests[n]? = some ⟨untrusted, .recorded⟩)
    (meets : InTurn state (.answer n)) :
    Sound ({ state with served := state.served ++ [(⟨untrusted, .recorded⟩ : Request)] }.setStage n
      ⟨untrusted, .recorded⟩ .ended) := by
  have marked : untrusted = true → state.Marked := by
    rintro rfl
    rcases sound.recorded true (List.mem_of_getElem? there) rfl with marked | writing
    · exact marked
    · rcases writing with ⟨other, mem, isUntrusted, isWriting⟩
      cases (meets _ there rfl other mem isUntrusted).symm.trans isWriting
  have served : Sound
      { state with served := state.served ++ [(⟨untrusted, .recorded⟩ : Request)] } := by
    refine ⟨?_, sound.flag, sound.recorded, sound.reset, sound.swapping, sound.storing⟩
    intro request mem isUntrusted
    rcases List.mem_append.mp mem with before | same
    · exact sound.served request before isUntrusted
    · cases List.mem_singleton.mp same
      exact marked isUntrusted
  refine served.move there ?_ ?_ ?_ ?_ ?_ ?_
  · intro raised
    refine (sound.flag raised).imp_right fun writing => writing.set there rfl ?_
    intro _ impossible
    cases impossible
  · intro _ impossible
    cases impossible
  · intro impossible
    cases impossible
  · intro raised clearing
    cases (sound.reset clearing).symm.trans raised
  · intro newServed impossible
    cases impossible
  · intro evidence impossible
    cases impossible

/-- A new process takes nothing to be on the record. -/
theorem Sound.boot (sound : Sound state) (token : String) (explicit : Option Bool)
    (readable : Bool) : Sound (state.boot token explicit readable) where
  served := sound.served
  flag raised := by cases raised
  recorded _ mem := by cases mem
  reset _ := rfl
  swapping _ _ mem := by cases mem
  storing _ _ mem := by cases mem

/-- A step in turn keeps what a process knows. -/
theorem Sound.step (sound : Sound state) (meets : InTurn state label)
    (stepEq : Proxy.step state label = some next) : Sound next := by
  cases label with
  | serve headers =>
      rw [← Option.some.inj stepEq]
      exact sound.serve headers
  | swapServed n =>
      simp only [Proxy.step] at stepEq
      split at stepEq
      · next untrusted there =>
        rw [← Option.some.inj stepEq]
        apply sound.swapServed there
        cases untrusted with
        | true => exact ⟨_, rfl⟩
        | false => exact (afterSwaps_cases _ false).imp_right And.left
      · cases stepEq
  | swapUntrusted n =>
      simp only [Proxy.step] at stepEq
      split at stepEq
      · next untrusted newServed there =>
        rw [← Option.some.inj stepEq]
        exact sound.swapUntrusted there meets
      · cases stepEq
  | load n readable =>
      simp only [Proxy.step] at stepEq
      split at stepEq
      · next untrusted there =>
        rw [← Option.some.inj stepEq]
        exact sound.load there _
      · cases stepEq
  | store n written =>
      simp only [Proxy.step] at stepEq
      split at stepEq
      · next untrusted evidence there =>
        rw [← Option.some.inj stepEq]
        exact sound.store there meets
      · cases stepEq
  | answer n =>
      simp only [Proxy.step] at stepEq
      split at stepEq
      · next untrusted there =>
        rw [← Option.some.inj stepEq]
        exact sound.answer there meets
      · cases stepEq
  | clear =>
      rw [← Option.some.inj stepEq]
      refine ⟨sound.served, sound.flag, sound.recorded, ?_, sound.swapping, sound.storing⟩
      intro clearing
      rcases List.mem_append.mp clearing with before | same
      · exact sound.reset before
      · cases List.mem_singleton.mp same
  | clearStep n written =>
      simp only [Proxy.step] at stepEq
      split at stepEq
      · next stage there => exact sound.clearStep there meets stepEq
      · cases stepEq
  | boot token explicit readable =>
      rw [← Option.some.inj stepEq]
      exact sound.boot token explicit readable

/-- In a run in which nothing comes between the mark of an untrusted request and the
record, the record never claims too much. -/
theorem notOverclaimed_throughout {token : String} {explicit : Option Bool} {labels : List Label}
    (inTurn : Along step InTurn (.init token explicit) labels) (count : Nat) (middle : State)
    (passed : run step (.init token explicit) (labels.take count) = some middle) :
    NotOverclaimed middle := by
  have sound : Sound middle :=
    run_invariant_along Sound (fun _ _ _ sound meets stepEq => sound.step meets stepEq)
      (Sound.init token explicit) (inTurn.take count) passed
  exact sound.notOverclaimed

/-- The headers of a caller that has the token `token`. -/
def bearing (token : String) : Headers where
  authorization := some ("Bearer " ++ token)
  proxyToken := none

/-- A request without a token. -/
def noToken : Headers where
  authorization := none
  proxyToken := none

/-- A trusted and an untrusted request side by side, before and after a clear. -/
def besideClear : List Label :=
  [.serve (bearing "t"), .serve noToken, .swapServed 0, .load 0 true, .swapServed 1,
    .swapUntrusted 1, .store 0 true, .load 1 true, .store 1 true, .answer 1, .answer 0,
    .clear, .clearStep 0 true, .clearStep 0 true, .clearStep 0 true,
    .serve noToken, .serve (bearing "t"), .swapServed 2, .swapServed 3, .swapUntrusted 2,
    .load 2 true, .store 2 true, .answer 3, .answer 2, .boot "u" none true]

/-- Untrusted requests that are recorded keep the next start from requiring the token. -/
theorem notOverclaimed_besideClear :
    ∃ target, run step (.init "t" none) besideClear = some target ∧ NotOverclaimed target := by
  have runs : (run step (.init "t" none) besideClear).isSome = true := by
    decide +kernel
  rcases Option.isSome_iff_exists.mp runs with ⟨target, ran⟩
  exact ⟨target, ran, @notOverclaimed_throughout "t" none besideClear (by decide +kernel)
    besideClear.length target (by rw [List.take_length]; exact ran)⟩

/-- The mark of an untrusted request is lost with one write, and the next start requires
the token of every caller. -/
theorem lost_write_claims_all_trusted :
    ¬ ∀ token explicit labels target, run step (.init token explicit) labels = some target →
      NotOverclaimed target := by
  intro sound
  have lost : ∃ target ∈ run step (.init "t" none)
      [.serve (bearing "t"), .swapServed 0, .load 0 true, .store 0 true, .answer 0,
        .serve noToken, .swapServed 1, .swapUntrusted 1, .load 1 true, .store 1 false, .answer 1],
      enforcementDefault (target.loadTokenEvidence true) = true ∧
        ∃ request ∈ target.served, request.untrusted = true := by
    decide +kernel
  rcases lost with ⟨target, ran, enforced, request, mem, untrusted⟩
  cases untrusted.symm.trans (sound _ _ _ target ran true enforced request mem)

end ClotoCore.Proxy
