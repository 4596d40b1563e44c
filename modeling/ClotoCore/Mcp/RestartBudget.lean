import ClotoCore.Mcp.Manager
import ClotoCore.Sequence.Numbered
import ClotoCore.Transition.Run
import Mathlib.Algebra.Group.Nat.Defs
import Mathlib.Data.List.Chain

/-!
# The restart budget

The health monitor restarts one dead server after another.  Before each restart it
asks for the budget, charges an attempt and waits for the back-off; a server that was
stopped or removed meanwhile is left alone.  The budget counts the attempts of a
window, which opens with the first check, with the first one after a successful
restart, and with the first one after the last window has expired.
-/

namespace ClotoCore.Mcp.RestartBudget

open ClotoCore.Sequence ClotoCore.Transition

/-- A restart policy as it is stored, in machine integers. -/
structure Policy extends RestartPolicy where
  maxRestarts_lt : maxRestarts < 2 ^ 32
  backoffMaxMs_lt : backoffMaxMs < 2 ^ 64

/-- `Duration::from_secs(restart_window_secs)` in nanoseconds. -/
def Policy.window (policy : Policy) : Nat :=
  policy.restartWindowSecs * 1000000000

/-- `saturating_mul` of 64 bits. -/
def saturatingMul (first second : Nat) : Nat :=
  min (first * second) (2 ^ 64 - 1)

/-- The milliseconds of `calculate_backoff`, for the count that it has just raised. -/
def backoffMs (policy : Policy) (count : Nat) : Nat :=
  min (saturatingMul policy.backoffBaseMs (2 ^ min (count - 1) 20)) policy.backoffMaxMs

/-- `RestartCounter` -/
structure RestartCounter where
  count : Nat
  windowStart : Nat
  lastRestart : Nat

/-- An attempt, with the time its restart was started at, if it was. -/
structure Attempt where
  charged : Nat
  backoffMs : Nat
  started : Option Nat

/-- A window of the budget: the attempts charged in it, the times at which it refused
one, and whether a successful restart has closed it. -/
structure Window where
  opened : Nat
  attempts : List Attempt
  refusals : List Nat
  succeeded : Bool

/-- The counter of a server.  No step reads the windows. -/
structure Account where
  counter : Option RestartCounter
  past : List Window
  current : Option Window

/-- The windows of a server, in order. -/
def Account.windows (account : Account) : List Window :=
  account.past ++ account.current.toList

/-- The times at which restarts of a server were started. -/
def Account.starts (account : Account) : List Nat :=
  account.windows.flatMap fun window => window.attempts.filterMap Attempt.started

/-- No restarts yet. -/
def Account.init : Account where
  counter := none
  past := []
  current := none

namespace Account

/-- The insertion of `check_restart_budget` and the reset of an expired window. -/
def refresh (policy : Policy) (account : Account) (now : Nat) : Account :=
  match account.counter with
  | none =>
      { counter := some ⟨0, now, now⟩
        past := account.past ++ account.current.toList
        current := some ⟨now, [], [], false⟩ }
  | some counter =>
      if policy.window < now - counter.windowStart then
        { counter := some { counter with count := 0, windowStart := now }
          past := account.past ++ account.current.toList
          current := some ⟨now, [], [], false⟩ }
      else account

/-- `check_restart_budget` -/
def checkRestartBudget (policy : Policy) (account : Account) (now : Nat) : Account × Bool :=
  let fresh := account.refresh policy now
  match fresh.counter with
  | none => (fresh, false)
  | some counter =>
      if counter.count < policy.maxRestarts then (fresh, true)
      else
        ({ fresh with
            current := fresh.current.map fun window =>
              { window with refusals := window.refusals ++ [now] } }, false)

/-- `calculate_backoff` -/
def calculateBackoff (policy : Policy) (account : Account) (now : Nat) : Account × Nat :=
  let counter := account.counter.getD ⟨0, now, now⟩
  let backoff := backoffMs policy (counter.count + 1)
  ({ account with
      counter := some { counter with count := counter.count + 1, lastRestart := now }
      current := account.current.map fun window =>
        { window with attempts := window.attempts ++ [⟨now, backoff, none⟩] } }, backoff)

/-- The restart of the last attempt is started. -/
def start (account : Account) (now : Nat) : Account :=
  { account with
    current := account.current.map fun window =>
      { window with
        attempts := window.attempts.dropLast ++
          (window.attempts.getLast?.map fun attempt =>
            { attempt with started := some now }).toList } }

/-- `reset_counter` -/
def resetCounter (account : Account) : Account :=
  { counter := none
    past := account.past ++ (account.current.map fun window =>
      { window with succeeded := true }).toList
    current := none }

end Account

/-- Where the monitor stands. -/
inductive Monitor where
  | idle
  /-- The budget has allowed a restart. -/
  | allowed (server : String)
  | waiting (server : String) (wakes : Nat)
  | restarting (server : String)

/-- The time, the monitor and the counters. -/
structure State where
  clock : Nat
  monitor : Monitor
  accounts : String → Account

/-- A monitor before its first round. -/
def State.init : State where
  clock := 0
  monitor := .idle
  accounts := fun _ => .init

/-- What happens: time passes, the monitor finds a dead server, charges an attempt,
looks at the server again, and its restart ends. -/
inductive Label where
  | pass (duration : Nat)
  | find (server : String) (status : ServerStatus)
  | charge
  | wake (status : Option ServerStatus)
  | finish (succeeded : Bool)

/-- Change the account of a server, and move the monitor. -/
def State.update (state : State) (server : String) (account : Account)
    (monitor : Monitor) : State :=
  { state with
    monitor := monitor
    accounts := fun other => if other = server then account else state.accounts other }

/-- `should_restart` asks for the budget. -/
def asksBudget (policy : Policy) (status : ServerStatus) : Bool :=
  match policy.strategy, status with
  | .never, _ => false
  | .onFailure, .error _ => true
  | .onFailure, _ => false
  | .always, _ => true

/-- The operator has stopped or removed the server. -/
def isLeftAlone : Option ServerStatus → Bool
  | some .disconnected => true
  | some .draining => true
  | some _ => false
  | none => true

section Monitoring

variable (policies : String → Policy)

/-- One step of the monitor. -/
def step : Action State Label
  | state, .pass duration => some { state with clock := state.clock + duration }
  | state, .find server status =>
      match state.monitor with
      | .idle =>
          if asksBudget (policies server) status then
            match (state.accounts server).checkRestartBudget (policies server) state.clock with
            | (account, true) => some (state.update server account (.allowed server))
            | (account, false) => some (state.update server account .idle)
          else some state
      | _ => none
  | state, .charge =>
      match state.monitor with
      | .allowed server =>
          match (state.accounts server).calculateBackoff (policies server) state.clock with
          | (account, backoff) =>
              some (state.update server account (.waiting server (state.clock + backoff * 1000000)))
      | _ => none
  | state, .wake status =>
      match state.monitor with
      | .waiting server wakes =>
          if state.clock < wakes then none
          else if isLeftAlone status then some { state with monitor := .idle }
          else
            some (state.update server ((state.accounts server).start state.clock)
              (.restarting server))
      | _ => none
  | state, .finish succeeded =>
      match state.monitor with
      | .restarting server =>
          if succeeded then
            some (state.update server (state.accounts server).resetCounter .idle)
          else some { state with monitor := .idle }
      | _ => none

end Monitoring

/-! ## A window -/

/-- A window holds at most the maximum of attempts, the n-th with the back-off of n; no
restart is started before its back-off is over; and an attempt is refused only where
the maximum was charged within the time of a window. -/
structure Window.Sound (policy : Policy) (window : Window) : Prop where
  bounded : window.attempts.length ≤ policy.maxRestarts
  backoff : ∀ n attempt, window.attempts[n]? = some attempt →
    attempt.backoffMs = min policy.backoffMaxMs (policy.backoffBaseMs * 2 ^ min n 20)
  waited : ∀ attempt ∈ window.attempts, ∀ time ∈ attempt.started,
    attempt.charged + attempt.backoffMs * 1000000 ≤ time
  refused : ∀ time ∈ window.refusals, policy.maxRestarts ≤
    (window.attempts.filter fun attempt =>
      decide (attempt.charged ≤ time ∧ time ≤ attempt.charged + policy.window)).length

/-- The back-off does not overflow, however often it is asked for. -/
theorem backoffMs_eq (policy : Policy) (n : Nat) :
    backoffMs policy (n + 1) =
      min policy.backoffMaxMs (policy.backoffBaseMs * 2 ^ min n 20) := by
  have bound := policy.backoffMaxMs_lt
  unfold backoffMs saturatingMul
  rw [Nat.add_sub_cancel]
  generalize policy.backoffBaseMs * 2 ^ min n 20 = product
  omega

variable {policy : Policy} {window other : Window} {clock now : Nat}

theorem Window.sound_open : Window.Sound policy ⟨now, [], [], false⟩ where
  bounded := Nat.zero_le _
  backoff := by simp
  waited := by simp
  refused := by simp

/-- The next attempt is charged below the maximum. -/
theorem Window.Sound.charge (sound : window.Sound policy)
    (room : window.attempts.length < policy.maxRestarts) :
    Window.Sound policy
      { window with
        attempts := window.attempts ++
          [⟨now, RestartBudget.backoffMs policy (window.attempts.length + 1), none⟩] } where
  bounded := by
    rw [List.length_append, List.length_singleton]
    exact room
  backoff := by
    intro n attempt there
    rcases getElem?_concat_cases there with before | ⟨rfl, rfl⟩
    · exact sound.backoff n attempt before
    · exact backoffMs_eq policy window.attempts.length
  waited := by
    intro attempt mem time started
    rcases List.mem_append.mp mem with before | last
    · exact sound.waited attempt before time started
    · cases List.mem_singleton.mp last
      cases started
  refused := by
    intro time mem
    apply (sound.refused time mem).trans
    rw [List.filter_append, List.length_append]
    exact Nat.le_add_right _ _

/-- The last attempt is started after its back-off. -/
theorem Window.Sound.start {before : List Attempt} {last : Attempt}
    (sound : Window.Sound policy { window with attempts := before ++ [last] })
    (waited : last.charged + last.backoffMs * 1000000 ≤ now) :
    Window.Sound policy
      { window with attempts := before ++ [{ last with started := some now }] } where
  bounded := by simpa using sound.bounded
  backoff := by
    intro n attempt there
    rcases getElem?_concat_cases there with earlier | ⟨rfl, rfl⟩
    · exact sound.backoff n attempt (getElem?_concat_of_some earlier)
    · exact sound.backoff before.length last List.getElem?_concat_length
  waited := by
    intro attempt mem time started
    rcases List.mem_append.mp mem with earlier | this
    · exact sound.waited attempt (List.mem_append_left _ earlier) time started
    · cases List.mem_singleton.mp this
      cases started
      exact waited
  refused := by
    intro time mem
    apply (sound.refused time mem).trans
    rw [List.filter_append, List.filter_append, List.length_append, List.length_append]
    simp only [List.filter_cons, List.filter_nil]
    split <;> exact Nat.le_refl _

/-- A check is refused while the maximum is charged in the window that is open. -/
theorem Window.Sound.refuse (sound : window.Sound policy)
    (full : policy.maxRestarts ≤ window.attempts.length)
    (inside : ∀ attempt ∈ window.attempts,
      window.opened ≤ attempt.charged ∧ attempt.charged ≤ now)
    (recent : now ≤ window.opened + policy.window) :
    Window.Sound policy { window with refusals := window.refusals ++ [now] } where
  bounded := sound.bounded
  backoff := sound.backoff
  waited := sound.waited
  refused := by
    intro time mem
    rcases List.mem_append.mp mem with earlier | this
    · exact sound.refused time earlier
    · cases List.mem_singleton.mp this
      rw [List.filter_eq_self.mpr]
      · exact full
      · intro attempt attemptMem
        have bounds := inside attempt attemptMem
        simp only [decide_eq_true_eq]
        omega

/-! ## The account of a server -/

/-- A window opens behind a success or after the last one has expired. -/
def Policy.Apart (policy : Policy) (windows : List Window) : Prop :=
  windows.IsChain fun window next =>
    window.succeeded = true ∨ window.opened + policy.window < next.opened

/-- The windows of an account are sound and apart, and the counter counts the one that
is open. -/
structure Account.Kept (policy : Policy) (clock : Nat) (account : Account) : Prop where
  sound : ∀ window ∈ account.windows, window.Sound policy
  apart : policy.Apart account.windows
  closed : account.counter = none →
    account.current = none ∧ ∀ window ∈ account.past.getLast?, window.succeeded = true
  counted : ∀ counter, account.counter = some counter → ∃ window,
    account.current = some window ∧ counter.count = window.attempts.length ∧
      counter.windowStart = window.opened ∧ window.opened ≤ clock ∧
      ∀ attempt ∈ window.attempts, window.opened ≤ attempt.charged ∧ attempt.charged ≤ clock

namespace Account

variable {account : Account}

theorem kept_init (policy : Policy) (clock : Nat) : Account.init.Kept policy clock where
  sound := by simp [windows, Account.init]
  apart := List.IsChain.nil
  closed := by simp [Account.init]
  counted := by simp [Account.init]

theorem Kept.later {duration : Nat} (kept : account.Kept policy clock) :
    account.Kept policy (clock + duration) where
  sound := kept.sound
  apart := kept.apart
  closed := kept.closed
  counted := by
    intro counter counterEq
    rcases kept.counted counter counterEq with ⟨window, here, count, start, opened, inside⟩
    refine ⟨window, here, count, start, by omega, ?_⟩
    intro attempt mem
    have bounds := inside attempt mem
    omega

theorem Kept.current_sound (kept : account.Kept policy clock)
    (here : account.current = some window) :
    window.Sound policy := by
  apply kept.sound
  rw [windows, here]
  exact List.mem_append_right _ (List.mem_singleton_self _)

/-- The open window of an account may be replaced by one that opened with it. -/
theorem Kept.apart_replace (kept : account.Kept policy clock) (here : account.current = some window)
    (opened : other.opened = window.opened) : policy.Apart (account.past ++ [other]) := by
  have apart := kept.apart
  unfold Policy.Apart windows at apart
  rw [here, Option.toList_some, List.isChain_append] at apart
  unfold Policy.Apart
  rw [List.isChain_append]
  refine ⟨apart.1, List.isChain_singleton _, ?_⟩
  intro last lastMem next nextMem
  have before := apart.2.2 last lastMem window (by simp)
  cases Option.some.inj nextMem
  rw [opened]
  exact before

theorem Kept.sound_replace (kept : account.Kept policy clock) (sound : other.Sound policy) :
    ∀ window ∈ account.past ++ [other], window.Sound policy := by
  intro next mem
  rcases List.mem_append.mp mem with earlier | this
  · exact kept.sound next (List.mem_append_left _ earlier)
  · cases List.mem_singleton.mp this
    exact sound

theorem Kept.exchange {counter : RestartCounter} (kept : account.Kept policy clock)
    (here : account.current = some window) (sound : other.Sound policy)
    (opened : other.opened = window.opened) (count : counter.count = other.attempts.length)
    (start : counter.windowStart = window.opened) (past : window.opened ≤ clock)
    (inside : ∀ attempt ∈ other.attempts,
      window.opened ≤ attempt.charged ∧ attempt.charged ≤ clock) :
    Kept policy clock
      { counter := some counter, past := account.past, current := some other } where
  sound := kept.sound_replace sound
  apart := kept.apart_replace here opened
  closed := by simp
  counted := by
    intro same sameEq
    cases sameEq
    refine ⟨other, rfl, count, start.trans opened.symm, ?_, ?_⟩
    · rw [opened]
      exact past
    · rw [opened]
      exact inside

/-- A window opens behind those of an account. -/
theorem Kept.opens (kept : account.Kept policy clock)
    (behind : ∀ window ∈ account.windows.getLast?,
      window.succeeded = true ∨ window.opened + policy.window < clock) (lastRestart : Nat) :
    Kept policy clock
      { counter := some ⟨0, clock, lastRestart⟩
        past := account.past ++ account.current.toList
        current := some ⟨clock, [], [], false⟩ } where
  sound := by
    intro next mem
    rcases List.mem_append.mp mem with earlier | this
    · exact kept.sound next earlier
    · cases List.mem_singleton.mp this
      exact Window.sound_open
  apart := by
    have apart := kept.apart
    unfold Policy.Apart windows at apart ⊢
    rw [List.isChain_append]
    refine ⟨apart, List.isChain_singleton _, ?_⟩
    intro last lastMem next nextMem
    cases Option.some.inj nextMem
    exact behind last lastMem
  closed := by simp
  counted := by
    intro counter counterEq
    cases counterEq
    exact ⟨_, rfl, rfl, rfl, Nat.le_refl _, by simp⟩

/-- A check leaves a counter whose window is not expired. -/
theorem Kept.refresh (kept : account.Kept policy clock) :
    (account.refresh policy clock).Kept policy clock ∧
      ∃ counter, (account.refresh policy clock).counter = some counter ∧
        clock ≤ counter.windowStart + policy.window := by
  unfold Account.refresh
  split
  · next absent =>
    rcases kept.closed absent with ⟨none, succeeded⟩
    constructor
    · apply kept.opens
      intro window last
      rw [windows, none, Option.toList_none, List.append_nil] at last
      exact Or.inl (succeeded window last)
    · exact ⟨_, rfl, Nat.le_add_right _ _⟩
  · next counter present =>
    split
    · next expired =>
      rcases kept.counted counter present with ⟨window, here, -, start, -⟩
      constructor
      · apply kept.opens
        intro last lastMem
        simp only [windows, here, Option.toList_some, List.getLast?_append_cons,
          List.getLast?_singleton, Option.mem_some] at lastMem
        subst lastMem
        right
        omega
      · exact ⟨_, rfl, Nat.le_add_right _ _⟩
    · next running =>
      exact ⟨kept, counter, present, by omega⟩

theorem Kept.checkRestartBudget (kept : account.Kept policy clock) :
    (account.checkRestartBudget policy clock).1.Kept policy clock ∧
      ((account.checkRestartBudget policy clock).2 = true →
        ∃ counter, (account.checkRestartBudget policy clock).1.counter = some counter ∧
          counter.count < policy.maxRestarts) := by
  rcases kept.refresh with ⟨fresh, counter, present, running⟩
  unfold Account.checkRestartBudget
  simp only [present]
  split
  · next room => exact ⟨fresh, fun _ => ⟨counter, present, room⟩⟩
  · next full =>
    refine ⟨?_, by simp⟩
    rcases fresh.counted counter present with ⟨window, here, count, start, opened, inside⟩
    have refused : Window.Sound policy
        { window with refusals := window.refusals ++ [clock] } :=
      (fresh.current_sound here).refuse (by omega) inside (by omega)
    rw [here, Option.map_some]
    exact fresh.exchange here refused rfl count start opened inside

/-- An attempt that the budget allowed is charged. -/
theorem Kept.calculateBackoff {counter : RestartCounter} (kept : account.Kept policy clock)
    (present : account.counter = some counter) (room : counter.count < policy.maxRestarts) :
    (account.calculateBackoff policy clock).1.Kept policy clock ∧
      ∃ window before, (account.calculateBackoff policy clock).1.current = some window ∧
        window.attempts =
          before ++ [⟨clock, (account.calculateBackoff policy clock).2, none⟩] := by
  rcases kept.counted counter present with ⟨window, here, count, start, opened, inside⟩
  have charged : Window.Sound policy
      { window with
        attempts := window.attempts ++
          [⟨clock, RestartBudget.backoffMs policy (window.attempts.length + 1), none⟩] } :=
    (kept.current_sound here).charge (by omega)
  simp only [Account.calculateBackoff, present, Option.getD_some, here, Option.map_some, count]
  constructor
  · refine kept.exchange here charged rfl ?_ start opened ?_
    · rw [List.length_append, List.length_singleton]
    intro attempt mem
    rcases List.mem_append.mp mem with earlier | this
    · exact inside attempt earlier
    · cases List.mem_singleton.mp this
      exact ⟨opened, Nat.le_refl _⟩
  · exact ⟨_, window.attempts, rfl, rfl⟩

/-- The attempt that waits is started when its back-off is over. -/
theorem Kept.start {before : List Attempt} {last : Attempt} (kept : account.Kept policy clock)
    (here : account.current = some window) (attempts : window.attempts = before ++ [last])
    (waited : last.charged + last.backoffMs * 1000000 ≤ clock) :
    (account.start clock).Kept policy clock := by
  cases present : account.counter with
  | none =>
      rw [(kept.closed present).1] at here
      cases here
  | some counter =>
      rcases kept.counted counter present with ⟨same, sameHere, count, start, opened, inside⟩
      rw [here] at sameHere
      cases sameHere
      have shaped : Window.Sound policy { window with attempts := before ++ [last] } := by
        rw [← attempts]
        exact kept.current_sound here
      rw [attempts] at count inside
      simp only [Account.start, here, Option.map_some, attempts, List.dropLast_concat,
        List.getLast?_concat, Option.toList_some, present]
      apply kept.exchange here (shaped.start waited) rfl (by simpa using count) start opened
      intro attempt mem
      rcases List.mem_append.mp mem with earlier | this
      · exact inside attempt (List.mem_append_left _ earlier)
      · cases List.mem_singleton.mp this
        exact inside last (List.mem_append_right _ (List.mem_singleton_self _))

/-- A successful restart closes the window. -/
theorem Kept.resetCounter (kept : account.Kept policy clock) :
    account.resetCounter.Kept policy clock := by
  cases here : account.current with
  | none =>
      have windowsEq : account.resetCounter.windows = account.windows := by
        simp [Account.resetCounter, windows, here]
      constructor
      · rw [windowsEq]
        exact kept.sound
      · rw [windowsEq]
        exact kept.apart
      · intro _
        cases present : account.counter with
        | none => simpa [Account.resetCounter, here] using (kept.closed present).2
        | some counter =>
            rcases kept.counted counter present with ⟨window, there, -⟩
            rw [here] at there
            cases there
      · intro counter absent
        cases absent
  | some window =>
      have closed : Window.Sound policy { window with succeeded := true } :=
        have sound := kept.current_sound here
        ⟨sound.bounded, sound.backoff, sound.waited, sound.refused⟩
      have windowsEq : account.resetCounter.windows =
          account.past ++ [{ window with succeeded := true }] := by
        simp [Account.resetCounter, windows, here]
      constructor
      · rw [windowsEq]
        exact kept.sound_replace closed
      · rw [windowsEq]
        exact kept.apart_replace here rfl
      · intro _
        simp [Account.resetCounter, here]
      · intro counter absent
        cases absent

end Account

/-! ## Every run -/

/-- What the monitor goes on with fits the accounts. -/
def Monitor.Fits (policies : String → Policy) (accounts : String → Account) : Monitor → Prop
  | .idle => True
  | .allowed server => ∃ counter, (accounts server).counter = some counter ∧
      counter.count < (policies server).maxRestarts
  | .waiting server wakes => ∃ window before last, (accounts server).current = some window ∧
      window.attempts = before ++ [last] ∧ wakes = last.charged + last.backoffMs * 1000000
  | .restarting _ => True

/-- What every step of the monitor keeps. -/
structure State.Kept (policies : String → Policy) (state : State) : Prop where
  accounts : ∀ server, (state.accounts server).Kept (policies server) state.clock
  monitor : state.monitor.Fits policies state.accounts

variable {policies : String → Policy} {state next : State} {label : Label} {server : String}

theorem State.kept_init (policies : String → Policy) : State.init.Kept policies where
  accounts := fun server => Account.kept_init (policies server) 0
  monitor := trivial

theorem State.Kept.update {account : Account} {monitor : Monitor} (kept : state.Kept policies)
    (sound : account.Kept (policies server) state.clock)
    (fits : monitor.Fits policies (state.update server account monitor).accounts) :
    (state.update server account monitor).Kept policies where
  monitor := fits
  accounts := by
    intro other
    by_cases same : other = server
    · subst same
      simpa [State.update] using sound
    · simpa [State.update, same] using kept.accounts other

theorem accounts_update {account : Account} {monitor : Monitor} :
    (state.update server account monitor).accounts server = account := by
  simp [State.update]

theorem State.Kept.idle (kept : state.Kept policies) :
    State.Kept policies { state with monitor := .idle } where
  accounts := kept.accounts
  monitor := trivial

theorem State.Kept.find {status : ServerStatus} (kept : state.Kept policies)
    (stepEq : step policies state (.find server status) = some next) : next.Kept policies := by
  rcases (kept.accounts server).checkRestartBudget with ⟨checked, room⟩
  simp only [step] at stepEq
  split at stepEq
  · split at stepEq
    · split at stepEq
      · next account allowed =>
        cases stepEq
        rw [allowed] at checked room
        apply kept.update checked
        rcases room rfl with ⟨counter, present, below⟩
        exact ⟨counter, by rw [accounts_update]; exact present, below⟩
      · next account refused =>
        cases stepEq
        rw [refused] at checked
        exact kept.update checked trivial
    · cases stepEq
      exact kept
  · cases stepEq

theorem State.Kept.charge (kept : state.Kept policies)
    (stepEq : step policies state .charge = some next) : next.Kept policies := by
  simp only [step] at stepEq
  split at stepEq
  · next server allowed =>
    have fits := kept.monitor
    rw [allowed] at fits
    rcases fits with ⟨counter, present, room⟩
    rcases (kept.accounts server).calculateBackoff present room with
      ⟨charged, window, before, here, attempts⟩
    cases stepEq
    apply kept.update charged
    exact ⟨window, before, _, by rw [accounts_update]; exact here, attempts, rfl⟩
  · cases stepEq

theorem State.Kept.wake {status : Option ServerStatus} (kept : state.Kept policies)
    (stepEq : step policies state (.wake status) = some next) : next.Kept policies := by
  simp only [step] at stepEq
  split at stepEq
  · next server wakes waiting =>
    have fits := kept.monitor
    rw [waiting] at fits
    rcases fits with ⟨window, before, last, here, attempts, wakesEq⟩
    split_ifs at stepEq with early alone
    · cases stepEq
      exact kept.idle
    · cases stepEq
      exact kept.update ((kept.accounts server).start here attempts (by omega)) trivial
  · cases stepEq

theorem State.Kept.finish {succeeded : Bool} (kept : state.Kept policies)
    (stepEq : step policies state (.finish succeeded) = some next) : next.Kept policies := by
  simp only [step] at stepEq
  split at stepEq
  · next server restarting =>
    split at stepEq
    · cases stepEq
      exact kept.update (kept.accounts server).resetCounter trivial
    · cases stepEq
      exact kept.idle
  · cases stepEq

theorem State.Kept.step (kept : state.Kept policies)
    (stepEq : step policies state label = some next) : next.Kept policies := by
  cases label with
  | pass duration =>
      cases stepEq
      exact ⟨fun server => (kept.accounts server).later, kept.monitor⟩
  | find server status => exact kept.find stepEq
  | charge => exact kept.charge stepEq
  | wake status => exact kept.wake stepEq
  | finish succeeded => exact kept.finish stepEq

/-- After any run the windows of a server are sound, and each but the first opened after
a successful restart or after the last one had expired. -/
theorem budget_of_run {labels : List Label} (ran : run (step policies) .init labels = some state)
    (server : String) :
    (∀ window ∈ (state.accounts server).windows, window.Sound (policies server)) ∧
      (policies server).Apart (state.accounts server).windows := by
  have kept := run_invariant (State.Kept policies) (fun _ _ _ kept stepEq => kept.step stepEq)
    (State.kept_init policies) ran
  exact ⟨(kept.accounts server).sound, (kept.accounts server).apart⟩

/-- A policy of one restart in five minutes. -/
def once : Policy where
  toRestartPolicy := { RestartPolicy.default with strategy := .always, maxRestarts := 1 }
  maxRestarts_lt := by decide
  backoffMaxMs_lt := by decide

/-- One restart that fails, and a second one that the budget refuses. -/
theorem budget_of_failure :
    ∃ state, run (step fun _ => once) .init
        [.find "s1" (.error "exited"), .charge, .pass 1000000000, .wake (some (.error "exited")),
          .finish false, .find "s1" (.error "exited")] = some state ∧
      ((∀ window ∈ (state.accounts "s1").windows, window.Sound once) ∧
        once.Apart (state.accounts "s1").windows) := by
  have runs : (run (step fun _ => once) .init
      [.find "s1" (.error "exited"), .charge, .pass 1000000000, .wake (some (.error "exited")),
        .finish false, .find "s1" (.error "exited")]).isSome = true := by
    decide +kernel
  rcases Option.isSome_iff_exists.mp runs with ⟨state, ran⟩
  exact ⟨state, ran, budget_of_run ran "s1"⟩

/-- Each successful restart clears the counter, so that one restart after another is
started within the time of a window. -/
theorem restarts_exceed_maximum :
    ¬∀ (policies : String → Policy) labels state,
      run (step policies) .init labels = some state →
        ∀ server time, ((state.accounts server).starts.filter fun start =>
          decide (time ≤ start ∧ start ≤ time + (policies server).window)).length ≤
            (policies server).maxRestarts := by
  intro bounded
  have twice : ∃ state ∈ run (step fun _ => once) .init
      [.find "s1" (.error "exited"), .charge, .pass 1000000000, .wake (some (.error "exited")),
        .finish true, .find "s1" (.error "exited"), .charge, .pass 1000000000,
        .wake (some (.error "exited"))],
      once.maxRestarts < ((state.accounts "s1").starts.filter fun start =>
        decide (0 ≤ start ∧ start ≤ 0 + once.window)).length := by
    decide +kernel
  rcases twice with ⟨state, ran, more⟩
  exact absurd (bounded (fun _ => once) _ state ran "s1" 0) (Nat.not_le.mpr more)

end ClotoCore.Mcp.RestartBudget
