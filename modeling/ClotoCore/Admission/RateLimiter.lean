import ClotoCore.Admission.TokenBucket
import Mathlib.Data.List.Basic
import Mathlib.Logic.Function.Basic

/-!
# The rate limiter

Every address has a bucket, which is made at its first check and forgotten when it was
idle for ten minutes.  An address that is forgotten starts with a full bucket, so that to
forget it is seen exactly if ten minutes do not fill the bucket.
-/

namespace ClotoCore.Admission

/-- `IpAddr` -/
inductive IpAddr where
  | v4 (bits : BitVec 32)
  | v6 (bits : BitVec 128)
  deriving DecidableEq

/-! ## The limiter -/

/-- `RateLimiter`, with the time at which each address was last seen.  Times are
nanoseconds. -/
structure RateLimiter where
  limiters : IpAddr → Option (Bucket × Nat)
  quota : Quota

/-- `NonZeroU32::new(n).unwrap_or(NonZeroU32::MIN)` -/
def orOne (n : Nat) : Nat :=
  if n = 0 then 1 else n

theorem orOne_pos (n : Nat) : 0 < orOne n := by
  unfold orOne
  split <;> omega

/-- A second, in nanoseconds. -/
def second : Nat := 1000000000

namespace RateLimiter

/-- A limiter that has seen no address. -/
def ofQuota (quota : Quota) : RateLimiter where
  limiters _ := none
  quota := quota

/-- `RateLimiter::new` -/
def new (perSecond burst : Nat) : RateLimiter :=
  ofQuota
    { tokens := orOne perSecond
      period := second
      burst := orOne burst
      tokens_pos := orOne_pos _
      period_pos := by decide
      burst_pos := orOne_pos _ }

/-- `RateLimiter::per_minute` -/
def perMinute (rate burst : Nat) : RateLimiter :=
  ofQuota
    { tokens := orOne rate
      period := 60 * second
      burst := orOne burst
      tokens_pos := orOne_pos _
      period_pos := by decide
      burst_pos := orOne_pos _ }

/-- The bucket of an address, which is full if there was none. -/
def bucketOf (limiter : RateLimiter) (ip : IpAddr) (now : Nat) : Bucket :=
  match limiter.limiters ip with
  | some (bucket, _) => bucket
  | none => limiter.quota.full now

/-- The answer of `check`. -/
def admits (limiter : RateLimiter) (ip : IpAddr) (now : Nat) : Bool :=
  limiter.quota.admits (limiter.bucketOf ip now) now

/-- The limiter behind `check`. -/
def check (limiter : RateLimiter) (ip : IpAddr) (now : Nat) : RateLimiter :=
  { limiter with
    limiters := Function.update limiter.limiters ip
      (some (limiter.quota.take (limiter.bucketOf ip now) now, now)) }

/-- `idle_threshold` -/
def idleThreshold : Nat := 10 * 60 * second

/-- `cleanup` -/
def cleanup (limiter : RateLimiter) (now : Nat) : RateLimiter :=
  { limiter with
    limiters := fun ip => (limiter.limiters ip).filter fun entry => now - entry.2 < idleThreshold }

end RateLimiter

/-! ## Runs -/

/-- What is asked of a limiter, and when. -/
inductive Call where
  | check (ip : IpAddr) (now : Nat)
  | cleanup (now : Nat)

namespace Call

/-- When the call is made. -/
def time : Call → Nat
  | .check _ now => now
  | .cleanup now => now

/-- Whether the call asks for admission. -/
def isCheck : Call → Bool
  | .check _ _ => true
  | .cleanup _ => false

end Call

/-- Calls at times that do not decrease. -/
def InOrder (calls : List Call) : Prop :=
  calls.Pairwise fun first second => first.time ≤ second.time

namespace RateLimiter

/-- The limiter behind a call. -/
def next (limiter : RateLimiter) : Call → RateLimiter
  | .check ip now => limiter.check ip now
  | .cleanup now => limiter.cleanup now

/-- The answers to the checks among some calls. -/
def answers (limiter : RateLimiter) : List Call → List Bool
  | [] => []
  | .check ip now :: calls => limiter.admits ip now :: (limiter.check ip now).answers calls
  | .cleanup now :: calls => (limiter.cleanup now).answers calls

/-- No admission tells whether idle addresses were forgotten. -/
def CleanupInvisible (limiter : RateLimiter) : Prop :=
  ∀ calls, InOrder calls → limiter.answers calls = limiter.answers (calls.filter Call.isCheck)

/-! ## A bucket that is full again -/

/-- At a time, a limiter differs from one that forgets nothing only in addresses whose
buckets are full again. -/
structure Forgets (now : Nat) (forgetful keeping : RateLimiter) : Prop where
  quota : forgetful.quota = keeping.quota
  seen : ∀ ip bucket seen, keeping.limiters ip = some (bucket, seen) → bucket.since = seen
  entries : ∀ ip, forgetful.limiters ip = keeping.limiters ip ∨
    forgetful.limiters ip = none ∧
      ∃ bucket seen, keeping.limiters ip = some (bucket, seen) ∧ idleThreshold ≤ now - seen

section Forgets

variable {now after : Nat} {forgetful keeping : RateLimiter}

theorem Forgets.later (forgets : Forgets now forgetful keeping) (ordered : now ≤ after) :
    Forgets after forgetful keeping := by
  refine ⟨forgets.quota, forgets.seen, fun ip => ?_⟩
  rcases forgets.entries ip with same | ⟨forgotten, bucket, seen, kept, idle⟩
  · exact Or.inl same
  · exact Or.inr ⟨forgotten, bucket, seen, kept, by omega⟩

/-- Where the idle time fills a bucket, a forgotten bucket holds what a new one does. -/
theorem Forgets.level (forgets : Forgets now forgetful keeping)
    (fills : keeping.quota.capacity ≤ idleThreshold * keeping.quota.tokens) (ip : IpAddr) :
    keeping.quota.level (forgetful.bucketOf ip now) now
      = keeping.quota.level (keeping.bucketOf ip now) now := by
  rcases forgets.entries ip with same | ⟨forgotten, bucket, seen, kept, idle⟩
  · simp only [bucketOf, same, forgets.quota]
  · have since := forgets.seen ip bucket seen kept
    have full : keeping.quota.level bucket now = keeping.quota.capacity := by
      apply Quota.level_eq_capacity
      rw [since]
      exact fills.trans (Nat.mul_le_mul_right _ idle)
    simp only [bucketOf, forgotten, kept, forgets.quota, Quota.level_full, full]

theorem Forgets.check (forgets : Forgets now forgetful keeping)
    (fills : keeping.quota.capacity ≤ idleThreshold * keeping.quota.tokens) (ip : IpAddr) :
    forgetful.admits ip now = keeping.admits ip now ∧
      Forgets now (forgetful.check ip now) (keeping.check ip now) := by
  have level := forgets.level fills ip
  constructor
  · rw [admits, admits, forgets.quota]
    exact Quota.admits_congr level
  · refine ⟨forgets.quota, ?_, ?_⟩
    · intro other bucket seen entry
      by_cases same : other = ip
      · subst same
        simp only [RateLimiter.check, Function.update_self, Option.some.injEq, Prod.mk.injEq]
          at entry
        rw [← entry.1, ← entry.2, Quota.take_since]
      · simp only [RateLimiter.check, Function.update_of_ne same] at entry
        exact forgets.seen other bucket seen entry
    · intro other
      by_cases same : other = ip
      · subst same
        left
        simp only [RateLimiter.check, Function.update_self, forgets.quota, Quota.take_congr level]
      · simp only [RateLimiter.check, Function.update_of_ne same]
        exact forgets.entries other

theorem Forgets.cleanup (forgets : Forgets now forgetful keeping) :
    Forgets now (forgetful.cleanup now) keeping := by
  refine ⟨forgets.quota, forgets.seen, fun ip => ?_⟩
  simp only [RateLimiter.cleanup]
  rcases forgets.entries ip with same | ⟨forgotten, rest⟩
  · rw [same]
    cases entry : keeping.limiters ip with
    | none => exact Or.inl rfl
    | some found =>
        by_cases fresh : now - found.2 < idleThreshold
        · exact Or.inl (by simp [fresh])
        · have idle : idleThreshold ≤ now - found.2 := Nat.le_of_not_lt fresh
          exact Or.inr ⟨by simp [idle], found.1, found.2, rfl, idle⟩
  · rw [forgotten]
    exact Or.inr ⟨rfl, rest⟩

/-- Where the idle time fills a bucket, forgetting changes no answer. -/
theorem Forgets.answers (forgets : Forgets now forgetful keeping)
    (fills : keeping.quota.capacity ≤ idleThreshold * keeping.quota.tokens) (calls : List Call)
    (ordered : InOrder calls) (begins : ∀ call ∈ calls, now ≤ call.time) :
    forgetful.answers calls = keeping.answers (calls.filter Call.isCheck) := by
  induction calls generalizing now forgetful keeping with
  | nil => rfl
  | cons call calls ih =>
      rcases List.pairwise_cons.mp ordered with ⟨first, rest⟩
      have forgets := forgets.later (begins call List.mem_cons_self)
      cases call with
      | check ip time =>
          have checked : forgetful.admits ip time = keeping.admits ip time ∧
              Forgets time (forgetful.check ip time) (keeping.check ip time) :=
            forgets.check fills ip
          rw [RateLimiter.answers, List.filter_cons_of_pos rfl, RateLimiter.answers, checked.1]
          exact congrArg _ (ih checked.2 fills rest first)
      | cleanup now =>
          rw [RateLimiter.answers, List.filter_cons_of_neg Bool.false_ne_true]
          exact ih forgets.cleanup fills rest first

end Forgets

/-! ## A bucket that is not full yet -/

section Bursts

variable {limiter : RateLimiter} {ip : IpAddr} {now : Nat}

/-- The limiter behind some calls. -/
def after (limiter : RateLimiter) (calls : List Call) : RateLimiter :=
  calls.foldl next limiter

theorem answers_append (limiter : RateLimiter) (first second : List Call) :
    limiter.answers (first ++ second)
      = limiter.answers first ++ (limiter.after first).answers second := by
  induction first generalizing limiter with
  | nil => rfl
  | cons call first ih =>
      cases call with
      | check ip now =>
          rw [List.cons_append, answers, answers, ih]
          rfl
      | cleanup now =>
          rw [List.cons_append, answers, answers, ih]
          rfl

/-- What the bucket of an address holds. -/
def level (limiter : RateLimiter) (ip : IpAddr) (now : Nat) : Nat :=
  limiter.quota.level (limiter.bucketOf ip now) now

theorem level_check :
    (limiter.check ip now).level ip now
      = if limiter.quota.period ≤ limiter.level ip now then
          limiter.level ip now - limiter.quota.period
        else limiter.level ip now := by
  have bucket : (limiter.check ip now).bucketOf ip now
      = limiter.quota.take (limiter.bucketOf ip now) now := by
    simp [bucketOf, check]
  rw [level, bucket]
  change limiter.quota.level _ now = _
  rw [Quota.level_now Quota.take_level_le Quota.take_since]
  by_cases one : limiter.quota.period ≤ limiter.level ip now
  · rw [if_pos one]
    exact if_pos (decide_eq_true one)
  · rw [if_neg one]
    exact if_neg (by simpa [Quota.admits, level] using one)

/-- Some checks of one address at one time. -/
def burstOf (ip : IpAddr) (now count : Nat) : List Call :=
  List.replicate count (.check ip now)

/-- Checks at one time are all admitted exactly if the bucket has a token for each. -/
theorem answers_burstOf_iff (limiter : RateLimiter) (count : Nat) :
    limiter.answers (burstOf ip now count) = List.replicate count true ↔
      count * limiter.quota.period ≤ limiter.level ip now := by
  induction count generalizing limiter with
  | zero => simp [burstOf, answers]
  | succ count ih =>
      have rest := ih (limiter.check ip now)
      rw [level_check] at rest
      change _ ↔ count * limiter.quota.period ≤ _ at rest
      have admitted : limiter.admits ip now = true ↔
          limiter.quota.period ≤ limiter.level ip now := by
        simp [admits, Quota.admits, level]
      rw [burstOf, List.replicate_succ, answers, List.replicate_succ, List.cons.injEq, admitted]
      change _ ∧ (limiter.check ip now).answers (burstOf ip now count) = _ ↔ _
      rw [rest, Nat.succ_mul]
      by_cases one : limiter.quota.period ≤ limiter.level ip now
      · rw [if_pos one]
        omega
      · rw [if_neg one]
        have := limiter.quota.period_pos
        omega

theorem level_ofQuota (quota : Quota) : (ofQuota quota).level ip now = quota.capacity := by
  simp [level, bucketOf, ofQuota]

/-- Checks that are all admitted take their tokens, and change no other bucket. -/
theorem after_burstOf (limiter : RateLimiter) (count : Nat)
    (enough : (count + 1) * limiter.quota.period ≤ limiter.level ip now) :
    limiter.after (burstOf ip now (count + 1))
      = { limiter with
          limiters := Function.update limiter.limiters ip
            (some (⟨limiter.level ip now - (count + 1) * limiter.quota.period, now⟩, now)) } := by
  induction count generalizing limiter with
  | zero =>
      rw [Nat.zero_add, Nat.one_mul] at enough ⊢
      have taken : limiter.quota.take (limiter.bucketOf ip now) now
          = ⟨limiter.level ip now - limiter.quota.period, now⟩ := by
        have admitted : limiter.quota.admits (limiter.bucketOf ip now) now = true :=
          decide_eq_true enough
        rw [Quota.take, if_pos admitted]
        rfl
      change limiter.check ip now = _
      rw [check, taken]
  | succ count ih =>
      have one : limiter.quota.period ≤ limiter.level ip now := by
        rw [Nat.succ_mul] at enough
        omega
      have left : (limiter.check ip now).level ip now
          = limiter.level ip now - limiter.quota.period := by
        rw [level_check, if_pos one]
      have rest : (count + 1) * (limiter.check ip now).quota.period
          ≤ (limiter.check ip now).level ip now := by
        rw [left]
        change (count + 1) * limiter.quota.period ≤ _
        rw [Nat.succ_mul] at enough
        omega
      change (limiter.check ip now).after (burstOf ip now (count + 1)) = _
      rw [ih _ rest, left]
      simp only [check, Function.update_idem, Nat.sub_sub]
      rw [Nat.succ_mul (count + 1), Nat.add_comm limiter.quota.period]

/-- A burst of all tokens, a cleanup when the idle time is over, and a burst again. -/
def bursts (quota : Quota) (ip : IpAddr) : List Call :=
  burstOf ip 0 quota.burst ++ (.cleanup idleThreshold :: burstOf ip idleThreshold quota.burst)

theorem bursts_inOrder (quota : Quota) : InOrder (bursts quota ip) := by
  have constant : ∀ now count, InOrder (burstOf ip now count) := by
    intro now count
    exact List.pairwise_replicate.mpr (Or.inr le_rfl)
  refine List.pairwise_append.mpr ⟨constant _ _, ?_, ?_⟩
  · refine List.pairwise_cons.mpr ⟨?_, constant _ _⟩
    intro call mem
    rw [List.eq_of_mem_replicate mem]
    exact le_rfl
  · intro first mem second _
    rw [List.eq_of_mem_replicate mem]
    exact Nat.zero_le _

theorem filter_bursts (quota : Quota) :
    (bursts quota ip).filter Call.isCheck
      = burstOf ip 0 quota.burst ++ burstOf ip idleThreshold quota.burst := by
  have checks : ∀ now count, (burstOf ip now count).filter Call.isCheck = burstOf ip now count := by
    intro now count
    rw [List.filter_eq_self]
    intro call mem
    rw [List.eq_of_mem_replicate mem]
    rfl
  rw [bursts, List.filter_append, List.filter_cons_of_neg Bool.false_ne_true, checks, checks]

/-- No admission tells whether idle addresses were forgotten, exactly if the idle time
fills a bucket. -/
theorem cleanupInvisible_ofQuota_iff (quota : Quota) :
    (ofQuota quota).CleanupInvisible ↔ quota.capacity ≤ idleThreshold * quota.tokens := by
  constructor
  · intro invisible
    have ip : IpAddr := .v4 0
    have same := invisible (bursts quota ip) (bursts_inOrder quota)
    obtain ⟨count, burst⟩ : ∃ count, quota.burst = count + 1 :=
      Nat.exists_eq_succ_of_ne_zero quota.burst_pos.ne'
    -- the first burst takes all tokens
    have emptied : (ofQuota quota).after (burstOf ip 0 quota.burst)
        = { ofQuota quota with
            limiters := Function.update (ofQuota quota).limiters ip (some (⟨0, 0⟩, 0)) } := by
      rw [burst, after_burstOf _ _ (by rw [level_ofQuota, ← burst]; exact le_rfl), level_ofQuota,
        ← burst]
      simp [Quota.capacity, ofQuota]
    have forgotten : ((ofQuota quota).after (burstOf ip 0 quota.burst)).cleanup idleThreshold
        = ofQuota quota := by
      rw [emptied, cleanup, ofQuota]
      congr 1
      funext other
      by_cases same : other = ip
      · subst same
        simp
      · simp [Function.update_of_ne same]
    rw [filter_bursts, bursts, answers_append, answers_append, List.append_cancel_left_eq, answers,
      forgotten] at same
    have again : (ofQuota quota).answers (burstOf ip idleThreshold quota.burst)
        = List.replicate quota.burst true := by
      rw [answers_burstOf_iff, level_ofQuota]
      exact le_rfl
    rw [again, eq_comm, answers_burstOf_iff, emptied] at same
    change quota.capacity ≤ quota.level _ _ at same
    refine (same.trans (min_le_right _ _)).trans ?_
    simp [bucketOf]
  · intro fills calls ordered
    have forgets : Forgets 0 (ofQuota quota) (ofQuota quota) :=
      ⟨rfl, nofun, fun _ => Or.inl rfl⟩
    exact forgets.answers fills calls ordered fun _ _ => Nat.zero_le _

end Bursts

/-! ## The configured limiters -/

/-- Forgetting is not seen exactly if ten minutes fill a bucket. -/
theorem cleanupInvisible_iff (perSecond rate burst : Nat) :
    ((new perSecond burst).CleanupInvisible ↔ orOne burst ≤ 600 * orOne perSecond) ∧
      ((perMinute rate burst).CleanupInvisible ↔ orOne burst ≤ 10 * orOne rate) := by
  constructor
  · rw [new, cleanupInvisible_ofQuota_iff]
    simp only [Quota.capacity, idleThreshold, second]
    omega
  · rw [perMinute, cleanupInvisible_ofQuota_iff]
    simp only [Quota.capacity, idleThreshold, second]
    omega

/-- One token a second does not fill a bucket of 601 in ten minutes. -/
theorem forgotten_burst_regained : ¬(new 1 601).CleanupInvisible := by
  rw [new, cleanupInvisible_ofQuota_iff]
  decide

end RateLimiter

end ClotoCore.Admission
