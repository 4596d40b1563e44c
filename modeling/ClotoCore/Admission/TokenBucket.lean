import Mathlib.Algebra.Order.Ring.Nat

/-!
# Token buckets

A bucket gains `tokens` tokens in every `period`, up to its burst, and each admission takes
one.  Levels are counted in parts of a token, of which `period` are one, so that nothing is
rounded.
-/

namespace ClotoCore.Admission

/-- How fast a bucket fills, and how far. -/
structure Quota where
  tokens : Nat
  period : Nat
  burst : Nat
  tokens_pos : 0 < tokens
  period_pos : 0 < period
  burst_pos : 0 < burst

/-- What was in a bucket at a time. -/
structure Bucket where
  level : Nat
  since : Nat

namespace Quota

variable (quota : Quota)

/-- What is in a full bucket. -/
def capacity : Nat :=
  quota.burst * quota.period

/-- What is in a bucket by now. -/
def level (bucket : Bucket) (now : Nat) : Nat :=
  min quota.capacity (bucket.level + (now - bucket.since) * quota.tokens)

/-- A bucket with all its tokens. -/
def full (now : Nat) : Bucket where
  level := quota.capacity
  since := now

/-- Whether one more token is left. -/
def admits (bucket : Bucket) (now : Nat) : Bool :=
  quota.period ≤ quota.level bucket now

/-- The bucket behind an admission or a refusal. -/
def take (bucket : Bucket) (now : Nat) : Bucket where
  level := if quota.admits bucket now then quota.level bucket now - quota.period
    else quota.level bucket now
  since := now

variable {quota} {bucket other : Bucket} {now : Nat}

@[simp]
theorem take_since : (quota.take bucket now).since = now :=
  rfl

@[simp]
theorem level_full : quota.level (quota.full now) now = quota.capacity := by
  simp [level, full]

/-- Buckets that hold the same are told apart by no admission. -/
theorem admits_congr (same : quota.level bucket now = quota.level other now) :
    quota.admits bucket now = quota.admits other now := by
  rw [admits, admits, same]

theorem take_congr (same : quota.level bucket now = quota.level other now) :
    quota.take bucket now = quota.take other now := by
  rw [take, take, admits_congr same, same]

/-- A bucket is full once it has been left alone for long enough. -/
theorem level_eq_capacity (idle : quota.capacity ≤ (now - bucket.since) * quota.tokens) :
    quota.level bucket now = quota.capacity :=
  min_eq_left (idle.trans (Nat.le_add_left _ _))

/-- A bucket that is as full as it was can be asked at the same time again. -/
theorem level_now (bounded : bucket.level ≤ quota.capacity) (since : bucket.since = now) :
    quota.level bucket now = bucket.level := by
  rw [level, since, Nat.sub_self, Nat.zero_mul, Nat.add_zero, min_eq_right bounded]

theorem take_level_le : (quota.take bucket now).level ≤ quota.capacity := by
  have within : quota.level bucket now ≤ quota.capacity := min_le_left _ _
  simp only [take]
  split
  · exact (Nat.sub_le _ _).trans within
  · exact within

end Quota

end ClotoCore.Admission
