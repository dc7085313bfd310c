import Attyd.Dispatch.SessionDispatch

/-!
# What the counters of the dispatcher count

A lease is counted from the moment its event is queued until its guard is
dropped. The counters hold the number and the bytes of the live leases, up to the
width of a `usize`.
-/

namespace Attyd.Dispatch

variable {ε : Type*}

/-- The number and bytes of some leases. -/
def usageOf (leases : Multiset QueueLease) : QueueUsage :=
  ⟨leases.card % 2 ^ 64, (leases.map (·.size)).sum % 2 ^ 64⟩

theorem usageOf_cons (lease : QueueLease) (leases : Multiset QueueLease) :
    usageOf (lease ::ₘ leases) = (usageOf leases).record lease.size := by
  simp only [usageOf, QueueUsage.record, Multiset.card_cons, Multiset.map_cons, Multiset.sum_cons,
    QueueUsage.mk.injEq]
  omega

theorem release_usageOf_cons (lease : QueueLease) (leases : Multiset QueueLease) :
    (usageOf (lease ::ₘ leases)).release lease.size = usageOf leases := by
  have hsize : lease.size % 2 ^ 64 < 2 ^ 64 := Nat.mod_lt _ (by decide)
  simp only [usageOf, QueueUsage.release, Multiset.card_cons, Multiset.map_cons,
    Multiset.sum_cons, QueueUsage.mk.injEq]
  omega

/-- The live leases of one class. -/
def ofClass (leases : Multiset QueueLease) (c : TrafficClass) : Multiset QueueLease :=
  leases.filter (·.trafficClass = c)

/-- The live leases of one class under one allocation. -/
def ofAllocation (leases : Multiset QueueLease) (allocation : Nat) (c : TrafficClass) :
    Multiset QueueLease :=
  leases.filter fun lease => allocation = lease.allocation ∧ c = lease.trafficClass

namespace SessionDispatch

/-- The counters count exactly these leases. -/
structure Counts (d : SessionDispatch ε) (leases : Multiset QueueLease) : Prop where
  global : ∀ c, d.global.get c = usageOf (ofClass leases c)
  session : ∀ allocation c,
    (d.accounting allocation).get c = usageOf (ofAllocation leases allocation c)

variable {d : SessionDispatch ε} {leases : Multiset QueueLease}

theorem counts_new (epoch : String) (identity : Nat) :
    (new epoch identity : SessionDispatch ε).Counts 0 :=
  ⟨fun c => by cases c <;> rfl, fun allocation c => by cases c <;> rfl⟩

theorem Counts.record (h : d.Counts leases) (lease : QueueLease) :
    (d.record lease).Counts (lease ::ₘ leases) := by
  constructor
  · intro c
    rw [SessionDispatch.record, ClassPools.get_modify, h.global, ofClass, ofClass,
      Multiset.filter_cons]
    by_cases hc : lease.trafficClass = c
    · rw [if_pos hc.symm, if_pos hc, Multiset.singleton_add, usageOf_cons]
    · rw [if_neg (Ne.symm hc), if_neg hc, zero_add]
  · intro allocation c
    have hcount : ((d.record lease).accounting allocation).get c =
        if allocation = lease.allocation ∧ c = lease.trafficClass then
          ((d.accounting allocation).get c).record lease.size
        else (d.accounting allocation).get c := by
      unfold SessionDispatch.record
      by_cases ha : allocation = lease.allocation
      · subst ha
        simp only [Function.update_self, ClassPools.get_modify, true_and]
      · simp only [Function.update_of_ne ha, ha, false_and, if_false]
    rw [hcount, h.session, ofAllocation, ofAllocation, Multiset.filter_cons]
    by_cases hc : allocation = lease.allocation ∧ c = lease.trafficClass
    · rw [if_pos hc, if_pos hc, Multiset.singleton_add, usageOf_cons]
    · rw [if_neg hc, if_neg hc, zero_add]

theorem Counts.release {lease : QueueLease} (h : d.Counts (lease ::ₘ leases)) :
    (d.release lease).Counts leases := by
  constructor
  · intro c
    have hc := h.global c
    rw [ofClass, Multiset.filter_cons] at hc
    rw [global_release, hc, ofClass]
    by_cases heq : lease.trafficClass = c
    · rw [if_pos heq.symm, if_pos heq, Multiset.singleton_add, release_usageOf_cons]
    · rw [if_neg (Ne.symm heq), if_neg heq, zero_add]
  · intro allocation c
    have hc := h.session allocation c
    rw [ofAllocation, Multiset.filter_cons] at hc
    rw [accounting_release, hc, ofAllocation]
    by_cases heq : allocation = lease.allocation ∧ c = lease.trafficClass
    · rw [if_pos heq, if_pos heq, Multiset.singleton_add, release_usageOf_cons]
    · rw [if_neg heq, if_neg heq, zero_add]

theorem Counts.congr {other : SessionDispatch ε} (h : d.Counts leases)
    (global : other.global = d.global) (accounting : other.accounting = d.accounting) :
    other.Counts leases :=
  ⟨fun c => by rw [global]; exact h.global c,
    fun allocation c => by rw [accounting]; exact h.session allocation c⟩

theorem Counts.dropGuard {guard : DeliveryGuard} (h : d.Counts (guard.lease ::ₘ leases)) :
    (d.dropGuard guard).Counts leases :=
  ⟨fun c => by rw [global_dropGuard]; exact h.release.global c,
    fun allocation c => by rw [accounting_dropGuard]; exact h.release.session allocation c⟩

theorem dropAll_cons (guard : DeliveryGuard) (guards : Multiset DeliveryGuard) :
    d.dropAll (guard ::ₘ guards) = (d.dropGuard guard).dropAll guards :=
  Multiset.foldl_cons _ _ _ _

theorem dropAll_sameQueues (guards : Multiset DeliveryGuard) :
    SameQueues (d.dropAll guards) d := by
  induction guards using Multiset.induction generalizing d with
  | empty => exact ⟨rfl, rfl, rfl, rfl, rfl, rfl⟩
  | cons guard guards ih =>
      rw [dropAll_cons]
      exact ih.trans (dropGuard_sameQueues d guard)

/-- Queued events keep no allocation busy, so dropping them frees none. -/
theorem dropAll_busy {guards : Multiset DeliveryGuard} (h : ∀ guard ∈ guards, guard.busy = false) :
    (d.dropAll guards).busy = d.busy := by
  induction guards using Multiset.induction generalizing d with
  | empty => rfl
  | cons guard guards ih =>
      rw [dropAll_cons, ih fun g hg => h g (Multiset.mem_cons_of_mem hg)]
      funext allocation
      rw [busy_dropGuard, h guard (Multiset.mem_cons_self _ _)]
      simp

/-- Dropping guards takes their leases out of the counts. -/
theorem Counts.dropAll {guards : Multiset DeliveryGuard}
    (h : d.Counts (guards.map (·.lease) + leases)) : (d.dropAll guards).Counts leases := by
  induction guards using Multiset.induction generalizing d with
  | empty =>
      rw [Multiset.map_zero, zero_add] at h
      exact h
  | cons guard guards ih =>
      rw [dropAll_cons]
      apply ih
      rw [Multiset.map_cons, Multiset.cons_add] at h
      exact h.dropGuard

end SessionDispatch

end Attyd.Dispatch
