import Sanshain.Infrastructure.CachedAccounts

namespace Sanshain.Guarantees

open Sanshain.Domain Sanshain.Effects Sanshain.Infrastructure

/-- The instance's traffic on the roles of accounts and groups. -/
abbrev RoleTraffic := Traffic Accounts RoleKey (List String) AccountCall

abbrev RoleStep := TrafficStep RoleKey AccountCall

/-- A role is among those reported. -/
def Lists (roles : List String) (role : String) : Prop := role ∈ roles

instance (roles : List String) (role : String) : Decidable (Lists roles role) :=
  inferInstanceAs (Decidable (_ ∈ _))

/-- The service has just started, with whatever the database holds. -/
def RoleTraffic.opened (accounts : Accounts) : RoleTraffic := { db := accounts }

/-- No read that started after a revoking write had returned reports a role that the write removed
and that no later write granted again. -/
def RevokesAtOnce (enabled : Bool) (traffic : RoleTraffic) : Prop :=
  ∀ report ∈ traffic.reports,
    Traffic.Unwithdrawn (roleCaches enabled) Lists (fun request => revokes request = true)
      traffic report

/-- No invalidation of a revoking write comes between a read's look at the roles before the write
and its insertion of them into the cache. -/
def SparesInsertions (enabled : Bool) : RoleTraffic → RoleStep → Prop :=
  Traffic.Spares (roleCaches enabled) Lists (fun request => revokes request = true) enabled

section Coverage

variable {accounts : Accounts} {request : AccountCall}

/-- A write that fails leaves the roles as they are. -/
theorem perform_revoking_failed {error : RepositoryError} (revoking : revokes request = true)
    (failed : (accounts.perform request).2 = .error error) :
    (accounts.perform request).1 = accounts := by
  cases request <;> try cases revoking
  case revokeUserRole userId role => cases failed
  case removeGroupMember groupId userId => cases failed
  case deleteGroup groupId => cases failed
  case mergeUserInto source target =>
      cases merged : accounts.mergeUserInto source target with
      | error error => simp only [Accounts.perform, merged]
      | ok after =>
          simp only [Accounts.perform, merged] at failed
          cases failed
  case setGroupRoles groupId roles =>
      by_cases missing : ¬ accounts.hasGroup groupId ∧ roles ≠ []
      · simp only [Accounts.perform, if_pos missing]
      · simp only [Accounts.perform, if_neg missing] at failed
        cases failed

/-- What merging two accounts leaves of the roles of groups. -/
theorem perform_merge_groupRoles (source target : Nat) :
    (accounts.perform (.mergeUserInto source target)).1.groupRoles = accounts.groupRoles := by
  cases merged : accounts.mergeUserInto source target with
  | error error => simp only [Accounts.perform, merged]
  | ok after =>
      simp only [Accounts.perform, merged]
      rw [Accounts.mergeUserInto_ok merged]
      rfl

/-- A role that a revoking write takes away from a key is invalidated there. -/
theorem invalidations_cover (revoking : revokes request = true) {key : RoleKey} {role : String}
    (before : role ∈ (roleCaches true).read accounts key)
    (after : role ∉ (roleCaches true).read (accounts.perform request).1 key) :
    ∃ clear ∈ invalidations true request, clear key = true := by
  cases request <;> try cases revoking
  case revokeUserRole userId removed =>
      refine ⟨_, List.mem_singleton_self _, decide_eq_true ?_⟩
      by_contra other
      apply after
      cases key with
      | group groupId => exact before
      | stored holder =>
          have spared : holder ≠ userId := fun same => other (congrArg RoleKey.stored same)
          obtain own | through := Accounts.mem_effectiveStoredRoles.mp before
          · refine Accounts.mem_effectiveStoredRoles.mpr (.inl (List.mem_filter.mpr ⟨own, ?_⟩))
            simp [spared]
          · exact Accounts.mem_effectiveStoredRoles.mpr (.inr through)
  case removeGroupMember groupId userId =>
      refine ⟨_, List.mem_singleton_self _, decide_eq_true ?_⟩
      by_contra other
      apply after
      cases key with
      | group groupId => exact before
      | stored holder =>
          have spared : holder ≠ userId := fun same => other (congrArg RoleKey.stored same)
          obtain own | ⟨group, row, member⟩ := Accounts.mem_effectiveStoredRoles.mp before
          · exact Accounts.mem_effectiveStoredRoles.mpr (.inl own)
          · have kept : (group, holder) ∈
                accounts.members.filter (· ≠ (groupId, userId)) :=
              List.mem_filter.mpr ⟨member, by simp [spared]⟩
            exact Accounts.mem_effectiveStoredRoles.mpr (.inr ⟨group, row, kept⟩)
  case deleteGroup groupId =>
      cases key with
      | stored holder => exact ⟨RoleKey.isStored, List.mem_cons_self, rfl⟩
      | group other =>
          refine ⟨_, List.mem_cons_of_mem _ (List.mem_singleton_self _), decide_eq_true ?_⟩
          by_contra different
          have spared : other ≠ groupId := fun same => different (congrArg RoleKey.group same)
          apply after
          have row : (other, role) ∈ accounts.groupRoles := Accounts.mem_groupRolesOf.mp before
          exact Accounts.mem_groupRolesOf.mpr (List.mem_filter.mpr ⟨row, by simp [spared]⟩)
  case setGroupRoles groupId roles =>
      cases key with
      | stored holder => exact ⟨RoleKey.isStored, List.mem_cons_self, rfl⟩
      | group other =>
          refine ⟨_, List.mem_cons_of_mem _ (List.mem_singleton_self _), decide_eq_true ?_⟩
          by_contra different
          have spared : other ≠ groupId := fun same => different (congrArg RoleKey.group same)
          apply after
          have row : (other, role) ∈ accounts.groupRoles := Accounts.mem_groupRolesOf.mp before
          refine Accounts.mem_groupRolesOf.mpr ?_
          simp only [Accounts.perform]
          split
          · exact row
          · exact List.mem_append_left _ (List.mem_filter.mpr ⟨row, by simp [spared]⟩)
  case mergeUserInto source target =>
      cases key with
      | stored holder => exact ⟨RoleKey.isStored, List.mem_singleton_self _, rfl⟩
      | group groupId =>
          refine absurd ?_ after
          have row : (groupId, role) ∈ accounts.groupRoles := Accounts.mem_groupRolesOf.mp before
          refine Accounts.mem_groupRolesOf.mpr ?_
          rw [perform_merge_groupRoles]
          exact row

theorem roleCaches_covered :
    Traffic.Covered (roleCaches true) Lists (fun request => revokes request = true) := by
  rintro accounts request key role ⟨revoking, before, after⟩
  have covers := invalidations_cover revoking before after
  unfold roleCaches
  dsimp only
  split
  · exact covers
  · rename_i error failed
    have same : ((roleCaches true).write accounts request) = accounts :=
      perform_revoking_failed revoking failed
    rw [same] at after
    exact absurd before after

end Coverage

/-- A revocation takes effect at once in every run in which no invalidation of it overtakes a read
that still has to insert the roles it found before. -/
theorem revocations_immediate (enabled : Bool) (accounts : Accounts) (steps : List RoleStep)
    (spares : EveryStep (Traffic.step (roleCaches enabled) enabled) (SparesInsertions enabled)
      (RoleTraffic.opened accounts) steps) :
    Throughout (Traffic.step (roleCaches enabled) enabled) (RevokesAtOnce enabled)
      (RoleTraffic.opened accounts) steps := by
  have covered : enabled = true →
      Traffic.Covered (roleCaches enabled) Lists (fun request => revokes request = true) := by
    rintro rfl
    exact roleCaches_covered
  exact Traffic.reports_unwithdrawn covered (Traffic.sound_opened accounts) spares

/-- An account that holds a role. -/
def oneAdmin : Accounts := { users := [⟨1, "anna", "", true⟩], roles := [(1, "admin")] }

/-- The roles are read, cached and revoked, and then read again. -/
theorem revocations_immediate_revoked :
    Throughout (Traffic.step (roleCaches true) true) (RevokesAtOnce true)
      (RoleTraffic.opened oneAdmin)
      [.lookUp (.stored 1), .fetch 0, .insert 0, .write (.revokeUserRole 1 "admin"), .invalidate 0,
        .lookUp (.stored 1), .fetch 0, .insert 0] := by
  have other : ∀ (traffic : RoleTraffic) (next : RoleStep), (∀ place, next ≠ .invalidate place) →
      SparesInsertions true traffic next :=
    fun traffic next different _ place same => absurd same (different place)
  -- By the time of the invalidation the read has inserted what it found.
  have none : ∀ (traffic : RoleTraffic) (next : RoleStep), traffic.readings = [] →
      SparesInsertions true traffic next := by
    intro traffic next empty _ place same writing there clear pending reading out
    rw [empty] at out
    cases out
  exact revocations_immediate true oneAdmin _ ⟨other _ _ (by simp), other _ _ (by simp),
    other _ _ (by simp), other _ _ (by simp), none _ _ rfl, other _ _ (by simp),
    other _ _ (by simp), other _ _ (by simp), trivial⟩

/-- The first read looks at the roles before they are revoked and inserts them afterwards. -/
theorem overtaken_read_keeps_role :
    ¬ ∀ (enabled : Bool) (accounts : Accounts) (steps : List RoleStep),
      Throughout (Traffic.step (roleCaches enabled) enabled) (RevokesAtOnce enabled)
        (RoleTraffic.opened accounts) steps := by
  intro always
  have run := always true oneAdmin [.lookUp (.stored 1), .fetch 0,
    .write (.revokeUserRole 1 "admin"), .invalidate 0, .insert 0, .lookUp (.stored 1)]
  have last := run.2.2.2.2.2.2 ⟨.stored 1, [0], ["admin"], 1⟩ (by decide +kernel)
  obtain ⟨later, -, after, before, -⟩ := last 0 (by decide +kernel) _ rfl "admin"
    ⟨rfl, by decide +kernel, by decide +kernel⟩ (by decide +kernel)
  have seen : later < 1 := before
  omega

end Sanshain.Guarantees
