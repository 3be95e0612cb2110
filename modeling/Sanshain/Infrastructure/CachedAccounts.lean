import Sanshain.Infrastructure.Accounts
import Sanshain.Effects.CacheAside

namespace Sanshain.Infrastructure

open Sanshain.Domain Sanshain.Effects

/-- A key of the two caches of roles: an account's stored roles, or the roles of a group. -/
inductive RoleKey where
  | stored (userId : Nat)
  | group (groupId : Nat)
  deriving DecidableEq, Repr

def RoleKey.isStored : RoleKey → Bool
  | .stored _ => true
  | .group _ => false

/-- What a write that succeeds invalidates in the caches of roles, in order. Deleting an account
invalidates nothing. -/
def invalidations (enabled : Bool) : AccountCall → List (RoleKey → Bool)
  | .grantUserRole userId _ | .revokeUserRole userId _ | .addGroupMember _ userId
  | .removeGroupMember _ userId => [fun key => key = .stored userId]
  | .deleteGroup groupId | .setGroupRoles groupId _ =>
      [RoleKey.isStored, fun key => key = .group groupId]
  | .mergeUserInto _ _ => if enabled then [RoleKey.isStored] else []
  | _ => []

/-- The accounts behind the caches of roles. A write that fails invalidates nothing. -/
def roleCaches (enabled : Bool) : CacheAside Accounts RoleKey (List String) AccountCall where
  read accounts
    | .stored userId => accounts.effectiveStoredRoles userId
    | .group groupId => accounts.groupRolesOf groupId
  write accounts request := (accounts.perform request).1
  invalidates accounts request :=
    match (accounts.perform request).2 with
    | .ok _ => invalidations enabled request
    | .error _ => []

/-- The writes that take roles away. -/
def revokes : AccountCall → Bool
  | .revokeUserRole _ _ | .setGroupRoles _ _ | .removeGroupMember _ _ | .deleteGroup _
  | .mergeUserInto _ _ => true
  | _ => false

end Sanshain.Infrastructure
