import Sanshain.Guarantees.Admissions

namespace Sanshain.Guarantees

open Sanshain.Domain Sanshain.Effects Sanshain.Effects.Program Sanshain.Infrastructure
open Sanshain.Application

/-- What an account does about API tokens. -/
inductive TokenUse where
  | issue (request : TokenRequest)
  | list
  | revoke (tokenId : String)

def TokenUse.program (forms : TokenForms) (actor : Actor) : TokenUse → CredentialUseCase Unit
  | .issue request => (issueToken forms actor request).bind fun _ => .done ()
  | .list => (listTokensFor actor).bind fun _ => .done ()
  | .revoke tokenId => (revokeTokenAs actor tokenId).bind fun _ => .done ()

/-- The store after one use, however that ends. -/
def TokenUse.step (forms : TokenForms) (environment : Environment) (world : CredentialWorld)
    (use : Actor × TokenUse) : CredentialWorld :=
  ((use.2.program forms use.1).run (CredentialWorld.handle forms.digest environment) world).elim world
    (·.2)

/-- The API tokens of one account. -/
def tokensOf (owner : Nat) (world : CredentialWorld) : List StoredApiToken :=
  world.credentials.apiTokens.filter (·.userId = owner)

section Sparing

variable {forms : TokenForms} {environment : Environment} {owner : Nat} {kept : List StoredApiToken}
  {world : CredentialWorld}

/-- The tokens of an account are as they were, and it is a person's. -/
structure LeftAlone (owner : Nat) (kept : List StoredApiToken) (world : CredentialWorld) : Prop where
  tokens : tokensOf owner world = kept
  person : ∀ user ∈ world.credentials.accounts.users, user.id = owner → user.isServiceAccount = false

/-- A call that is none of the account's business. -/
def Foreign (owner : Nat) : CredentialCall → Prop
  | .account (.findUser _) | .account .listUsers => True
  | .listApiTokens userId | .deleteApiToken _ userId => userId ≠ owner
  | .createApiToken token => token.userId ≠ owner
  | _ => False

theorem LeftAlone.perform (alone : LeftAlone owner kept world) {request : CredentialCall}
    (foreign : Foreign owner request) (digest : String → String) (now : Instant) (steps : Nat) :
    LeftAlone owner kept ⟨(world.credentials.perform digest now request).1, steps⟩ := by
  obtain ⟨tokens, person⟩ := alone
  unfold Foreign at foreign
  split at foreign
  · exact ⟨tokens, person⟩
  · exact ⟨tokens, person⟩
  · exact ⟨tokens, person⟩
  · rename_i tokenId userId
    refine ⟨?_, person⟩
    rw [← tokens]
    simp only [tokensOf, Credentials.perform, List.filter_filter]
    refine List.filter_congr fun row _ => ?_
    by_cases own : row.userId = owner
    · simp [own, Ne.symm foreign]
    · simp [own]
  · rename_i token
    simp only [Credentials.perform]
    split
    · exact ⟨tokens, person⟩
    · split
      · exact ⟨tokens, person⟩
      · refine ⟨?_, person⟩
        rw [← tokens]
        simp [tokensOf, List.filter_append, StoredApiToken.ofNew, foreign]
  · exact foreign.elim

/-- A call of a use case leaves the account alone, and is answered by a store that did. -/
theorem LeftAlone.repo (alone : LeftAlone owner kept world) (request : CredentialCall)
    (foreign : Foreign owner request) :
    (credentialRepo request).Ensures (CredentialWorld.handle forms.digest environment)
      (fun answer after => LeftAlone owner kept after ∧ ∃ before now, LeftAlone owner kept before ∧
        (before.credentials.perform forms.digest now request).2 = .ok answer)
      (fun _ => LeftAlone owner kept) world := by
  have after (now : Instant) := alone.perform foreign forms.digest now (world.steps + 1)
  refine ensures_credentialRepo ⟨alone.tokens, alone.person⟩ after fun now answer told => ?_
  exact ⟨after now, world, now, alone, told⟩

theorem LeftAlone.createApiTokenIssued (alone : LeftAlone owner kept world) {userId : Nat}
    (other : userId ≠ owner) (name : String) (days : Nat) (scope : ApiTokenScope)
    (issuedBy : Option String) :
    (createApiTokenIssued forms userId name days scope issuedBy).Ensures
      (CredentialWorld.handle forms.digest environment) (fun _ => LeftAlone owner kept)
      (fun _ => LeftAlone owner kept) world := by
  refine .call (.call (.call (.call ?_)))
  have ready : LeftAlone owner kept ⟨world.credentials, world.steps + 1 + 1 + 1 + 1⟩ :=
    ⟨alone.tokens, alone.person⟩
  change Ensures _ _ _ ((credentialRepo (.createApiToken _)).bind _) (CredentialWorld.mk world.credentials _)
  refine .bind (ready.repo (.createApiToken _) ?_) ?_
  · exact other
  · exact fun _ reached told => .done told.1

/-- Whoever is told to be a service account is not the person. -/
theorem LeftAlone.serviceAccount (alone : LeftAlone owner kept world) {user : User}
    (among : user ∈ world.credentials.accounts.users) (service : user.isServiceAccount = true) :
    user.id ≠ owner := by
  intro own
  rw [alone.person user among own] at service
  cases service

theorem LeftAlone.serviceAccounts (alone : LeftAlone owner kept world) :
    serviceAccounts.Ensures (CredentialWorld.handle forms.digest environment)
      (fun accounts after => LeftAlone owner kept after ∧ ∀ account ∈ accounts, account.id ≠ owner)
      (fun _ => LeftAlone owner kept) world := by
  refine .bind (alone.repo (.account .listUsers) trivial) fun users reached told => ?_
  obtain ⟨after, before, now, start, answered⟩ := told
  refine .done ⟨after, fun account among => ?_⟩
  obtain ⟨listed, service⟩ := List.mem_filter.mp among
  cases answered
  exact start.serviceAccount ((List.mem_insertionSort _).mp listed) service

theorem LeftAlone.issueToken (alone : LeftAlone owner kept world) {actor : Actor}
    (other : actor.userId ≠ owner) (request : TokenRequest) :
    (issueToken forms actor request).Ensures (CredentialWorld.handle forms.digest environment)
      (fun _ => LeftAlone owner kept) (fun _ => LeftAlone owner kept) world := by
  unfold Application.issueToken
  split
  · exact alone.createApiTokenIssued other _ _ _ _
  · rename_i forUser asked
    split
    · exact .fail alone
    · refine .bind (alone.repo (.account (.findUser forUser)) trivial)
        fun found reached told => ?_
      obtain ⟨after, before, now, start, answered⟩ := told
      split
      · exact .fail after
      · rename_i account filtered
        obtain ⟨rfl, service⟩ := Option.filter_eq_some_iff.mp filtered
        have among : account ∈ before.credentials.accounts.users := by
          exact List.mem_of_find?_eq_some (Except.ok.inj answered)
        exact after.createApiTokenIssued (start.serviceAccount among service) _ _ _ _

theorem LeftAlone.revokeOfAccounts (alone : LeftAlone owner kept world) {accounts : List User}
    (others : ∀ account ∈ accounts, account.id ≠ owner) (tokenId : String) :
    (revokeOfAccounts tokenId accounts).Ensures (CredentialWorld.handle forms.digest environment)
      (fun _ => LeftAlone owner kept) (fun _ => LeftAlone owner kept) world := by
  induction accounts generalizing world with
  | nil => exact .done alone
  | cons account rest ih =>
      refine .bind (alone.repo (.deleteApiToken tokenId account.id)
        (others account List.mem_cons_self)) fun deleted reached told => ?_
      split
      · exact .done told.1
      · exact ih told.1 fun other among => others other (List.mem_cons_of_mem _ among)

theorem LeftAlone.revokeTokenAs (alone : LeftAlone owner kept world) {actor : Actor}
    (other : actor.userId ≠ owner) (tokenId : String) :
    (revokeTokenAs actor tokenId).Ensures (CredentialWorld.handle forms.digest environment)
      (fun _ => LeftAlone owner kept) (fun _ => LeftAlone owner kept) world := by
  refine .bind (alone.repo (.deleteApiToken tokenId actor.userId) other) fun deleted reached told => ?_
  split
  · exact .done told.1
  · split
    · exact .bind told.1.serviceAccounts fun accounts middle listed =>
        listed.1.revokeOfAccounts listed.2 tokenId
    · exact .done told.1

/-- A list of the tokens of another account. -/
theorem LeftAlone.listed (alone : LeftAlone owner kept world) {userId : Nat} (other : userId ≠ owner) :
    (credentialRepo (.listApiTokens userId)).Ensures (CredentialWorld.handle forms.digest environment)
      (fun listed after => LeftAlone owner kept after ∧ ∀ token ∈ listed, token.userId ≠ owner)
      (fun _ => LeftAlone owner kept) world := by
  refine (alone.repo (.listApiTokens userId) other).mono (fun listed after told => ?_) fun _ _ => id
  obtain ⟨kept, before, now, -, answered⟩ := told
  refine ⟨kept, fun token among => ?_⟩
  cases answered
  obtain ⟨row, filtered, rfl⟩ := List.mem_map.mp ((List.mem_insertionSort _).mp among)
  obtain ⟨-, own⟩ := List.mem_filter.mp filtered
  rw [show (StoredApiToken.read row).userId = userId from of_decide_eq_true own]
  exact other

theorem LeftAlone.listTokensFor (alone : LeftAlone owner kept world) {actor : Actor}
    (other : actor.userId ≠ owner) :
    (listTokensFor actor).Ensures (CredentialWorld.handle forms.digest environment)
      (fun listed after => LeftAlone owner kept after ∧ ∀ entry ∈ listed, entry.1.userId ≠ owner)
      (fun _ => LeftAlone owner kept) world := by
  refine .bind (alone.listed other) fun own reached told => ?_
  have foreign : ∀ entry ∈ own.map fun token => (token, (none : Option String)),
      entry.1.userId ≠ owner := by
    intro entry among
    obtain ⟨token, there, rfl⟩ := List.mem_map.mp among
    exact told.2 token there
  split
  · refine .bind told.1.serviceAccounts fun accounts middle service => ?_
    refine .foldEach (fun listed state account among kept => ?_) ⟨service.1, foreign⟩
    refine .bind (kept.1.listed (service.2 account among)) fun tokens ended more => ?_
    refine .done ⟨more.1, fun entry held => ?_⟩
    obtain earlier | later := List.mem_append.mp held
    · exact kept.2 entry earlier
    · obtain ⟨token, there, rfl⟩ := List.mem_map.mp later
      exact more.2 token there
  · exact .done ⟨told.1, foreign⟩

/-- One use by another account. -/
theorem LeftAlone.step (alone : LeftAlone owner kept world) {use : Actor × TokenUse}
    (other : use.1.userId ≠ owner) : LeftAlone owner kept (TokenUse.step forms environment world use) := by
  have met : (use.2.program forms use.1).Ensures (CredentialWorld.handle forms.digest environment)
      (fun _ => LeftAlone owner kept) (fun _ => LeftAlone owner kept) world := by
    cases use.2 with
    | issue request => exact .bind (alone.issueToken other request) fun _ _ kept => .done kept
    | list => exact .bind (alone.listTokensFor other) fun _ _ told => .done told.1
    | revoke tokenId => exact .bind (alone.revokeTokenAs other tokenId) fun _ _ kept => .done kept
  unfold TokenUse.step
  cases ran : (use.2.program forms use.1).run (CredentialWorld.handle forms.digest environment) world with
  | none => exact alone
  | some ended => exact met.always ran

end Sparing

section Results

variable {forms : TokenForms} {environment : Environment}

/-- The tokens of a person are out of everybody else's reach: whatever the others issue, list and revoke,
whoever manages the users among them, the person's tokens stay as they are, and nobody else is shown one. -/
theorem others_tokens_out_of_reach (world : CredentialWorld) (owner : Nat)
    (person : ∀ user ∈ world.credentials.accounts.users, user.id = owner → user.isServiceAccount = false)
    (uses : List (Actor × TokenUse)) (others : ∀ use ∈ uses, use.1.userId ≠ owner) :
    tokensOf owner (runSteps (TokenUse.step forms environment) world uses) = tokensOf owner world ∧
      ∀ actor listed ended, actor.userId ≠ owner →
        (listTokensFor actor).run (CredentialWorld.handle forms.digest environment)
          (runSteps (TokenUse.step forms environment) world uses) = some (.ok listed, ended) →
        ∀ entry ∈ listed, entry.1.userId ≠ owner := by
  have alone : LeftAlone owner (tokensOf owner world)
      (runSteps (TokenUse.step forms environment) world uses) := by
    have start : LeftAlone owner (tokensOf owner world) world := ⟨rfl, person⟩
    generalize tokensOf owner world = kept at start
    induction uses generalizing world with
    | nil => exact start
    | cons use rest ih =>
        have stepped : LeftAlone owner kept (TokenUse.step forms environment world use) :=
          start.step (others use List.mem_cons_self)
        exact ih _ stepped.person (fun other among => others other (List.mem_cons_of_mem _ among)) stepped
  refine ⟨alone.tokens, fun actor listed ended other ran => ?_⟩
  exact ((alone.listTokensFor other).1 listed ended ran).2

/-- A deployment whose tokens show what they were made from. -/
def plainForms : TokenForms := ⟨fun bytes => "token " ++ bytes, fun token => "digest of " ++ token⟩

/-- A person with a token of their own, beside a service account. -/
def staffedWorld : CredentialWorld where
  credentials :=
    { accounts := { users := [⟨1, "ada", "hash", true⟩, ⟨2, "ci", serviceAccountPasswordHash, true⟩] }
      apiTokens := [⟨"t1", 1, "laptop", "digest of mine", "full", 0, 100, none, none⟩] }

/-- Whoever manages users issues a token for the service account, and tries to revoke the person's. -/
def managed : List (Actor × TokenUse) :=
  [(⟨3, "bob", false, [.userManager], []⟩, .issue ⟨"job", 30, .full, some "ci"⟩),
    (⟨3, "bob", false, [.userManager], []⟩, .revoke "t1")]

theorem others_tokens_out_of_reach_manager :
    tokensOf 1 (runSteps (TokenUse.step plainForms ticking) staffedWorld managed) = tokensOf 1 staffedWorld :=
  (others_tokens_out_of_reach staffedWorld 1 (by decide) managed (by simp [managed])).1

end Results

end Sanshain.Guarantees
