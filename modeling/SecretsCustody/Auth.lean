/-
Bearer credentials and their grants: which credential a request presents, and
what its grants permit.
-/
import SecretsCustody.Effect
import SecretsCustody.Models
import SecretsCustody.Words

namespace SecretsCustody

open Effect

structure ProviderGrant where
  action : String
  workspaceId : String
  intents : List String := ["*"]

def ProviderGrant.permits (grant : ProviderGrant) (action workspaceId : String)
    (intent : Option String) : Bool :=
  if grant.action ≠ action then false
  else if grant.workspaceId ∉ ["*", workspaceId] then false
  else
    match intent with
    | none => true
    | some intent => "*" ∈ grant.intents || intent ∈ grant.intents

structure ProviderCredential where
  subject : String
  token : String
  grants : List ProviderGrant

/-- `compare_digest` of two texts, which must be ASCII. -/
def compareDigest (left right : String) : Except Raised Bool :=
  if (encodeAscii left).isSome ∧ (encodeAscii right).isSome then .ok (left = right)
  else .error .typeError

/-- The loop of `authenticate`. -/
def selectCredential (presented : String) :
    List ProviderCredential → Except Raised ProviderCredential
  | [] => .error .providerAuthenticationError
  | credential :: credentials => do
      if ← compareDigest credential.token presented then return credential
      else selectCredential presented credentials

def authenticate (credentials : List ProviderCredential) :
    Option String → Except Raised ProviderCredential
  | none => .error .providerAuthenticationError
  | some authorization =>
      let bearer := "Bearer ".toList
      if bearer.isPrefixOf authorization.toList then
        selectCredential
          (String.ofList (Words.strip (authorization.toList.drop bearer.length))) credentials
      else .error .providerAuthenticationError

/-- `ProviderAuthorizer.require`. -/
def requireGrant (credential : ProviderCredential) (action workspaceId : String)
    (intent : Option String) : Except Raised Unit :=
  if credential.grants.any fun grant => grant.permits action workspaceId intent then .ok ()
  else .error .secretUseDenied

/-- A grant of the credential covers the action, the workspace and the intent, if the
action has one. -/
def Granted (credential : ProviderCredential) (action workspaceId : String)
    (intent : Option String) : Prop :=
  ∃ grant ∈ credential.grants, grant.action = action ∧
    (grant.workspaceId = workspaceId ∨ grant.workspaceId = "*") ∧
    ∀ used ∈ intent, "*" ∈ grant.intents ∨ used ∈ grant.intents

theorem permits_iff {grant : ProviderGrant} {action workspaceId : String}
    {intent : Option String} :
    grant.permits action workspaceId intent = true ↔
      grant.action = action ∧ (grant.workspaceId = workspaceId ∨ grant.workspaceId = "*") ∧
        ∀ used ∈ intent, "*" ∈ grant.intents ∨ used ∈ grant.intents := by
  unfold ProviderGrant.permits
  by_cases haction : grant.action = action
  · rw [if_neg (not_not.mpr haction)]
    by_cases hworkspace : grant.workspaceId ∈ ["*", workspaceId]
    · rw [if_neg (not_not.mpr hworkspace)]
      rw [List.mem_cons, List.mem_singleton, or_comm] at hworkspace
      cases intent with
      | none => simp [haction, hworkspace]
      | some used => simp [haction, hworkspace]
    · rw [if_pos hworkspace]
      rw [List.mem_cons, List.mem_singleton, or_comm] at hworkspace
      simp [hworkspace]
  · rw [if_pos haction]
    simp [haction]

theorem requireGrant_eq_ok {credential : ProviderCredential} {action workspaceId : String}
    {intent : Option String} :
    requireGrant credential action workspaceId intent = .ok () ↔
      Granted credential action workspaceId intent := by
  unfold requireGrant Granted
  simp only [← permits_iff]
  split
  · next hany => simpa using hany
  · next hany => simpa using hany

theorem selectCredential_mem {presented : String} {credentials : List ProviderCredential}
    {client : ProviderCredential}
    (hselect : selectCredential presented credentials = .ok client) : client ∈ credentials := by
  induction credentials with
  | nil => cases hselect
  | cons credential credentials ih =>
      rw [selectCredential] at hselect
      obtain ⟨same, _, hnext⟩ := bind_eq_ok.mp hselect
      split at hnext
      · cases hnext
        exact List.mem_cons_self
      · exact List.mem_cons_of_mem credential (ih hnext)

/-- An authenticated client is one of the provider's. -/
theorem authenticate_mem {credentials : List ProviderCredential} {authorization : Option String}
    {client : ProviderCredential}
    (hclient : authenticate credentials authorization = .ok client) : client ∈ credentials := by
  cases authorization with
  | none => cases hclient
  | some authorization =>
      unfold authenticate at hclient
      dsimp only at hclient
      split at hclient
      · exact selectCredential_mem hclient
      · cases hclient

end SecretsCustody
