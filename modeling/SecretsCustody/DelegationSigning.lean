/-
The delegation signing families the provider admits: each purpose has one
intent.
-/
import SecretsCustody.Models

namespace SecretsCustody

def gatewayDelegationPurpose : String := "gateway-probe"

def gatewaySigningIntent : String := "gateway.probe-signing-key"

/-- `_DELEGATION_SIGNING_INTENTS`. -/
def delegationSigningIntents : List (String × String) :=
  [(gatewayDelegationPurpose, gatewaySigningIntent),
    ("gateway-node-control-transit", "gateway.node-control-transit-signing-key"),
    ("workload-node-control", "workload.node-control-signing-key"),
    ("workload-node-control-surface-read", gatewaySigningIntent),
    ("gateway-node-health-read-transit", "gateway.node-health-read-transit-signing-key"),
    ("workload-node-health-read", "workload.node-health-read-signing-key")]

def delegationSigningIntentFor (purpose : String) : Except Raised String :=
  match delegationSigningIntents.lookup purpose with
  | none => .error .secretMetadataInvalid
  | some intent => .ok intent

def requireDelegationSigningFamily (purpose intent : String) : Except Raised String := do
  let admittedIntent ← delegationSigningIntentFor purpose
  if intent = admittedIntent then return admittedIntent
  else throw .secretMetadataInvalid

/-- The family a call names is admitted. -/
def AdmittedFamily (purpose intent : String) : Prop :=
  delegationSigningIntents.lookup purpose = some intent

theorem requireDelegationSigningFamily_eq_ok_iff {purpose intent admitted : String} :
    requireDelegationSigningFamily purpose intent = .ok admitted ↔
      AdmittedFamily purpose intent ∧ admitted = intent := by
  unfold requireDelegationSigningFamily delegationSigningIntentFor AdmittedFamily
  cases hlookup : delegationSigningIntents.lookup purpose with
  | none => simp [bind, Except.bind]
  | some found =>
      by_cases hsame : intent = found
      · subst hsame
        simp [bind, Except.bind, pure, Except.pure, eq_comm]
      · simp [bind, Except.bind, hsame, throw, throwThe, MonadExceptOf.throw, Ne.symm hsame]

theorem requireDelegationSigningFamily_error {purpose intent : String} {raised : Raised}
    (herror : requireDelegationSigningFamily purpose intent = .error raised) :
    raised = .secretMetadataInvalid := by
  unfold requireDelegationSigningFamily delegationSigningIntentFor at herror
  cases hlookup : delegationSigningIntents.lookup purpose with
  | none =>
      rw [hlookup] at herror
      cases herror
      rfl
  | some found =>
      by_cases hsame : intent = found
      · simp [hlookup, bind, Except.bind, hsame, pure, Except.pure] at herror
      · simp only [hlookup, bind, Except.bind, if_neg hsame] at herror
        cases herror
        rfl

/-- Every admitted pair fits the label bounds. -/
theorem AdmittedFamily.bounded {purpose intent : String}
    (hadmitted : AdmittedFamily purpose intent) :
    purpose.length ≤ 256 ∧ intent.length ≤ 256 := by
  have hall : ∀ family ∈ delegationSigningIntents,
      family.1.length ≤ 256 ∧ family.2.length ≤ 256 := by decide
  have hnodup : (delegationSigningIntents.map Prod.fst).Nodup := by decide
  exact hall (purpose, intent) ((JsonText.lookup_eq_some_iff_mem hnodup).mp hadmitted)

end SecretsCustody
