/-
The audit trail from the database's side: whatever a version went through, the audit tells it,
unless the request that did it is still at work or was answered 503 because its append failed.
-/
import SecretsCustody.Served

namespace SecretsCustody

open Effect Interleaving

/-- What is new between two databases concerns the version with the key: its row is not as it
was, or a use, a generation or a revocation of it was recorded. -/
inductive Affects (before after : Tables) (key : String × String × String) : Prop
  | version {row : VersionRow} (hrow : row ∈ after.versions) (hnew : row ∉ before.versions)
      (hkey : row.key = key)
  | selection {row : SelectionRow} (hrow : row ∈ after.selections)
      (hnew : row ∉ before.selections) (htarget : row.target = key)
  | generation {row : GenerationRow} (hrow : row ∈ after.generations)
      (hnew : row ∉ before.generations) (htarget : row.target = key)
  | revocation {row : RevocationRow} (hrow : row ∈ after.revocations)
      (hnew : row ∉ before.revocations) (htarget : row.target = key)

theorem Undisturbed.not_affects {before after : Tables} (hundisturbed : Undisturbed before after)
    {key : String × String × String} : ¬ Affects before after key := by
  intro haffects
  cases haffects with
  | version hrow hnew => exact hnew (hundisturbed.versions ▸ hrow)
  | selection hrow hnew => exact hnew (hundisturbed.selections ▸ hrow)
  | generation hrow hnew => exact hnew (hundisturbed.generations ▸ hrow)
  | revocation hrow hnew => exact hnew (hundisturbed.revocations ▸ hrow)

section

variable {suite : CryptoSuite} {env : Env suite} {master : MasterKey} {before after : Tables}
variable {operation : Operation} {reply : Reply} {log : List Encryption}

/-! ### A store call -/

/-- What a call wrote, it replies with. -/
theorem wrote_replied {metadata : SecretMetadata} (hwrote : metadata ∈ wrote operation reply) :
    metadata ∈ reply.versions := by
  unfold wrote at hwrote
  split at hwrote
  all_goals first | exact hwrote | cases hwrote

/-- The version rows a call leaves are those it found, or of versions it replies with. -/
theorem Performs.versions_replied
    (hperforms : Performs env master before operation reply after log)
    (hconsistent : Consistent before) {row : VersionRow} (hrow : row ∈ after.versions)
    (hnew : row ∉ before.versions) : row.key ∈ reply.versions.map SecretMetadata.key := by
  obtain ⟨change, added, hrows, hsteps, hadded⟩ :=
    (hperforms.versionsEffect hconsistent.versionKeys).rows
  rw [hrows, List.mem_append] at hrow
  rcases hrow with hold | hlast
  · obtain ⟨found, hfound, rfl⟩ := List.mem_map.mp hold
    have hstep := hsteps found hfound
    generalize change found = row at hstep hnew ⊢
    cases hstep with
    | same => exact absurd hfound hnew
    | resealed _ _ _ hseals _ _ hwritten =>
        have hkey := (metadataFromRow_describes hseals.reads).key
        exact List.mem_map.mpr ⟨_, wrote_replied hwritten, hkey⟩
  · cases hadded with
    | none => cases hlast
    | one _ hwritten =>
        rw [List.mem_singleton] at hlast
        subst hlast
        exact List.mem_map.mpr ⟨_, wrote_replied hwritten, rfl⟩

/-- The uses, generations and revocations a call records are of versions it replies with. -/
structure TargetsReplied (before after : Tables) (reply : Reply) : Prop where
  selections : ∀ row ∈ after.selections, row ∉ before.selections →
    row.target ∈ reply.versions.map SecretMetadata.key
  generations : ∀ row ∈ after.generations, row ∉ before.generations →
    row.target ∈ reply.versions.map SecretMetadata.key
  revocations : ∀ row ∈ after.revocations, row ∉ before.revocations →
    row.target ∈ reply.versions.map SecretMetadata.key

theorem targetsReplied_same (hselections : after.selections = before.selections)
    (hgenerations : after.generations = before.generations)
    (hrevocations : after.revocations = before.revocations) :
    TargetsReplied before after reply where
  selections := fun _ hrow hnew => absurd (hselections ▸ hrow) hnew
  generations := fun _ hrow hnew => absurd (hgenerations ▸ hrow) hnew
  revocations := fun _ hrow hnew => absurd (hrevocations ▸ hrow) hnew

/-- Of rows with one more at their end, the last is the only new one. -/
theorem mem_snoc_new {ρ : Type} {rows : List ρ} {last row : ρ} (hrow : row ∈ rows ++ [last])
    (hnew : row ∉ rows) : row = last := by
  rcases List.mem_append.mp hrow with hold | hlast
  · exact absurd hold hnew
  · exact List.mem_singleton.mp hlast

theorem Performs.targets_replied
    (hperforms : Performs env master before operation reply after log) :
    TargetsReplied before after reply := by
  have haddress := hperforms.address
  cases hperforms with
  | created hinsert =>
      obtain ⟨hselections, hgenerations, hrevocations, _⟩ := hinsert.others
      exact targetsReplied_same hselections hgenerations hrevocations
  | rotated _ _ _ hinsert =>
      obtain ⟨hselections, hgenerations, hrevocations, _⟩ := hinsert.others
      exact targetsReplied_same hselections hgenerations hrevocations
  | revoked _ hrevokes =>
      obtain ⟨hselections, hgenerations, hrevocations, _⟩ := hrevokes.others
      exact targetsReplied_same hselections hgenerations hrevocations
  | @revokedVersion args row metadata revoked middle _ _ _ hrow hmetadata _ _ hrevokes =>
      obtain ⟨hselections, hgenerations, hrevocations, _⟩ := hrevokes.others
      have hkey : revoked.key = (args.workspaceId, args.secretId, args.versionId) := by
        cases hrevokes with
        | intro hfound =>
            have hdescribes := (metadataFromRow_describes hfound).key
            exact hdescribes.trans (Tables.selectVersion_eq_some hrow).2
      constructor
      · exact fun _ hmem hnew => absurd (hselections ▸ hmem) hnew
      · exact fun _ hmem hnew => absurd (hgenerations ▸ hmem) hnew
      · intro other hmem hnew
        rw [hrevocations] at hmem
        rw [mem_snoc_new hmem hnew]
        exact List.mem_map.mpr ⟨revoked, List.mem_cons_self, hkey⟩
  | revocationReplayed => exact targetsReplied_same rfl rfl rfl
  | @generated args keyId metadata middle _ _ _ _ hinsert =>
      obtain ⟨hselections, hgenerations, hrevocations, _⟩ := hinsert.others
      have hkey : (generationRow args metadata keyId (suite.publicPem env.privateKey)).target =
          metadata.key := by
        have hhome : metadata.address = (args.workspaceId, args.secretId) :=
          haddress metadata List.mem_cons_self
        rw [SecretMetadata.address, Prod.mk.injEq] at hhome
        rw [SecretMetadata.key, hhome.1, hhome.2]
        rfl
      constructor
      · exact fun _ hmem hnew => absurd (hselections ▸ hmem) hnew
      · intro other hmem hnew
        rw [hgenerations] at hmem
        rw [mem_snoc_new hmem hnew, hkey]
        exact List.mem_map.mpr ⟨metadata, List.mem_cons_self, rfl⟩
      · exact fun _ hmem hnew => absurd (hrevocations ▸ hmem) hnew
  | generationReplayed => exact targetsReplied_same rfl rfl rfl
  | resolved => exact targetsReplied_same rfl rfl rfl
  | @selected args selected row _ secret _ _ _ _ _ hrow hresolve =>
      have hkey : secret.metadata.key =
          (args.workspaceId, args.secretId, selected.versionId) := by
        have hdescribes := (metadataFromRow_describes (resolveRow_eq_ok.mp hresolve).1).key
        exact hdescribes.trans (Tables.selectVersion_eq_some hrow).2
      constructor
      · intro other hmem hnew
        rw [mem_snoc_new hmem hnew]
        exact List.mem_map.mpr ⟨secret.metadata, List.mem_cons_self, hkey⟩
      · exact fun _ hmem hnew => absurd hmem hnew
      · exact fun _ hmem hnew => absurd hmem hnew
  | reselected => exact targetsReplied_same rfl rfl rfl
  | described => exact targetsReplied_same rfl rfl rfl

/-- A call affects no version but those it replies with. -/
theorem Performs.affects (hperforms : Performs env master before operation reply after log)
    (hconsistent : Consistent before) {key : String × String × String}
    (haffects : Affects before after key) : key ∈ reply.versions.map SecretMetadata.key := by
  have htargets := hperforms.targets_replied
  cases haffects with
  | version hrow hnew hkey => exact hkey ▸ hperforms.versions_replied hconsistent hrow hnew
  | selection hrow hnew htarget => exact htarget ▸ htargets.selections _ hrow hnew
  | generation hrow hnew htarget => exact htarget ▸ htargets.generations _ hrow hnew
  | revocation hrow hnew htarget => exact htarget ▸ htargets.revocations _ hrow hnew

end

/-! ### A request -/

section

variable {suite : CryptoSuite} {provider : Provider} {env : RequestEnv suite} {request : Request}
variable {steps : List (Tables × Tables)} {reply : Reply}

/-- A request affects no version but those of the reply to its store call. -/
theorem Performed.affects (hperformed : Performed provider env request steps reply)
    {step : Tables × Tables} (hstep : step ∈ steps) {key : String × String × String}
    (haffects : Affects step.1 step.2 key) : key ∈ reply.versions.map SecretMetadata.key := by
  obtain ⟨hearlier, hlater, _, hreached, hperforms⟩ := hperformed
  rcases List.mem_append.mp hstep with hold | hrest
  · exact absurd haffects (hearlier step hold).not_affects
  · rcases List.mem_cons.mp hrest with rfl | hlast
    · exact hperforms.affects hreached.gapless.consistent haffects
    · exact absurd haffects (hlater step hlast).not_affects

/-- The record reports the version with the key, for the request and its answer. -/
def Records (provider : Provider) (request : Request) (body : Body)
    (key : String × String × String) (record : AuditRecord) : Prop :=
  ∃ client found, authenticate provider.credentials request.authorization = .ok client ∧
    (found.workspaceId, found.secretId, found.versionId) = key ∧
    Accounts request client body found record

/-- The rows of a request that was answered report every version it affected; a request that
raised affected none, or an append after its store call failed. -/
def Vouches (provider : Provider) (call : ApiCall suite) (result : Except Fault Body)
    (steps : List (Tables × Tables)) : Prop :=
  ∀ step ∈ steps, ∀ key, Affects step.1 step.2 key →
    (∃ body record, result = .ok body ∧ record ∈ auditRows steps ∧
      Records provider call.request body key record) ∨
    result = .error (.http 503 "unavailable" "audit-unavailable")

theorem Succeeded.records {body : Body} {rows : List AuditRecord}
    (hsucceeded : Succeeded provider request body rows)
    (hrenders : Renders suite request reply body) {key : String × String × String}
    (hkey : key ∈ reply.versions.map SecretMetadata.key) :
    ∃ record ∈ rows, Records provider request body key record := by
  obtain ⟨client, hclient, haccounts⟩ := hsucceeded
  obtain ⟨metadata, hmetadata, rfl⟩ := List.mem_map.mp hkey
  rw [hrenders.versions, List.forall₂_map_left_iff] at haccounts
  obtain ⟨record, hrecord, haccount⟩ := KeyedRows.exists_related haccounts hmetadata
  exact ⟨record, hrecord, client, _, hclient, rfl, haccount⟩

theorem serve_vouches (call : ApiCall suite) :
    (serve provider call).Ensures (Reached suite provider)
      (fun ending steps => Vouches provider call ending.1 steps) [] := by
  obtain ⟨env, request⟩ := call
  have hserves : (serve provider ⟨env, request⟩).Ensures (Reached suite provider) _ [] :=
    serves_handler request 0 [] rfl
  have hsucceeds : (serve provider ⟨env, request⟩).Ensures (Reached suite provider) _ [] :=
    handler_logs request 0 [] rfl
  apply (hserves.and hsucceeds).mono
  rintro ⟨result, count⟩ steps ⟨hserved, hsucceeded⟩ step hstep key haffects
  cases result with
  | ok body =>
      obtain ⟨reply, hperformed, hrenders⟩ := hserved
      obtain ⟨record, hrecord, hrecords⟩ :=
        Succeeded.records hsucceeded hrenders (hperformed.affects hstep haffects)
      exact .inl ⟨body, record, rfl, hrecord, hrecords⟩
  | error fault =>
      rcases hserved with hquiet | ⟨rfl, _⟩
      · exact absurd haffects (hquiet step hstep).not_affects
      · exact .inr rfl

end

/-! ### Servers -/

/-- The version with the key is revoked. -/
def Tables.Revoked (tables : Tables) (key : String × String × String) : Prop :=
  ∃ row ∈ tables.versions, row.key = key ∧ row.status = SecretStatus.revoked.value

theorem Tables.not_revoked_empty {key : String × String × String} :
    ¬ Tables.empty.Revoked key := by
  rintro ⟨row, ⟨⟩, _⟩

section

variable {suite : CryptoSuite} {provider : Provider}

/-- What became of a request that affected the version with the key. -/
inductive Traced (provider : Provider) (server : Server suite) (index : Nat)
    (key : String × String × String) : Prop
  /-- It was answered, and the audit holds its record of the version. -/
  | recorded {call : ApiCall suite} {body : Body} {count : Nat} {record : AuditRecord}
      (hdone : server.tasks[index]? = some ⟨call, .done (.ok body, count)⟩)
      (hrecord : record ∈ auditRows (server.own index))
      (hcommitted : record ∈ server.state.auditRecords)
      (hrecords : Records provider call.request body key record)
  /-- It is still at work. -/
  | running {task : Task Tables (ApiCall suite) (Except Fault Body × Nat)}
      (htask : server.tasks[index]? = some task) (hrunning : ∀ ending, task.script ≠ .done ending)
  /-- It was told that its record could not be appended. -/
  | unavailable {call : ApiCall suite} {count : Nat}
      (hdone : server.tasks[index]? = some ⟨call,
        .done (.error (.http 503 "unavailable" "audit-unavailable"), count)⟩)

/-- The trail of a run, however the transactions interleaved and whichever appends failed. -/
structure Trailed (provider : Provider) (server : Server suite) : Prop where
  /-- Whatever affects a version is traced. -/
  steps : ∀ step ∈ server.steps, ∀ key, Affects step.before step.after key →
    Traced provider server step.task key
  /-- Every version was added by a request that is traced. -/
  added : ∀ row ∈ server.state.versions, ∃ step ∈ server.steps,
    row.key ∉ step.before.versions.map VersionRow.key ∧
      row.key ∈ step.after.versions.map VersionRow.key ∧ Traced provider server step.task row.key
  /-- Every revoked version was revoked by a request that is traced. -/
  revoked : ∀ row ∈ server.state.versions, row.status = SecretStatus.revoked.value →
    ∃ step ∈ server.steps, ¬ step.before.Revoked row.key ∧ step.after.Revoked row.key ∧
      Traced provider server step.task row.key
  /-- Every use was pinned by a request that is traced. -/
  used : ∀ row ∈ server.state.selections, ∃ step ∈ server.steps, row ∉ step.before.selections ∧
    row ∈ step.after.selections ∧ Traced provider server step.task row.target

end

end SecretsCustody
