/-
Values, end to end.  What a request gave the provider for a version is what every resolution of
that version hands out, and nothing else is ever handed out, however the transactions of the
requests interleave.
-/
import SecretsCustody.LenientBase64
import SecretsCustody.Served

namespace SecretsCustody

open Effect Interleaving

/-! ### Versions and their values -/

/-- The version with the key holds the value, encrypted under the master key. -/
def Stores (suite : CryptoSuite) (master : MasterKey) (key : String × String × String)
    (value : Bytes) (tables : Tables) : Prop :=
  ∃ row ∈ tables.versions, row.key = key ∧ Encloses suite master row value

section

variable {suite : CryptoSuite} {master : MasterKey} {tables : Tables} {value value' : Bytes}
variable {key : String × String × String}

theorem Encloses.unique {row : VersionRow} (hsuite : suite.DecryptsOwn)
    (hencloses : Encloses suite master row value) (hencloses' : Encloses suite master row value') :
    value' = value := by
  obtain ⟨encryption, metadata, hseals, hkey, rfl⟩ := hencloses
  obtain ⟨encryption', metadata', hseals', hkey', rfl⟩ := hencloses'
  have hmetadata : metadata' = metadata :=
    Except.ok.inj (hseals'.reads.symm.trans hseals.reads)
  have hnonce : encryption'.nonce = encryption.nonce :=
    SqlValue.blob.inj (hseals'.nonce.symm.trans hseals.nonce)
  have hciphertext : encryption'.ciphertext = encryption.ciphertext :=
    SqlValue.blob.inj (hseals'.ciphertext.symm.trans hseals.ciphertext)
  have hown := hsuite _ _ _ _ _ hseals.encrypted
  have hown' := hsuite _ _ _ _ _ hseals'.encrypted
  rw [hmetadata, hnonce, hciphertext, hkey', ← hkey, hown] at hown'
  exact (Option.some.inj hown').symm

/-- A version holds one value. -/
theorem Stores.unique (hstores : Stores suite master key value tables)
    (hstores' : Stores suite master key value' tables) (hsuite : suite.DecryptsOwn)
    (hconsistent : Consistent tables) : value' = value := by
  obtain ⟨row, hrow, hkey, hencloses⟩ := hstores
  obtain ⟨row', hrow', hkey', hencloses'⟩ := hstores'
  have hsame : row' = row :=
    hconsistent.versionKeys.eq_of_key hrow' hrow (hkey'.trans hkey.symm)
  rw [hsame] at hencloses'
  exact hencloses.unique hsuite hencloses'

theorem Stores.mem_keys (hstores : Stores suite master key value tables) :
    key ∈ tables.versions.map VersionRow.key := by
  obtain ⟨row, hrow, hkey, _⟩ := hstores
  exact List.mem_map.mpr ⟨row, hrow, hkey⟩

end

section

variable {suite : CryptoSuite} {provider : Provider} {master : MasterKey} {before after : Tables}
variable {key : String × String × String} {value : Bytes}

/-- A call under the same key leaves every version its value. -/
theorem perform_stores (hsuite : suite.DecryptsOwn) (hconsistent : Consistent before)
    (call : Call suite) (hkey : call.master.key = master.key)
    (hstores : Stores suite master key value before) :
    Stores suite master key value (perform before call).2 := by
  rcases perform_cases before call with ⟨reply, _, hperforms⟩ | ⟨raised, _, _, hsame⟩
  · obtain ⟨change, added, hrows, hsteps, _⟩ :=
      (hperforms.versionsEffect hconsistent.versionKeys).rows
    obtain ⟨row, hrow, hversion, hencloses⟩ := hstores
    have hstep := hsteps row hrow
    have hcaller : Encloses suite call.master row value := by
      rw [Encloses, hkey]
      exact hencloses
    have hkept := hstep.encloses hsuite hcaller
    rw [Encloses, hkey] at hkept
    refine ⟨change row, ?_, hstep.sameVersion.key.trans hversion, hkept⟩
    rw [hrows]
    exact List.mem_append_left _ (List.mem_map_of_mem hrow)
  · rwa [hsame]

theorem RecordAdded.stores {record : AuditRecord} (hadded : RecordAdded record before after)
    (hstores : Stores suite master key value before) : Stores suite master key value after := by
  obtain ⟨row, hrow, hversion⟩ := hstores
  rw [← hadded.undisturbed.versions] at hrow
  exact ⟨row, hrow, hversion⟩

/-- Whatever a transaction does, a version keeps its value. -/
theorem Moved.stores (hmoved : Moved suite provider before after) (hsuite : suite.DecryptsOwn)
    (hconsistent : Consistent before) (hstores : Stores suite provider.master key value before) :
    Stores suite provider.master key value after := by
  cases hmoved with
  | idle => exact hstores
  | performed call hmaster =>
      exact perform_stores hsuite hconsistent call (congrArg MasterKey.key hmaster) hstores
  | audited hadded => exact hadded.stores hstores

end

/-! ### What a request supplies -/

/-- The value a request has for a new version: the one it carries, or the private key it draws. -/
def ApiCall.supplies {suite : CryptoSuite} (call : ApiCall suite) : Option Bytes :=
  match call.request with
  | .write _ _ _ body => (decodeSecretValue body.valueBase64).toOption
  | .rotate _ _ _ body => (decodeSecretValue body.valueBase64).toOption
  | .generate _ _ _ _ => some (suite.privateBytes call.env.store.privateKey)
  | .resolve _ _ _ _ => none
  | .resolveUnencodable _ _ _ _ _ => none
  | .revokeVersion _ _ _ _ _ => none
  | .revoke _ _ _ _ => none
  | .readMetadata _ _ _ _ => none

def MetadataResponse.key (found : MetadataResponse) : String × String × String :=
  (found.workspaceId, found.secretId, found.versionId)

/-- The version an answer says was added. -/
def Body.adds : Body → Option MetadataResponse
  | .stored found => some found
  | .generated _ found _ _ _ _ _ _ _ replayed => if replayed then none else some found
  | .rotated found => some found
  | _ => none

section

variable {suite : CryptoSuite} {provider : Provider} {call : ApiCall suite}
variable {storeCall : Call suite} {before after : Tables} {reply : Reply} {log : List Encryption}

theorem Calls.address (hcalls : Calls provider call.env call.request storeCall) :
    storeCall.operation.address = (call.request.workspaceId, call.request.secretId) := by
  obtain ⟨env, request⟩ := call
  cases hcalls <;> rfl

/-- What the store call of a request inserts, the request supplied. -/
theorem Calls.supplies (hcalls : Calls provider call.env call.request storeCall)
    {metadata : SecretMetadata} {value : Bytes}
    (hinserted : inserted storeCall.env storeCall.operation reply = some (metadata, value)) :
    metadata ∈ reply.versions ∧ call.supplies = some value := by
  obtain ⟨env, request⟩ := call
  cases hcalls with
  | write _ _ hvalue =>
      cases reply <;> cases hinserted
      exact ⟨List.mem_cons_self, congrArg Except.toOption hvalue⟩
  | rotate _ _ hvalue =>
      cases reply <;> cases hinserted
      exact ⟨List.mem_cons_self, congrArg Except.toOption hvalue⟩
  | generate =>
      cases reply with
      | generated key =>
          rw [inserted] at hinserted
          split at hinserted
          · cases hinserted
          · cases hinserted
            exact ⟨List.mem_cons_self, rfl⟩
      | metadata found => cases hinserted
      | revoked found => cases hinserted
      | resolved found => cases hinserted
  | resolve => cases reply <;> cases hinserted
  | revokeVersion => cases reply <;> cases hinserted
  | revoke => cases reply <;> cases hinserted
  | readMetadata => cases reply <;> cases hinserted

/-- An answer that says a version was added names the one the store call inserted. -/
theorem Renders.adds {body : Body} {found : MetadataResponse}
    (hrenders : Renders suite call.request reply body)
    (hcalls : Calls provider call.env call.request storeCall) (hadds : body.adds = some found) :
    ∃ metadata value, found = metadataResponse metadata ∧
      inserted storeCall.env storeCall.operation reply = some (metadata, value) := by
  obtain ⟨env, request⟩ := call
  cases hrenders with
  | stored =>
      cases hcalls
      cases hadds
      exact ⟨_, _, rfl, rfl⟩
  | rotated =>
      cases hcalls
      cases hadds
      exact ⟨_, _, rfl, rfl⟩
  | @generated _ _ _ _ key _ hanswer =>
      cases hcalls
      unfold Api.generatedBody at hanswer
      split at hanswer
      · cases hanswer
      · cases hanswer
        cases hreplayed : key.replayed with
        | false =>
            rw [Body.adds, hreplayed] at hadds
            cases hadds
            refine ⟨key.metadata, suite.privateBytes env.store.privateKey, rfl, ?_⟩
            rw [inserted, hreplayed]
            rfl
        | true =>
            rw [Body.adds, hreplayed] at hadds
            cases hadds
  | resolved => cases hadds
  | revoked => cases hadds
  | allRevoked => cases hadds
  | metadata => cases hadds

/-- A transaction of the request adds a version only for the secret of the request, with the
value the request supplies. -/
def Supplies (provider : Provider) (call : ApiCall suite) (before after : Tables) : Prop :=
  Consistent before → ∀ key ∈ after.versions.map VersionRow.key,
    key ∉ before.versions.map VersionRow.key →
      (key.1, key.2.1) = (call.request.workspaceId, call.request.secretId) ∧
        ∃ value, call.supplies = some value ∧ Stores suite provider.master key value after

theorem supplies_same (hversions : after.versions = before.versions) :
    Supplies provider call before after := by
  intro _ key hkey hnew
  rw [hversions] at hkey
  exact absurd hkey hnew

theorem auditsFreely_supplies : AuditsFreely (Supplies provider call) where
  idle := fun _ => supplies_same rfl
  audited := fun hadded => supplies_same hadded.undisturbed.versions

theorem perform_supplies (hcalls : Calls provider call.env call.request storeCall)
    (tables : Tables) : Supplies provider call tables (perform tables storeCall).2 := by
  rcases perform_cases tables storeCall with ⟨reply, _, hperforms⟩ | ⟨raised, _, _, hsame⟩
  · intro hconsistent key hkey hnew
    have heffect := hperforms.versionsEffect hconsistent.versionKeys
    obtain ⟨change, added, hrows, hsteps, hadded⟩ := heffect.rows
    rw [hrows, List.map_append, List.mem_append] at hkey
    rcases hkey with hold | hlast
    · obtain ⟨changed, hchanged, rfl⟩ := List.mem_map.mp hold
      obtain ⟨row, hrow, rfl⟩ := List.mem_map.mp hchanged
      rw [(hsteps row hrow).sameVersion.key] at hnew
      exact absurd (List.mem_map_of_mem hrow) hnew
    · cases hadded with
      | none => cases hlast
      | @one _ _ _ _ metadata encryption hinserted =>
          rw [List.map_singleton, List.mem_singleton] at hlast
          obtain ⟨hreported, hsupplied⟩ := hcalls.supplies hinserted
          obtain ⟨row, hrow, hrowKey, hencloses⟩ := heffect.encloses hinserted
          have haddress : metadata.address = storeCall.operation.address :=
            hperforms.address metadata hreported
          rw [hcalls.address] at haddress
          rw [hcalls.master] at hencloses
          subst hlast
          exact ⟨haddress, _, hsupplied, row, hrow, hrowKey, hencloses⟩
  · rw [hsame]
    exact supplies_same rfl

theorem serve_supplies (call : ApiCall suite) :
    (serve provider call).Guarantees (Supplies provider call) := by
  obtain ⟨env, request⟩ := call
  have hmoves : Moves (Supplies provider ⟨env, request⟩) (request.handler provider env)
      fun _ => True :=
    moves_request auditsFreely_supplies request fun storeCall hcalls =>
      @perform_supplies suite provider ⟨env, request⟩ storeCall hcalls
  exact (hmoves 0).guarantees

end

/-! ### What an answer hands out -/

section

variable {suite : CryptoSuite} {provider : Provider}

/-- What the steps of a request that was answered show of the values. -/
structure Hands (provider : Provider) (call : ApiCall suite) (body : Body)
    (steps : List (Tables × Tables)) : Prop where
  /-- A value that is handed out is held by the version it is handed out for. -/
  resolved : ∀ found valueBase64, body = .resolved found valueBase64 → ∃ step ∈ steps, ∃ value,
    Stores suite provider.master found.key value step.1 ∧
      valueBase64 = String.ofList (Base64.encode value)
  /-- A version that is said to be added holds what the request supplied. -/
  added : ∀ found, body.adds = some found → ∃ step ∈ steps, ∃ value,
    call.supplies = some value ∧ Stores suite provider.master found.key value step.2

theorem Performed.hands {call : ApiCall suite} {body : Body} {steps : List (Tables × Tables)}
    {reply : Reply} (hsuite : suite.DecryptsOwn)
    (hperformed : Performed provider call.env call.request steps reply)
    (hrenders : Renders suite call.request reply body) : Hands provider call body steps := by
  obtain ⟨hearlier, hlater, hcalls, hreached, hperforms⟩ := hperformed
  rename_i storeCall earlier later before after log
  have hstep : (before, after) ∈ earlier ++ (before, after) :: later :=
    List.mem_append_right _ List.mem_cons_self
  constructor
  · rintro found valueBase64 rfl
    obtain ⟨env, request⟩ := call
    cases hrenders with
    | @resolved _ _ _ _ secret =>
        obtain ⟨row, hresolved⟩ := hperforms.resolves
        obtain ⟨value, hencloses, _⟩ := hreached.encloses hresolved.stored
        have hdecrypts := hresolved.decrypts
        rw [hcalls.master] at hdecrypts
        rw [hencloses.value_eq hsuite hdecrypts]
        exact ⟨_, hstep, value, ⟨row, hresolved.stored, hresolved.key.symm, hencloses⟩, rfl⟩
    | generated hanswer =>
        unfold Api.generatedBody at hanswer
        split at hanswer <;> cases hanswer
  · intro found hadds
    obtain ⟨metadata, value, rfl, hinserted⟩ := hrenders.adds hcalls hadds
    obtain ⟨row, hrow, hkey, hencloses⟩ :=
      (hperforms.versionsEffect hreached.gapless.consistent.versionKeys).encloses hinserted
    rw [hcalls.master] at hencloses
    exact ⟨_, hstep, value, (hcalls.supplies hinserted).2, row, hrow, hkey, hencloses⟩

theorem serve_hands (hsuite : suite.DecryptsOwn) (call : ApiCall suite) :
    (serve provider call).Ensures (Reached suite provider)
      (fun ending steps => ∀ body, ending.1 = .ok body → Hands provider call body steps) [] := by
  obtain ⟨env, request⟩ := call
  have hserves : (serve provider ⟨env, request⟩).Ensures (Reached suite provider) _ [] :=
    serves_handler request 0 [] rfl
  apply hserves.mono
  rintro ⟨result, count⟩ steps hended body hbody
  cases hbody
  obtain ⟨reply, hperformed, hrenders⟩ := hended
  exact @Performed.hands suite provider ⟨env, request⟩ body steps reply hsuite hperformed hrenders

/-! ### Servers -/

/-- How values travel through a run. -/
structure Delivered (provider : Provider) (server : Server suite) : Prop where
  /-- A value that is handed out is one that a request for the same secret supplied, when it
  added the version that is named. -/
  origin : ∀ (index : Nat) call found valueBase64 count,
    server.tasks[index]? = some ⟨call, .done (.ok (.resolved found valueBase64), count)⟩ →
      ∃ (source : Nat) (task : Task Tables (ApiCall suite) (Except Fault Body × Nat)) (value : Bytes),
        server.tasks[source]? = some task ∧ task.input.supplies = some value ∧
        (found.workspaceId, found.secretId) =
          (task.input.request.workspaceId, task.input.request.secretId) ∧
        (∃ step ∈ server.own source, found.key ∉ step.1.versions.map VersionRow.key ∧
          found.key ∈ step.2.versions.map VersionRow.key) ∧
        Base64.decode valueBase64.toList = some value
  /-- A request that was told its version was added supplied what every resolution of that
  version hands out. -/
  added : ∀ (index source : Nat) call call' body found found' valueBase64 count count',
    server.tasks[source]? = some ⟨call, .done (.ok body, count)⟩ → body.adds = some found →
    server.tasks[index]? = some ⟨call', .done (.ok (.resolved found' valueBase64), count')⟩ →
      found'.key = found.key →
        ∃ value, call.supplies = some value ∧ Base64.decode valueBase64.toList = some value

theorem values_delivered (hsuite : suite.DecryptsOwn) (provider : Provider)
    (events : List (Event (ApiCall suite))) : Delivered provider (runServer provider events) := by
  have hkept : System.Kept (Moved suite provider) (Reached suite provider)
      (fun call ending steps => ∀ body, ending.1 = .ok body → Hands provider call body steps)
      Tables.empty (runServer provider events) :=
    System.run_kept reached_empty (fun _ _ hreached hmoved => hmoved.reached hsuite hreached)
      (serve_guarantees fun _ _ hmoved => hmoved) (serve_hands hsuite) events
  have hpromised : System.Promised (Supplies provider) (runServer provider events) :=
    System.run_promised serve_supplies Tables.empty events
  have hconsistent := hkept.holds.gapless.consistent
  -- From each of its steps on, a version of the run keeps its value.
  have hkeeps : ∀ {step : Interleaving.Step Tables}, step ∈ (runServer provider events).steps →
      ∀ key value, Consistent step.before ∧
        (Stores suite provider.master key value step.before →
          Stores suite provider.master key value (runServer provider events).state) ∧
        (Stores suite provider.master key value step.after →
          Stores suite provider.master key value (runServer provider events).state) := by
    intro step hstep key value
    exact hkept.path.keeps consistent_empty
      (fun _ _ hbefore hmoved => hmoved.consistent hbefore)
      (fun _ _ hbefore hmoved => hmoved.stores hsuite hbefore) hstep
  have hresolved : ∀ {index : Nat} {call : ApiCall suite} {found : MetadataResponse}
      {valueBase64 : String} {count : Nat}, (runServer provider events).tasks[index]? =
        some ⟨call, .done (.ok (.resolved found valueBase64), count)⟩ →
      ∃ value, Stores suite provider.master found.key value (runServer provider events).state ∧
        Base64.decode valueBase64.toList = some value := by
    intro index call found valueBase64 count htask
    obtain ⟨⟨before, after⟩, hstep, value, hstores, rfl⟩ :=
      ((hkept.done htask) _ rfl).resolved found valueBase64 rfl
    obtain ⟨step, hmem, _, rfl, rfl⟩ := System.mem_own.mp hstep
    refine ⟨value, (hkeeps hmem found.key value).2.1 hstores, ?_⟩
    rw [String.toList_ofList, Base64.decode_encode]
  constructor
  · intro index call found valueBase64 count htask
    obtain ⟨value, hstores, hdecode⟩ := hresolved htask
    obtain ⟨step, hstep, hnew, hkey⟩ := hkept.path.brought
      (fun tables => found.key ∈ tables.versions.map VersionRow.key) List.not_mem_nil
      hstores.mem_keys
    have hown : (step.before, step.after) ∈ (runServer provider events).own step.task :=
      System.mem_own.mpr ⟨step, hstep, rfl, rfl, rfl⟩
    obtain ⟨task, htask'⟩ := hkept.task_of_own hown
    obtain ⟨haddress, value', hsupplied, hstores'⟩ :=
      (hpromised step.task task htask').2 _ hown (hkeeps hstep found.key value).1 found.key hkey hnew
    have hsame := hstores.unique ((hkeeps hstep found.key value').2.2 hstores') hsuite hconsistent
    rw [hsame] at hsupplied
    exact ⟨step.task, task, value, htask', hsupplied, haddress, ⟨_, hown, hnew, hkey⟩, hdecode⟩
  · intro index source call call' body found found' valueBase64 count count' hsource hadds htask
      hkey
    obtain ⟨value, hstores, hdecode⟩ := hresolved htask
    obtain ⟨⟨before, after⟩, hstep, value', hsupplied, hstores'⟩ :=
      ((hkept.done hsource) body rfl).added found hadds
    obtain ⟨step, hmem, _, rfl, rfl⟩ := System.mem_own.mp hstep
    rw [hkey] at hstores
    have hsame := hstores.unique ((hkeeps hmem found.key value').2.2 hstores') hsuite hconsistent
    rw [hsame] at hsupplied
    exact ⟨value, hsupplied, hdecode⟩

end

theorem values_delivered_resolved :
    Delivered openProvider (runServer openProvider writtenAndResolved) :=
  values_delivered transparentSuite_decryptsOwn openProvider writtenAndResolved

end SecretsCustody
