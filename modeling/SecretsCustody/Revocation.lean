/-
Revocation is permanent.  A revoked row never changes and is never resolved or
replayed again, and once a whole secret is revoked only a version rotated in
afterwards resolves.
-/
import SecretsCustody.Provenance

namespace SecretsCustody

open History KeyedRows

section

variable {suite : CryptoSuite} {env : Env suite} {master : MasterKey} {before after : Tables}
variable {operation : Operation} {reply : Reply} {log : List Encryption} {row : VersionRow}

/-- The query for a row's version finds exactly that row. -/
def Holds (tables : Tables) (row : VersionRow) : Prop :=
  tables.selectVersion row.workspaceId row.secretId row.versionId = some row

theorem holds_of_mem {tables : Tables} (hconsistent : Consistent tables)
    (hrow : row ∈ tables.versions) : Holds tables row :=
  hconsistent.versionKeys.find_of_mem hrow

theorem Extends.keeps_revoked (hextends : Extends before after)
    (hrow : row ∈ before.versions) (hrevoked : row.status = SecretStatus.revoked.value) :
    row ∈ after.versions := by
  obtain ⟨row', hrow', _, hsame⟩ := hextends.versions row hrow
  rwa [hsame.eq_of_revoked hrevoked] at hrow'

/-- A resolution does not return a revoked row. -/
theorem ResolvedFrom.key_ne {tables : Tables} {secret : ResolvedSecret} {other : VersionRow}
    (hresolved : ResolvedFrom suite master tables operation secret other)
    (hconsistent : Consistent tables) (hrow : row ∈ tables.versions)
    (hrevoked : row.status = SecretStatus.revoked.value) : other.key ≠ row.key := by
  intro hkey
  have hsame := hconsistent.versionKeys.eq_of_key hresolved.stored hrow hkey
  have hactive := hresolved.active
  rw [hsame, hrevoked] at hactive
  exact absurd hactive (by decide)

/-- Nor does a call for a delegation key. -/
theorem Performs.generated_key_ne {generated : GeneratedDelegationKey}
    (hperforms : Performs env master before operation (.generated generated) after log)
    (hconsistent : Consistent before) (hrow : row ∈ before.versions)
    (hrevoked : row.status = SecretStatus.revoked.value) :
    generated.metadata.key ≠ row.key := by
  intro hkey
  cases hperforms with
  | generated _ _ _ hinsert =>
      cases hinsert with
      | intro _ _ _ hfresh =>
          exact hfresh (List.mem_map.mpr ⟨row, hrow, hkey.symm⟩)
  | generationReplayed _ _ _ hselect hregenerated =>
      obtain ⟨hchecked, _⟩ := regenerated_eq_ok.mp hregenerated
      have hdescribes := metadataFromRow_describes hchecked.reads
      have hsame := hconsistent.versionKeys.eq_of_key (Tables.selectVersion_eq_some hselect).1 hrow
        (hdescribes.key.symm.trans hkey)
      have hstatus := hdescribes.status
      rw [hsame, hrevoked] at hstatus
      exact hchecked.active (SecretStatus.value_injective hstatus).symm

/-- A generation whose version is revoked does not replay. -/
theorem Performs.not_replays {args : GenerateDelegationKey} {existing : GenerationRow}
    (hperforms : Performs env master before (.generateDelegationKey args) reply after log)
    (hconsistent : Consistent before) (hrow : row ∈ before.versions)
    (hrevoked : row.status = SecretStatus.revoked.value)
    (hexisting : before.generation args.workspaceId args.correlationId = some existing) :
    existing.target ≠ row.key := by
  intro htarget
  cases hperforms with
  | generated _ hfresh =>
      rw [hexisting] at hfresh
      cases hfresh
  | @generationReplayed _ _ secretRow generated hadmitted hfound hagrees hselect hregenerated
      hevent =>
      rw [hexisting] at hfound
      cases hfound
      have hkey : generated.metadata.key = row.key :=
        ((metadataFromRow_describes (regenerated_eq_ok.mp hregenerated).1.reads).key.trans
          (Tables.selectVersion_eq_some hselect).2).trans htarget
      exact Performs.generated_key_ne (.generationReplayed hadmitted hexisting hagrees hselect
        hregenerated hevent) hconsistent hrow hrevoked hkey

/-- `revoke_secret` leaves every version of the secret revoked. -/
theorem Performs.revokes_all {workspaceId secretId : String}
    (hperforms : Performs env master before (.revokeSecret workspaceId secretId) reply after log)
    (hconsistent : Consistent before) :
    (∃ row ∈ after.versions, row.address = (workspaceId, secretId)) ∧
      ∀ row ∈ after.versions, row.address = (workspaceId, secretId) →
        row.status = SecretStatus.revoked.value := by
  cases hperforms with
  | @revoked _ _ revoked _ _ hrows hrevokes =>
      have hmem : ∀ row ∈ before.allVersions workspaceId secretId, row ∈ before.versions :=
        fun row hrow => (Tables.mem_allVersions.mp hrow).1
      rcases hrevokes.effect (allVersions_unique hconsistent.versionKeys workspaceId secretId)
        hconsistent.versionKeys hmem (fun _ hwritten => hwritten) (fun _ hlater => hlater) with
        ⟨change, rfl, hsame, hsteps, hrevoked, _, _⟩
      have haddress : ∀ row ∈ before.versions, (change row).address = row.address := by
        intro row hrow
        by_cases hselected : row ∈ before.allVersions workspaceId secretId
        · exact (hsteps row hselected).sameVersion.address
        · rw [hsame row hselected]
      constructor
      · obtain ⟨row, hrow⟩ := List.exists_mem_of_ne_nil _ hrows
        obtain ⟨hstored, hat⟩ := Tables.mem_allVersions.mp hrow
        exact ⟨change row, List.mem_map_of_mem hstored, by rw [haddress row hstored, hat]⟩
      · intro row' hrow' hat
        obtain ⟨row, hrow, rfl⟩ := List.mem_map.mp hrow'
        rw [haddress row hrow] at hat
        obtain ⟨metadata, hreads, hstatus⟩ :=
          hrevoked row (Tables.mem_allVersions.mpr ⟨hrow, hat⟩)
        rw [(metadataFromRow_describes hreads).status, hstatus]

/-! ### Where a version comes from -/

/-- A row after a call is a row from before, or the call inserted it. -/
theorem VersionsEffect.origin
    (heffect : VersionsEffect env master before operation reply after log)
    (hrow : row ∈ after.versions) :
    (∃ row' ∈ before.versions, SameOrRevoked row' row ∧ SameVersion row' row) ∨
      ∃ insertion, inserted env operation reply = some insertion ∧ insertion.1.key = row.key := by
  rcases heffect.rows with ⟨change, added, hrows, hsteps, hadded⟩
  rw [hrows, List.mem_append] at hrow
  rcases hrow with hrow | hrow
  · obtain ⟨row', hrow', rfl⟩ := List.mem_map.mp hrow
    exact .inl ⟨row', hrow', (hsteps row' hrow').eq_or_revoked, (hsteps row' hrow').sameVersion⟩
  · cases hadded with
    | none => cases hrow
    | one hinserted =>
        rw [List.mem_singleton] at hrow
        subst hrow
        exact .inr ⟨_, hinserted, rfl⟩

/-- On a secret that has versions only a rotation inserts one. -/
theorem Performs.rotated_of_inserted
    (hperforms : Performs env master before operation reply after log)
    {insertion : SecretMetadata × Bytes} (hinserted : inserted env operation reply = some insertion)
    {workspaceId secretId : String} {n : Nat}
    (hnumbered : Numbered before (workspaceId, secretId) n) (hpositive : 1 ≤ n)
    (haddress : insertion.1.address = (workspaceId, secretId)) :
    ∃ labels intent, operation = .rotateSecret workspaceId secretId insertion.2 labels intent ∧
      reply = .metadata insertion.1 := by
  have hfirst : (workspaceId, secretId, (1 : Int)) ∈ before.versions.map VersionRow.numberKey :=
    hnumbered.mem_iff.mpr ⟨le_refl _, by omega⟩
  cases hperforms with
  | created hinsert =>
      cases hinserted
      cases hinsert with
      | intro _ _ _ _ hnumber =>
          cases haddress
          exact absurd hfirst hnumber
  | generated _ _ _ hinsert =>
      cases hinserted
      cases hinsert with
      | intro _ _ _ _ hnumber =>
          cases haddress
          exact absurd hfirst hnumber
  | rotated _ _ _ hinsert =>
      cases hinserted
      cases hinsert
      cases haddress
      exact ⟨_, _, rfl, rfl⟩
  | generationReplayed _ _ _ _ hregenerated =>
      rw [inserted, (regenerated_eq_ok.mp hregenerated).2] at hinserted
      cases hinserted
  | _ => cases hinserted

/-- A row is one of an earlier database, or a logged call inserted it. -/
def ComesFrom (tables : Tables) (steps : List (Step suite)) (row : VersionRow) : Prop :=
  (∃ row' ∈ tables.versions, SameOrRevoked row' row ∧ SameVersion row' row) ∨
    ∃ step ∈ steps, ∃ reply insertion, step.output.result = .ok reply ∧
      inserted step.input.env step.input.operation reply = some insertion ∧
      insertion.1.key = row.key

/-- Every row after a run comes from the start or from a call of the run. -/
theorem comesFrom_trace {tables : Tables} (hconsistent : Consistent tables)
    (calls : List (Call suite)) :
    Consistent (final perform tables calls) ∧
      ∀ row ∈ (final perform tables calls).versions,
        ComesFrom tables (trace perform tables calls) row := by
  refine @invariant_trace _ _ _ _ (fun steps current =>
    Consistent current ∧ ∀ row ∈ current.versions, ComesFrom tables steps row) _ _ ?_ ?_
  · exact ⟨hconsistent, fun row hrow => .inl ⟨row, hrow, .inl rfl, SameVersion.refl row⟩⟩
  · rintro steps current call _ ⟨hcurrent, horigin⟩
    refine ⟨perform_consistent call hcurrent, fun row hrow => ?_⟩
    have hkept : ∀ row' ∈ current.versions, SameOrRevoked row' row → SameVersion row' row →
        ComesFrom tables (steps ++ [entry perform current call]) row := by
      intro row' hrow' hstep hsame
      rcases horigin row' hrow' with ⟨first, hfirst, hstep', hsame'⟩ |
        ⟨step, hmem, reply, insertion, hresult, hinserted, hkey⟩
      · exact .inl ⟨first, hfirst, hstep'.trans hstep, hsame'.trans hsame⟩
      · exact .inr ⟨step, List.mem_append_left _ hmem, reply, insertion, hresult, hinserted,
          hkey.trans hsame.key.symm⟩
    rcases perform_cases current call with
      ⟨reply, hresult, hperforms⟩ | ⟨raised, _, _, hsame⟩
    · rcases (hperforms.versionsEffect hcurrent.versionKeys).origin hrow with
        ⟨row', hrow', hstep, hsame⟩ | ⟨insertion, hinserted, hkey⟩
      · exact hkept row' hrow' hstep hsame
      · exact .inr ⟨_, List.mem_append_right _ (List.mem_singleton_self _), reply, insertion,
          hresult, hinserted, hkey⟩
    · rw [hsame] at hrow
      exact hkept row hrow (.inl rfl) (SameVersion.refl row)

/-- After a whole secret was revoked, an active row of it came from a rotation. -/
theorem rotated_since {tables : Tables} (hgapless : Gapless tables) {workspaceId secretId : String}
    (hexists : ∃ row ∈ tables.versions, row.address = (workspaceId, secretId))
    (hrevoked : ∀ row ∈ tables.versions, row.address = (workspaceId, secretId) →
      row.status = SecretStatus.revoked.value)
    (calls : List (Call suite)) (hrow : row ∈ (final perform tables calls).versions)
    (haddress : row.address = (workspaceId, secretId))
    (hactive : row.status = SecretStatus.active.value) :
    ∃ step ∈ trace perform tables calls, ∃ value labels intent metadata,
      step.input.operation = .rotateSecret workspaceId secretId value labels intent ∧
        step.output.result = .ok (.metadata metadata) ∧ metadata.key = row.key := by
  rcases (comesFrom_trace hgapless.consistent calls).2 row hrow with
    ⟨row', hrow', hsame, hversion⟩ | ⟨step, hstep, reply, insertion, hresult, hinserted, hkey⟩
  · have hold := hrevoked row' hrow' (hversion.address.symm.trans haddress)
    rw [← hsame.eq_of_active hactive, hactive] at hold
    exact absurd hold (by decide)
  · refine ⟨step, hstep, ?_⟩
    obtain ⟨earlier, call, later, rfl, rfl⟩ := mem_trace hstep
    have hbefore : Gapless (final perform tables earlier) :=
      invariant_final hgapless fun _ call _ hinv => hinv.perform call
    obtain ⟨n, hnumbered⟩ := hbefore.numbered (workspaceId, secretId)
    have hpositive : 1 ≤ n := by
      obtain ⟨first, hfirst, hat⟩ := hexists
      obtain ⟨first', hfirst', hsame, _⟩ :=
        (final_extends hgapless.consistent earlier).versions first hfirst
      by_contra hzero
      exact hnumbered.eq_zero_iff.mp (by omega) first' hfirst' (hsame.address.trans hat)
    have hat : insertion.1.address = (workspaceId, secretId) := by
      have hpair : insertion.1.address = row.address := by
        have hparts := hkey
        simp only [SecretMetadata.key, VersionRow.key, Prod.mk.injEq] at hparts
        rw [SecretMetadata.address, VersionRow.address, hparts.1, hparts.2.1]
      exact hpair.trans haddress
    obtain ⟨labels, intent, hoperation, rfl⟩ :=
      (performs_of_ok hresult).rotated_of_inserted hinserted hnumbered hpositive hat
    exact ⟨insertion.2, labels, intent, insertion.1, hoperation, hresult, hkey⟩

/-! ### Executions -/

/-- What holds of the revoked versions of an execution. -/
structure RevocationPermanent (system : System Tables (Call suite) Outcome) : Prop where
  /-- A revoked row is never changed: every later query for it finds it. -/
  kept : ∀ earlier step later, system.log = earlier ++ step :: later →
    ∀ row ∈ step.after.versions, row.status = SecretStatus.revoked.value →
      Holds system.committed row ∧
        ∀ found ∈ later, Holds found.before row ∧ Holds found.after row
  /-- No later resolution returns it: each returns the bytes of another row. -/
  unresolved : ∀ earlier step later, system.log = earlier ++ step :: later →
    ∀ row ∈ step.after.versions, row.status = SecretStatus.revoked.value →
      ∀ found ∈ later, ∀ secret, found.output.result = .ok (.resolved secret) →
        ∃ other, ResolvedFrom suite found.input.master found.before found.input.operation
          secret other ∧ other.key ≠ row.key
  /-- No later replay of a generation that refers to it succeeds. -/
  unreplayed : ∀ earlier step later, system.log = earlier ++ step :: later →
    ∀ row ∈ step.after.versions, row.status = SecretStatus.revoked.value →
      ∀ found ∈ later, ∀ args existing,
        found.input.operation = .generateDelegationKey args →
        found.before.generation args.workspaceId args.correlationId = some existing →
        existing.target = row.key → ∃ raised, found.output.result = .error raised
  /-- After `revoke_secret` a resolution returns a version rotated in since. -/
  rotatedSince : ∀ earlier step middle found later,
    system.log = earlier ++ step :: (middle ++ found :: later) →
    ∀ workspaceId secretId reply secret,
      step.input.operation = .revokeSecret workspaceId secretId →
      step.output.result = .ok reply →
      found.input.operation.resolves = some (workspaceId, secretId) →
      found.output.result = .ok (.resolved secret) →
        ∃ rotation ∈ middle, ∃ value labels intent metadata,
          rotation.input.operation = .rotateSecret workspaceId secretId value labels intent ∧
            rotation.output.result = .ok (.metadata metadata) ∧
            metadata.key = secret.metadata.key

/-- Revocation is permanent, whatever the clients do. -/
theorem revocation_permanent (events : List (Event (Call suite))) :
    RevocationPermanent (runClients events) := by
  obtain ⟨calls, hlog, hcommitted⟩ := runClients_serial events
  have hkept : ∀ earlier step later, (runClients events).log = earlier ++ step :: later →
      ∀ row ∈ step.after.versions, row.status = SecretStatus.revoked.value →
        (Consistent (runClients events).committed ∧ row ∈ (runClients events).committed.versions) ∧
          ∀ found ∈ later, (Consistent found.before ∧ row ∈ found.before.versions) ∧
            (Consistent found.after ∧ row ∈ found.after.versions) ∧
              found = entry perform found.before found.input := by
    intro earlier step later hsplit row hrow hrevoked
    rw [hlog] at hsplit
    obtain ⟨first, call, second, rfl, rfl, rfl, rfl⟩ := trace_eq_append_cons hsplit
    have hafter := perform_consistent call (final_consistent first)
    have hlater : ∀ more : List (Call suite),
        Consistent (final perform (perform (final perform Tables.empty first) call).2 more) ∧
          row ∈ (final perform (perform (final perform Tables.empty first) call).2
            more).versions := by
      intro more
      refine ⟨?_, (final_extends hafter more).keeps_revoked hrow hrevoked⟩
      exact invariant_final hafter fun _ call _ hinv => perform_consistent call hinv
    constructor
    · rw [hcommitted, final_append]
      exact hlater second
    · intro found hfound
      obtain ⟨before, input, rest, rfl, rfl⟩ := mem_trace hfound
      refine ⟨hlater before, ?_, rfl⟩
      have hnext := hlater (before ++ [input])
      rw [final_append] at hnext
      exact hnext
  constructor
  · intro earlier step later hsplit row hrow hrevoked
    obtain ⟨⟨hconsistent, hmem⟩, hfound⟩ := hkept earlier step later hsplit row hrow hrevoked
    refine ⟨holds_of_mem hconsistent hmem, fun found hlater => ?_⟩
    obtain ⟨⟨hbefore, hmem⟩, ⟨hafter, hmem'⟩, _⟩ := hfound found hlater
    exact ⟨holds_of_mem hbefore hmem, holds_of_mem hafter hmem'⟩
  · intro earlier step later hsplit row hrow hrevoked found hlater secret hresult
    obtain ⟨⟨hbefore, hmem⟩, _, hentry⟩ :=
      (hkept earlier step later hsplit row hrow hrevoked).2 found hlater
    rw [hentry] at hresult
    obtain ⟨other, hresolved⟩ := (performs_of_ok hresult).resolves
    exact ⟨other, hresolved, hresolved.key_ne hbefore hmem hrevoked⟩
  · intro earlier step later hsplit row hrow hrevoked found hlater args existing hoperation
      hexisting htarget
    obtain ⟨⟨hbefore, hmem⟩, _, hentry⟩ :=
      (hkept earlier step later hsplit row hrow hrevoked).2 found hlater
    rw [hentry]
    rcases perform_cases found.before found.input with
      ⟨reply, _, hperforms⟩ | ⟨raised, hresult, _, _⟩
    · rw [hoperation] at hperforms
      exact absurd htarget (hperforms.not_replays hbefore hmem hrevoked hexisting)
    · exact ⟨raised, hresult⟩
  · intro earlier step middle found later hsplit workspaceId secretId reply secret hoperation
      hresult hresolves hsecret
    rw [hlog] at hsplit
    obtain ⟨first, call, second, rfl, rfl, rfl, hrest⟩ := trace_eq_append_cons hsplit
    obtain ⟨between, resolution, rest, rfl, rfl, rfl, rfl⟩ := trace_eq_append_cons hrest.symm
    have hbefore := final_gapless first
    have hperforms := performs_of_ok hresult
    change call.operation = _ at hoperation
    rw [hoperation] at hperforms
    obtain ⟨hexists, hrevoked⟩ := hperforms.revokes_all hbefore.consistent
    obtain ⟨row, hresolved⟩ := (performs_of_ok hsecret).resolves
    have haddress := Option.some.inj (hresolved.address.symm.trans hresolves)
    obtain ⟨rotation, hrotation, value, labels, intent, metadata, hrotated, hreturned, hkey⟩ :=
      rotated_since (hbefore.perform call) hexists hrevoked between hresolved.stored haddress
        hresolved.active
    exact ⟨rotation, hrotation, value, labels, intent, metadata, hrotated, hreturned,
      hkey.trans hresolved.key.symm⟩

end

end SecretsCustody
