/-
The store keeps the vault.  Whatever the clients do, every call of a run answers as the vault
answers, or is hindered and leaves the tables alone, and the tables represent the vault that
came of the answers.
-/
import SecretsCustody.Fidelity
import SecretsCustody.Selections
import SecretsCustody.VaultAnswers

namespace SecretsCustody

open Effect History Timelines

section

variable {suite : CryptoSuite} {vault : Vault} {tables : Tables}

/-! ### One call -/

theorem Answers.map {α β : Type} {env : Env suite} {master : MasterKey} {seals : Bytes → Prop}
    {log : List Encryption} {program : Tx Tables α} {answer : Except Raised (α × Vault)}
    (hanswers : Answers env master tables seals log program answer) (change : α → β) :
    Answers env master tables seals log (change <$> program)
      (answer.map fun answered => (change answered.1, answered.2)) := by
  refine Ends.map (Ends.mono hanswers ?_ ?_)
  · rintro value tables' _ ⟨vault', rfl, hrepresents⟩
    exact ⟨vault', rfl, hrepresents⟩
  · rintro raised _ _ (rfl | hhindered)
    · exact .inl rfl
    · exact .inr hhindered

theorem program_answers (hsuite : suite.DecryptsOwn) (hmaterial : suite.KeyMaterial)
    (hconsistent : Consistent tables) (hcoherent : Coherent tables)
    (hrepresents : Represents suite vault tables) (call : Call suite)
    (htells : vault.KeysTell suite call.master) :
    Answers call.env call.master tables (vault.Seals call) [] call.program (vault.answer call) := by
  rcases call with ⟨operation, master, env⟩
  cases operation with
  | createSecret workspaceId secretId value labels =>
      exact (createSecret_answers hsuite hrepresents).map _
  | rotateSecret workspaceId secretId value labels expectedIntent =>
      exact (rotateSecret_answers hsuite hrepresents).map _
  | revokeSecret workspaceId secretId =>
      exact (revokeSecret_answers hsuite hconsistent hrepresents htells).map _
  | revokeSecretVersion args =>
      exact (revokeSecretVersion_answers hsuite hconsistent hcoherent hrepresents htells).map _
  | generateDelegationKey args =>
      exact (generateDelegationKey_answers hsuite hmaterial hcoherent hrepresents htells).map _
  | resolveSecret workspaceId secretId versionId =>
      have hanswers : Answers env master tables (fun _ => False) []
          (resolveSecret suite env master workspaceId secretId versionId) _ :=
        resolveSecret_answers hrepresents htells
      have hmapped := hanswers.map Reply.resolved
      rwa [map_map] at hmapped
  | resolveSecretForUse args =>
      exact (resolveSecretForUse_answers hconsistent hrepresents htells).map _
  | metadata workspaceId secretId versionId =>
      have hanswers : Answers env master tables (fun _ => False) []
          (SecretsCustody.metadata suite env workspaceId secretId versionId) _ :=
        metadata_answers hrepresents
      have hmapped := hanswers.map Reply.metadata
      rwa [map_map] at hmapped

/-- A call answers as the vault, or is hindered and changes nothing. -/
theorem perform_answers (hsuite : suite.DecryptsOwn) (hmaterial : suite.KeyMaterial)
    (hconsistent : Consistent tables) (hcoherent : Coherent tables)
    (hrepresents : Represents suite vault tables) (call : Call suite)
    (htells : vault.KeysTell suite call.master) :
    ((perform tables call).1.result = vault.result call ∧
        Represents suite (vault.after call) (perform tables call).2) ∨
      ∃ raised, (perform tables call).1.result = .error raised ∧
        Hindered call.env call.master tables (vault.Seals call) raised ∧
        (perform tables call).2 = tables := by
  have hends := (program_answers hsuite hmaterial hconsistent hcoherent hrepresents call htells).and
    (program_ends call)
  unfold perform Vault.result Vault.after
  cases hrun : call.program.run { db := tables, executed := 0, encryptions := [] } with
  | ok reply finish =>
      obtain ⟨⟨vault', hanswer, hafter⟩, _⟩ := (hends 0).of_ok hrun
      left
      rw [hanswer]
      exact ⟨rfl, hafter⟩
  | error raised finish =>
      obtain ⟨hraised, _, hsame⟩ := (hends 0).of_error hrun
      rcases hraised with hanswer | hhindered
      · left
        rw [hanswer]
        refine ⟨rfl, ?_⟩
        change Represents suite vault finish.db
        rwa [hsame]
      · exact .inr ⟨raised, rfl, hhindered, hsame⟩

/-! ### Executions -/

/-- The steps are those of the vault, one after the other, except for hindered ones. -/
inductive Follows : Vault → List (Step suite) → Vault → Prop
  | nil {vault : Vault} : Follows vault [] vault
  | answered {vault last : Vault} {step : Step suite} {steps : List (Step suite)}
      (hresult : step.output.result = vault.result step.input)
      (hrest : Follows (vault.after step.input) steps last) : Follows vault (step :: steps) last
  | hindered {vault last : Vault} {step : Step suite} {steps : List (Step suite)}
      {raised : Raised} (hresult : step.output.result = .error raised)
      (hhindered : Hindered step.input.env step.input.master step.before
        (vault.Seals step.input) raised)
      (hafter : step.after = step.before) (hrest : Follows vault steps last) :
      Follows vault (step :: steps) last

/-- The calls of a run, each with its master key told from those that sealed the vault. -/
theorem follows_trace (hsuite : suite.DecryptsOwn) (hmaterial : suite.KeyMaterial)
    {calls : List (Call suite)} (hconsistent : Consistent tables) (hcoherent : Coherent tables)
    (hrepresents : Represents suite vault tables)
    (hvault : ∀ call ∈ calls, vault.KeysTell suite call.master)
    (hcalls : ∀ left ∈ calls, ∀ right ∈ calls,
      left.master.fingerprint suite = right.master.fingerprint suite →
        left.master.key = right.master.key) :
    ∃ last, Follows vault (trace perform tables calls) last ∧
      Represents suite last (final perform tables calls) := by
  induction calls generalizing tables vault with
  | nil => exact ⟨vault, .nil, hrepresents⟩
  | cons call calls ih =>
      have hnext := perform_consistent call hconsistent
      have hnext' := perform_coherent hconsistent hcoherent call
      have hrest : ∀ left ∈ calls, ∀ right ∈ calls,
          left.master.fingerprint suite = right.master.fingerprint suite →
            left.master.key = right.master.key :=
        fun left hleft right hright => hcalls left (List.mem_cons_of_mem call hleft) right
          (List.mem_cons_of_mem call hright)
      rcases perform_answers hsuite hmaterial hconsistent hcoherent hrepresents call
        (hvault call List.mem_cons_self) with
        ⟨hresult, hafter⟩ | ⟨raised, hresult, hhindered, hsame⟩
      · obtain ⟨last, hfollows, hlast⟩ := ih hnext hnext' hafter (fun later hlater home version
            hversion hopens => by
          rcases (vault.after_evolves call).sealedBy hversion with hsealed | ⟨old, hold, hsealed⟩
          · rw [hsealed]
            refine (hcalls call List.mem_cons_self later (List.mem_cons_of_mem call hlater) ?_).symm
            rw [← hsealed]
            exact hopens
          · rw [hsealed]
            refine hvault later (List.mem_cons_of_mem call hlater) home old hold ?_
            rw [Version.OpensTo, ← hsealed]
            exact hopens) hrest
        exact ⟨last, .answered hresult hfollows, hlast⟩
      · obtain ⟨last, hfollows, hlast⟩ := ih hnext hnext' (hsame.symm ▸ hrepresents)
          (fun later hlater => hvault later (List.mem_cons_of_mem call hlater)) hrest
        exact ⟨last, .hindered hresult hhindered hsame hfollows, hlast⟩

end

end SecretsCustody
