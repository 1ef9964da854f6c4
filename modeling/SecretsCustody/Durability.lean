/-
What is committed lasts.  Whatever processes start, stop, crash and are refused afterwards, the
rows stay, a version keeps its value, and whoever was admitted can be admitted again.
-/
import SecretsCustody.Delivery
import SecretsCustody.Deployments

namespace SecretsCustody

open Effect History

/-! ### One action -/

section

variable {suite : CryptoSuite} {action : CustodyAction suite} {tables : Tables}

/-- What an action changes is a call or a record. -/
theorem changeTables_cases (action : CustodyAction suite) (tables : Tables) :
    (∃ call, action = .store call ∧ changeTables action tables = (perform tables call).2) ∨
      (∃ record, RecordAdded record tables (changeTables action tables)) ∨
        changeTables action tables = tables := by
  cases action with
  | admitCustody admission => exact .inr (.inr rfl)
  | store call => exact .inl ⟨call, rfl, rfl⟩
  | append env record =>
      have hchange : changeTables (.append env record) tables =
          (runOn (append env record) tables).2 := by
        change (attempt (append env record) tables).2 = _
        unfold attempt runOn
        cases (append env record).run { db := tables, executed := 0, encryptions := [] } <;> rfl
      rw [hchange]
      rcases append_tables tables env record with hadded | hsame
      · exact .inr (.inl ⟨record, hadded⟩)
      · exact .inr (.inr hsame)
  | create env statement howned => exact .inr (.inr rfl)

theorem changeTables_extends (hconsistent : Consistent tables) (action : CustodyAction suite) :
    Extends tables (changeTables action tables) := by
  rcases changeTables_cases action tables with ⟨call, _, hcall⟩ | ⟨record, hadded⟩ | hsame
  · rw [hcall]
    exact perform_extends hconsistent call
  · exact hadded.extends
  · rw [hsame]
    exact Extends.refl tables

/-- An action under the same key leaves every version its value. -/
theorem changeTables_stores (hsuite : suite.DecryptsOwn) (hconsistent : Consistent tables)
    {master : MasterKey} (hkey : ∀ call, action = .store call → call.master.key = master.key)
    {key : String × String × String} {value : Bytes}
    (hstores : Stores suite master key value tables) :
    Stores suite master key value (changeTables action tables) := by
  rcases changeTables_cases action tables with ⟨call, haction, hcall⟩ | ⟨record, hadded⟩ | hsame
  · rw [hcall]
    exact perform_stores hsuite hconsistent call (hkey call haction) hstores
  · exact hadded.stores hstores
  · rwa [hsame]

end

/-! ### One event -/

section

variable {suite : CryptoSuite} {codec : ControlCodec} {deployment : Deployment suite codec}
variable {configured : App codec → Prop} {served : List (App codec)}
variable {custody : System Database (CustodyAction suite) CustodyOutcome}

/-- An event of the transactions commits nothing, or an action that is sanctioned. -/
theorem Ledger.committed_next (hledger : Ledger configured served custody)
    (event : Event (CustodyAction suite)) :
    (custody.next act CustodyAction.readsOnly event).committed = custody.committed ∨
      ∃ action : CustodyAction suite, Sanctioned configured served action ∧
        (custody.next act CustodyAction.readsOnly event).committed =
          (act custody.committed action).2 := by
  cases event with
  | begin client action =>
      left
      simp only [System.next]
      split <;> rfl
  | commit client =>
      cases hholder : custody.holder with
      | none =>
          left
          simp only [System.next, hholder]
      | some holder =>
          obtain ⟨hsnapshot, hsanctioned⟩ := hledger.held holder hholder
          simp only [System.next, hholder]
          split
          · exact .inr ⟨holder.input, hsanctioned, by rw [hsnapshot]⟩
          · exact .inl rfl
  | crash client =>
      left
      simp only [System.next]
      split
      · rfl
      · split <;> rfl
  | read client action =>
      left
      simp only [System.next]
      split <;> rfl

theorem stop_committed (process : Nat) :
    (deployment.stop process).custody.committed = deployment.custody.committed := by
  change (deployment.custody.next act CustodyAction.readsOnly (.crash process)).committed = _
  rw [System.next]
  split
  · rfl
  · split <;> rfl

theorem ask_committed (process : Nat) (action : CustodyAction suite) :
    (deployment.ask process action).custody.committed = deployment.custody.committed := by
  rw [Deployment.ask]
  split
  · simp only [Deployment.take, System.next]
    split <;> rfl
  · simp only [Deployment.take, System.next]
    split <;> rfl

theorem settle_custody (process : Nat) (app : App codec) (outcome : CustodyOutcome) :
    (deployment.settle process app outcome).custody = deployment.custody := by
  rw [Deployment.settle]
  split <;> rfl

theorem settle_served (process : Nat) (app : App codec) (outcome : CustodyOutcome) :
    deployment.served <+: (deployment.settle process app outcome).served := by
  rw [Deployment.settle]
  split
  · exact List.prefix_refl _
  · exact List.prefix_append _ _

/-- An event commits nothing, or an action that is sanctioned. -/
theorem Sound.committed_next (hsound : Sound configured deployment)
    (event : ProcessEvent suite codec) :
    (deployment.next event).custody.committed = deployment.custody.committed ∨
      ∃ action : CustodyAction suite, Sanctioned configured deployment.served action ∧
        (deployment.next event).custody.committed =
          (act deployment.custody.committed action).2 := by
  cases event with
  | start process launch =>
      left
      dsimp only [Deployment.next]
      split
      · next app _ hfree =>
          change ((deployment.stop process).custody.next act CustodyAction.readsOnly
            (.begin process (.admitCustody (launch.admission app)))).committed = _
          rw [System.next, hfree]
          exact stop_committed process
      · exact stop_committed process
  | call process operation env =>
      left
      dsimp only [Deployment.next]
      split
      · exact ask_committed process _
      · rfl
  | append process env record =>
      left
      dsimp only [Deployment.next]
      split
      · exact ask_committed process _
      · rfl
  | commit process =>
      dsimp only [Deployment.next]
      split
      · rw [settle_custody]
        exact hsound.ledger.committed_next (.commit process)
      · exact hsound.ledger.committed_next (.commit process)
  | stop process => exact .inl (stop_committed process)

theorem next_served (event : ProcessEvent suite codec) :
    deployment.served <+: (deployment.next event).served := by
  cases event with
  | start process launch =>
      dsimp only [Deployment.next]
      split <;> exact List.prefix_refl _
  | call process operation env =>
      dsimp only [Deployment.next]
      split <;> exact List.prefix_refl _
  | append process env record =>
      dsimp only [Deployment.next]
      split <;> exact List.prefix_refl _
  | commit process =>
      dsimp only [Deployment.next]
      split
      · exact @settle_served _ _ (deployment.take (.commit process)) process _ _
      · exact List.prefix_refl _
  | stop process => exact List.prefix_refl _

/-! ### Whole runs -/

/-- A later deployment has every row, every value and every process of an earlier one. -/
structure Endures (before after : Deployment suite codec) : Prop where
  tables : Extends before.custody.committed.tables after.custody.committed.tables
  binding : before.custody.committed.binding <+: after.custody.committed.binding
  served : before.served <+: after.served
  values : ∀ app ∈ before.served, ∀ key value,
    Stores suite app.master key value before.custody.committed.tables →
      Stores suite app.master key value after.custody.committed.tables

theorem Endures.refl (deployment : Deployment suite codec) : Endures deployment deployment where
  tables := Extends.refl _
  binding := List.prefix_refl _
  served := List.prefix_refl _
  values := fun _ _ _ _ hstores => hstores

theorem Endures.trans {first second third : Deployment suite codec}
    (hfirst : Endures first second) (hsecond : Endures second third) : Endures first third where
  tables := hfirst.tables.trans hsecond.tables
  binding := hfirst.binding.trans hsecond.binding
  served := hfirst.served.trans hsecond.served
  values := fun app happ key value hstores =>
    hsecond.values app (hfirst.served.subset happ) key value
      (hfirst.values app happ key value hstores)

theorem Sound.endures (hsound : Sound configured deployment) (hsuite : suite.DecryptsOwn)
    (hone : ∀ app ∈ deployment.served, ∀ app' ∈ deployment.served,
      app'.master.key = app.master.key)
    (event : ProcessEvent suite codec) : Endures deployment (deployment.next event) := by
  have hserved : deployment.served <+: (deployment.next event).served := next_served event
  rcases hsound.committed_next event with hsame | ⟨action, hsanctioned, hcommitted⟩
  · refine ⟨?_, ?_, hserved, ?_⟩
    · rw [hsame]
      exact Extends.refl _
    · rw [hsame]
    · intro app _ key value hstores
      rwa [hsame]
  · have hconsistent := hsound.ledger.sealedIn.consistent
    have htables := act_tables action (hsound.ledger.finds hsanctioned)
    refine ⟨?_, ?_, hserved, ?_⟩
    · rw [hcommitted, htables]
      exact changeTables_extends hconsistent action
    · rw [hcommitted]
      exact act_binding deployment.custody.committed action
    · intro app happ key value hstores
      rw [hcommitted, htables]
      refine changeTables_stores hsuite hconsistent ?_ hstores
      intro call hcall
      obtain ⟨caller, hcaller, hmaster⟩ := hsanctioned.calls call hcall
      rw [hmaster]
      exact hone app happ caller hcaller

theorem Sound.run_endures {events : List (ProcessEvent suite codec)}
    (hsound : Sound (Configures events) deployment) (hsuite : suite.DecryptsOwn)
    (hkeys : KeysApart events) {later : List (ProcessEvent suite codec)}
    (hlater : ∀ event ∈ later, event ∈ events) :
    Endures deployment (later.foldl Deployment.next deployment) := by
  induction later generalizing deployment with
  | nil => exact Endures.refl deployment
  | cons event later ih =>
      have hone : ∀ app ∈ deployment.served, ∀ app' ∈ deployment.served,
          app'.master.key = app.master.key :=
        fun _ happ _ happ' => congrArg Prod.fst (hsound.identity hkeys happ happ')
      refine (hsound.endures hsuite hone event).trans ?_
      apply ih (hsound.next_of_mem (hlater event List.mem_cons_self))
      exact fun other hother => hlater other (List.mem_cons_of_mem event hother)

end

/-- The process that came up writes, is stopped with another write under way, and starts again. -/
def comesBack : List (ProcessEvent transparentSuite byteCodec) :=
  [.call 0 (.createSecret "workspace" "first" [1] ⟨[], List.nodup_nil⟩) (plainEnv "a"), .commit 0,
    .call 0 (.createSecret "workspace" "second" [2] ⟨[], List.nodup_nil⟩) (plainEnv "b"),
    .stop 0, .start 0 plainLaunch, .commit 0]

end SecretsCustody
