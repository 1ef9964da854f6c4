/-
Processes that come and go on one database.  Each starts from settings of its own and serves with
the master key it loaded; those that came up have one identity, and every one of them reads what
the others stored.
-/
import SecretsCustody.Api
import SecretsCustody.Nonces
import SecretsCustody.Selections
import SecretsCustody.Startup

namespace SecretsCustody

open Effect History JsonText

/-- What the processes on a database can do.  A start takes the place of what ran before under
the same name; a process that serves asks its two stores; a stop loses an unfinished write.  A
start with a provider id that SQLite does not take is over at once, since its admission raises. -/
inductive ProcessEvent (suite : CryptoSuite) (codec : ControlCodec) where
  | start (process : Nat) (launch : Launch suite codec)
  | call (process : Nat) (operation : Operation) (env : Env suite)
  | append (process : Nat) (env : Env suite) (record : AuditRecord)
  | commit (process : Nat)
  | stop (process : Nat)

/-- A process is not there, has its admission under way, or serves. -/
inductive Phase (codec : ControlCodec) where
  | down
  | starting (app : App codec)
  | serving (app : App codec)

/-- A database and its transactions, the processes on it, and all that ever served. -/
structure Deployment (suite : CryptoSuite) (codec : ControlCodec) where
  custody : System Database (CustodyAction suite) CustodyOutcome
  phase : Nat → Phase codec
  served : List (App codec)

namespace Deployment

variable {suite : CryptoSuite} {codec : ControlCodec}

def initial : Deployment suite codec :=
  { custody := System.initial Database.objectFree, phase := fun _ => .down, served := [] }

def take (deployment : Deployment suite codec) (event : Event (CustodyAction suite)) :
    Deployment suite codec :=
  { deployment with custody := deployment.custody.next act CustodyAction.readsOnly event }

def turn (deployment : Deployment suite codec) (process : Nat) (phase : Phase codec) :
    Deployment suite codec :=
  { deployment with phase := Function.update deployment.phase process phase }

def stop (deployment : Deployment suite codec) (process : Nat) : Deployment suite codec :=
  (deployment.take (.crash process)).turn process .down

/-- A read needs no lock. -/
def ask (deployment : Deployment suite codec) (process : Nat) (action : CustodyAction suite) :
    Deployment suite codec :=
  deployment.take (if action.readsOnly then .read process action else .begin process action)

def count (deployment : Deployment suite codec) (app : App codec) : Deployment suite codec :=
  { deployment with served := deployment.served ++ [app] }

/-- How a start ends once its admission is committed. -/
def settle (deployment : Deployment suite codec) (process : Nat) (app : App codec)
    (outcome : CustodyOutcome) : Deployment suite codec :=
  match outcome.result with
  | .error _ => deployment.turn process .down
  | .ok () => (deployment.count app).turn process (.serving app)

def next (deployment : Deployment suite codec) : ProcessEvent suite codec → Deployment suite codec
  | .start process launch =>
      match launch.app, (deployment.stop process).custody.holder with
      | some app, none =>
          ((deployment.stop process).take
            (.begin process (.admitCustody (launch.admission app)))).turn process (.starting app)
      | _, _ => deployment.stop process
  | .call process operation env =>
      match deployment.phase process with
      | .serving app => deployment.ask process (.store ⟨operation, app.master, env⟩)
      | _ => deployment
  | .append process env record =>
      match deployment.phase process with
      | .serving _ => deployment.ask process (.append env record)
      | _ => deployment
  | .commit process =>
      match deployment.phase process, deployment.custody.holder with
      | .starting app, some holder =>
          (deployment.take (.commit process)).settle process app
            (act holder.snapshot holder.input).1
      | _, _ => deployment.take (.commit process)
  | .stop process => deployment.stop process

/-- A process starts and its admission commits. -/
def restart (deployment : Deployment suite codec) (process : Nat) (launch : Launch suite codec) :
    Deployment suite codec :=
  (deployment.next (.start process launch)).next (.commit process)

end Deployment

/-- A database without objects after the given events. -/
def deploy {suite : CryptoSuite} {codec : ControlCodec} (events : List (ProcessEvent suite codec)) :
    Deployment suite codec :=
  events.foldl Deployment.next Deployment.initial

section

variable {suite : CryptoSuite} {codec : ControlCodec} {deployment : Deployment suite codec}

/-- One of the processes that were started is to serve so. -/
def Configures (events : List (ProcessEvent suite codec)) (app : App codec) : Prop :=
  ∃ process launch, .start process launch ∈ events ∧ launch.app = some app

/-- Authenticated encryption tells the keys of the processes apart: none decrypts the custody
witness another encrypted. -/
def KeysApart (events : List (ProcessEvent suite codec)) : Prop :=
  ∀ app app', Configures events app → Configures events app' → ∀ nonce ciphertext,
    app.master.encrypt suite nonce custodyWitness (context app.providerId) = .ok ciphertext →
    app'.master.decrypt suite nonce ciphertext (context app.providerId) = some custodyWitness →
      app'.master.key = app.master.key

/-! ### The tables a process serves -/

/-- The tables the stores create. -/
def storeTables : List String :=
  ["secret_versions", "secret_resolution_selections", "secret_version_revocations",
    "delegation_key_generations", "audit_records"]

theorem storeTables_created : ∀ name ∈ storeTables,
    ∃ statement ∈ storeSchema ++ auditSchema,
      statement.kind = "table" ∧ statement.name = name := by
  decide +kernel

theorem Operation.tablesUsed_subset (operation : Operation) :
    ∀ name ∈ operation.tablesUsed, name ∈ storeTables := by
  cases operation <;> simp [Operation.tablesUsed, storeTables]

/-- In a declared schema a program finds its tables. -/
theorem onTables_declared {α : Type} {db : Database}
    (hdeclared : observedSchema db.schema = expectedSchema) {used : List String}
    (hused : ∀ name ∈ used, name ∈ storeTables) (missing : Raised) (program : Tx Tables α) :
    onTables used missing program db =
      ((runOn program db.tables).1, { db with tables := (runOn program db.tables).2 }) := by
  have hfound : used.all (named db.schema ["table"]) = true := by
    rw [List.all_eq_true]
    intro name hname
    obtain ⟨statement, howned, hkind, rfl⟩ := storeTables_created name (hused name hname)
    obtain ⟨object, hobject, hobjectKind, hobjectName⟩ := object_of_declared hdeclared howned
    rw [named, List.any_eq_true]
    refine ⟨object, hobject, ?_⟩
    rw [hobjectName, hobjectKind, hkind]
    simp
  rw [onTables, if_pos hfound]

/-- What a process does once it serves. -/
def CustodyAction.serves : CustodyAction suite → Bool
  | .store _ => true
  | .append _ _ => true
  | _ => false

/-- What an action does to tables that are there. -/
def changeTables : CustodyAction suite → Tables → Tables
  | .store call, tables => (perform tables call).2
  | .append env record, tables => (attempt (append env record) tables).2
  | _, tables => tables

theorem act_store {db : Database} (hdeclared : observedSchema db.schema = expectedSchema)
    (call : Call suite) :
    (act db (.store call)).1.result = (perform db.tables call).1.result.map (fun _ => ()) ∧
      (act db (.store call)).1.encryptions = (perform db.tables call).1.encryptions := by
  have hserved : act db (.store call) = _ :=
    onTables_declared hdeclared call.operation.tablesUsed_subset (.sqlite .operational)
      call.program
  rw [hserved]
  unfold runOn perform
  cases call.program.run { db := db.tables, executed := 0, encryptions := [] } <;> exact ⟨rfl, rfl⟩

/-- A step changes the tables as its action does, if it finds them where it needs them. -/
theorem act_tables {db : Database} (action : CustodyAction suite)
    (hdeclared : action.serves = true → observedSchema db.schema = expectedSchema) :
    (act db action).2.tables = changeTables action db.tables := by
  cases action with
  | admitCustody admission =>
      rcases admit_cases db admission with ⟨_, hadmitted⟩ | ⟨_, _, _, hsame⟩
      · by_cases hobserved : observedSchema db.schema = []
        · obtain ⟨_, _, hcreated⟩ := hadmitted.created hobserved
          exact hcreated.tables_eq
        · exact congrArg Database.tables (hadmitted.kept hobserved).1
      · exact congrArg Database.tables hsame
  | store call =>
      have hserved : act db (.store call) = _ :=
        onTables_declared (hdeclared rfl) call.operation.tablesUsed_subset (.sqlite .operational)
          call.program
      rw [hserved]
      exact runOn_program db.tables call
  | append env record =>
      have haudit : ∀ name ∈ ["audit_records"], name ∈ storeTables := by decide
      have hserved : act db (.append env record) = _ :=
        onTables_declared (hdeclared rfl) haudit .auditUnavailable (append env record)
      rw [hserved]
      change (runOn (append env record) db.tables).2 =
        (attempt (append env record) db.tables).2
      unfold runOn attempt
      cases (append env record).run { db := db.tables, executed := 0, encryptions := [] } <;> rfl
  | create env statement howned =>
      rcases create_cases db env statement howned with hsame | hcreate
      · exact congrArg Database.tables hsame
      · rw [(create_eq_ok hcreate).1]
        rfl

/-! ### What the events keep -/

/-- The admission is one a process asks for that serves as the app says. -/
structure Asks (admission : Admission suite) (app : App codec) : Prop where
  master : admission.master = app.master
  providerId : admission.providerId = app.providerId

/-- The processes asked for this: an admission of a configured one, or a call of one that
serves. -/
structure Sanctioned (configured : App codec → Prop) (served : List (App codec))
    (action : CustodyAction suite) : Prop where
  admits : ∀ admission, action = .admitCustody admission →
    ∃ app, configured app ∧ Asks admission app
  serves : action.serves = true → ∃ app, app ∈ served
  calls : ∀ call, action = .store call → ∃ app ∈ served, call.master = app.master

/-- A process that starts holds the lock for its own admission. -/
structure Starts (holder : Holder Database (CustodyAction suite)) (process : Nat)
    (app : App codec) : Prop where
  client : holder.client = process
  admission : ∃ admission, holder.input = .admitCustody admission ∧ Asks admission app

/-- What was done and is under way is sanctioned, and all that served were admitted. -/
structure Ledger (configured : App codec → Prop) (served : List (App codec))
    (custody : System Database (CustodyAction suite) CustodyOutcome) : Prop where
  custodial : Custodial custody.log custody.committed
  sealedIn : SealedIn custody.log custody.committed
  logged : ∀ step ∈ custody.log, Sanctioned configured served step.input
  stepped : ∀ step ∈ custody.log, step = entry act step.before step.input
  declared : ∀ step ∈ custody.log, step.input.serves = true →
    observedSchema step.before.schema = expectedSchema
  tables : custody.committed.tables =
    (custody.log.map Entry.input).foldl (fun tables action => changeTables action tables) Tables.empty
  held : ∀ holder, custody.holder = some holder →
    holder.snapshot = custody.committed ∧ Sanctioned configured served holder.input
  accepted : ∀ app ∈ served, ∃ step ∈ custody.log, ∃ admission,
    Accepts step admission ∧ Asks admission app

/-- The ledger is kept; a process that starts holds the lock, and one that serves is counted. -/
structure Sound (configured : App codec → Prop) (deployment : Deployment suite codec) : Prop where
  ledger : Ledger configured deployment.served deployment.custody
  starting : ∀ process app, deployment.phase process = .starting app →
    ∃ holder, deployment.custody.holder = some holder ∧ Starts holder process app
  serving : ∀ process app, deployment.phase process = .serving app → app ∈ deployment.served

section

variable {configured : App codec → Prop} {served : List (App codec)}
  {custody : System Database (CustodyAction suite) CustodyOutcome}

theorem Sanctioned.serve {action : CustodyAction suite}
    (hsanctioned : Sanctioned configured served action) (app : App codec) :
    Sanctioned configured (served ++ [app]) action := by
  refine ⟨hsanctioned.admits, ?_, ?_⟩
  · intro hserves
    obtain ⟨caller, hcaller⟩ := hsanctioned.serves hserves
    exact ⟨caller, List.mem_append_left _ hcaller⟩
  · intro call hcall
    obtain ⟨caller, hcaller, hmaster⟩ := hsanctioned.calls call hcall
    exact ⟨caller, List.mem_append_left _ hcaller, hmaster⟩

/-- Once a process served, the schema is the one the stores create. -/
theorem Ledger.finds (hledger : Ledger configured served custody) {action : CustodyAction suite}
    (hsanctioned : Sanctioned configured served action) (hserves : action.serves = true) :
    observedSchema custody.committed.schema = expectedSchema := by
  obtain ⟨app, happ⟩ := hsanctioned.serves hserves
  obtain ⟨step, hstep, admission, haccepts, _⟩ := hledger.accepted app happ
  exact (hledger.custodial.accepted step hstep admission haccepts).declared

/-- An action that is sanctioned was taken on the committed database. -/
theorem Ledger.took (hledger : Ledger configured served custody) {action : CustodyAction suite}
    (hsanctioned : Sanctioned configured served action)
    {after : System Database (CustodyAction suite) CustodyOutcome}
    (hlog : after.log = custody.log ++ [entry act custody.committed action])
    (hcommitted : after.committed = (act custody.committed action).2)
    (hheld : ∀ holder, after.holder = some holder →
      holder.snapshot = after.committed ∧ Sanctioned configured served holder.input) :
    Ledger configured served after where
  custodial := by
    rw [hlog, hcommitted]
    exact hledger.custodial.step action
  sealedIn := by
    rw [hlog, hcommitted]
    exact hledger.sealedIn.step action
  logged := by
    intro step hstep
    rw [hlog, List.mem_append, List.mem_singleton] at hstep
    rcases hstep with hold | rfl
    · exact hledger.logged step hold
    · exact hsanctioned
  stepped := by
    intro step hstep
    rw [hlog, List.mem_append, List.mem_singleton] at hstep
    rcases hstep with hold | rfl
    · exact hledger.stepped step hold
    · rfl
  declared := by
    intro step hstep hserves
    rw [hlog, List.mem_append, List.mem_singleton] at hstep
    rcases hstep with hold | rfl
    · exact hledger.declared step hold hserves
    · exact hledger.finds hsanctioned hserves
  tables := by
    rw [hlog, hcommitted, act_tables action (hledger.finds hsanctioned), hledger.tables,
      List.map_append, List.foldl_append]
    rfl
  held := hheld
  accepted := by
    intro app happ
    obtain ⟨step, hstep, haccepted⟩ := hledger.accepted app happ
    exact ⟨step, hlog ▸ List.mem_append_left _ hstep, haccepted⟩

theorem Ledger.next (hledger : Ledger configured served custody)
    (event : Event (CustodyAction suite))
    (hasked : ∀ client action, event = .begin client action ∨ event = .read client action →
      Sanctioned configured served action) :
    Ledger configured served (custody.next act CustodyAction.readsOnly event) := by
  cases event with
  | begin client action =>
      cases hholder : custody.holder with
      | some holder =>
          simp only [System.next, hholder]
          exact hledger
      | none =>
          simp only [System.next, hholder]
          refine { hledger with held := ?_ }
          rintro _ ⟨⟩
          exact ⟨rfl, hasked client action (.inl rfl)⟩
  | commit client =>
      cases hholder : custody.holder with
      | none =>
          simp only [System.next, hholder]
          exact hledger
      | some holder =>
          obtain ⟨hsnapshot, hsanctioned⟩ := hledger.held holder hholder
          simp only [System.next, hholder]
          split
          · rw [hsnapshot]
            refine hledger.took hsanctioned rfl rfl ?_
            rintro _ ⟨⟩
          · exact hledger
  | crash client =>
      cases hholder : custody.holder with
      | none =>
          simp only [System.next, hholder]
          exact hledger
      | some holder =>
          simp only [System.next, hholder]
          split
          · refine { hledger with held := ?_ }
            rintro _ ⟨⟩
          · exact hledger
  | read client action =>
      simp only [System.next]
      split
      · next hreads =>
          exact hledger.took (hasked client action (.inr rfl)) rfl
            (act_readsOnly custody.committed action hreads).symm hledger.held
      · exact hledger

/-- One more process serves, once its admission is accepted. -/
theorem Ledger.serve (hledger : Ledger configured served custody) {app : App codec}
    (haccepted : ∃ step ∈ custody.log, ∃ admission, Accepts step admission ∧
      Asks admission app) : Ledger configured (served ++ [app]) custody where
  custodial := hledger.custodial
  sealedIn := hledger.sealedIn
  logged := fun step hstep => (hledger.logged step hstep).serve app
  stepped := hledger.stepped
  declared := hledger.declared
  tables := hledger.tables
  held := fun holder hholder =>
    ⟨(hledger.held holder hholder).1, (hledger.held holder hholder).2.serve app⟩
  accepted := by
    intro found hfound
    rcases List.mem_append.mp hfound with hold | hnew
    · exact hledger.accepted found hold
    · rwa [List.mem_singleton.mp hnew]

theorem sound_initial : Sound configured (Deployment.initial : Deployment suite codec) := by
  refine ⟨⟨⟨.inl rfl, ?_⟩, ⟨consistent_empty, ?_, ?_⟩, ?_, ?_, ?_, rfl, ?_, ?_⟩, ?_, ?_⟩
  · rintro step ⟨⟩
  · rintro row ⟨⟩
  · rintro row ⟨⟩
  · rintro step ⟨⟩
  · rintro step ⟨⟩
  · rintro step ⟨⟩
  · rintro holder ⟨⟩
  · rintro app ⟨⟩
  · rintro process app ⟨⟩
  · rintro process app ⟨⟩

theorem Sound.take (hsound : Sound configured deployment) {event : Event (CustodyAction suite)}
    (hasked : ∀ client action, event = .begin client action ∨ event = .read client action →
      Sanctioned configured deployment.served action) :
    Ledger configured (deployment.take event).served (deployment.take event).custody :=
  hsound.ledger.next event hasked

/-- A turn of one process, with what the new phase needs. -/
theorem Sound.turn {process : Nat} {phase : Phase codec}
    (hledger : Ledger configured deployment.served deployment.custody)
    (hothers : ∀ other, other ≠ process → ∀ app, deployment.phase other = .starting app →
      ∃ holder, deployment.custody.holder = some holder ∧ Starts holder other app)
    (hserving : ∀ other app, deployment.phase other = .serving app → app ∈ deployment.served)
    (hstarting : ∀ app, phase = .starting app →
      ∃ holder, deployment.custody.holder = some holder ∧ Starts holder process app)
    (hserves : ∀ app, phase = .serving app → app ∈ deployment.served) :
    Sound configured (deployment.turn process phase) where
  ledger := hledger
  starting := by
    intro other app hphase
    change Function.update deployment.phase process phase other = .starting app at hphase
    by_cases hsame : other = process
    · subst hsame
      rw [Function.update_self] at hphase
      exact hstarting app hphase
    · rw [Function.update_of_ne hsame] at hphase
      exact hothers other hsame app hphase
  serving := by
    intro other app hphase
    change Function.update deployment.phase process phase other = .serving app at hphase
    by_cases hsame : other = process
    · subst hsame
      rw [Function.update_self] at hphase
      exact hserves app hphase
    · rw [Function.update_of_ne hsame] at hphase
      exact hserving other app hphase

theorem Sound.stop (hsound : Sound configured deployment) (process : Nat) :
    Sound configured (deployment.stop process) := by
  apply Sound.turn
  · apply hsound.take
    rintro client action (⟨⟨⟩⟩ | ⟨⟨⟩⟩)
  · intro other hother app hphase
    obtain ⟨holder, hholder, hstarts⟩ := hsound.starting other app hphase
    refine ⟨holder, ?_, hstarts⟩
    -- The lock is the other's, so the crash does not touch it.
    have hclient : holder.client ≠ process := hstarts.client ▸ hother
    simp only [Deployment.take, System.next, hholder, if_neg hclient]
  · exact hsound.serving
  · rintro app ⟨⟩
  · rintro app ⟨⟩

/-- No process has its admission under way when no one holds the lock. -/
theorem Sound.begin (hsound : Sound configured deployment)
    (hfree : deployment.custody.holder = none) {process : Nat} {action : CustodyAction suite}
    (hsanctioned : Sanctioned configured deployment.served action) :
    Sound configured (deployment.take (.begin process action)) where
  ledger := by
    apply hsound.take
    rintro client asked (⟨⟨⟩⟩ | ⟨⟨⟩⟩)
    exact hsanctioned
  starting := by
    intro other app hphase
    obtain ⟨holder, hholder, _⟩ := hsound.starting other app hphase
    rw [hfree] at hholder
    cases hholder
  serving := hsound.serving

theorem Sound.ask (hsound : Sound configured deployment) {process : Nat}
    {action : CustodyAction suite}
    (hsanctioned : Sanctioned configured deployment.served action) :
    Sound configured (deployment.ask process action) := by
  rw [Deployment.ask]
  split
  · next hreads =>
      refine ⟨?_, ?_, hsound.serving⟩
      · apply hsound.take
        rintro client asked (⟨⟨⟩⟩ | ⟨⟨⟩⟩)
        exact hsanctioned
      · intro other app hphase
        simp only [Deployment.take, System.next, if_pos hreads]
        exact hsound.starting other app hphase
  · cases hholder : deployment.custody.holder with
    | none => exact hsound.begin hholder hsanctioned
    | some holder =>
        have hsame : deployment.take (.begin process action) = deployment := by
          simp only [Deployment.take, System.next, hholder]
        rw [hsame]
        exact hsound

/-- The ledger after a commit, and what became of the other processes that start: none did. -/
theorem Sound.commit (hsound : Sound configured deployment) (process : Nat) :
    Ledger configured deployment.served (deployment.take (.commit process)).custody ∧
      ∀ other, other ≠ process → ∀ app, deployment.phase other = .starting app →
        ∃ holder, (deployment.take (.commit process)).custody.holder = some holder ∧
          Starts holder other app := by
  constructor
  · apply hsound.take
    rintro client asked (⟨⟨⟩⟩ | ⟨⟨⟩⟩)
  · intro other hother app hphase
    obtain ⟨holder, hholder, hstarts⟩ := hsound.starting other app hphase
    have hclient : holder.client ≠ process := hstarts.client ▸ hother
    refine ⟨holder, ?_, hstarts⟩
    simp only [Deployment.take, System.next, hholder, if_neg hclient]

/-- How a start ends: the lock was its own, so what it committed is its admission. -/
theorem Sound.settle (hsound : Sound configured deployment) {process : Nat} {app : App codec}
    (hphase : deployment.phase process = .starting app)
    {holder : Holder Database (CustodyAction suite)}
    (hholder : deployment.custody.holder = some holder) :
    Sound configured ((deployment.take (.commit process)).settle process app
      (act holder.snapshot holder.input).1) := by
  obtain ⟨hledger, hothers⟩ := hsound.commit process
  obtain ⟨found, hfound, hstarts⟩ := hsound.starting process app hphase
  rw [hholder, Option.some.injEq] at hfound
  subst hfound
  obtain ⟨admission, hinput, hasks⟩ := hstarts.admission
  rw [Deployment.settle]
  split
  · apply Sound.turn
    · exact hledger
    · exact hothers
    · exact hsound.serving
    · rintro other ⟨⟩
    · rintro other ⟨⟩
  · next hresult =>
      apply Sound.turn
      · apply hledger.serve
        refine ⟨entry act holder.snapshot holder.input, ?_, admission, ⟨hinput, hresult⟩, hasks⟩
        simp only [Deployment.take, System.next, hholder, if_pos hstarts.client]
        exact List.mem_append_right _ (List.mem_singleton_self _)
      · exact hothers
      · exact fun other found hserving => List.mem_append_left _ (hsound.serving other found hserving)
      · rintro other ⟨⟩
      · rintro other ⟨⟩
        exact List.mem_append_right _ (List.mem_singleton_self app)

theorem Sound.next (hsound : Sound configured deployment) (event : ProcessEvent suite codec)
    (hconfigured : ∀ process launch app, event = .start process launch →
      launch.app = some app → configured app) :
    Sound configured (deployment.next event) := by
  cases event with
  | start process launch =>
      have hstopped := hsound.stop process
      dsimp only [Deployment.next]
      split
      · next app happ hfree =>
          have hasks : Asks (launch.admission app) app := ⟨rfl, rfl⟩
          have hbegun : Sound configured ((deployment.stop process).take
              (.begin process (.admitCustody (launch.admission app)))) := by
            refine hstopped.begin hfree ⟨?_, ?_, ?_⟩
            · rintro _ ⟨⟩
              exact ⟨app, hconfigured process launch app rfl happ, hasks⟩
            · rintro ⟨⟩
            · rintro _ ⟨⟩
          apply Sound.turn hbegun.ledger (fun other _ => hbegun.starting other) hbegun.serving
          · rintro _ ⟨⟩
            refine ⟨⟨process, .admitCustody (launch.admission app),
              (deployment.stop process).custody.committed⟩, ?_, rfl, _, rfl, hasks⟩
            simp only [Deployment.take, System.next, hfree]
          · rintro _ ⟨⟩
      · exact hstopped
  | call process operation env =>
      dsimp only [Deployment.next]
      split
      · next app hphase =>
          have hserved := hsound.serving process app hphase
          refine hsound.ask ⟨?_, fun _ => ⟨app, hserved⟩, ?_⟩
          · rintro _ ⟨⟩
          · rintro _ ⟨⟩
            exact ⟨app, hserved, rfl⟩
      · exact hsound
  | append process env record =>
      dsimp only [Deployment.next]
      split
      · next app hphase =>
          refine hsound.ask ⟨?_, fun _ => ⟨app, hsound.serving process app hphase⟩, ?_⟩
          · rintro _ ⟨⟩
          · rintro _ ⟨⟩
      · exact hsound
  | commit process =>
      dsimp only [Deployment.next]
      split
      · next app holder hphase hholder => exact hsound.settle hphase hholder
      · next hnone =>
          obtain ⟨hledger, hothers⟩ := hsound.commit process
          refine ⟨hledger, ?_, hsound.serving⟩
          intro other app hphase
          by_cases hsame : other = process
          · subst hsame
            obtain ⟨holder, hholder, _⟩ := hsound.starting other app hphase
            exact absurd hholder (hnone app holder hphase)
          · exact hothers other hsame app hphase
  | stop process => exact hsound.stop process

end

section

variable {events : List (ProcessEvent suite codec)}

theorem Sound.next_of_mem (hsound : Sound (Configures events) deployment)
    {event : ProcessEvent suite codec} (hevent : event ∈ events) :
    Sound (Configures events) (deployment.next event) := by
  apply hsound.next
  rintro process launch app rfl happ
  exact ⟨process, launch, hevent, happ⟩

theorem Sound.run (hsound : Sound (Configures events) deployment)
    {later : List (ProcessEvent suite codec)} (hlater : ∀ event ∈ later, event ∈ events) :
    Sound (Configures events) (later.foldl Deployment.next deployment) := by
  induction later generalizing deployment with
  | nil => exact hsound
  | cons event later ih =>
      apply ih (hsound.next_of_mem (hlater event List.mem_cons_self))
      exact fun other hother => hlater other (List.mem_cons_of_mem event hother)

end

theorem deploy_sound (events : List (ProcessEvent suite codec)) :
    Sound (Configures events) (deploy events) :=
  sound_initial.run fun _ hevent => hevent

/-! ### What holds of the processes -/

variable {events : List (ProcessEvent suite codec)}

theorem Sound.keysCommit (hsound : Sound (Configures events) deployment)
    (hkeys : KeysApart events) : KeysCommit deployment.custody.log := by
  intro made hmade tried htried creator admission hcreator hadmission nonce ciphertext hencrypt
    hdecrypt
  obtain ⟨app, happ, hasks⟩ := (hsound.ledger.logged made hmade).admits creator hcreator
  obtain ⟨app', happ', hasks'⟩ := (hsound.ledger.logged tried htried).admits admission hadmission
  rw [hasks.master, hasks.providerId] at hencrypt
  rw [hasks'.master, hasks.providerId] at hdecrypt
  rw [hasks.master, hasks'.master]
  exact hkeys app app' happ happ' nonce ciphertext hencrypt hdecrypt

theorem Asks.identity {admission : Admission suite} {app : App codec}
    (hasks : Asks admission app) : admission.identity = app.identity := by
  rw [Admission.identity, App.identity, hasks.master, hasks.providerId]

/-- Every process that came up has the same identity. -/
theorem Sound.identity (hsound : Sound (Configures events) deployment) (hkeys : KeysApart events)
    {app app' : App codec} (happ : app ∈ deployment.served) (happ' : app' ∈ deployment.served) :
    app'.identity = app.identity := by
  obtain ⟨step, hstep, admission, haccepts, hasks⟩ := hsound.ledger.accepted app happ
  obtain ⟨step', hstep', admission', haccepts', hasks'⟩ := hsound.ledger.accepted app' happ'
  rw [← hasks.identity, ← hasks'.identity]
  exact hsound.ledger.custodial.identity (hsound.keysCommit hkeys) hstep hstep' haccepts haccepts'

/-- Every version holds an encryption that a process made for it, and every process decrypts
it. -/
theorem Sound.reads (hsound : Sound (Configures events) deployment) (hkeys : KeysApart events)
    (hsuite : suite.DecryptsOwn) {app : App codec} (happ : app ∈ deployment.served)
    {row : VersionRow} (hrow : row ∈ deployment.custody.committed.tables.versions) :
    ∃ step ∈ deployment.custody.log, ∃ encryption ∈ step.output.encryptions,
      (∃ metadata, Seals suite encryption row metadata) ∧
        decryptRow suite app.master row = .ok encryption.plaintext := by
  obtain ⟨step, hstep, call, hinput, encryption, hencryption, hunder⟩ :=
    hsound.ledger.sealedIn.versions row hrow
  obtain ⟨caller, hcaller, hmaster⟩ := (hsound.ledger.logged step hstep).calls call hinput
  have hkey : app.master.key = call.master.key := by
    rw [hmaster]
    exact congrArg Prod.fst (hsound.identity hkeys hcaller happ)
  obtain ⟨metadata, hseals, _⟩ := hunder.seals
  refine ⟨step, hstep, encryption, hencryption, ⟨metadata, hseals⟩, ?_⟩
  rw [decryptRow_congr hkey]
  exact hunder.decrypts hsuite

/-- A stop loses the write that is under way, if it is its own. -/
theorem stop_custody {process : Nat}
    (hown : ∀ holder, deployment.custody.holder = some holder → holder.client = process) :
    (deployment.stop process).custody = { deployment.custody with holder := none } := by
  change deployment.custody.next act CustodyAction.readsOnly (.crash process) = _
  rw [System.next]
  cases hholder : deployment.custody.holder with
  | none => exact congrArg (System.mk deployment.custody.committed · deployment.custody.log) hholder
  | some holder => exact if_pos (hown holder hholder)

/-- A configured process comes up where its admission is accepted. -/
theorem start_of_accepts {launch : Launch suite codec} {app : App codec} {db : Database}
    (hserves : launch.app = some app)
    (haccepts : Accepts (entry act db (.admitCustody (launch.admission app)))
      (launch.admission app)) :
    launch.start db = (.ok app, (act db (.admitCustody (launch.admission app))).2) :=
  start_eq_ok.mpr ⟨hserves, haccepts.2, rfl⟩

theorem next_commit {process : Nat} {app : App codec}
    {holder : Holder Database (CustodyAction suite)}
    (hphase : deployment.phase process = .starting app)
    (hholder : deployment.custody.holder = some holder) :
    deployment.next (.commit process) =
      (deployment.take (.commit process)).settle process app
        (act holder.snapshot holder.input).1 := by
  rw [Deployment.next, hphase, hholder]

/-- A start that would be accepted on the committed database serves once it commits, unless
another process holds the lock. -/
theorem restart_serves {process : Nat} {launch : Launch suite codec} {app : App codec}
    {db' : Database}
    (hown : ∀ holder, deployment.custody.holder = some holder → holder.client = process)
    (hstart : launch.start deployment.custody.committed = (.ok app, db')) :
    (deployment.restart process launch).phase process = .serving app ∧
      (deployment.restart process launch).custody.committed = db' ∧
      (deployment.restart process launch).served = deployment.served ++ [app] := by
  obtain ⟨hserves, hresult, hdb⟩ := start_eq_ok.mp hstart
  have hcustody := stop_custody hown
  have hstarted : deployment.next (.start process launch) =
      ((deployment.stop process).take
        (.begin process (.admitCustody (launch.admission app)))).turn process (.starting app) := by
    rw [Deployment.next, hserves, hcustody]
  have hbegun : (deployment.next (.start process launch)).custody =
      { deployment.custody with
        holder := some ⟨process, .admitCustody (launch.admission app),
          deployment.custody.committed⟩ } := by
    rw [hstarted]
    change (deployment.stop process).custody.next act CustodyAction.readsOnly
      (.begin process (.admitCustody (launch.admission app))) = _
    rw [hcustody]
    rfl
  have hphase : (deployment.next (.start process launch)).phase process = .starting app := by
    rw [hstarted]
    exact Function.update_self process _ _
  have hserved : (deployment.next (.start process launch)).served = deployment.served := by
    rw [hstarted]
    rfl
  rw [Deployment.restart, next_commit hphase (congrArg System.holder hbegun), Deployment.settle]
  dsimp only
  rw [hresult]
  refine ⟨Function.update_self process _ _, ?_, congrArg (· ++ [app]) hserved⟩
  change ((deployment.next (.start process launch)).custody.next act CustodyAction.readsOnly
    (.commit process)).committed = db'
  rw [hbegun, System.next]
  simp only [if_pos]
  exact hdb

/-- On a database in the custody of its identity a process comes up and changes nothing. -/
theorem Sound.startsAgain (hsound : Sound (Configures events) deployment) {app : App codec}
    (happ : app ∈ deployment.served) {launch : Launch suite codec} {app' : App codec}
    (hserves : launch.app = some app') (hidentity : app'.identity = app.identity)
    (hpath : launch.path = .usable) (hfaultless : launch.env.Faultless) :
    launch.start deployment.custody.committed = (.ok app', deployment.custody.committed) := by
  obtain ⟨step, hstep, admission, haccepts, hasks⟩ := hsound.ledger.accepted app happ
  have hcustody := hsound.ledger.custodial.accepted step hstep admission haccepts
  have hsame : (launch.admission app').identity = admission.identity :=
    hidentity.trans hasks.identity.symm
  obtain ⟨hresult, hdb⟩ := admit_again hcustody hsame hpath hfaultless
  exact start_eq_ok.mpr ⟨hserves, hresult, hdb⟩

/-- What holds of a deployment, whatever its processes did. -/
structure Deployed (deployment : Deployment suite codec) : Prop where
  /-- All that ever served have one key and one provider id. -/
  identity : ∀ app ∈ deployment.served, ∀ app' ∈ deployment.served,
    app'.identity = app.identity
  /-- Every version decrypts, under the key of any of them, to what one of them encrypted. -/
  reads : ∀ app ∈ deployment.served, ∀ row ∈ deployment.custody.committed.tables.versions,
    ∃ step ∈ deployment.custody.log, ∃ encryption ∈ step.output.encryptions,
      (∃ metadata, Seals suite encryption row metadata) ∧
        decryptRow suite app.master row = .ok encryption.plaintext
  /-- A process that starts with that identity serves, and the database stays as it is. -/
  again : ∀ app ∈ deployment.served, ∀ process (launch : Launch suite codec) app',
    launch.app = some app' → app'.identity = app.identity → launch.path = .usable →
      launch.env.Faultless →
        (∀ holder, deployment.custody.holder = some holder → holder.client = process) →
          (deployment.restart process launch).phase process = .serving app' ∧
            (deployment.restart process launch).custody.committed = deployment.custody.committed

/-- The tables of a deployment are those of its calls and records alone: what starts, stops and
crashes leaves no trace in them, and every call finds them and is answered as on them. -/
structure Replayed (deployment : Deployment suite codec) : Prop where
  calls : ∀ step ∈ deployment.custody.log, ∀ call, step.input = .store call →
    step.output.result = (perform step.before.tables call).1.result.map (fun _ => ()) ∧
      step.output.encryptions = (perform step.before.tables call).1.encryptions
  steps : ∀ step ∈ deployment.custody.log,
    step.after.tables = changeTables step.input step.before.tables
  tables : deployment.custody.committed.tables =
    (deployment.custody.log.map Entry.input).foldl (fun tables action => changeTables action tables)
      Tables.empty

theorem deployments_replay (events : List (ProcessEvent suite codec)) :
    Replayed (deploy events) := by
  have hledger := (deploy_sound events).ledger
  refine ⟨?_, ?_, hledger.tables⟩
  · intro step hstep call hinput
    have hdeclared := hledger.declared step hstep (by rw [hinput]; rfl)
    rw [hledger.stepped step hstep, hinput]
    exact act_store hdeclared call
  · intro step hstep
    rw [hledger.stepped step hstep]
    exact act_tables step.input (hledger.declared step hstep)

end

/-! ### A process that comes up -/

/-- The key file of the key of zeros. -/
def plainKeyFile : OpenedFile where
  regular := true
  mode := 0o600
  size := 44
  content := encodeUtf8 "AAAAAAAAAAAAAAAAAAAAAAAAAAAAAAAAAAAAAAAAAAA="
  available := fun _ => some 44
  closes := true

def plainControlFile : ControlFile where
  regular := true
  mode := 0o444
  before := ⟨1, 0, 0⟩
  content := some [1]
  after := some ⟨1, 0, 0⟩
  closes := true

def plainSettings : List (String × PyStr) :=
  [("CPK_SECRETS_DATABASE_PATH", codes "/db"),
    (controlConfigurationEnvironment, codes "/control"),
    ("CPK_SECRETS_MASTER_KEY_FILE", codes "/key"),
    ("CPK_SECRETS_DEVELOPMENT_CREDENTIALS_JSON", codes "[]")]

def plainLaunch : Launch transparentSuite byteCodec where
  environment := fun name => plainSettings.lookup name
  controlFiles := fun _ => some plainControlFile
  files := fun _ => some plainKeyFile
  installs := fun _ => true
  path := .usable
  env := plainEnv "admission"

def plainApp : App byteCodec where
  control := true
  providerId := "local-dev-provider"
  master := ⟨List.replicate 32 0, "local"⟩
  credentials := []

def plainConfigured : Settings byteCodec where
  control := true
  providerId := codes "local-dev-provider"
  master := ⟨List.replicate 32 0, "local"⟩
  credentials := []

theorem plainLaunch_configure : plainLaunch.configure = .ok plainConfigured := by
  refine (configure_eq_ok byteCodec_lawful).mpr ⟨rfl, ?_, rfl, ?_, rfl, ?_, rfl⟩
  · refine ⟨codes "/control", plainControlFile, [1], rfl, ⟨rfl, by decide, "/control", rfl, by decide⟩,
      rfl, ⟨rfl, rfl, by decide, rfl, rfl, rfl⟩, rfl, rfl⟩
  · exact KeyFile.written (by decide) rfl ⟨rfl, by decide, rfl, rfl, fun _ => rfl, rfl⟩ (by decide)
      (by decide)
  · have hnone : NoRepeats (.arr []) := noRepeats_arr.mpr fun _ hitem => (nomatch hitem)
    exact .development rfl rfl ⟨⟨"[]", [], rfl, by decide, rfl, hnone, .nil⟩, List.nodup_nil⟩

theorem plainLaunch_app : plainLaunch.app = some plainApp := by
  refine app_eq_some.mpr ⟨_, plainLaunch_configure, ?_⟩
  rw [Settings.app, plainConfigured, scalarText_codes]
  rfl

def comesUp : List (ProcessEvent transparentSuite byteCodec) :=
  [.start 0 plainLaunch, .commit 0]

/-- One launch has one key. -/
theorem plain_keysApart {events : List (ProcessEvent transparentSuite byteCodec)}
    (hplain : ∀ process launch, .start process launch ∈ events → launch = plainLaunch) :
    KeysApart events := by
  have hone : ∀ {app}, Configures events app → app = plainApp := by
    rintro app ⟨process, launch, hstart, happ⟩
    rw [hplain process launch hstart, plainLaunch_app] at happ
    exact (Option.some.inj happ).symm
  intro app app' happ happ' _ _ _ _
  rw [hone happ, hone happ']

theorem comesUp_keysApart : KeysApart comesUp := by
  apply plain_keysApart
  intro process launch hstart
  simp only [comesUp, List.mem_cons, List.not_mem_nil, or_false, reduceCtorEq,
    ProcessEvent.start.injEq] at hstart
  exact hstart.2

theorem plainLaunch_encryptsWitness : EncryptsWitness (plainLaunch.admission plainApp)
    (custodyWitness ++ transparentTag plainApp.master.key) where
  encrypts := rfl
  tagged := by rw [List.length_append, transparentTag_length]
  decrypts := transparentSuite_decryptsOwn

theorem deploy_comesUp : deploy comesUp = Deployment.initial.restart 0 plainLaunch := by
  rw [deploy, comesUp, List.foldl_cons, List.foldl_cons, List.foldl_nil, Deployment.restart]

theorem comesUp_served : (deploy comesUp).served = [plainApp] := by
  have hstart := start_of_accepts plainLaunch_app
    (admit_objectFree rfl (fun _ => rfl) plainLaunch_encryptsWitness)
  have hown : ∀ holder, (Deployment.initial : Deployment transparentSuite byteCodec).custody.holder =
      some holder → holder.client = 0 := fun _ hholder => (nomatch hholder)
  rw [deploy_comesUp, (restart_serves hown hstart).2.2]
  rfl

end SecretsCustody
