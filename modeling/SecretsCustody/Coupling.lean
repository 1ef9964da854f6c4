/-
Two runs of the provider side by side: programs on two databases that run the
same statements and draw the same nonces, and handlers on top of them.
-/
import SecretsCustody.Api

namespace SecretsCustody

open Effect Interleaving

section

variable {suite : CryptoSuite} {env : Env suite} {δ α β γ γ' : Type}

/-- Sessions that ran as many statements and drew as many nonces. -/
structure InStep (session session' : Session δ) : Prop where
  executed : session'.executed = session.executed
  drawn : session'.encryptions.length = session.encryptions.length

/-- Programs on two databases, in step, end alike. -/
def Coupled (left : Tx δ α) (right : Tx δ β) (db db' : δ) (returns : α → β → δ → δ → Prop)
    (raises : δ → δ → Prop) : Prop :=
  ∀ executed log log', log'.length = log.length →
    ExitsAlike left right ⟨db, executed, log⟩ ⟨db', executed, log'⟩
      (fun value value' finish finish' =>
        InStep finish finish' ∧ returns value value' finish.db finish'.db)
      (fun _ finish finish' => InStep finish finish' ∧ raises finish.db finish'.db)

variable {left : Tx δ α} {right : Tx δ β} {db db' : δ}
variable {returns : α → β → δ → δ → Prop} {raises : δ → δ → Prop}

theorem Coupled.from {session session' : Session δ}
    (hcoupled : Coupled left right session.db session'.db returns raises)
    (hstep : InStep session session') :
    ExitsAlike left right session session'
      (fun value value' finish finish' =>
        InStep finish finish' ∧ returns value value' finish.db finish'.db)
      (fun _ finish finish' => InStep finish finish' ∧ raises finish.db finish'.db) := by
  obtain ⟨db, executed, log⟩ := session
  obtain ⟨db', executed', log'⟩ := session'
  obtain ⟨rfl, hdrawn⟩ : executed' = executed ∧ log'.length = log.length :=
    ⟨hstep.executed, hstep.drawn⟩
  exact hcoupled executed' log log' hdrawn

theorem Coupled.mono {returns' : α → β → δ → δ → Prop} {raises' : δ → δ → Prop}
    (hcoupled : Coupled left right db db' returns raises)
    (hreturns : ∀ value value' after after', returns value value' after after' →
      returns' value value' after after')
    (hraises : ∀ after after', raises after after' → raises' after after') :
    Coupled left right db db' returns' raises' :=
  fun executed log log' hdrawn => (hcoupled executed log log' hdrawn).mono
    (fun _ _ _ _ hends => ⟨hends.1, hreturns _ _ _ _ hends.2⟩)
    fun _ _ _ hends => ⟨hends.1, hraises _ _ hends.2⟩

theorem coupled_pure {value : α} {value' : β} (hreturns : returns value value' db db') :
    Coupled (pure value : Tx δ α) (pure value') db db' returns raises :=
  fun _ _ _ hdrawn => ⟨⟨rfl, hdrawn⟩, hreturns⟩

theorem coupled_throw {raised : Raised} (hraises : raises db db') :
    Coupled (throw raised : Tx δ α) (throw raised : Tx δ β) db db' returns raises :=
  fun _ _ _ hdrawn => ⟨rfl, ⟨rfl, hdrawn⟩, hraises⟩

theorem Coupled.bind {next : α → Tx δ γ} {next' : β → Tx δ γ'}
    {returns : γ → γ' → δ → δ → Prop}
    (hcoupled : Coupled left right db db'
      (fun value value' after after' =>
        Coupled (next value) (next' value') after after' returns raises) raises) :
    Coupled (left >>= next) (right >>= next') db db' returns raises :=
  fun executed log log' hdrawn => ((hcoupled executed log log' hdrawn).mono
    (fun _ _ _ _ hends => hends.2.from hends.1) fun _ _ _ hends => hends).bind

theorem coupled_ofExcept {result : Except Raised α} {result' : Except Raised β}
    (halike : Alike (fun value value' => returns value value' db db') result result')
    (hraises : raises db db') :
    Coupled (ofExcept result) (ofExcept result') db db' returns raises := by
  intro executed log log' hdrawn
  apply exitsAlike_ofExcept
  · cases result <;> cases result'
    · exact halike
    · exact halike
    · exact halike
    · exact ⟨⟨rfl, hdrawn⟩, halike⟩
  · intro _ _
    exact ⟨⟨rfl, hdrawn⟩, hraises⟩

theorem coupled_raiseIf {condition condition' : Prop} [Decidable condition]
    [Decidable condition'] {raised : Raised} {returns : Unit → Unit → δ → δ → Prop}
    (hcondition : condition ↔ condition') (hreturns : ¬ condition → returns () () db db')
    (hraises : raises db db') :
    Coupled (raiseIf condition raised) (raiseIf condition' raised) db db' returns raises := by
  unfold raiseIf
  by_cases hc : condition
  · rw [if_pos hc, if_pos (hcondition.mp hc)]
    exact coupled_throw hraises
  · rw [if_neg hc, if_neg fun hc' => hc (hcondition.mpr hc')]
    exact coupled_pure (hreturns hc)

theorem coupled_statement {returns : Unit → Unit → δ → δ → Prop} (hreturns : returns () () db db')
    (hraises : raises db db') :
    Coupled (statement env) (statement env) db db' returns raises := by
  intro executed log log' hdrawn
  simp only [statement, ExitsAlike, EStateM.run_bind, EStateM.run_get, EStateM.run_set]
  cases env.fails executed with
  | none => exact ⟨⟨rfl, hdrawn⟩, hreturns⟩
  | some fault => exact ⟨rfl, ⟨rfl, hdrawn⟩, hraises⟩

theorem coupled_query {read : δ → α} {read' : δ → β}
    (hreturns : returns (read db) (read' db') db db') (hraises : raises db db') :
    Coupled (query env read) (query env read') db db' returns raises := by
  apply Coupled.bind
  apply coupled_statement
  · intro _ _ _ hdrawn
    exact ⟨⟨rfl, hdrawn⟩, hreturns⟩
  · exact hraises

theorem coupled_execute {write write' : δ → Except Raised δ}
    {returns : Unit → Unit → δ → δ → Prop}
    (halike : Alike (returns () ()) (write db) (write' db')) (hraises : raises db db') :
    Coupled (execute env write) (execute env write') db db' returns raises := by
  apply Coupled.bind
  refine coupled_statement ?_ hraises
  intro _ log log' hdrawn
  apply ExitsAlike.bind
  apply ExitsAlike.bind
  apply exitsAlike_ofExcept
  · cases hwrite : write db <;> cases hwrite' : write' db' <;>
      simp only [hwrite, hwrite', Alike] at halike
    · exact halike
    · exact ⟨⟨rfl, hdrawn⟩, halike⟩
  · intro _ _
    exact ⟨⟨rfl, hdrawn⟩, hraises⟩

theorem coupled_urandom {returns : Bytes → Bytes → δ → δ → Prop}
    (hreturns : ∀ nonce, nonce.length = nonceBytes → returns nonce nonce db db') :
    Coupled (urandom env) (urandom env) db db' returns raises := by
  intro _ log log' hdrawn
  have hnonce := hreturns (env.urandom log.length) (env.urandom_length log.length)
  refine ⟨⟨rfl, hdrawn⟩, ?_⟩
  change returns (env.urandom log.length) (env.urandom log'.length) db db'
  rw [hdrawn]
  exact hnonce

theorem coupled_encrypt {master : MasterKey} {nonce plaintext plaintext' : Bytes}
    {associated : Associated} {returns : Bytes → Bytes → δ → δ → Prop}
    (halike : Alike (fun ciphertext ciphertext' => returns ciphertext ciphertext' db db')
      (master.encrypt suite nonce plaintext associated.data)
      (master.encrypt suite nonce plaintext' associated.data)) (hraises : raises db db') :
    Coupled (encrypt suite master nonce plaintext associated)
      (encrypt suite master nonce plaintext' associated) db db' returns raises := by
  intro executed log log' hdrawn
  apply ExitsAlike.bind
  apply exitsAlike_ofExcept
  · cases hleft : master.encrypt suite nonce plaintext associated.data <;>
      cases hright : master.encrypt suite nonce plaintext' associated.data <;>
        simp only [hleft, hright, Alike] at halike
    · exact halike
    · refine ⟨⟨rfl, ?_⟩, halike⟩
      simp [hdrawn]
  · intro _ _
    exact ⟨⟨rfl, hdrawn⟩, hraises⟩

theorem coupled_mapRaised {change : Raised → Raised}
    (hcoupled : Coupled left right db db' returns raises) :
    Coupled (mapRaised change left) (mapRaised change right) db db' returns raises :=
  fun executed log log' hdrawn => exitsAlike_tryCatch ((hcoupled executed log log' hdrawn).mono
    (fun _ _ _ _ hends => hends) fun _ _ _ hends => ⟨rfl, hends⟩)

/-- Two connections return with what their bodies did, or raise with the databases as they
were. -/
theorem coupled_withConnection {connect : Tx δ Unit}
    (hconnect : Coupled connect connect db db'
      (fun _ _ opened opened' => Coupled left right opened opened' returns fun _ _ => True)
      fun _ _ => True) (hraises : raises db db') :
    Coupled (withConnection env connect left) (withConnection env connect right) db db' returns
      raises := by
  intro executed log log' hdrawn
  have hbody : Coupled
      (do
        connect
        let value ← left
        statement env
        return value)
      (do
        connect
        let value ← right
        statement env
        return value) db db' returns fun _ _ => True := by
    refine Coupled.bind (hconnect.mono (fun _ _ _ _ hbody => ?_) fun _ _ _ => trivial)
    refine Coupled.bind (hbody.mono (fun _ _ _ _ hreturns => ?_) fun _ _ _ => trivial)
    exact Coupled.bind (coupled_statement (coupled_pure hreturns) trivial)
  refine exitsAlike_tryCatch ((hbody executed log log' hdrawn).mono
    (fun _ _ _ _ hends => hends) ?_)
  rintro _ finish finish' ⟨⟨hexecuted, hdrawn'⟩, _⟩
  exact ⟨rfl, ⟨hexecuted, hdrawn'⟩, hraises⟩

end

/-! ### The store's connection and the audit store -/

section

variable {suite : CryptoSuite} {env : Env suite} {α β : Type}
variable {tables tables' : Tables} {left : Tx Tables α} {right : Tx Tables β}
variable {returns : α → β → Tables → Tables → Prop} {raises : Tables → Tables → Prop}

theorem coupled_connection
    (hbody : Coupled left right tables tables' returns fun _ _ => True)
    (hraises : raises tables tables') :
    Coupled (connection suite env left) (connection suite env right) tables tables' returns
      raises := by
  refine coupled_withConnection ?_ hraises
  refine Coupled.bind (coupled_statement ?_ trivial)
  refine Coupled.bind (coupled_statement ?_ trivial)
  exact coupled_statement hbody trivial

/-- The same record goes into both databases, or into neither. -/
def AuditAlike (related : Tables → Tables → Prop) (record : AuditRecord) : Prop :=
  ∀ tables tables', related tables tables' →
    Alike related (tables.insertAudit record) (tables'.insertAudit record)

theorem coupled_append {related : Tables → Tables → Prop} {record : AuditRecord}
    (haudit : AuditAlike related record) (hrelated : related tables tables') :
    Coupled (append env record) (append env record) tables tables'
      (fun _ _ after after' => related after after')
      (fun after after' => related after after') := by
  apply coupled_mapRaised
  refine coupled_withConnection ?_ hrelated
  refine coupled_statement ?_ trivial
  exact coupled_execute (haudit tables tables' hrelated) trivial

theorem coupled_appendUnencodable {related : Tables → Tables → Prop}
    (hrelated : related tables tables') :
    Coupled (appendUnencodable env) (appendUnencodable env) tables tables'
      (fun _ _ after after' => related after after')
      (fun after after' => related after after') := by
  apply coupled_mapRaised
  refine coupled_withConnection ?_ hrelated
  refine coupled_statement ?_ trivial
  exact coupled_throw trivial

/-- A use of a version that cannot be encoded looks for a selection of its correlation. -/
theorem coupled_resolveUnencodableForUse {α : Type} {related : Tables → Tables → Prop}
    {values : α → α → Tables → Tables → Prop} {workspaceId correlationId : String}
    (hrelated : related tables tables')
    (hselection : tables'.selection workspaceId correlationId =
      tables.selection workspaceId correlationId) :
    Coupled (resolveUnencodableForUse suite env workspaceId correlationId)
      (resolveUnencodableForUse suite env workspaceId correlationId) tables tables' values
      (fun after after' => related after after') := by
  refine coupled_connection ?_ hrelated
  refine Coupled.bind (coupled_statement ?_ trivial)
  refine Coupled.bind (coupled_query ?_ trivial)
  rw [hselection]
  split
  · exact coupled_throw trivial
  · exact coupled_throw trivial

theorem coupled_appendInTransaction {related : Tables → Tables → Prop} {record : AuditRecord}
    (haudit : AuditAlike related record) (hrelated : related tables tables') :
    Coupled (appendInTransaction env record) (appendInTransaction env record) tables tables'
      (fun _ _ after after' => related after after') (fun _ _ => True) := by
  apply coupled_mapRaised
  exact coupled_execute (haudit tables tables' hrelated) trivial

end

/-! ### Handlers -/

section

variable {suite : CryptoSuite} {provider : Provider} {env : RequestEnv suite} {α β γ δ : Type}
variable {related : Tables → Tables → Prop} {values : α → β → Prop}

/-- Two handlers, each alone on one of two related databases, end alike after as many audit
appends, and leave the databases related. -/
def Agree (related : Tables → Tables → Prop) (values : α → β → Prop) (left : Handler α)
    (right : Handler β) : Prop :=
  ∀ audits tables tables', related tables tables' →
    let ending := Script.run (left audits) tables
    let ending' := Script.run (right audits) tables'
    Alike values ending.1.1 ending'.1.1 ∧ ending'.1.2 = ending.1.2 ∧ related ending.2 ending'.2

theorem agree_pure {value : α} {value' : β} (hvalues : values value value') :
    Agree related values (pure value) (pure value') :=
  fun _ _ _ hrelated => ⟨hvalues, rfl, hrelated⟩

theorem agree_throw (fault : Fault) :
    Agree related values (throw fault : Handler α) (throw fault : Handler β) :=
  fun _ _ _ hrelated => ⟨rfl, rfl, hrelated⟩

variable {left : Handler α} {right : Handler β}

theorem Agree.bind {results : γ → δ → Prop} {next : α → Handler γ} {next' : β → Handler δ}
    (hagree : Agree related values left right)
    (hnext : ∀ value value', values value value' →
      Agree related results (next value) (next' value')) :
    Agree related results (left >>= next) (right >>= next') := by
  intro audits tables tables' hrelated
  obtain ⟨hvalues, haudits, hafter⟩ := hagree audits tables tables' hrelated
  rw [run_bind, run_bind]
  generalize Script.run (left audits) tables = ending at hvalues haudits hafter ⊢
  generalize Script.run (right audits) tables' = ending' at hvalues haudits hafter ⊢
  obtain ⟨⟨result, count⟩, after⟩ := ending
  obtain ⟨⟨result', count'⟩, after'⟩ := ending'
  cases haudits
  cases result <;> cases result'
  · exact ⟨hvalues, rfl, hafter⟩
  · exact hvalues.elim
  · exact hvalues.elim
  · exact hnext _ _ hvalues count after after' hafter

theorem agree_tryCatch {handle : Fault → Handler α} {handle' : Fault → Handler β}
    (hagree : Agree related values left right)
    (hhandle : ∀ fault, Agree related values (handle fault) (handle' fault)) :
    Agree related values (tryCatch left handle) (tryCatch right handle') := by
  intro audits tables tables' hrelated
  obtain ⟨hvalues, haudits, hafter⟩ := hagree audits tables tables' hrelated
  rw [run_tryCatch, run_tryCatch]
  generalize Script.run (left audits) tables = ending at hvalues haudits hafter ⊢
  generalize Script.run (right audits) tables' = ending' at hvalues haudits hafter ⊢
  obtain ⟨⟨result, count⟩, after⟩ := ending
  obtain ⟨⟨result', count'⟩, after'⟩ := ending'
  cases haudits
  cases result <;> cases result'
  · cases hvalues
    exact hhandle _ count after after' hafter
  · exact hvalues.elim
  · exact hvalues.elim
  · exact ⟨hvalues, rfl, hafter⟩

theorem agree_ofExcept {result : Except Fault α} {result' : Except Fault β}
    (halike : Alike values result result') :
    Agree related values (ofExcept result) (ofExcept result') := by
  intro _ _ _ hrelated
  cases result <;> cases result'
  · exact ⟨halike, rfl, hrelated⟩
  · exact halike.elim
  · exact halike.elim
  · exact ⟨halike, rfl, hrelated⟩

theorem agree_transact {left : Tx Tables α} {right : Tx Tables β}
    (hcoupled : ∀ tables tables', related tables tables' → Coupled left right tables tables'
      (fun value value' after after' => values value value' ∧ related after after')
      (fun after after' => related after after')) :
    Agree related values (transact left) (transact right) := by
  intro audits tables tables' hrelated
  have hends := hcoupled tables tables' hrelated 0 [] [] rfl
  unfold ExitsAlike at hends
  simp only [transact, Script.run, attempt]
  cases hleft : left.run ⟨tables, 0, []⟩ <;> cases hright : right.run ⟨tables', 0, []⟩ <;>
    simp only [hleft, hright] at hends ⊢
  · exact ⟨hends.2.1, trivial, hends.2.2⟩
  · exact ⟨congrArg Fault.raised hends.1, trivial, hends.2.2⟩

/-- The audit records of a request go into both databases, or into neither. -/
def AuditsAlike (env : RequestEnv suite) (related : Tables → Tables → Prop) : Prop :=
  ∀ position record, record.eventId = (env.audit position).eventId → AuditAlike related record

/-- An append that does not tell the databases apart. -/
theorem agree_appending {append : Env suite → Tx Tables Unit}
    (happend : ∀ position tables tables', related tables tables' →
      Coupled (append (env.audit position)) (append (env.audit position)) tables tables'
        (fun _ _ after after' => related after after') fun after after' => related after after') :
    Agree related (fun _ _ => True) (appending suite env append) (appending suite env append) := by
  intro audits tables tables' hrelated
  have hagree : Agree related (fun _ _ => True) (transact (append (env.audit audits)))
      (transact (append (env.audit audits))) :=
    agree_transact fun before before' hbefore =>
      (happend audits before before' hbefore).mono
        (fun _ _ _ _ hafter => ⟨trivial, hafter⟩) fun _ _ hafter => hafter
  refine agree_tryCatch hagree (fun fault => ?_) (audits + 1) tables tables' hrelated
  split
  · exact agree_throw _
  · exact agree_throw _

theorem agree_appendAudit (haudits : AuditsAlike env related) (fields : AuditFields)
    (outcome code : String) :
    Agree related (fun _ _ => True) (appendAudit suite provider env fields outcome code)
      (appendAudit suite provider env fields outcome code) :=
  agree_appending fun position _ _ hrelated => coupled_append (haudits position _ rfl) hrelated

/-- A check both handlers make passes in both with the same value, or the append is made in
both. -/
theorem agree_auditing {append : Handler Unit}
    (happend : Agree related (fun _ _ => True) append append) (check : Except Fault α) :
    Agree related (fun value value' => value' = value ∧ check = .ok value)
      (auditing append check) (auditing append check) := by
  apply agree_tryCatch
  · apply agree_ofExcept
    exact Alike.refl fun value hvalue => ⟨rfl, hvalue⟩
  · intro fault
    split
    · apply happend.bind
      intro _ _ _
      exact agree_throw _
    · exact agree_throw _

theorem agree_audited (haudits : AuditsAlike env related) (fields : AuditFields)
    (outcome code : String) (check : Except Fault α) :
    Agree related (fun value value' => value' = value ∧ check = .ok value)
      (audited suite provider env fields outcome code check)
      (audited suite provider env fields outcome code check) :=
  agree_auditing (agree_appendAudit haudits fields outcome code) check

theorem agree_appendingUnencodable :
    Agree related (fun _ _ => True) (appending suite env fun draws => appendUnencodable draws)
      (appending suite env fun draws => appendUnencodable draws) :=
  agree_appending fun _ _ _ hrelated => coupled_appendUnencodable hrelated

theorem agree_check {check : Except Fault α} :
    Agree related (fun value value' => value' = value ∧ check = .ok value)
      (ofExcept check : Handler α) (ofExcept check) :=
  agree_ofExcept (Alike.refl fun _ hvalue => ⟨rfl, hvalue⟩)

theorem agree_catching (haudits : AuditsAlike env related) (fields : AuditFields)
    (clauses : List Clause) {left : Handler α} {right : Handler α} {values : α → α → Prop}
    (hbody : Agree related values left right) :
    Agree related values (catching suite provider env fields clauses left)
      (catching suite provider env fields clauses right) := by
  apply agree_tryCatch hbody
  intro fault
  split
  · split
    · exact agree_throw _
    · next clause _ =>
        unfold Clause.raise
        split
        · apply (agree_appendAudit haudits fields clause.outcome clause.code).bind
          intro _ _ _
          exact agree_throw _
        · exact agree_throw _
  · exact agree_throw _

end

end SecretsCustody
