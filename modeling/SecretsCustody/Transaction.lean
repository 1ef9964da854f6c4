/-
Transactions: programs over a database that count their statements, any of
which may fail, and record what they encrypt.  An exception leaves the database
as it was when the connection opened.
-/
import SecretsCustody.Effect
import SecretsCustody.Crypto

namespace SecretsCustody

/-- `NONCE_BYTES`. -/
def nonceBytes : Nat := 12

/-- What one call draws from outside: identifiers, clock readings, random
bytes, a key pair, and the statements the database fails. -/
structure Env (suite : CryptoSuite) where
  uuid4 : String
  eventId : String
  now : String
  occurredAt : String
  urandom : Nat → Bytes
  urandom_length : ∀ draw, (urandom draw).length = nonceBytes
  privateKey : suite.PrivateKey
  fails : Nat → Option SqliteFault

/-- An exception of a statement the database failed. -/
def Env.Faults {suite : CryptoSuite} (env : Env suite) (raised : Raised) : Prop :=
  ∃ index fault, env.fails index = some fault ∧ raised = .sqlite fault

/-- The database fails no statement of the call. -/
def Env.Faultless {suite : CryptoSuite} (env : Env suite) : Prop :=
  ∀ index, env.fails index = none

theorem Env.Faultless.not_faults {suite : CryptoSuite} {env : Env suite}
    (hfaultless : env.Faultless) {raised : Raised} : ¬ env.Faults raised := by
  rintro ⟨index, fault, hfails, _⟩
  rw [hfaultless index] at hfails
  cases hfails

/-- AESGCM takes the key and the value. -/
def MasterKey.Takes (suite : CryptoSuite) (master : MasterKey) (value : Bytes) : Prop :=
  ∀ nonce associated, nonce.length = nonceBytes →
    ∃ ciphertext, master.encrypt suite nonce value associated = .ok ciphertext

/-- A connection: the database as its transaction sees it, the number of
statements so far, and the encryptions made. -/
structure Session (δ : Type) where
  db : δ
  executed : Nat
  encryptions : List Encryption

abbrev Tx (δ : Type) := EStateM Raised (Session δ)

section Programs

variable {suite : CryptoSuite} {δ α : Type} (env : Env suite)

/-- One statement, before its effect. -/
def statement : Tx δ Unit := do
  let session ← get
  set { session with executed := session.executed + 1 }
  match env.fails session.executed with
  | some fault => throw (.sqlite fault)
  | none => pure ()

def query (read : δ → α) : Tx δ α := do
  statement env
  return read (← get).db

def execute (write : δ → Except Raised δ) : Tx δ Unit := do
  statement env
  let session ← get
  let db ← ofExcept (write session.db)
  set { session with db := db }

/-- `os.urandom(NONCE_BYTES)`: the next nonce of the call. -/
def urandom : Tx δ Bytes := do
  return env.urandom (← get).encryptions.length

def encrypt (suite : CryptoSuite) (master : MasterKey) (nonce plaintext : Bytes)
    (associated : Associated) : Tx δ Bytes := do
  let ciphertext ← ofExcept (master.encrypt suite nonce plaintext associated.data)
  modify fun session =>
    { session with
      encryptions := session.encryptions ++
        [⟨master.key, nonce, plaintext, associated, ciphertext⟩] }
  return ciphertext

/-- `try: … except …: raise …`. -/
def mapRaised (change : Raised → Raised) (body : Tx δ α) : Tx δ α :=
  tryCatch body fun raised => throw (change raised)

/-- `with connection:` around the body, once `connect` has opened it: commit on
return, roll back on an exception. -/
def withConnection (connect : Tx δ Unit) (body : Tx δ α) : Tx δ α := do
  let opened ← get
  tryCatch
    (do
      connect
      let value ← body
      statement env
      return value)
    fun raised => do
      modify fun session => { session with db := opened.db }
      throw raised

end Programs

/-! ### Exits of a transaction -/

open Effect

section Ends

variable {suite : CryptoSuite} {δ α β : Type} {env : Env suite}

/-- Every exit of a program that starts on `db` after the encryptions `log`,
whatever the number of statements before it. -/
def Ends (program : Tx δ α) (db : δ) (log : List Encryption)
    (returns : α → δ → List Encryption → Prop)
    (raises : Raised → δ → List Encryption → Prop) : Prop :=
  ∀ executed, Exits program ⟨db, executed, log⟩
    (fun value finish => returns value finish.db finish.encryptions)
    (fun raised finish => raises raised finish.db finish.encryptions)

variable {db : δ} {log : List Encryption}
variable {returns : α → δ → List Encryption → Prop}
variable {raises : Raised → δ → List Encryption → Prop}

theorem Ends.mono {program : Tx δ α} {returns' : α → δ → List Encryption → Prop}
    {raises' : Raised → δ → List Encryption → Prop}
    (hends : Ends program db log returns raises)
    (hreturns : ∀ value db' log', returns value db' log' → returns' value db' log')
    (hraises : ∀ raised db' log', raises raised db' log' → raises' raised db' log') :
    Ends program db log returns' raises' :=
  fun executed => (hends executed).mono (fun _ _ => hreturns _ _ _) (fun _ _ => hraises _ _ _)

theorem Ends.and {program : Tx δ α} {returns' : α → δ → List Encryption → Prop}
    {raises' : Raised → δ → List Encryption → Prop}
    (hends : Ends program db log returns raises) (hends' : Ends program db log returns' raises') :
    Ends program db log (fun value db' log' => returns value db' log' ∧ returns' value db' log')
      fun raised db' log' => raises raised db' log' ∧ raises' raised db' log':=
  fun executed => (hends executed).and (hends' executed)

theorem ends_pure {value : α} (hreturns : returns value db log) :
    Ends (pure value : Tx δ α) db log returns raises :=
  fun _ => hreturns

theorem ends_throw {raised : Raised} (hraises : raises raised db log) :
    Ends (throw raised : Tx δ α) db log returns raises :=
  fun _ => hraises

theorem Ends.bind {program : Tx δ α} {next : α → Tx δ β}
    {returns : β → δ → List Encryption → Prop}
    (hends : Ends program db log
      (fun value db' log' => Ends (next value) db' log' returns raises) raises) :
    Ends (program >>= next) db log returns raises :=
  fun executed => Exits.bind ((hends executed).mono
    (fun _ _ hnext => hnext _) (fun _ _ hraises => hraises))

theorem ends_ofExcept {result : Except Raised α}
    (hreturns : ∀ value, result = .ok value → returns value db log)
    (hraises : ∀ raised, result = .error raised → raises raised db log) :
    Ends (ofExcept result : Tx δ α) db log returns raises :=
  fun _ => exits_ofExcept.mpr ⟨hreturns, hraises⟩

theorem ends_ofExcept_ok {result : Except Raised α} {value : α} (hresult : result = .ok value)
    (hreturns : returns value db log) : Ends (ofExcept result : Tx δ α) db log returns raises := by
  subst hresult
  exact ends_pure hreturns

theorem ends_ite {condition : Prop} [Decidable condition] {yes no : Tx δ α}
    (hyes : condition → Ends yes db log returns raises)
    (hno : ¬ condition → Ends no db log returns raises) :
    Ends (if condition then yes else no) db log returns raises := by
  by_cases hcondition : condition
  · rw [if_pos hcondition]
    exact hyes hcondition
  · rw [if_neg hcondition]
    exact hno hcondition

theorem ends_raiseIf {condition : Prop} [Decidable condition] {raised : Raised}
    {returns : Unit → δ → List Encryption → Prop}
    (hraises : condition → raises raised db log) (hreturns : ¬ condition → returns () db log) :
    Ends (raiseIf condition raised : Tx δ Unit) db log returns raises :=
  ends_ite (fun hcondition => ends_throw (hraises hcondition))
    fun hcondition => ends_pure (hreturns hcondition)

theorem ends_statement {returns : Unit → δ → List Encryption → Prop}
    (hreturns : returns () db log)
    (hfaults : ∀ raised, env.Faults raised → raises raised db log) :
    Ends (statement env) db log returns raises := by
  intro executed
  simp only [statement, Exits, EStateM.run_bind, EStateM.run_get, EStateM.run_set]
  cases hfault : env.fails executed with
  | none => exact hreturns
  | some fault => exact hfaults _ ⟨executed, fault, hfault, rfl⟩

theorem ends_query {read : δ → α} (hreturns : returns (read db) db log)
    (hfaults : ∀ raised, env.Faults raised → raises raised db log) :
    Ends (query env read) db log returns raises :=
  (ends_statement (fun _ => hreturns) hfaults).bind

theorem ends_execute {write : δ → Except Raised δ} {returns : Unit → δ → List Encryption → Prop}
    (hreturns : ∀ db', write db = .ok db' → returns () db' log)
    (hraises : ∀ raised, write db = .error raised → raises raised db log)
    (hfaults : ∀ raised, env.Faults raised → raises raised db log) :
    Ends (execute env write) db log returns raises := by
  refine (ends_statement (fun executed => ?_) hfaults).bind
  exact Exits.bind (Exits.bind (exits_ofExcept.mpr ⟨hreturns, hraises⟩))

/-- A write whose outcome is known. -/
theorem ends_execute_ok {write : δ → Except Raised δ} {db' : δ}
    {returns : Unit → δ → List Encryption → Prop} (hwrite : write db = .ok db')
    (hreturns : returns () db' log) (hfaults : ∀ raised, env.Faults raised → raises raised db log) :
    Ends (execute env write) db log returns raises := by
  refine ends_execute (fun found hfound => ?_) (fun raised hraised => ?_) hfaults
  · cases hwrite.symm.trans hfound
    exact hreturns
  · cases hwrite.symm.trans hraised

theorem ends_urandom {returns : Bytes → δ → List Encryption → Prop}
    (hreturns : returns (env.urandom log.length) db log) :
    Ends (urandom env) db log returns raises :=
  fun _ => hreturns

theorem ends_encrypt {master : MasterKey} {nonce plaintext : Bytes} {associated : Associated}
    {returns : Bytes → δ → List Encryption → Prop}
    (hreturns : ∀ ciphertext,
      master.encrypt suite nonce plaintext associated.data = .ok ciphertext →
        returns ciphertext db (log ++ [⟨master.key, nonce, plaintext, associated, ciphertext⟩]))
    (hraises : ∀ raised,
      master.encrypt suite nonce plaintext associated.data = .error raised →
        raises raised db log) :
    Ends (encrypt suite master nonce plaintext associated) db log returns raises :=
  fun _ => Exits.bind (exits_ofExcept.mpr ⟨hreturns, hraises⟩)

theorem ends_mapRaised {change : Raised → Raised} {body : Tx δ α}
    (hends : Ends body db log returns fun raised db' log' => raises (change raised) db' log') :
    Ends (mapRaised change body) db log returns raises :=
  fun executed => exits_tryCatch.mpr (hends executed)

/-- A connection returns with what its body did, or raises with the database as
it was; the commit can fail too. -/
theorem ends_withConnection {connect : Tx δ Unit} {body : Tx δ α}
    (hconnect : Ends connect db log
      (fun _ db' log' => Ends body db' log'
        (fun value db'' log'' => returns value db'' log'' ∧
          ∀ raised, env.Faults raised → raises raised db log'')
        (fun raised _ log'' => raises raised db log''))
      (fun raised _ log' => raises raised db log')) :
    Ends (withConnection env connect body) db log returns raises := by
  intro executed
  refine exits_tryCatch.mpr ?_
  have hbody : Ends
      (do
        connect
        let value ← body
        statement env
        return value)
      db log returns fun raised _ log' => raises raised db log' := by
    refine Ends.bind (hconnect.mono (fun _ db' log' hbody => ?_) fun _ _ _ hraises => hraises)
    refine Ends.bind (hbody.mono (fun value db' log' hreturns => ?_) fun _ _ _ hraises => hraises)
    exact Ends.bind (ends_statement (ends_pure hreturns.1) hreturns.2)
  exact (hbody executed).mono (fun _ _ hreturns => hreturns) fun _ _ hraises => hraises

end Ends

end SecretsCustody
