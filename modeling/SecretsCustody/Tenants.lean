/-
Tenants of one server.  The requests of a workspace that its clients are granted are answered as
if the requests for other workspaces, and the denied ones, had never been served, however the
transactions of all of them interleave.
-/
import SecretsCustody.Erasure
import SecretsCustody.Isolation
import SecretsCustody.Secrecy
import SecretsCustody.Server

namespace SecretsCustody

open Effect Interleaving

section

variable {suite : CryptoSuite}

/-- The event ids a request draws for its audit records. -/
def ApiCall.Draws (call : ApiCall suite) (eventId : String) : Prop :=
  eventId = call.env.store.eventId ∨ ∃ position, eventId = (call.env.audit position).eventId

/-- The request is for the workspace, and its client is granted it. -/
def Concerns (provider : Provider) (workspaceId : String) (call : ApiCall suite) : Prop :=
  call.request.workspaceId = workspaceId ∧ ¬ Denied provider call.request

variable {provider : Provider} {env : RequestEnv suite} {request : Request}
variable {workspaceId : String} {drawn : String → Prop} {tables tables' : Tables}

/-! ### Two databases beside each other -/

theorem EventsAlike.symm (hevents : EventsAlike drawn tables tables') :
    EventsAlike drawn tables' tables :=
  fun eventId hdrawn => (hevents eventId hdrawn).symm

theorem Beside.symm (hbeside : Beside workspaceId drawn tables tables') :
    Beside workspaceId drawn tables' tables :=
  ⟨hbeside.rows.symm, hbeside.keyed', hbeside.keyed, hbeside.events.symm⟩

/-- A record under an event that is not looked for makes no difference. -/
theorem Beside.audited (hbeside : Beside workspaceId drawn tables tables') {record : AuditRecord}
    {after : Tables} (hadded : RecordAdded record tables after) (hdrawn : ¬ drawn record.eventId) :
    Beside workspaceId drawn after tables' := by
  obtain ⟨rfl, _⟩ := hadded
  refine ⟨{ hbeside.rows with }, { hbeside.keyed with }, hbeside.keyed', ?_⟩
  intro eventId hevent
  rw [← hbeside.events eventId hevent, List.map_append, List.mem_append, or_iff_left]
  intro hnew
  rw [List.map_singleton, List.mem_singleton] at hnew
  exact hdrawn (hnew ▸ hevent)

theorem Calls.sameWorkspace {call : Call suite} (hcalls : Calls provider env request call) :
    call.operation.workspaceId = request.workspaceId := by
  cases hcalls <;> rfl

/-! ### One transaction -/

theorem eq_of_map_eq {γ β : Type} {change : γ → β} (hchange : Function.Injective change)
    {result result' : Except Raised γ} (hsame : result'.map change = result.map change) :
    result' = result := by
  cases result with
  | error raised =>
      cases result' with
      | error raised' => exact congrArg Except.error (Except.error.inj hsame)
      | ok value' => cases hsame
  | ok value =>
      cases result' with
      | error raised' => cases hsame
      | ok value' => exact congrArg Except.ok (hchange (Except.ok.inj hsame))

/-- A program that does not tell related databases apart is a transaction that does not. -/
theorem attempt_coupled {α : Type} {program : Tx Tables α} {related : Tables → Tables → Prop}
    (hcoupled : Coupled program program tables tables'
      (fun _ _ after after' => related after after') fun after after' => related after after')
    (hvalues : ∀ value value', (attempt program tables).1 = .ok value →
      (attempt program tables').1 = .ok value' → value' = value) :
    (attempt program tables').1 = (attempt program tables).1 ∧
      related (attempt program tables).2 (attempt program tables').2 := by
  have hends := hcoupled 0 [] [] rfl
  unfold ExitsAlike at hends
  unfold attempt at hvalues ⊢
  cases hleft : program.run ⟨tables, 0, []⟩ <;> cases hright : program.run ⟨tables', 0, []⟩ <;>
    simp only [hleft, hright] at hends hvalues ⊢
  · exact ⟨congrArg Except.ok (hvalues _ _ rfl rfl), hends.2⟩
  · exact ⟨congrArg Except.error hends.1, hends.2.2⟩

/-- A transaction of a request for the workspace does not tell databases apart that lie beside
each other. -/
theorem Transaction.blind {β : Type} {action : Tables → β × Tables}
    (haction : Transaction provider env request β action)
    (hdrawn : ∀ eventId, ApiCall.Draws ⟨env, request⟩ eventId → drawn eventId)
    (hbeside : Beside request.workspaceId drawn tables tables') :
    (action tables').1 = (action tables).1 ∧
      Beside request.workspaceId drawn (action tables).2 (action tables').2 := by
  cases haction with
  | append audits hevent =>
      have hrecord := hdrawn _ (.inr ⟨audits, hevent⟩)
      apply attempt_coupled
      · exact coupled_append (fun _ _ hbefore => hbefore.insertAudit hrecord) hbeside
      · exact fun _ _ _ _ => rfl
  | @call γ call program change _ hcalls hprogram hchange =>
      have hevent : drawn call.env.eventId := hdrawn _ (.inl (congrArg Env.eventId hcalls.sameEnv))
      rw [← hcalls.sameWorkspace] at hbeside ⊢
      obtain ⟨hresult, hafter⟩ := perform_beside call hevent hbeside
      rw [(perform_attempt tables hprogram).1, (perform_attempt tables' hprogram).1] at hresult
      rw [(perform_attempt tables hprogram).2, (perform_attempt tables' hprogram).2] at hafter
      exact ⟨eq_of_map_eq hchange hresult, hafter⟩
  | appendUnencodable audits =>
      apply attempt_coupled (coupled_appendUnencodable hbeside)
      exact fun _ _ _ _ => rfl
  | useUnencodable correlationId =>
      obtain ⟨_, _, hattempt⟩ :=
        attempt_useUnencodable env.store request.workspaceId correlationId tables
      apply attempt_coupled
        (coupled_resolveUnencodableForUse hbeside (hbeside.selection correlationId))
      intro value _ hvalue _
      rw [hattempt] at hvalue
      cases hvalue

/-- A transaction of a request that is not for the workspace, or is denied, makes no
difference. -/
theorem Transaction.silent {β : Type} {action : Tables → β × Tables}
    (haction : Transaction provider env request β action)
    (hother : ¬ Concerns provider workspaceId ⟨env, request⟩)
    (hdrawn : ∀ eventId, ApiCall.Draws ⟨env, request⟩ eventId → ¬ drawn eventId)
    (hbeside : Beside workspaceId drawn tables tables') :
    Beside workspaceId drawn (action tables).2 tables' := by
  cases haction with
  | append audits hevent =>
      rcases attempt_append tables hevent with ⟨_, hadded⟩ | ⟨_, hsame⟩
      · exact hbeside.audited hadded (hdrawn _ (.inr ⟨audits, hevent⟩))
      · rw [hsame]
        exact hbeside
  | @call γ call program change hgranted hcalls hprogram _ =>
      have hworkspace : call.operation.workspaceId ≠ workspaceId := by
        rw [hcalls.sameWorkspace]
        exact fun hsame => hother ⟨hsame, hgranted⟩
      rw [← (perform_attempt tables hprogram).2]
      exact hbeside.other hworkspace (hdrawn _ (.inl (congrArg Env.eventId hcalls.sameEnv)))
  | appendUnencodable audits =>
      obtain ⟨_, _, hattempt⟩ := attempt_appendUnencodable (env.audit audits) tables
      rw [hattempt]
      exact hbeside
  | useUnencodable correlationId =>
      obtain ⟨_, _, hattempt⟩ :=
        attempt_useUnencodable env.store request.workspaceId correlationId tables
      rw [hattempt]
      exact hbeside

/-! ### Requests -/

theorem serve_transacts (provider : Provider) (call : ApiCall suite) :
    (serve provider call).Within (Transaction provider call.env call.request) fun _ => True :=
  (transacts_handler call.request 0).mono fun _ _ => trivial

theorem serve_blind {call : ApiCall suite} (hconcerns : Concerns provider workspaceId call)
    (hdrawn : ∀ eventId, call.Draws eventId → drawn eventId) :
    (serve provider call).Blind (Beside workspaceId drawn) := by
  obtain ⟨rfl, _⟩ := hconcerns
  apply (serve_transacts provider call).allow
  exact fun _ _ haction _ _ hbeside => haction.blind hdrawn hbeside

theorem serve_silent {call : ApiCall suite} (hother : ¬ Concerns provider workspaceId call)
    (hdrawn : ∀ eventId, call.Draws eventId → ¬ drawn eventId) :
    (serve provider call).Silent (Beside workspaceId drawn) := by
  apply (serve_transacts provider call).allow
  intro _ _ haction _ _ hbeside
  exact ⟨haction.silent hother hdrawn hbeside,
    (haction.silent hother hdrawn hbeside.symm).symm⟩

/-! ### Servers -/

/-- No request that does not concern the workspace drew an event id of one that does. -/
def EventsApart (provider : Provider) (workspaceId : String)
    (events : List (Event (ApiCall suite))) : Prop :=
  ∀ own ∈ System.arrivals events, Concerns provider workspaceId own →
    ∀ other ∈ System.arrivals events, ¬ Concerns provider workspaceId other →
      ∀ eventId, own.Draws eventId → ¬ other.Draws eventId

/-- What a workspace sees of a run, it sees of the run without the dropped requests. -/
structure Unseen (provider : Provider) (workspaceId : String) (dropped : Nat → Bool)
    (events : List (Event (ApiCall suite))) : Prop where
  tasks : ∀ (index : Nat) (call : ApiCall suite), (System.arrivals events)[index]? = some call →
    Concerns provider workspaceId call →
      (runServer provider (System.erase dropped events)).tasks[index]? =
        (runServer provider events).tasks[index]?
  rows : SameWorkspace workspaceId (runServer provider events).state
    (runServer provider (System.erase dropped events)).state

theorem tenants_unseen (provider : Provider) (workspaceId : String) (dropped : Nat → Bool)
    (events : List (Event (ApiCall suite)))
    (hdropped : ∀ (index : Nat) (call : ApiCall suite),
      (System.arrivals events)[index]? = some call → dropped index = true →
        ¬ Concerns provider workspaceId call)
    (hapart : EventsApart provider workspaceId events) :
    Unseen provider workspaceId dropped events := by
  have hparallel : System.Parallel
      (Beside workspaceId fun eventId => ∃ own ∈ System.arrivals events,
        Concerns provider workspaceId own ∧ own.Draws eventId)
      (Concerns provider workspaceId) (runServer provider events)
      (runServer provider (System.erase dropped events)) := by
    apply System.run_erased
    · exact ⟨SameRows.refl _ _, keyed_empty, keyed_empty, fun _ _ => Iff.rfl⟩
    · intro call hcall hconcerns
      exact serve_blind hconcerns fun _ hdraws => ⟨call, hcall, hconcerns, hdraws⟩
    · intro call hcall hother
      apply serve_silent hother
      rintro eventId hdraws ⟨own, hown, hconcerns, hdrawn⟩
      exact hapart own hown hconcerns call hcall hother eventId hdrawn hdraws
    · exact hdropped
  refine ⟨?_, hparallel.state.rows⟩
  intro index call hcall hconcerns
  rw [← @System.run_inputs _ _ _ (serve provider) Tables.empty, List.getElem?_map,
    Option.map_eq_some_iff] at hcall
  obtain ⟨task, htask, rfl⟩ := hcall
  rw [hparallel.same index task htask hconcerns]
  exact htask.symm

end

/-! ### Three requests side by side -/

theorem oneByte_length : 1 ≤ "AA==".length := by decide

theorem stranger_length : 1 ≤ "stranger".length ∧ "stranger".length ≤ 128 := by decide

/-- A request of the workspace, one of another, and one without a token. -/
def ownRequest : ApiCall transparentSuite :=
  ⟨plainRequestEnv "own",
    .write (some "Bearer token") "workspace" "secret" (plainWrite "AA==" oneByte_length)⟩

def otherRequest : ApiCall transparentSuite :=
  ⟨plainRequestEnv "other",
    .write (some "Bearer token") "elsewhere" "secret" (plainWrite "AA==" oneByte_length)⟩

def strangerRequest : ApiCall transparentSuite :=
  ⟨plainRequestEnv "stranger",
    .resolve none "workspace" "secret"
      { intent := "postgres.password"
        callerSubject := "stranger"
        correlationId := "stranger"
        versionId := none
        callerSubject_length := stranger_length
        correlationId_length := stranger_length }⟩

def sideBySide : List (Event (ApiCall transparentSuite)) :=
  [.arrive ownRequest, .arrive otherRequest, .arrive strangerRequest, .step 1, .step 0, .step 2,
    .step 1, .step 0]

theorem otherRequest_unconcerned : ¬ Concerns openProvider "workspace" otherRequest :=
  fun hconcerns => absurd hconcerns.1 (by decide)

theorem strangerRequest_unconcerned : ¬ Concerns openProvider "workspace" strangerRequest := by
  apply fun hdenied (hconcerns : Concerns _ _ _) => hconcerns.2 hdenied
  intro client hclient
  cases hclient

theorem ownRequest_draws {eventId : String} (hdraws : ownRequest.Draws eventId) :
    eventId = "own" := by
  rcases hdraws with rfl | ⟨_, rfl⟩ <;> rfl

theorem tenants_unseen_sideBySide :
    Unseen openProvider "workspace" (fun index => index != 0) sideBySide := by
  apply tenants_unseen
  · intro index call hcall hdropped
    match index with
    | 0 => cases hdropped
    | 1 =>
        cases hcall
        exact otherRequest_unconcerned
    | 2 =>
        cases hcall
        exact strangerRequest_unconcerned
    | _ + 3 => cases hcall
  · intro own hown hconcerns other hother hunconcerned eventId hdraws hdraws'
    have harrived : System.arrivals sideBySide = [ownRequest, otherRequest, strangerRequest] := rfl
    simp only [harrived, List.mem_cons, List.not_mem_nil, or_false] at hown hother
    rcases hown with rfl | rfl | rfl
    · obtain rfl := ownRequest_draws hdraws
      rcases hother with rfl | rfl | rfl
      · exact hunconcerned hconcerns
      · have hsame : "own" = "other" := hdraws'.elim id fun ⟨_, hsame⟩ => hsame
        exact absurd hsame (by decide)
      · have hsame : "own" = "stranger" := hdraws'.elim id fun ⟨_, hsame⟩ => hsame
        exact absurd hsame (by decide)
    · exact otherRequest_unconcerned hconcerns
    · exact strangerRequest_unconcerned hconcerns

end SecretsCustody
