import ScanCatalog.Document.ScriptedClient
import ScanCatalog.Proofs.Motor.DriverErrors

/-!
# Errors of a client

What the calls of a document store make of the errors that its client raises. Each is reported
as a fault of the document store, with one exception: a store that connects handles lost
connections and refused operations only, and all other errors pass as they are. Both stores
together show which errors of a database a caller has to expect.

## Main definitions

* `DocumentClient.Traces`: a client whose state shows the errors that it raised;
* `DocumentCall`, `DocumentCall.Reported`: the calls of a store, and their reports.

## Main statements

* `DocumentCall.ends`: the errors of a client during a call are reported;
* `ClientScript.client_traces`: the scripted clients;
* `calls_report_errors`: the calls of both stores.
-/

namespace ScanCatalog

open ScanCatalog.Action

variable {σ δ α : Type}

/-- The error of a client that a fault is. -/
def Fault.clientError? : Fault → Option ClientFault
  | .client reason => some reason
  | _ => none

theorem Fault.clientError?_eq_some {fault : Fault} {reason : ClientFault} :
    fault.clientError? = some reason ↔ fault = .client reason := by
  cases fault <;> simp [clientError?]

theorem Fault.isUnder_documentStore (cause : DocumentStoreFault) :
    Fault.IsUnder (.documentStore cause) .documentStore := ⟨.documentStore, rfl, by decide⟩

/-- A client whose state shows the errors that it raised. It can always be closed. -/
structure DocumentClient.Traces (client : DocumentClient δ)
    (Raised : δ → List ClientFault → Prop) : Prop where
  openClient : ∀ uri raised,
    Ends Raised (client.openClient uri) raised (Raises Fault.clientError? raised)
  ping : ∀ raised, Ends Raised client.ping raised (Raises Fault.clientError? raised)
  createIndex : ∀ collection key raised,
    Ends Raised (client.createIndex collection key) raised (Raises Fault.clientError? raised)
  insertMany : ∀ collection documents raised,
    Ends Raised (client.insertMany collection documents) raised (Raises Fault.clientError? raised)
  find : ∀ collection query projection raised,
    Ends Raised (client.find collection query projection) raised (Raises Fault.clientError? raised)
  skip : ∀ count raised, Ends Raised (client.skip count) raised (Raises Fault.clientError? raised)
  limit : ∀ count raised, Ends Raised (client.limit count) raised (Raises Fault.clientError? raised)
  fetch : ∀ raised, Ends Raised client.fetch raised (Raises Fault.clientError? raised)
  count : ∀ collection query raised,
    Ends Raised (client.count collection query) raised (Raises Fault.clientError? raised)
  updateOne : ∀ collection condition update raised,
    Ends Raised (client.updateOne collection condition update) raised
      (Raises Fault.clientError? raised)
  close : ∀ raised, Leads Raised client.close raised (.ok ()) raised

/-- The client of a session raised these errors. -/
def ClientSession.Raised (Raised : δ → List ClientFault → Prop) (session : ClientSession δ)
    (raised : List ClientFault) : Prop :=
  Raised session.client raised

/-- A connection reports errors of the families that it handles, and gives others as they are. -/
def ConnectReported (outcome : Except Fault Unit) (raised : List ClientFault) : Prop :=
  (∀ reason ∈ raised, reason.family ≠ .other) ∧
      ReportedUnder Fault.clientError? .documentStore outcome raised ∨
    ∃ reason, raised = [reason] ∧ reason.family = .other ∧ outcome = .error (.client reason)

/-- A call of a document store. -/
inductive DocumentCall
  | connect
  | disconnect
  | ensureIndexes (collection : Text)
  | insert (collection : Text) (documents : List Entries)
  | get (collection : Text) (query : Entries) (offset limit : Int)
  | count (collection : Text) (query : Entries)
  | upsert (collection : Text) (condition update : Entries)

namespace DocumentCall

/-- Does a call, whatever it gives. -/
def run (store : DocumentStore δ) : DocumentCall → Action δ Unit
  | connect => store.connect
  | disconnect => store.disconnect
  | ensureIndexes collection => store.ensureIndexes collection
  | insert collection documents => do let _ ← store.insert collection documents
  | get collection query offset limit => do let _ ← store.get collection query offset limit
  | count collection query => do let _ ← store.count collection query
  | upsert collection condition update => do let _ ← store.upsert collection condition update

/-- What a call makes of the errors that are raised during it. -/
def Reported : DocumentCall → Except Fault Unit → List ClientFault → Prop
  | connect, outcome, raised => ConnectReported outcome raised
  | _, outcome, raised => ReportedUnder Fault.clientError? .documentStore outcome raised

end DocumentCall

namespace ClientStore

variable {client : DocumentClient δ} {Raised : δ → List ClientFault → Prop}
  {raised raised' : List ClientFault}

theorem ends_call {action : Action δ α} {ending : Except Fault α → List ClientFault → Prop}
    (h : Ends Raised action raised ending) :
    Ends (ClientSession.Raised Raised) (call action) raised ending := by
  intro session hs
  rw [call, run_zoom]
  exact h session.client hs

theorem setConnected_leads (connected : Bool) :
    Leads (ClientSession.Raised Raised) (setConnected connected) raised (.ok ()) raised :=
  fun _ hs => ⟨_, rfl, hs⟩

theorem requireClient_reported :
    Ends (ClientSession.Raised Raised) requireClient []
      (ReportedUnder Fault.clientError? .documentStore) :=
  Ends.get_ite (Ends.pure_reported ()) ((Leads.fail _).ends ⟨rfl, .inl rfl⟩)

theorem reporting_reported {action : Action (ClientSession δ) α}
    (report : ClientFault → DocumentStoreFault)
    (haction : Ends (ClientSession.Raised Raised) action [] (Raises Fault.clientError? [])) :
    Ends (ClientSession.Raised Raised) (reporting report action) []
      (ReportedUnder Fault.clientError? .documentStore) := by
  refine haction.handle (fun _ _ hok => hok) fun fault raised' hfault => ?_
  obtain ⟨reason, herror, rfl⟩ := hfault
  cases Fault.clientError?_eq_some.mp herror
  exact (Leads.fail _).ends ⟨rfl, .inr ⟨⟨reason, rfl⟩, Fault.isUnder_documentStore _⟩⟩

theorem hasOperator_eq_error {update : Entries} {fault : Fault}
    (h : hasOperator update = .error fault) : ∃ cause, fault = .value cause := by
  induction update with
  | nil => cases h
  | cons entry rest ih =>
    obtain ⟨key, argument⟩ := entry
    cases key with
    | text key =>
      unfold hasOperator at h
      split at h
      · cases h
      · exact ih h
    | _ =>
      cases h
      exact ⟨_, rfl⟩

section Calls

variable (h : client.Traces Raised)

include h

theorem connect_reported (uri : Text) :
    Ends (ClientSession.Raised Raised) (connect uri client) [] ConnectReported := by
  refine Ends.get_ite ((Leads.pure ()).ends (.inl ⟨nofun, rfl⟩)) ?_
  refine Ends.handle (?_ : Ends (ClientSession.Raised Raised) _ []
    (Raises Fault.clientError? [])) (fun _ _ hok => ?_) fun fault raised' hfault => ?_
  · exact (ends_call (h.openClient uri [])).bind_raises fun _ =>
      (setConnected_leads true).bind_ends (ends_call (h.ping []))
  · cases hok
    exact .inl ⟨nofun, rfl⟩
  obtain ⟨reason, herror, rfl⟩ := hfault
  cases Fault.clientError?_eq_some.mp herror
  have hreported (cause : DocumentStoreFault) (hfamily : reason.family ≠ .other) :
      Ends (ClientSession.Raised Raised) (giveUp cause) [reason] ConnectReported := by
    refine (setConnected_leads false).bind_ends ((Leads.fail _).ends (.inl ⟨?_, rfl, .inr ?_⟩))
    · exact List.forall_mem_singleton.mpr hfamily
    · exact ⟨⟨reason, rfl⟩, Fault.isUnder_documentStore cause⟩
  dsimp only
  -- the handler asks for two families; there is a third
  cases hfamily : reason.family with
  | connection => exact hreported _ (by rw [hfamily]; nofun)
  | operation => exact hreported _ (by rw [hfamily]; nofun)
  | other => exact (Leads.fail _).ends (.inr ⟨reason, rfl, hfamily, rfl⟩)

theorem disconnect_reported :
    Ends (ClientSession.Raised Raised) (disconnect client) []
      (ReportedUnder Fault.clientError? .documentStore) := by
  refine Ends.get_ite ?_ (Ends.pure_reported ())
  refine Leads.bind_ends (x := ()) (b := []) (fun s hs => ?_) ((setConnected_leads false).ends rfl)
  obtain ⟨t, hrun, ht⟩ := h.close [] s.client hs
  exact ⟨{ s with client := t }, by rw [call, run_zoom, hrun], ht⟩

theorem select_raises (collection : Text) (query : Entries) (offset limit : Int) :
    Ends (ClientSession.Raised Raised) (select client collection query offset limit) []
      (Raises Fault.clientError? []) := by
  have hwhen {condition : Prop} [Decidable condition] {action : Action δ Unit}
      {next : Unit → Action (ClientSession δ) (List Entries)}
      (haction : Ends Raised action [] (Raises Fault.clientError? []))
      (hnext : Ends (ClientSession.Raised Raised) (next ()) [] (Raises Fault.clientError? [])) :
      Ends (ClientSession.Raised Raised) (if condition then call action >>= next else next ()) []
        (Raises Fault.clientError? []) := by
    split
    · exact (ends_call haction).bind_raises fun _ => hnext
    · exact hnext
  refine (ends_call (h.find _ _ _ [])).bind_raises fun _ => ?_
  exact hwhen (h.skip offset []) (hwhen (h.limit limit []) (ends_call (h.fetch [])))

end Calls

end ClientStore

/-- The errors of a client during a call are reported. -/
theorem DocumentCall.ends {client : DocumentClient δ} {Raised : δ → List ClientFault → Prop}
    (h : client.Traces Raised) (config : MongoConfig) (call : DocumentCall) :
    Ends (ClientSession.Raised Raised) (call.run (ClientStore.store config client)) []
      call.Reported := by
  cases call with
  | connect => exact ClientStore.connect_reported h _
  | disconnect => exact ClientStore.disconnect_reported h
  | ensureIndexes collection =>
    exact ClientStore.requireClient_reported.bind_reported fun _ =>
      ClientStore.reporting_reported _ (ClientStore.ends_call (h.createIndex _ _ []))
  | insert collection documents =>
    refine Ends.bind_reported ?_ fun _ => Ends.pure_reported ()
    change Ends _ (if documents.isEmpty then _ else _) _ _
    split
    · exact Ends.pure_reported 0
    · refine ClientStore.requireClient_reported.bind_reported fun _ => ?_
      exact (ClientStore.reporting_reported _ (ClientStore.ends_call
        (h.insertMany _ _ []))).bind_reported fun _ => Ends.pure_reported _
  | get collection query offset limit =>
    refine Ends.bind_reported ?_ fun _ => Ends.pure_reported ()
    exact ClientStore.requireClient_reported.bind_reported fun _ =>
      ClientStore.reporting_reported _ (ClientStore.select_raises h _ _ _ _)
  | count collection query =>
    refine Ends.bind_reported ?_ fun _ => Ends.pure_reported ()
    exact ClientStore.requireClient_reported.bind_reported fun _ =>
      ClientStore.reporting_reported _ (ClientStore.ends_call (h.count _ _ []))
  | upsert collection condition update =>
    refine Ends.bind_reported ?_ fun _ => Ends.pure_reported ()
    refine ClientStore.requireClient_reported.bind_reported fun _ => ?_
    refine Ends.bind_reported (Ends.ofExcept_reported fun fault hfault => ?_) fun operator => ?_
    · obtain ⟨cause, rfl⟩ := ClientStore.hasOperator_eq_error hfault
      rfl
    · refine ClientStore.reporting_reported _ ?_
      exact (ClientStore.ends_call (h.updateOne _ _ _ [])).bind_raises fun _ =>
        (Leads.pure _).ends rfl

/-! ### Scripted clients -/

namespace ClientScript

variable {faults raised : List ClientFault}

/-- The errors that a script raised, of those that it was given. -/
def Raised (faults : List ClientFault) (script : ClientScript) (raised : List ClientFault) : Prop :=
  (∀ error ∈ script.errors, ClientEvent.close.name ≠ error.name) ∧
    faults.Perm (raised ++ script.errors.map (·.fault))

theorem note_raises (event : ClientEvent) :
    Ends (Raised faults) (note event) raised (Raises Fault.clientError? raised) := by
  rintro script ⟨hclose, hperm⟩
  rw [run_apply, note]
  dsimp only
  split
  · next error hfound =>
    refine ⟨raised ++ [error.fault], ⟨error.fault, rfl, rfl⟩,
      fun e he => hclose e (List.mem_of_mem_erase he), ?_⟩
    have herase := List.perm_cons_erase (List.mem_of_find?_eq_some hfound)
    rw [List.append_assoc]
    exact hperm.trans ((herase.map (·.fault)).append_left _)
  · exact ⟨raised, rfl, hclose, hperm⟩

/-- A scripted client shows which of its errors it raised. -/
theorem client_traces (faults : List ClientFault) : client.Traces (Raised faults) where
  openClient _ _ := note_raises _
  ping _ := note_raises _
  createIndex _ _ _ := note_raises _
  insertMany _ _ _ := note_raises _
  find _ _ _ _ := note_raises _
  skip _ _ := note_raises _
  limit _ _ := note_raises _
  fetch raised := (note_raises _).bind_raises fun _ s hs => ⟨raised, rfl, hs⟩
  count _ _ raised := (note_raises _).bind_raises fun _ s hs => ⟨raised, rfl, hs⟩
  updateOne _ _ _ raised := (note_raises _).bind_raises fun _ s hs => ⟨raised, rfl, hs⟩
  close raised := by
    rintro script ⟨hclose, hperm⟩
    refine ⟨{ script with calls := .close :: script.calls }, ?_, hclose, hperm⟩
    have hnone :
        script.errors.find? (fun error => error.name == ClientEvent.close.name) = none := by
      rw [List.find?_eq_none]
      exact fun e he => by simpa using (hclose e he).symm
    change (note .close).run script = _
    rw [run_apply, note]
    dsimp only
    rw [hnone]

end ClientScript

/-! ### Both stores -/

/-- During a call that starts without errors, each error that a driver or a client raises is
reported under the family of its store. Two kinds of errors pass as they are: one of the search
that follows a broken constraint of an insertion, and one of a connection to the documents that
is neither of a lost connection nor of a refused operation. -/
theorem calls_report_errors {store : MotorStore σ} {client : DocumentClient δ}
    {RaisedSql : σ → List DriverFault → Prop} {RaisedDocuments : δ → List ClientFault → Prop}
    (hdriver : store.driver.Traces RaisedSql) (hclient : client.Traces RaisedDocuments)
    (config : MongoConfig) :
    (∀ call : StoreCall, Ends (Session.Raised RaisedSql) (call.run store) [] call.Reported) ∧
      ∀ call : DocumentCall, Ends (ClientSession.Raised RaisedDocuments)
        (call.run (ClientStore.store config client)) [] call.Reported :=
  ⟨StoreCall.ends hdriver, DocumentCall.ends hclient config⟩

/-- A driver of which an insertion breaks a constraint, and then the search for its scan fails. -/
def brokenSearch : Session Script :=
  ⟨true, { errors := [⟨"INSERT INTO ScanIds", .driver ⟨.integrityError, []⟩⟩,
    ⟨"SELECT scan_id", .driver ⟨.error, []⟩⟩] }⟩

/-- A client whose database does not answer. -/
def brokenPing : ClientSession ClientScript :=
  ⟨false, { errors := [⟨"admin.command", ⟨"PyMongoError", "no answer"⟩⟩] }⟩

theorem calls_report_errors_broken :
    (∃ raised, (StoreCall.insert (.float .zero) .null).Reported
      (((StoreCall.insert (.float .zero) .null).run MotorStore.scripted).run brokenSearch).1
        raised ∧
      Session.Raised (Script.Raised (brokenSearch.server.errors.map (·.fault)))
        (((StoreCall.insert (.float .zero) .null).run MotorStore.scripted).run brokenSearch).2
        raised) ∧
    ∃ raised, DocumentCall.connect.Reported
      ((DocumentCall.connect.run (ClientStore.store {} ClientScript.client)).run brokenPing).1
        raised ∧
      ClientSession.Raised (ClientScript.Raised (brokenPing.client.errors.map (·.fault)))
        ((DocumentCall.connect.run (ClientStore.store {} ClientScript.client)).run brokenPing).2
        raised := by
  have hdriver : MotorStore.scripted.driver.Traces
      (Script.Raised (brokenSearch.server.errors.map (·.fault))) := Script.driver_traces .mysql _
  obtain ⟨hstore, hdocuments⟩ := calls_report_errors hdriver
    (ClientScript.client_traces (brokenPing.client.errors.map (·.fault))) {}
  refine ⟨hstore _ brokenSearch ⟨?_, ?_, .refl _⟩, hdocuments _ brokenPing ⟨?_, .refl _⟩⟩
  · unfold Script.Legal
    decide
  · decide +kernel
  · decide

/-- An error of a ping and one of the search for a scan pass as they are. -/
theorem errors_pass :
    ((ClientStore.store {} ClientScript.client).connect.run brokenPing).1 =
      .error (.client ⟨"PyMongoError", "no answer"⟩) ∧
    ((MotorStore.scripted.insert (.float .zero) .null).run brokenSearch).1 =
      .error (.driver ⟨.error, []⟩) ∧
    ¬ Fault.IsUnder (.client ⟨"PyMongoError", "no answer"⟩) .documentStore ∧
    ¬ Fault.IsUnder (.driver ⟨.error, []⟩) .motorStore := by
  refine ⟨by decide +kernel, by decide, ?_, ?_⟩ <;>
  · rintro ⟨f, hf, -⟩
    cases hf

end ScanCatalog
