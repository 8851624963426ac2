import ScanCatalog.Proofs.Motor.Checked
import ScanCatalog.Proofs.Motor.OpenTransactions
import ScanCatalog.Proofs.Motor.Reachable

/-!
# Errors of a driver

What the calls of a motor store make of the errors that its driver raises. This holds of every
driver whose statements and commits fail with errors that the store handles, and whose cursors
and rollbacks do not fail. An error is reported as a fault of the motor tables, with one
exception: an insertion that breaks a constraint looks for its scan, and an error of that search
passes as it is.

## Main definitions

* `Fault.IsUnder`: the faults that a caller who handles a family handles;
* `Raises`, `ReportedUnder`: errors that are raised, and their reports;
* `SqlDriver.Traces`: a driver whose state shows the errors that it raised;
* `StoreCall.run`, `StoreCall.Reported`: the calls of a store, and their reports.

## Main statements

* `StoreCall.ends`: the errors of a driver during a call are reported;
* `Script.driver_traces`: the scripted drivers.
-/

namespace ScanCatalog

open ScanCatalog.Action

variable {σ ε α β : Type}

/-! ### Raised and reported -/

/-- A caller that handles the family handles the fault. -/
def Fault.IsUnder (fault : Fault) (family : Family) : Prop :=
  ∃ f, fault.family? = some f ∧ family ∈ f.chain

theorem Fault.isUnder_motorStore (cause : MotorStoreFault) :
    Fault.IsUnder (.motorStore cause) .motorStore := ⟨.motorStore, rfl, by decide⟩

theorem Fault.isUnder_duplicateScan (sid : Value) (detail : Text) :
    Fault.IsUnder (.duplicateScan sid detail) .motorStore := ⟨.duplicateScan, rfl, by decide⟩

/-- The error of a driver that a fault is, if the store handles it. -/
def Fault.driverError? : Fault → Option DriverFault
  | .driver reason => if reason.isError then some reason else none
  | _ => none

theorem Fault.driverError?_eq_some {fault : Fault} {reason : DriverFault} :
    fault.driverError? = some reason ↔ fault = .driver reason ∧ reason.isError = true := by
  cases fault with
  | driver cause =>
    rw [driverError?, Option.ite_none_right_eq_some]
    constructor
    · rintro ⟨herror, heq⟩
      cases heq
      exact ⟨rfl, herror⟩
    · rintro ⟨heq, herror⟩
      cases heq
      exact ⟨herror, rfl⟩
  | _ => simp [driverError?]

section Reports

variable (error? : Fault → Option ε)

/-- A result raises nothing, and a fault is one more error. -/
def Raises (raised : List ε) : Except Fault α → List ε → Prop
  | .ok _, raised' => raised' = raised
  | .error fault, raised' => ∃ e, error? fault = some e ∧ raised' = raised ++ [e]

/-- The fault of an outcome is one more error, if it is an error. -/
def Passes (raised : List ε) : Except Fault α → List ε → Prop
  | .ok _, raised' => raised' = raised
  | .error fault, raised' => raised' = raised ++ (error? fault).toList

/-- A result means that nothing was raised. A fault is no error itself; if one was raised, and
more cannot be, the fault is of a family. -/
def ReportedUnder (family : Family) : Except Fault α → List ε → Prop
  | .ok _, raised => raised = []
  | .error fault, raised =>
    error? fault = none ∧ (raised = [] ∨ (∃ e, raised = [e]) ∧ fault.IsUnder family)

end Reports

namespace Action.Ends

variable {Shows : σ → List ε → Prop} {error? : Fault → Option ε} {family : Family}
  {raised : List ε}

theorem mono {ρ : Type} {Shows : σ → ρ → Prop} {action : Action σ α} {a : ρ}
    {ending ending' : Except Fault α → ρ → Prop} (h : Ends Shows action a ending)
    (hmono : ∀ outcome b, ending outcome b → ending' outcome b) :
    Ends Shows action a ending' :=
  fun s hs => (h s hs).imp fun _ hb => ⟨hmono _ _ hb.1, hb.2⟩

/-- What is done depends on the state, which does not change by that. -/
theorem get_ite {condition : σ → Bool} {yes no : Action σ α}
    {ending : Except Fault α → List ε → Prop} (hyes : Ends Shows yes raised ending)
    (hno : Ends Shows no raised ending) :
    Ends Shows (do let s ← Action.get; if condition s then yes else no) raised ending := by
  intro s hs
  refine (?_ : Ends Shows (if condition s then yes else no) raised ending) s hs
  split
  · exact hyes
  · exact hno

theorem passes {action : Action σ α} (h : Ends Shows action raised (Raises error? raised)) :
    Ends Shows action raised (Passes error? raised) := by
  refine h.mono fun outcome raised' hraised => ?_
  cases outcome with
  | ok _ => exact hraised
  | error fault =>
    obtain ⟨e, herror, rfl⟩ := hraised
    change _ = raised ++ (error? fault).toList
    rw [herror]
    rfl

theorem bind_raises {action : Action σ α} {next : α → Action σ β}
    (h : Ends Shows action raised (Raises error? raised))
    (hnext : ∀ x, Ends Shows (next x) raised (Raises error? raised)) :
    Ends Shows (action >>= next) raised (Raises error? raised) := by
  refine h.bind (fun _ _ hfault => hfault) fun x raised' hok => ?_
  cases hok
  exact hnext x

theorem bind_passes {action : Action σ α} {next : α → Action σ β}
    (h : Ends Shows action raised (Passes error? raised))
    (hnext : ∀ x, Ends Shows (next x) raised (Passes error? raised)) :
    Ends Shows (action >>= next) raised (Passes error? raised) := by
  refine h.bind (fun _ _ hfault => hfault) fun x raised' hok => ?_
  cases hok
  exact hnext x

theorem bind_reported {action : Action σ α} {next : α → Action σ β}
    (h : Ends Shows action [] (ReportedUnder error? family))
    (hnext : ∀ x, Ends Shows (next x) [] (ReportedUnder error? family)) :
    Ends Shows (action >>= next) [] (ReportedUnder error? family) := by
  refine h.bind (fun _ _ hfault => hfault) fun x raised' hok => ?_
  cases hok
  exact hnext x

theorem pure_reported (x : α) :
    Ends Shows (Action.pure x) [] (ReportedUnder error? family) := (Leads.pure x).ends rfl

/-- A fault that is no error passes. -/
theorem ofExcept_reported {result : Except Fault α}
    (h : ∀ fault, result = .error fault → error? fault = none) :
    Ends Shows (Action.ofExcept result) [] (ReportedUnder error? family) := by
  refine (Leads.ofExcept result).ends ?_
  cases result with
  | ok _ => rfl
  | error fault => exact ⟨h fault rfl, .inl rfl⟩

end Action.Ends

/-! ### Faults of what is selected -/

section Selected

variable {fault : Fault}

theorem rowParts_eq_error {row : List Value} (h : rowParts row = .error fault) :
    ∃ cause, fault = .value cause := by
  unfold rowParts at h
  split at h
  · cases h
  · split at h <;> cases h <;> exact ⟨_, rfl⟩

theorem rowMotor?_eq_error {mnemonic position : Value}
    (h : rowMotor? mnemonic position = .error fault) : ∃ cause, fault = .value cause := by
  unfold rowMotor? at h
  split at h
  · cases h
  · rcases Outcome.bind_eq_error.mp h with h | ⟨x, -, h⟩
    · obtain ⟨cause, -, rfl⟩ := liftValue_eq_error.mp h
      exact ⟨cause, rfl⟩
    · split at h
      · cases h
      · cases h
        exact ⟨_, rfl⟩

theorem addRow_eq_error {records : List (Value × MotorRecord)} {row : List Value}
    (h : addRow records row = .error fault) : ∃ cause, fault = .value cause := by
  rcases Outcome.bind_eq_error.mp h with h | ⟨⟨sid, mnemonic, position⟩, -, h⟩
  · exact rowParts_eq_error h
  dsimp only at h
  split at h
  · cases h
    exact ⟨_, rfl⟩
  split at h
  · rcases Outcome.bind_eq_error.mp h with h | ⟨motor, -, h⟩
    · exact rowMotor?_eq_error h
    · cases h
  · rcases Outcome.bind_eq_error.mp h with h | ⟨x, -, h⟩
    · obtain ⟨cause, -, rfl⟩ := liftValue_eq_error.mp h
      exact ⟨cause, rfl⟩
    · rcases Outcome.bind_eq_error.mp h with h | ⟨motor, -, h⟩
      · exact rowMotor?_eq_error h
      · cases h

/-- Rows that make no records have a fault of a value. -/
theorem groupRows_eq_error {rows : List (List Value)} (h : groupRows rows = .error fault) :
    ∃ cause, fault = .value cause := by
  have hrows : ∀ records : List (Value × MotorRecord),
      rows.foldlM addRow records = .error fault → ∃ cause, fault = .value cause := by
    clear h
    induction rows with
    | nil => intro _ h; cases h
    | cons row rest ih =>
      intro records h
      rw [List.foldlM_cons] at h
      rcases Outcome.bind_eq_error.mp h with h | ⟨records, -, h⟩
      · exact addRow_eq_error h
      · exact ih records h
  rcases Outcome.bind_eq_error.mp h with h | ⟨_, -, h⟩
  · exact hrows [] h
  · cases h

theorem MotorStore.countOf_eq_error {rows : List (List Value)}
    (h : MotorStore.countOf rows = .error fault) : ∃ cause, fault = .value cause := by
  rcases rows with _ | ⟨_ | ⟨v, row⟩, rest⟩
  · cases h
    exact ⟨_, rfl⟩
  · cases h
    exact ⟨_, rfl⟩
  · obtain ⟨cause, -, rfl⟩ := liftValue_eq_error.mp h
    exact ⟨cause, rfl⟩

theorem distinctSids_eq_error {taken sids : List Value}
    (h : distinctSids taken sids = .error fault) : ∃ cause, fault = .value cause := by
  induction sids generalizing taken with
  | nil => cases h
  | cons sid rest ih =>
    unfold distinctSids at h
    split at h
    · cases h
      exact ⟨_, rfl⟩
    split at h
    · exact ih h
    · exact ih h

end Selected

/-! ### Drivers that show their errors -/

/-- A driver whose state shows the errors that it raised. Cursors, rollbacks and the end of the
connection do not fail, and the other calls fail with errors that a store handles. -/
structure SqlDriver.Traces (driver : SqlDriver σ) (Raised : σ → List DriverFault → Prop) :
    Prop where
  connect : ∀ config raised,
    Ends Raised (driver.connect config) raised (Raises Fault.driverError? raised)
  execute : ∀ statement parameters raised,
    Ends Raised (driver.execute statement parameters) raised (Raises Fault.driverError? raised)
  commit : ∀ raised, Ends Raised driver.commit raised (Raises Fault.driverError? raised)
  openCursor : ∀ raised, Leads Raised driver.openCursor raised (.ok ()) raised
  closeCursor : ∀ raised, Leads Raised driver.closeCursor raised (.ok ()) raised
  rollback : ∀ raised, Leads Raised driver.rollback raised (.ok ()) raised
  close : ∀ raised, Leads Raised driver.close raised (.ok ()) raised

/-- The driver of a session raised these errors. -/
def Session.Raised (Raised : σ → List DriverFault → Prop) (session : Session σ)
    (raised : List DriverFault) : Prop :=
  Raised session.server raised

/-- What an insertion makes of errors: they are reported, but for one after a broken
constraint. -/
def InsertReported (outcome : Except Fault α) (raised : List DriverFault) : Prop :=
  ReportedUnder Fault.driverError? .motorStore outcome raised ∨
    ∃ first second, raised = [first, second] ∧ first.isIntegrity = true ∧
      outcome = .error (.driver second)

namespace MotorStore

variable {store : MotorStore σ} {Raised : σ → List DriverFault → Prop}
  {raised raised' : List DriverFault}

theorem leads_call {action : Action σ α} {outcome : Except Fault α}
    (h : Leads Raised action raised outcome raised') :
    Leads (Session.Raised Raised) (call action) raised outcome raised' := by
  intro session hs
  obtain ⟨s', hrun, hs'⟩ := h session.server hs
  exact ⟨{ session with server := s' }, by rw [call, run_zoom, hrun], hs'⟩

theorem ends_call {action : Action σ α} {ending : Except Fault α → List DriverFault → Prop}
    (h : Ends Raised action raised ending) :
    Ends (Session.Raised Raised) (call action) raised ending := by
  intro session hs
  rw [call, run_zoom]
  exact h session.server hs

theorem setConnected_leads (connected : Bool) :
    Leads (Session.Raised Raised) (setConnected connected) raised (.ok ()) raised :=
  fun _ hs => ⟨_, rfl, hs⟩

theorem requireConnection_reported :
    Ends (Session.Raised Raised) requireConnection []
      (ReportedUnder Fault.driverError? .motorStore) :=
  Ends.get_ite (Ends.pure_reported ()) ((Leads.fail _).ends ⟨rfl, .inl rfl⟩)

/-- An error that the store handles ends as its handler does, and other faults pass. -/
theorem onDriverError_raises {action : Action (Session σ) α}
    {handler : DriverFault → Action (Session σ) α}
    {ending : Except Fault α → List DriverFault → Prop}
    (haction : Ends (Session.Raised Raised) action [] (Passes Fault.driverError? []))
    (hok : ∀ x, ending (.ok x) [])
    (hother : ∀ fault, fault.driverError? = none → ending (.error fault) [])
    (hhandler : ∀ reason, reason.isError = true →
      Ends (Session.Raised Raised) (handler reason) [reason] ending) :
    Ends (Session.Raised Raised) (onDriverError action handler) [] ending := by
  refine haction.handle (fun x _ hraised => ?_) fun fault raised' hraised => ?_
  · cases hraised
    exact hok x
  · change raised' = [] ++ fault.driverError?.toList at hraised
    cases herror : fault.driverError? with
    | some reason =>
      obtain ⟨rfl, hreason⟩ := Fault.driverError?_eq_some.mp herror
      rw [herror] at hraised
      subst hraised
      dsimp only
      rw [if_pos hreason]
      exact hhandler reason hreason
    | none =>
      rw [herror] at hraised
      subst hraised
      cases fault with
      | driver reason =>
        dsimp only
        split
        · next hreason => rw [Fault.driverError?, if_pos hreason] at herror; cases herror
        · exact (Leads.fail _).ends (hother _ herror)
      | _ => exact (Leads.fail _).ends (hother _ herror)

section Calls

variable (h : store.driver.Traces Raised)

include h

theorem execute_raises (statement : Statement) (parameters : Option (List Value)) :
    Ends (Session.Raised Raised) (call (store.driver.execute statement parameters)) raised
      (Raises Fault.driverError? raised) :=
  ends_call (h.execute statement parameters raised)

theorem withCursor_raises {action : Action (Session σ) α}
    {ending : Except Fault α → List DriverFault → Prop}
    (haction : Ends (Session.Raised Raised) action raised ending) :
    Ends (Session.Raised Raised) (store.withCursor action) raised ending :=
  (leads_call (h.openCursor raised)).bind_ends
    (haction.always fun raised' => leads_call (h.closeCursor raised'))

/-- What is undone is reported. -/
theorem undo_reported (reason : DriverFault) (cause : MotorStoreFault) :
    Ends (Session.Raised Raised) (store.undo (.motorStore cause) : Action _ α) [reason]
      (ReportedUnder Fault.driverError? .motorStore) := by
  refine (leads_call (h.rollback [reason])).bind_ends ((Leads.fail _).ends ?_)
  exact ⟨rfl, .inr ⟨⟨reason, rfl⟩, Fault.isUnder_motorStore cause⟩⟩

/-- An error before a rollback is reported. -/
theorem onDriverError_undo_reported {action : Action (Session σ) α}
    (cause : DriverFault → MotorStoreFault)
    (haction : Ends (Session.Raised Raised) action [] (Raises Fault.driverError? [])) :
    Ends (Session.Raised Raised)
      (onDriverError action fun reason => store.undo (.motorStore (cause reason))) []
      (ReportedUnder Fault.driverError? .motorStore) :=
  onDriverError_raises haction.passes (fun _ => rfl) (fun _ hfault => ⟨hfault, .inl rfl⟩)
    fun reason _ => undo_reported h reason (cause reason)

/-! ### The calls of a store -/

theorem createSchema_reported :
    Ends (Session.Raised Raised) store.createSchema []
      (ReportedUnder Fault.driverError? .motorStore) := by
  have hparts : ∀ parts, Ends (Session.Raised Raised) (store.createParts parts) []
      (Raises Fault.driverError? []) := by
    intro parts
    induction parts with
    | nil => exact (Leads.pure ()).ends rfl
    | cons part rest ih => exact (execute_raises h _ _).bind_raises fun _ => ih
  refine requireConnection_reported.bind_reported fun _ => withCursor_raises h ?_
  exact onDriverError_undo_reported h _
    ((hparts _).bind_raises fun _ => ends_call (h.commit []))

theorem openConnection_raises :
    Ends (Session.Raised Raised) store.openConnection [] (Raises Fault.driverError? []) := by
  refine (ends_call (h.connect _ [])).bind_raises fun _ => (setConnected_leads true).bind_ends ?_
  cases store.dialect with
  | sqlite => exact (Leads.pure ()).ends rfl
  | mysql =>
    refine (leads_call (h.openCursor [])).bind_ends ?_
    refine (execute_raises h _ _).bind_raises fun _ => ?_
    refine (execute_raises h _ _).bind_raises fun _ => ?_
    exact (leads_call (h.closeCursor [])).ends rfl

theorem connect_reported :
    Ends (Session.Raised Raised) store.connect []
      (ReportedUnder Fault.driverError? .motorStore) := by
  refine Ends.get_ite (Ends.pure_reported ()) ?_
  refine Ends.bind_reported ?_ fun _ => createSchema_reported h
  refine onDriverError_raises (openConnection_raises h).passes (fun _ => rfl)
    (fun _ hfault => ⟨hfault, .inl rfl⟩) fun reason _ => ?_
  refine (setConnected_leads false).bind_ends ((Leads.fail _).ends ?_)
  exact ⟨rfl, .inr ⟨⟨reason, rfl⟩, Fault.isUnder_motorStore _⟩⟩

theorem disconnect_reported :
    Ends (Session.Raised Raised) store.disconnect []
      (ReportedUnder Fault.driverError? .motorStore) := by
  refine Ends.get_ite ?_ (Ends.pure_reported ())
  exact (leads_call (h.close [])).bind_ends ((setConnected_leads false).ends rfl)

theorem insertMotors_raises (scanId : Value) (motors : Entries) :
    Ends (Session.Raised Raised) (store.insertMotors scanId motors) []
      (Raises Fault.driverError? []) := by
  induction motors with
  | nil => exact (Leads.pure ()).ends rfl
  | cons motor rest ih =>
    exact (execute_raises h _ _).bind_raises fun _ => (execute_raises h _ _).bind_raises fun _ => ih

/-- The search for a scan after a broken constraint can raise an error of its own, which passes. -/
theorem insertFailed_reported (sid : Value) {reason : DriverFault} :
    Ends (Session.Raised Raised) (store.insertFailed sid reason : Action _ α) [reason]
      InsertReported := by
  have hreported : ∀ fault : Fault, fault.driverError? = none → fault.IsUnder .motorStore →
      InsertReported (.error fault : Except Fault α) [reason] := fun _ hnone hunder =>
    .inl ⟨hnone, .inr ⟨⟨reason, rfl⟩, hunder⟩⟩
  refine (leads_call (h.rollback [reason])).bind_ends ?_
  split
  case isTrue hintegrity =>
    -- the search runs outside of what handles errors, with one error raised already
    have hexists : Ends (Session.Raised Raised) (store.sidExists sid) [reason]
        (Raises Fault.driverError? [reason]) :=
      withCursor_raises h ((execute_raises h _ _).bind_raises fun _ => (Leads.pure _).ends rfl)
    refine hexists.bind (fun fault raised' hfault => ?_) fun found raised' hok => ?_
    · obtain ⟨second, herror, rfl⟩ := hfault
      obtain ⟨rfl, -⟩ := Fault.driverError?_eq_some.mp herror
      exact .inr ⟨reason, second, rfl, hintegrity, rfl⟩
    · cases hok
      cases found with
      | true => exact (Leads.fail _).ends (hreported _ rfl (Fault.isUnder_duplicateScan _ _))
      | false => exact (Leads.fail _).ends (hreported _ rfl (Fault.isUnder_motorStore _))
  case isFalse => exact (Leads.fail _).ends (hreported _ rfl (Fault.isUnder_motorStore _))

omit h in
/-- A fault of the check of motors is no error of the driver. -/
theorem checkMotors_reported (motors : Value) :
    Ends (Session.Raised Raised) (Action.ofExcept (checkMotors motors)) []
      (ReportedUnder Fault.driverError? .motorStore) := by
  refine Ends.ofExcept_reported fun fault hfault => ?_
  rcases checkMotors_eq_error hfault with ⟨_, rfl⟩ | ⟨_, _, rfl⟩ | rfl | ⟨_, rfl⟩ <;> rfl

theorem insert_reported (sid motors : Value) :
    Ends (Session.Raised Raised) (store.insert sid motors) [] InsertReported := by
  refine (checkMotors_reported motors).bind (fun _ _ hfault => .inl hfault) fun motors _ hok => ?_
  cases hok
  refine requireConnection_reported.bind (fun _ _ hfault => .inl hfault) fun _ _ hok => ?_
  cases hok
  refine withCursor_raises h (onDriverError_raises (Ends.passes ?_) (fun _ => .inl rfl)
    (fun _ hfault => .inl ⟨hfault, .inl rfl⟩) fun reason _ => insertFailed_reported h sid)
  refine (execute_raises h _ _).bind_raises fun scan => ?_
  refine (insertMotors_raises h _ _).bind_raises fun _ => ?_
  exact (ends_call (h.commit [])).bind_raises fun _ => (Leads.pure _).ends rfl

theorem replaceMotors_reported (sid motors : Value) :
    Ends (Session.Raised Raised) (store.replaceMotors sid motors) []
      (ReportedUnder Fault.driverError? .motorStore) := by
  refine (checkMotors_reported motors).bind_reported fun motors =>
    requireConnection_reported.bind_reported fun _ => withCursor_raises h ?_
  refine Ends.handle (?_ : Ends (Session.Raised Raised) _ [] (Passes Fault.driverError? []))
    (fun _ _ hok => hok) fun fault raised' hfault => ?_
  · refine (execute_raises h _ _).passes.bind_passes fun found => ?_
    cases found.rows with
    | nil => exact (Leads.fail _).ends rfl
    | cons row rest =>
      cases row with
      | nil => exact (Leads.fail _).ends rfl
      | cons scanId others =>
        refine Leads.bind_ends (Leads.ofExcept (.ok scanId)) (Ends.passes ?_)
        refine (execute_raises h _ _).bind_raises fun _ => ?_
        refine (execute_raises h _ _).bind_raises fun _ => ?_
        exact (insertMotors_raises h _ _).bind_raises fun _ => ends_call (h.commit [])
  · change raised' = [] ++ fault.driverError?.toList at hfault
    subst hfault
    cases fault with
    | motorStore cause =>
      exact (leads_call (h.rollback [])).bind_ends ((Leads.fail _).ends ⟨rfl, .inl rfl⟩)
    | driver reason =>
      unfold replaceFailed Fault.driverError?
      dsimp only
      split
      · exact undo_reported h reason _
      · next hreason =>
        exact (Leads.fail _).ends ⟨if_neg hreason, .inl rfl⟩
    | _ => exact (Leads.fail _).ends ⟨rfl, .inl rfl⟩

theorem fetch_reported (statement : Statement) (parameters : List Value) :
    Ends (Session.Raised Raised) (store.fetch statement parameters) []
      (ReportedUnder Fault.driverError? .motorStore) := by
  refine requireConnection_reported.bind_reported fun _ => Ends.bind_reported ?_ fun selected =>
    Ends.ofExcept_reported fun fault hfault => ?_
  · refine withCursor_raises h (onDriverError_undo_reported h _ ?_)
    refine (execute_raises h _ _).bind_raises fun selected => ?_
    exact (ends_call (h.commit [])).bind_raises fun _ => (Leads.pure _).ends rfl
  · obtain ⟨cause, rfl⟩ := groupRows_eq_error hfault
    rfl

theorem count_reported :
    Ends (Session.Raised Raised) store.count [] (ReportedUnder Fault.driverError? .motorStore) := by
  refine requireConnection_reported.bind_reported fun _ => withCursor_raises h ?_
  refine onDriverError_raises ?_ (fun _ => rfl) (fun _ hfault => ⟨hfault, .inl rfl⟩)
    fun reason _ => (Leads.fail _).ends ⟨rfl, .inr ⟨⟨reason, rfl⟩, Fault.isUnder_motorStore _⟩⟩
  refine (execute_raises h _ _).passes.bind_passes fun counted => (Leads.ofExcept _).ends ?_
  cases hcount : countOf counted.rows with
  | ok _ => rfl
  | error fault =>
    obtain ⟨cause, rfl⟩ := countOf_eq_error hcount
    rfl

theorem bySids_reported (sids : List Value) :
    Ends (Session.Raised Raised) (store.bySids sids) []
      (ReportedUnder Fault.driverError? .motorStore) := by
  refine Ends.bind_reported (Ends.ofExcept_reported fun fault hfault => ?_) fun sids => ?_
  · obtain ⟨cause, rfl⟩ := distinctSids_eq_error ((uniqueSids_eq sids).symm.trans hfault)
    rfl
  · cases sids.isEmpty with
    | true => exact Ends.pure_reported []
    | false => exact fetch_reported h _ _

theorem byPosition_reported (mnemonic position : Value) :
    Ends (Session.Raised Raised) (store.byPosition mnemonic position) []
      (ReportedUnder Fault.driverError? .motorStore) := by
  refine Ends.bind_reported (Ends.ofExcept_reported fun fault hfault => ?_) fun x =>
    fetch_reported h _ _
  obtain ⟨cause, -, rfl⟩ := liftValue_eq_error.mp hfault
  rfl

end Calls

end MotorStore

/-! ### Calls -/

namespace StoreCall

/-- Does a call, whatever it gives. -/
def run (store : MotorStore σ) : StoreCall → Action (Session σ) Unit
  | connect => store.connect
  | disconnect => store.disconnect
  | createSchema => store.createSchema
  | insert sid motors => do let _ ← store.insert sid motors
  | replaceMotors sid motors => store.replaceMotors sid motors
  | bySids sids => do let _ ← store.bySids sids
  | byQueries queries => do let _ ← store.byQueries queries
  | byPosition mnemonic position => do let _ ← store.byPosition mnemonic position
  | count => do let _ ← store.count

/-- What a call makes of the errors that are raised during it. -/
def Reported : StoreCall → Except Fault Unit → List DriverFault → Prop
  | insert .., outcome, raised => InsertReported outcome raised
  | _, outcome, raised => ReportedUnder Fault.driverError? .motorStore outcome raised

/-- The errors of a driver during a call are reported. -/
theorem ends {store : MotorStore σ} {Raised : σ → List DriverFault → Prop}
    (h : store.driver.Traces Raised) (call : StoreCall) :
    Ends (Session.Raised Raised) (call.run store) [] call.Reported := by
  cases call with
  | connect => exact MotorStore.connect_reported h
  | disconnect => exact MotorStore.disconnect_reported h
  | createSchema => exact MotorStore.createSchema_reported h
  | insert sid motors =>
    refine (MotorStore.insert_reported h sid motors).bind (fun fault raised hfault => ?_)
      fun _ raised hok => ?_
    · refine hfault.imp id fun ⟨first, second, hraised, hintegrity, heq⟩ => ?_
      cases heq
      exact ⟨first, second, hraised, hintegrity, rfl⟩
    · rcases hok with hok | ⟨_, _, _, _, heq⟩
      · cases hok
        exact (Leads.pure ()).ends (.inl rfl)
      · cases heq
  | replaceMotors sid motors => exact MotorStore.replaceMotors_reported h sid motors
  | bySids sids =>
    exact (MotorStore.bySids_reported h sids).bind_reported fun _ => Ends.pure_reported ()
  | byQueries queries =>
    exact (MotorStore.fetch_reported h _ _).bind_reported fun _ => Ends.pure_reported ()
  | byPosition mnemonic position =>
    exact (MotorStore.byPosition_reported h mnemonic position).bind_reported fun _ =>
      Ends.pure_reported ()
  | count => exact (MotorStore.count_reported h).bind_reported fun _ => Ends.pure_reported ()

end StoreCall

/-! ### Scripted drivers -/

namespace Script

variable {script : Script} {faults : List Fault} {raised : List DriverFault}

/-- The errors that a script raised, of the faults that it was given. -/
def Raised (faults : List Fault) (script : Script) (raised : List DriverFault) : Prop :=
  script.Legal ∧
    (∀ error ∈ script.errors, DriverEvent.close.subject.contains error.mention = false) ∧
    faults.Perm (raised.map Fault.driver ++ script.errors.map (·.fault))

/-- The error for a call is taken out of the errors to come. -/
theorem takeError_perm {subject : Text} {errors rest : List ScriptedError} {fault : Fault}
    (h : takeError subject errors = (some fault, rest)) :
    (errors.map (·.fault)).Perm (fault :: rest.map (·.fault)) := by
  induction errors generalizing rest with
  | nil => cases h
  | cons error errors ih =>
    unfold takeError at h
    split at h
    · cases h
      exact .refl _
    · obtain ⟨hfound, rfl⟩ := Prod.mk.inj h
      exact ((ih (Prod.ext hfound rfl)).cons error.fault).trans (.swap ..)

theorem note_raises (event : DriverEvent) :
    Ends (Raised faults) (note event) raised (Raises Fault.driverError? raised) := by
  rintro script ⟨hlegal, hclose, hperm⟩
  obtain ⟨hfound, hrest⟩ := takeError_cases event.subject script.errors
  rw [run_apply, note]
  dsimp only
  rcases htaken : takeError event.subject script.errors with ⟨_ | fault, errors⟩ <;>
    rw [htaken] at hfound hrest
  · exact ⟨raised, rfl, hlegal, hclose, hperm⟩
  -- the error goes over from those to come to those that were raised
  obtain ⟨error, hmem, -, rfl⟩ := hfound fault rfl
  have hdriver := (hlegal error hmem).1
  cases hfault : error.fault with
  | driver reason =>
    rw [hfault] at hdriver
    refine ⟨raised ++ [reason], ⟨reason, if_pos hdriver, rfl⟩,
      fun e he => hlegal e (hrest e he), fun e he => hclose e (hrest e he), ?_⟩
    have htake := takeError_perm htaken
    rw [hfault] at htake
    rw [List.map_append, List.append_assoc]
    exact hperm.trans (htake.append_left _)
  | _ => rw [hfault] at hdriver; cases hdriver

theorem note_leads {event : DriverEvent} (hevent : event ∈ safeEvents ∨ event = .close) :
    Leads (Raised faults) (note event) raised (.ok ()) raised := by
  rintro script ⟨hlegal, hclose, hperm⟩
  refine ⟨{ script with calls := event :: script.calls }, ?_, hlegal, hclose, hperm⟩
  rcases hevent with hevent | rfl
  · exact note_safe hlegal hevent
  · obtain ⟨hfound, -⟩ := takeError_cases DriverEvent.close.subject script.errors
    rw [run_apply, note]
    dsimp only
    rcases htaken : takeError DriverEvent.close.subject script.errors with ⟨_ | fault, errors⟩
    · rfl
    · rw [htaken] at hfound
      obtain ⟨error, hmem, hmention, -⟩ := hfound fault rfl
      rw [hclose error hmem] at hmention
      cases hmention

/-- A scripted driver shows which of its errors it raised. -/
theorem driver_traces (dialect : Dialect) (faults : List Fault) :
    (driver dialect).Traces (Raised faults) where
  connect _ _ := note_raises _
  execute statement parameters raised := by
    refine (note_raises _).bind_raises fun _ script hscript => ?_
    obtain ⟨result, script', hanswer, -, herrors⟩ := answer_run statement script
    rw [hanswer]
    refine ⟨raised, rfl, ?_⟩
    unfold Raised Legal
    rwa [herrors]
  commit _ := note_raises _
  openCursor _ := note_leads (.inl (by decide))
  closeCursor _ := note_leads (.inl (by decide))
  rollback _ := note_leads (.inl (by decide))
  close _ := note_leads (.inr rfl)

end Script

end ScanCatalog
