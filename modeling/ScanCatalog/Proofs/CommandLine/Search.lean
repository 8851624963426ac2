import ScanCatalog.CommandLine.Run
import ScanCatalog.Proofs.Catalog.QueryFaults
import ScanCatalog.Proofs.Catalog.Served
import ScanCatalog.Proofs.Value.Numbers

/-!
# Searches of the program

A run that searches connects to what other runs left, asks once and closes the catalog again. It
ends with the records or with a line about a fault, unless the fault is one that nothing reports;
that escapes, and it has one of the few causes that the query of a connected catalog can have.

## Main definitions

* `RunResult.Ends`, `RunResult.escaped?`, `Output.ofSearch`: how a run ends;
* `Surroundings.Searches`: arguments that search a catalog that connects.

## Main statements

* `Surroundings.run_search`: such a run ends as its search does;
* `CatalogState.Served.queries_caused`: what searches, counts and such runs fail for.
-/

namespace ScanCatalog

open ScanCatalog.Action MotorStore Catalog

namespace RunResult

/-- A command was done, or a line was written about why not. -/
def Ends : RunResult → Prop
  | .performed _ (.ok output) => output.exit = 0 ∨ output.exit = 1
  | _ => False

/-- The fault that escaped from a command. -/
def escaped? : RunResult → Option Fault
  | .performed _ (.error fault) => some fault
  | _ => none

end RunResult

/-- What a search writes, or the fault that escapes from it. -/
def Output.ofSearch : Except Fault (List Entries) → Except Fault Output
  | .ok records => .ok (.ofRecords records)
  | .error fault => if fault.isCaught then .ok (.ofFault fault) else .error fault

/-- Closing a connected catalog, or another one, does not fail. -/
theorem Catalog.close_run (config : MotorsConfig) (router : Router) (schema : Schema)
    (collection serviceName : Text) (state : CatalogState TableServer Collections) :
    ∃ state', (embedded config router schema collection serviceName).close.run state =
      (.ok (), state') := by
  have hdisconnect : ∃ session, (onTables config).disconnect.run state.motors =
      (.ok (), session) := by
    rw [disconnect_run]
    cases state.motors.connected <;> exact ⟨_, rfl⟩
  obtain ⟨session, hdisconnect⟩ := hdisconnect
  refine ⟨{ state with motors := session }, ?_⟩
  change (onMotors (onTables config).disconnect >>= fun _ =>
    onDocuments Collections.store.disconnect).run state = _
  rw [run_bind, onMotors, run_zoom, hdisconnect]
  rfl

namespace Surroundings

variable {surroundings : Surroundings TableServer Collections} {config : MotorsConfig}
  {router : Router} {schema : Schema} {collection serviceName : Text}
  {state connected : CatalogState TableServer Collections} {t : Text}

/-- An action on a connected catalog ends as it does, and the catalog is closed. -/
theorem withCatalog_run {α : Type} {settings : AppConfig}
    {action : Catalog TableServer Collections → Action (CatalogState TableServer Collections) α}
    (hcatalog : surroundings.catalog settings =
      .ok (embedded config router schema collection serviceName))
    (hworkers : checkWorkers settings.service.maxWorkers = .ok ())
    (hconnect : (embedded config router schema collection serviceName).connect.run state =
      (.ok (), connected)) :
    ((surroundings.withCatalog settings action).run state).1 =
      ((action (embedded config router schema collection serviceName)).run connected).1 := by
  have hchecked : (Action.ofExcept (checkWorkers settings.service.maxWorkers) >>= fun _ =>
      action (embedded config router schema collection serviceName)).run connected =
        (action (embedded config router schema collection serviceName)).run connected := by
    rw [run_bind, run_ofExcept, hworkers]
  obtain ⟨_, hclose⟩ := close_run config router schema collection serviceName
    ((action (embedded config router schema collection serviceName)).run connected).2
  unfold withCatalog
  rw [run_bind, run_ofExcept, hcatalog]
  dsimp only
  rw [run_bind, hconnect]
  dsimp only
  rw [run_always, hchecked, hclose]

/-- Arguments that ask for a search, where the settings lead to a catalog that connects. -/
structure Searches (surroundings : Surroundings TableServer Collections) (arguments : List Text)
    (state : CatalogState TableServer Collections) (catalog : Catalog TableServer Collections)
    (t : Text) (idx limit : Int) : Prop where
  invocation : ∃ verbose,
    Invocation.ofArguments arguments = .ok ⟨.search t (some idx) (some limit), verbose⟩
  settings : ∃ settings, AppConfig.ofEnvironment surroundings.environment = .ok settings ∧
    surroundings.catalog settings = .ok catalog ∧
    checkWorkers settings.service.maxWorkers = .ok ()
  connects : (catalog.connect.run (disconnected state)).1 = .ok ()

/-- A run that searches ends as its search does. -/
theorem run_search {arguments : List Text} {idx limit : Int}
    (h : surroundings.Searches arguments state
      (embedded config router schema collection serviceName) t idx limit) :
    ∃ connected verbose,
      (embedded config router schema collection serviceName).connect.run (disconnected state) =
        (.ok (), connected) ∧
      (surroundings.run arguments state).1 = .performed verbose (Output.ofSearch
        (((embedded config router schema collection serviceName).search (.text t) idx limit).run
          connected).1) := by
  obtain ⟨⟨verbose, hinvocation⟩, ⟨settings, hsettings, hcatalog, hworkers⟩, hconnects⟩ := h
  obtain ⟨connected, hconnect⟩ : ∃ connected, (embedded config router schema collection
      serviceName).connect.run (disconnected state) = (.ok (), connected) :=
    ⟨_, run_eq_of_fst hconnects⟩
  refine ⟨connected, (verbose.map Int.ofNat).getD settings.service.verbose, hconnect, ?_⟩
  have hrun : (surroundings.run arguments state).1 = .performed
      ((verbose.map Int.ofNat).getD settings.service.verbose)
      ((catching (surroundings.perform settings (.search t (some idx) (some limit)))).run
        (disconnected state)).1 := by
    unfold Surroundings.run
    rw [hinvocation]
    dsimp only
    rw [hsettings]
  rw [hrun]
  refine congrArg _ ?_
  unfold catching perform
  dsimp only
  rw [run_handle, run_bind]
  generalize hfound : (surroundings.withCatalog settings _).run (disconnected state) = found
  have hsearch : found.1 = (((embedded config router schema collection serviceName).search
      (.text t) idx limit).run connected).1 := by
    rw [← hfound]
    exact withCatalog_run hcatalog hworkers hconnect
  rw [← hsearch]
  obtain ⟨fault | records, s⟩ := found
  · unfold Output.ofSearch
    dsimp only
    split <;> rfl
  · rfl

end Surroundings

/-- In every history of the catalog, over all services that were connected to its stores, the
faults of searches and counts have such causes. A run of the program that searches what they left
ends with the records, or with a line about a fault that is reported, or one of the other faults
escapes from it. -/
theorem CatalogState.Served.queries_caused {config : MotorsConfig} {collection : Text}
    {state : CatalogState TableServer Collections} (hs : state.Served config collection)
    (router : Router) (schema : Schema) (serviceName : Text) :
    (state.motors.connected = true → ∀ query : Value, query.IsBody → ∀ fault : Fault,
      (∀ idx limit : Int, (((embedded config router schema collection serviceName).search query idx
          limit).run state).1 = .error fault → QueryCause router serviceName query fault) ∧
        ((((embedded config router schema collection serviceName).count query).run state).1 =
          .error fault → QueryCause router serviceName query fault)) ∧
    ∀ (surroundings : Surroundings TableServer Collections) (arguments : List Text) (t : Text)
      (idx limit : Int), surroundings.Searches arguments state
        (embedded config router schema collection serviceName) t idx limit →
      (surroundings.run arguments state).1.Ends ∨
        ∃ fault, (surroundings.run arguments state).1.escaped? = some fault ∧
          fault.isCaught = false ∧ QueryCause router serviceName (.text t) fault := by
  refine ⟨fun hconnected query hquery fault => ?_,
    fun surroundings arguments t idx limit hsearches => ?_⟩
  · have hkeyed := (hs.serves hconnected).isKeyed
    exact ⟨fun idx limit hrun => search_cause hkeyed hquery (run_eq_of_fst hrun),
      fun hrun => count_cause hkeyed hquery (run_eq_of_fst hrun)⟩
  · obtain ⟨connected, verbose, hconnect, hrun⟩ := Surroundings.run_search hsearches
    obtain ⟨hdisk, hkeyed, -⟩ := hs.rests
    have hserves : connected.Serves config collection := by
      refine Catalog.connect_serves ?_ ?_ ?_ hconnect
      · exact hdisk
      · exact hkeyed
      · exact nofun
    rw [hrun]
    cases hsearch : (((embedded config router schema collection serviceName).search (.text t) idx
        limit).run connected).1 with
    | ok records => exact .inl (.inl rfl)
    | error fault =>
      unfold Output.ofSearch
      dsimp only
      cases hcaught : fault.isCaught with
      | true => exact .inl (.inr rfl)
      | false =>
        exact .inr ⟨fault, rfl, hcaught,
          search_cause hserves.isKeyed trivial (run_eq_of_fst hsearch)⟩

namespace Catalog

/-! ### A number that is too large -/

/-- The digits of an integer that is too large. -/
def farDigits : List Nat := (Text.ofNat (twoTo 1024)).codes

/-- A question for a motor at such a position. -/
def farText : Text := "\x7b\"motors.b\": " ++ ⟨farDigits⟩ ++ "\x7d"

/-- What is asked by it. -/
def farExpression : Entries := [("motors.b", .tooFar)]

theorem decodeQuery_farText : decodeQuery (.text farText) = .ok farExpression := by
  have hcodes : farText.codes = [123, 34, 109, 111, 116, 111, 114, 115, 46, 98, 34, 58, 32, 49] ++
      (farDigits.tail ++ [125]) := by decide +kernel
  have hlength : farText.codes.length = 323 := by decide +kernel
  have hnumber : (Json.readAtom false 13 (49 :: (farDigits.tail ++ [125]))).map
      (fun part => (part.value, part.offset, part.rest)) = .ok (.tooFar, 322, [125]) := by
    decide +kernel
  obtain ⟨⟨value, offset, rest⟩, hatom, hpart⟩ := Outcome.map_eq_ok.mp hnumber
  obtain ⟨hvalue, hplace⟩ := Prod.mk.inj hpart
  obtain ⟨rfl, rfl⟩ := Prod.mk.inj hplace
  -- the reader of values does not compute, so its steps are taken one by one
  have hread : Json.read false farText = .ok (.map [("motors.b", value)]) := by
    unfold Json.read Json.readCodes
    rw [hlength, hcodes]
    generalize farDigits.tail ++ [125] = more at hatom
    simp [Json.skipSpaces, Json.isSpace, Json.readValue, Json.readFields, Json.readString,
      Json.depthLimit, hatom, Entries.set]
    rfl
  have hblank : farText.isBlank = false := by decide
  rw [decodeQuery_eq, decodeQueryValue, decodeQueryText, hblank, decodeText, hread]
  exact congrArg (fun v => Except.ok [(Value.text "motors.b", v)]) hvalue

/-- The program with its tables in memory. -/
def program : Surroundings TableServer Collections where
  driverFor := TableServer.driverFor
  documentStore := fun _ => Collections.store
  files := ⟨[]⟩
  fetch := fun _ => .failed "web sources cannot be reached"
  environment := [("MOTORS_DB_TYPE", "sqlite"), ("MOTORS_DB_FILE", ":memory:"),
    ("MONGO_COLLECTION", "scans")]
  input := []

theorem fresh_served : fresh.Served .inMemory "scans" := by
  have hrun : (inMemory.connect.run unconnected).1 = .ok () := by decide +kernel
  exact .connected (.empty _ rfl) (run_eq_of_fst hrun)

theorem search_farText {state : CatalogState TableServer Collections}
    (h : ((inMemory.searchExpression farExpression 0 0).run state).1 =
      .error (.value .intTooLarge)) :
    ((inMemory.search (.text farText) 0 0).run state).1 = .error (.value .intTooLarge) := by
  unfold Catalog.search
  rw [if_neg (by decide), run_bind, run_ofExcept, decodeQuery_farText]
  exact h

theorem program_searches :
    program.Searches ["search", farText] fresh inMemory farText 0 0 where
  invocation := by
    have hinvocation : Invocation.ofArguments ["search", farText] =
      .ok ⟨.search farText (some 0) (some 0), none⟩ := by decide +kernel
    exact ⟨none, hinvocation⟩
  settings := by
    have hsettings : AppConfig.ofEnvironment program.environment =
        .ok { motors := .inMemory, mongo := { collection := "scans" } } := by decide +kernel
    exact ⟨_, hsettings, rfl, rfl⟩
  connects := by decide

end Catalog

theorem CatalogState.Served.queries_caused_farText :
    QueryCause builtInRouter "SpecScans" (.text farText) (.value .intTooLarge) ∧
      ((program.run ["search", farText] fresh).1.Ends ∨
        ∃ fault, (program.run ["search", farText] fresh).1.escaped? = some fault ∧
          fault.isCaught = false ∧ QueryCause builtInRouter "SpecScans" (.text farText) fault) := by
  obtain ⟨hqueries, hprogram⟩ :=
    CatalogState.Served.queries_caused fresh_served builtInRouter .empty "SpecScans"
  have hconnected : fresh.motors.connected = true := by decide
  obtain ⟨hsearch, -⟩ := hqueries hconnected (.text farText) trivial (.value .intTooLarge)
  exact ⟨hsearch 0 0 (search_farText (by decide +kernel)),
    hprogram program ["search", farText] farText 0 0 program_searches⟩

/-- The search of a connected catalog fails, and the fault is not reported but escapes from the
program. -/
theorem Catalog.farText_escapes :
    fresh.Served .inMemory "scans" ∧ fresh.motors.connected = true ∧
      ((inMemory.search (.text farText) 0 0).run fresh).1 = .error (.value .intTooLarge) ∧
      Fault.isReported (.value .intTooLarge) = false ∧
      (program.run ["search", farText] fresh).1.escaped? = some (.value .intTooLarge) := by
  refine ⟨fresh_served, by decide, search_farText (by decide +kernel), rfl, ?_⟩
  obtain ⟨connected, verbose, hconnect, hrun⟩ := Surroundings.run_search program_searches
  have hsearch : ((inMemory.search (.text farText) 0 0).run
      (inMemory.connect.run (Surroundings.disconnected fresh)).2).1 =
        .error (.value .intTooLarge) := search_farText (by decide +kernel)
  have hconnected : (inMemory.connect.run (Surroundings.disconnected fresh)).2 = connected :=
    congrArg Prod.snd hconnect
  rw [hconnected] at hsearch
  rw [hrun]
  exact congrArg (fun found => (RunResult.performed verbose (Output.ofSearch found)).escaped?) hsearch

end ScanCatalog
