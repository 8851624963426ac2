import ScanCatalog.Proofs.Catalog.Search
import ScanCatalog.Proofs.Motor.Dotted
import ScanCatalog.Proofs.Routing.Owners
import ScanCatalog.Service

/-!
# Searches with nested and dotted keys

Where the built-in table routes, a search may name the motors by the fields of one mapping or
each by a key of its own, among other keys in any places: it asks the same of both backends.

## Main definitions

* `Entries.Notations`: two expressions that differ in how they name the motors;
* `Routed.Alike`: split filters that ask the same.

## Main statements

* `Entries.Notations.route`: the two expressions are routed alike;
* `Catalog.search_notations`: they are compiled alike, and searches for them run alike.
-/

namespace ScanCatalog

open MotorTerm ScanCatalog.Action

/-- Whether a key is that of the motors, or begins as the keys of motors do. -/
def MotorTerm.isKey (t : Text) : Bool := t == motorsName || t.startsWith motorsStart

namespace Entries

/-- Whether an entry is under such a key. -/
def isMotors (e : Value × Value) : Bool :=
  match e.1 with
  | .text t => isKey t
  | _ => false

/-- Two expressions that ask for the same motors, in one mapping or each under a key of its own,
and have the same other entries. -/
structure Notations (motors nested dotted : Entries) : Prop where
  inMapping : nested.filter isMotors = [(.text motorsName, .map motors)]
  underKeys : dotted.filter isMotors = motors.dotted
  others : nested.filter (fun e => !isMotors e) = dotted.filter fun e => !isMotors e

end Entries

/-! ### Terms -/

namespace Terms

theorem key_of_termOf {e : Value × Value} {term : Text × Filter} (h : termOf e = .ok term) :
    e.1 = .text term.1 := congrArg Prod.fst (entry_of_termOf h).symm

theorem isKey_of_termOf (e : Value × Value) (term : Text × Filter) (h : termOf e = .ok term) :
    isKey term.1 = Entries.isMotors e := by
  unfold Entries.isMotors
  rw [key_of_termOf h]

variable {entries : Entries} {terms : Terms}

/-- The terms of the motors among those of an expression, and the others. -/
theorem ofEntries_filter (h : ofEntries entries = .ok terms) :
    ofEntries (entries.filter Entries.isMotors) = .ok (terms.filter fun term => isKey term.1) ∧
      ofEntries (entries.filter fun e => !Entries.isMotors e) =
        .ok (terms.filter fun term => !isKey term.1) := by
  rw [ofEntries_eq_mapM] at h ⊢
  rw [ofEntries_eq_mapM]
  refine ⟨Outcome.mapM_filter isKey_of_termOf h, Outcome.mapM_filter (fun e term hterm => ?_) h⟩
  rw [isKey_of_termOf e term hterm]

/-- An expression is read if its motors and its other entries are. -/
theorem exists_ofEntries {motorTerms otherTerms : Terms}
    (hmotors : ofEntries (entries.filter Entries.isMotors) = .ok motorTerms)
    (hothers : ofEntries (entries.filter fun e => !Entries.isMotors e) = .ok otherTerms) :
    ∃ terms, ofEntries entries = .ok terms := by
  rw [ofEntries_eq_mapM] at hmotors hothers ⊢
  have hmotors := Outcome.mapM_isOk_iff.mp ⟨_, hmotors⟩
  have hothers := Outcome.mapM_isOk_iff.mp ⟨_, hothers⟩
  refine Outcome.mapM_isOk_iff.mpr fun e he => ?_
  cases hkey : Entries.isMotors e with
  | true => exact hmotors e (List.mem_filter.mpr ⟨he, hkey⟩)
  | false => exact hothers e (List.mem_filter.mpr ⟨he, by rw [hkey]; rfl⟩)

end Terms

/-! ### Routes -/

/-- Split filters that ask the same of both backends and leave the same keys without an owner. -/
structure Routed.Alike (routed other : Routed) : Prop where
  isEmpty : routed.sql.isEmpty = other.sql.isEmpty
  queries : compileTerms routed.sql = compileTerms other.sql
  mongodb : routed.mongodb = other.mongodb
  unowned : routed.unowned = other.unowned

namespace RoutingTable

variable {service : Text} {terms others : Terms}

/-- The built-in table gives the terms of the motors to the motor tables. -/
theorem split_builtIn_sql (service : Text) (terms : Terms) :
    ((builtIn service).split service terms).sql = terms.filter fun term => isKey term.1 := by
  refine List.filter_congr fun term _ => ?_
  obtain ⟨hmotors, hothers⟩ := owner?_builtIn service term.1
  change _ = (motorsEntry service).owns term.1
  cases howns : (motorsEntry service).owns term.1 with
  | true => rw [hmotors howns]; rfl
  | false =>
    cases howner : (builtIn service).owner? service term.1 with
    | none => rfl
    | some entry =>
      rw [Option.any_some, hothers howns entry howner]
      rfl

/-- What else it does with the terms is a matter of the others. -/
theorem filter_builtIn (condition : Option RoutingEntry → Bool)
    (hmotors : condition (some (motorsEntry service)) = false) (terms : Terms) :
    (terms.filter fun term => condition ((builtIn service).owner? service term.1)) =
      (terms.filter fun term => !isKey term.1).filter fun term =>
        condition ((builtIn service).owner? service term.1) := by
  rw [List.filter_filter]
  refine List.filter_congr fun term _ => ?_
  cases hkey : isKey term.1 with
  | true => rw [(owner?_builtIn service term.1).1 hkey, hmotors]; rfl
  | false => rw [Bool.not_false, Bool.and_true]

theorem split_builtIn_others (service : Text)
    (h : (terms.filter fun term => !isKey term.1) = others.filter fun term => !isKey term.1) :
    ((builtIn service).split service terms).mongodb =
        ((builtIn service).split service others).mongodb ∧
      ((builtIn service).split service terms).unowned =
        ((builtIn service).split service others).unowned := by
  constructor
  · change (terms.filter _) = others.filter _
    rw [filter_builtIn (fun owner => owner.any fun e => e.backend == .mongodb) rfl, h,
      ← filter_builtIn _ rfl]
  · change (terms.filter _).map _ = (others.filter _).map _
    rw [filter_builtIn Option.isNone rfl, h, ← filter_builtIn _ rfl]

end RoutingTable

namespace Entries.Notations

variable {motors nested dotted : Entries}

/-- What both expressions ask, if one of them is read: the fields of the motors, and other terms. -/
theorem ofEntries (h : Notations motors nested dotted) (hnames : ∀ e ∈ motors, e.1.IsFieldName) :
    (∃ fault fault', Terms.ofEntries nested = .error fault ∧
        Terms.ofEntries dotted = .error fault') ∨
      ∃ terms terms' fields, Terms.ofEntries nested = .ok terms ∧
        Terms.ofEntries dotted = .ok terms' ∧
        Filter.fieldsOf (.text motorsName) motors = .ok fields ∧
        (terms.filter fun term => isKey term.1) = [(motorsName, .nested (.map motors) fields)] ∧
        (terms'.filter fun term => isKey term.1) = Terms.dotted fields ∧
        (terms.filter fun term => !isKey term.1) = terms'.filter fun term => !isKey term.1 := by
  have hnested := Terms.ofEntries_nested hnames
  have hdotted := Terms.ofEntries_dotted hnames
  rw [← h.inMapping] at hnested
  rw [← h.underKeys] at hdotted
  cases hread : Terms.ofEntries nested with
  | ok terms =>
    obtain ⟨hmotors, hothers⟩ := Terms.ofEntries_filter hread
    rw [hnested] at hmotors
    obtain ⟨fields, hfields, hmotors⟩ := Outcome.bind_eq_ok.mp hmotors
    rw [hfields, Outcome.ok_bind] at hdotted
    rw [h.others] at hothers
    obtain ⟨terms', hread'⟩ := Terms.exists_ofEntries hdotted hothers
    obtain ⟨hmotors', hothers'⟩ := Terms.ofEntries_filter hread'
    refine .inr ⟨terms, terms', fields, rfl, hread', hfields, (Except.ok.inj hmotors).symm,
      Except.ok.inj (hmotors'.symm.trans hdotted), Except.ok.inj (hothers.symm.trans hothers')⟩
  | error fault =>
    cases hread' : Terms.ofEntries dotted with
    | error fault' => exact .inl ⟨fault, fault', rfl, rfl⟩
    | ok terms' =>
      -- what reads the keys of their own reads the mapping, too
      obtain ⟨hmotors, hothers⟩ := Terms.ofEntries_filter hread'
      rw [hdotted] at hmotors
      obtain ⟨fields, hfields, -⟩ := Outcome.bind_eq_ok.mp hmotors
      rw [hfields, Outcome.ok_bind] at hnested
      rw [← h.others] at hothers
      obtain ⟨terms, hboth⟩ := Terms.exists_ofEntries hnested hothers
      cases hread.symm.trans hboth

/-- Both expressions are refused by the reader or by the router, or they are routed alike. -/
theorem route (h : Notations motors nested dotted) (hne : motors ≠ [])
    (hnames : ∀ e ∈ motors, e.1.IsFieldName) {router : Router} {service : Text}
    (hbuiltIn : router.table = .builtIn service) :
    (∃ fault fault', router.route service (.map nested) = .error (.filter fault) ∧
        router.route service (.map dotted) = .error (.filter fault')) ∨
      (∃ fault, router.route service (.map nested) = .error fault ∧
        router.route service (.map dotted) = .error fault) ∨
      ∃ routed routed', router.route service (.map nested) = .ok routed ∧
        router.route service (.map dotted) = .ok routed' ∧ routed.Alike routed' := by
  have hread : ∀ expression, Terms.ofValue (.map expression) = Terms.ofEntries expression :=
    fun _ => rfl
  unfold Router.route
  rw [hread, hread, hbuiltIn]
  rcases h.ofEntries hnames with ⟨fault, fault', hnested, hdotted⟩ |
    ⟨terms, terms', fields, hnested, hdotted, hfields, hmotors, hmotors', hothers⟩
  · rw [hnested, hdotted]
    exact .inl ⟨fault, fault', rfl, rfl⟩
  rw [hnested, hdotted]
  obtain ⟨hmongodb, hunowned⟩ := RoutingTable.split_builtIn_others service hothers
  have halike : ((RoutingTable.builtIn service).split service terms).Alike
      ((RoutingTable.builtIn service).split service terms') := by
    refine ⟨?_, ?_, hmongodb, hunowned⟩
    · -- a mapping with motors has fields, so the motor tables are asked in both cases
      rw [RoutingTable.split_builtIn_sql, RoutingTable.split_builtIn_sql, hmotors, hmotors']
      rw [Filter.fieldsOf_eq_mapM] at hfields
      obtain ⟨e, rest, rfl⟩ := List.exists_cons_of_ne_nil hne
      obtain ⟨_, _, _, _, rfl⟩ := Outcome.mapM_cons_eq_ok.mp hfields
      rfl
    · rw [RoutingTable.split_builtIn_sql, RoutingTable.split_builtIn_sql, hmotors, hmotors']
      exact compileTerms_dotted _ (Filter.isEmpty_of_fieldsOf hfields)
  rw [liftFilter, liftFilter, Outcome.ok_bind, Outcome.ok_bind]
  dsimp only
  rw [hunowned]
  split
  · exact .inr (.inl ⟨_, rfl, rfl⟩)
  · exact .inr (.inr ⟨_, _, rfl, rfl, halike⟩)

end Entries.Notations

/-! ### Searches -/

namespace Catalog

variable {σ δ : Type}

/-- Filters that ask the same are searched for alike. -/
theorem searchRouted_alike (catalog : Catalog σ δ) {routed other : Routed}
    (h : routed.Alike other) (offset limit : Int) :
    catalog.searchRouted routed offset limit = catalog.searchRouted other offset limit := by
  have hstrategy : routed.strategy = other.strategy := by
    unfold Routed.strategy
    rw [h.isEmpty, h.mongodb]
  have hrecords : catalog.motorRecords routed.sql = catalog.motorRecords other.sql := by
    unfold motorRecords
    rw [h.queries]
  unfold searchRouted
  rw [hstrategy, hrecords, h.mongodb]

/-- Motors that are asked for in one mapping or each under a key of its own are compiled to the
same queries, or to the same fault. Where the built-in table routes, two searches that differ in
nothing else are both refused by the reader, or they run alike. -/
theorem search_notations {motors : Entries} (hne : motors ≠ [])
    (hnames : ∀ e ∈ motors, e.1.IsFieldName) :
    compileEntries [(.text motorsName, .map motors)] = compileEntries motors.dotted ∧
      ∀ {σ δ : Type} (catalog : Catalog σ δ),
        catalog.router.table = .builtIn catalog.serviceName →
        ∀ {nested dotted : Entries}, Entries.Notations motors nested dotted →
        ∀ (idx limit : Int) (state : CatalogState σ δ),
          (catalog.search (.map nested) idx limit).run state =
              (catalog.search (.map dotted) idx limit).run state ∨
            ∃ fault fault',
              (catalog.search (.map nested) idx limit).run state = (.error (.filter fault), state) ∧
              (catalog.search (.map dotted) idx limit).run state =
                (.error (.filter fault'), state) := by
  refine ⟨compileEntries_dotted hnames, ?_⟩
  intro σ δ catalog hbuiltIn nested dotted h idx limit state
  have hsearch : ∀ expression : Entries, (catalog.search (.map expression) idx limit).run state =
      if idx < 0 ∨ limit < 0 then (.error (.filter (.negativePage idx (some limit))), state)
      else (catalog.searchExpression expression idx limit).run state := by
    intro expression
    unfold search
    split <;> rfl
  rw [hsearch, hsearch]
  split
  · exact .inl rfl
  unfold searchExpression Catalog.route
  rw [run_bind, run_bind, run_ofExcept, run_ofExcept]
  rcases h.route hne hnames hbuiltIn with ⟨fault, fault', hnested, hdotted⟩ |
    ⟨fault, hnested, hdotted⟩ | ⟨routed, routed', hnested, hdotted, halike⟩
  · rw [hnested, hdotted]
    exact .inr ⟨fault, fault', rfl, rfl⟩
  · rw [hnested, hdotted]
    exact .inl rfl
  · rw [hnested, hdotted]
    dsimp only
    rw [catalog.searchRouted_alike halike]
    exact .inl rfl

/-- A search for a motor after a document field, and one with the key of the motor before it. -/
theorem search_notations_oneScan :
    let catalog := embedded .inMemory builtInRouter .empty "scans" "SpecScans"
    let nested : Entries := [("did", "x"), ("motors", .map [("b", .float .zero)])]
    let dotted : Entries := [("motors.b", .float .zero), ("did", "x")]
    compileEntries [("motors", .map [("b", .float .zero)])] =
        compileEntries [("motors.b", .float .zero)] ∧
      ((catalog.search (.map nested) 0 0).run oneScanState).1 = .ok [oneScanFound] ∧
      (catalog.search (.map nested) 0 0).run oneScanState =
        (catalog.search (.map dotted) 0 0).run oneScanState := by
  intro catalog nested dotted
  have hnames : ∀ e ∈ ([("b", .float .zero)] : Entries), e.1.IsFieldName :=
    List.forall_mem_singleton.mpr ⟨"b", rfl, rfl, rfl⟩
  obtain ⟨hcompile, hsearch⟩ := search_notations (List.cons_ne_nil _ _) hnames
  have hfound : ((catalog.search (.map nested) 0 0).run oneScanState).1 = .ok [oneScanFound] := by
    decide +kernel
  refine ⟨hcompile, hfound, ?_⟩
  have hnotations : Entries.Notations [("b", .float .zero)] nested dotted := ⟨rfl, rfl, rfl⟩
  rcases hsearch catalog rfl hnotations 0 0 oneScanState with hsame | ⟨fault, fault', hnested, -⟩
  · exact hsame
  · rw [hnested] at hfound
    cases hfound

end Catalog

end ScanCatalog
