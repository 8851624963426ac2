import ScanCatalog.Proofs.Filter.Grammar
import ScanCatalog.Proofs.Motor.Operators

/-!
# Nested and dotted keys

The motors of a filter are named by the fields of one mapping, or each by a key of its own that
begins with `motors.`. Both are read and compiled alike: to the same queries, or to the same fault.

## Main definitions

* `Entries.dotted`: the fields of a mapping under keys of their own.

## Main statements

* `Terms.ofEntries_nested`, `Terms.ofEntries_dotted`: the terms of both;
* `compileEntries_dotted`, `compileTerms_dotted`: both are compiled alike.
-/

namespace ScanCatalog

open MotorTerm

/-- The fields of a mapping of motors, each under a key of its own. -/
def Entries.dotted (motors : Entries) : Entries :=
  motors.map fun e => (.text (motorsStart ++ e.1.display), e.2)

variable {motors : Entries}

namespace Filter

/-- The path of a motor. -/
theorem pathUnder_motors (t : Text) :
    pathUnder (.text motorsName) t = .text (motorsStart ++ t) := rfl

/-- The fields of a mapping have its keys as their names. -/
theorem isEmpty_of_fieldsOf {path : Value} {fields : List (Text × Filter)}
    (h : fieldsOf path motors = .ok fields) : ∀ field ∈ fields, field.1.isEmpty = false := by
  rw [fieldsOf_eq_mapM] at h
  refine Outcome.forall_of_mapM_eq_ok h fun e field hfield => ?_
  unfold fieldOf at hfield
  split at hfield
  · split at hfield
    · cases hfield
    · next hempty =>
      obtain ⟨filter, -, hfield⟩ := Outcome.bind_eq_ok.mp hfield
      cases hfield
      exact Bool.eq_false_iff.mpr hempty
  · cases hfield

end Filter

/-! ### Terms -/

/-- The terms of the fields of a mapping, each under a key of its own. -/
def Terms.dotted (fields : List (Text × Filter)) : Terms :=
  fields.map fun field => (motorsStart ++ field.1, field.2)

namespace Terms

theorem ofEntries_nested (hnames : ∀ e ∈ motors, e.1.IsFieldName) :
    ofEntries [(.text motorsName, .map motors)] = (do
      let fields ← Filter.fieldsOf (.text motorsName) motors
      return [(motorsName, .nested (.map motors) fields)]) := by
  rw [ofEntries,
    Filter.ofValue_fields fun e he => Filter.isOperatorKey_of_isFieldName (hnames e he)]
  cases Filter.fieldsOf (.text motorsName) motors <;> rfl

theorem ofEntries_dotted (hnames : ∀ e ∈ motors, e.1.IsFieldName) :
    ofEntries motors.dotted = (do
      let fields ← Filter.fieldsOf (.text motorsName) motors
      return dotted fields) := by
  induction motors with
  | nil => rw [Filter.fieldsOf]; rfl
  | cons e rest ih =>
    obtain ⟨hname, hrest⟩ := List.forall_mem_cons.mp hnames
    obtain ⟨key, v⟩ := e
    obtain ⟨t, ht, hempty, -⟩ := hname
    cases ht
    change ofEntries ((.text (motorsStart ++ t), v) :: Entries.dotted rest) = _
    rw [ofEntries, ih hrest, Filter.fieldsOf, if_neg (Bool.eq_false_iff.mp hempty),
      Filter.pathUnder_motors]
    have hnonempty : (motorsStart ++ t).isEmpty = false := rfl
    have hstarts : (motorsStart ++ t).startsWith "$" = false := rfl
    rw [hnonempty, hstarts, if_neg Bool.false_ne_true, if_neg Bool.false_ne_true]
    cases Filter.ofValue (.text (motorsStart ++ t)) v with
    | error fault => rfl
    | ok filter => cases Filter.fieldsOf (.text motorsName) rest <;> rfl

end Terms

/-! ### Queries -/

/-- The motor terms of the fields of a mapping. -/
def MotorTerm.ofFields (fields : List (Text × Filter)) : List MotorTerm :=
  fields.map fun field => ⟨field.1, some field.2⟩

theorem motorTermsOf_dotted {fields : List (Text × Filter)}
    (hnames : ∀ field ∈ fields, field.1.isEmpty = false) :
    motorTermsOf (Terms.dotted fields) = .ok (ofFields fields) := by
  induction fields with
  | nil => rfl
  | cons field rest ih =>
    obtain ⟨hname, hrest⟩ := List.forall_mem_cons.mp hnames
    change motorTermsOf ((motorsStart ++ field.1, field.2) :: Terms.dotted rest) = _
    rw [motorTermsOf, MotorTerm.ofTerm_mnemonic, hname, if_neg Bool.false_ne_true, ih hrest]
    rfl

/-- The terms of both are compiled alike. -/
theorem compileTerms_dotted {fields : List (Text × Filter)} (raw : Value)
    (hnames : ∀ field ∈ fields, field.1.isEmpty = false) :
    compileTerms [(motorsName, .nested raw fields)] = compileTerms (Terms.dotted fields) := by
  have hnested :
      motorTermsOf [(motorsName, .nested raw fields)] = .ok (ofFields fields ++ []) := rfl
  unfold compileTerms
  rw [hnested, motorTermsOf_dotted hnames, List.append_nil]

theorem motorTermsOfEntries_nested (hnames : ∀ e ∈ motors, e.1.IsFieldName) :
    motorTermsOfEntries [(.text motorsName, .map motors)] = (do
      let fields ← liftFilter (Filter.fieldsOf (.text motorsName) motors)
      return ofFields fields) := by
  rw [motorTermsOfEntries,
    Filter.ofValue_fields fun e he => Filter.isOperatorKey_of_isFieldName (hnames e he)]
  cases Filter.fieldsOf (.text motorsName) motors with
  | error fault => rfl
  | ok fields =>
    change Except.ok (ofFields fields ++ []) = Except.ok (ofFields fields)
    rw [List.append_nil]

/-- Entries under keys of motors are taken apart as their terms are. -/
theorem motorTermsOfEntries_eq {entries : Entries} (hnames : ∀ e ∈ entries, e.1.IsFieldName)
    (hmotors : ∀ e ∈ entries, ∀ filter, ∃ terms, ofTerm e.1.display filter = .ok terms) :
    motorTermsOfEntries entries = (do motorTermsOf (← liftFilter (Terms.ofEntries entries))) := by
  induction entries with
  | nil => rfl
  | cons e rest ih =>
    obtain ⟨hname, hrestNames⟩ := List.forall_mem_cons.mp hnames
    obtain ⟨hmotor, hrestMotors⟩ := List.forall_mem_cons.mp hmotors
    obtain ⟨key, v⟩ := e
    obtain ⟨t, ht, hempty, hstarts⟩ := hname
    cases ht
    rw [motorTermsOfEntries, Terms.ofEntries, ih hrestNames hrestMotors, hempty, hstarts,
      if_neg Bool.false_ne_true, if_neg Bool.false_ne_true]
    cases Filter.ofValue (.text t) v with
    | error fault => rfl
    | ok filter =>
      -- a key of a motor has its terms whatever is asked, so no fault comes before the others
      obtain ⟨terms, hterms⟩ := hmotor filter
      rw [Value.display_text] at hterms
      rw [liftFilter, Outcome.ok_bind]
      dsimp only
      rw [hterms]
      cases Terms.ofEntries rest with
      | error fault => rfl
      | ok read =>
        change _ = motorTermsOf ((t, filter) :: read)
        rw [motorTermsOf, hterms]
        rfl

theorem motorTermsOfEntries_dotted (hnames : ∀ e ∈ motors, e.1.IsFieldName) :
    motorTermsOfEntries motors.dotted = (do
      let fields ← liftFilter (Filter.fieldsOf (.text motorsName) motors)
      return ofFields fields) := by
  rw [motorTermsOfEntries_eq, Terms.ofEntries_dotted hnames]
  · cases hfields : Filter.fieldsOf (.text motorsName) motors with
    | error fault => rfl
    | ok fields => exact motorTermsOf_dotted (Filter.isEmpty_of_fieldsOf hfields)
  · refine List.forall_mem_map.mpr fun e he => ⟨_, rfl, rfl, rfl⟩
  · refine List.forall_mem_map.mpr fun e he filter => ?_
    obtain ⟨t, ht, hempty, -⟩ := hnames e he
    rw [ht, Value.display_text, Value.display_text, MotorTerm.ofTerm_mnemonic, hempty,
      if_neg Bool.false_ne_true]
    exact ⟨_, rfl⟩

/-- Motors that are asked for in one mapping or each under a key of its own are compiled to the
same queries, or to the same fault. -/
theorem compileEntries_dotted (hnames : ∀ e ∈ motors, e.1.IsFieldName) :
    compileEntries [(.text motorsName, .map motors)] = compileEntries motors.dotted := by
  unfold compileEntries
  rw [motorTermsOfEntries_nested hnames, motorTermsOfEntries_dotted hnames]

end ScanCatalog
