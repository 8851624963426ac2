import ScanCatalog.Text.Blank
import ScanCatalog.Text.Case
import ScanCatalog.Value.Show

/-!
# Backends

A field of a record is kept by one of two backends. A service map may name a backend
by one of several aliases, in any case and between blanks.

## Main definitions

* `Backend`: the motor tables or the document collection;
* `Backend.ofValue?`: the backend that a value names.
-/

namespace ScanCatalog

/-- Where a field is kept: in the motor tables or in the document collection. -/
inductive Backend
  | sql
  | mongodb
deriving DecidableEq, Repr

namespace Backend

/-- The name of a backend. -/
def name : Backend → Text
  | .sql => "sql"
  | .mongodb => "mongodb"

/-- The names that a backend goes by. -/
def aliases : List (Text × Backend) :=
  [("sql", .sql), ("mysql", .sql), ("sqlite", .sql), ("motors", .sql), ("motorsdb", .sql),
    ("mongo", .mongodb), ("mongodb", .mongodb)]

/-- The backend that a text names, whatever its case and the blanks around it. -/
def ofText? (t : Text) : Option Backend := aliases.lookup t.strip.lower

/-- The backend that a value on display names. -/
def ofValue? (v : Value) : Option Backend := ofText? v.display

end Backend

end ScanCatalog
