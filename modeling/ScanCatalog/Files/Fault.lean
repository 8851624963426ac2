import ScanCatalog.Text.Quoted

/-!
# Files that cannot be read

## Main definitions

* `FileFault`: the causes, with the path as it was given;
* `FileFault.kind`, `FileFault.message`: how each is reported.
-/

namespace ScanCatalog

/-- Why a file cannot be read. -/
inductive FileFault
  | notFound (path : Text)
  | isDirectory (path : Text)
  /-- a part of the path that should be a directory is a file -/
  | notDirectory (path : Text)
  /-- the path, or a name in it, has too many octets -/
  | nameTooLong (path : Text)
deriving DecidableEq, Repr

namespace FileFault

/-- The kind of error a file fault is reported as. -/
def kind : FileFault → Text
  | .notFound _ => "FileNotFoundError"
  | .isDirectory _ => "IsADirectoryError"
  | .notDirectory _ => "NotADirectoryError"
  | .nameTooLong _ => "OSError"

/-- The message of a file fault. -/
def message : FileFault → Text
  | .notFound path => "[Errno 2] No such file or directory: " ++ path.quoted
  | .isDirectory path => "[Errno 21] Is a directory: " ++ path.quoted
  | .notDirectory path => "[Errno 20] Not a directory: " ++ path.quoted
  | .nameTooLong path => "[Errno 36] File name too long: " ++ path.quoted

end FileFault

end ScanCatalog
