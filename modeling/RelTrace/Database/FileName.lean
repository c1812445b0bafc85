import RelTrace.Database.Basic
import RelTrace.Text.Blank
import RelTrace.Text.LowerCase

/-!
# File names of databases

A database is exported under a name made of the lower-case words of its own name.

## Main definitions

* `slug`: the lower-case words of a name, joined by hyphens.
* `Database.fileName`.
-/

namespace RelTrace

/-- The lower-case words of a text, joined by hyphens. -/
def slug (name : String) : String :=
  "-".intercalate ((Text.words (Text.lower name.toList)).map String.ofList)

/-- The name of the file that a database is exported to. -/
def Database.fileName (d : Database) : String := slug d.name ++ ".json"

end RelTrace
