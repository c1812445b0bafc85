import RelTrace.Folder
import RelTrace.Log

/-!
# Hosts

What the command needs of the place that it runs in: files and a log.

## Main definitions

* `Host`: what a host can do.
* `Host.lift`: a logged result on a host.
* `Desk`: the host that consists of a folder and a log.
-/

namespace RelTrace

/-- A place with files and a log. -/
class Host (m : Type → Type) where
  readFile : String → m (Except FileError String)
  writeFile : String → String → m (Except FileError Unit)
  takeNote : Note → m Unit

/-- A result on a host that takes its notes. -/
def Host.lift {m : Type → Type} [Monad m] [Host m] {α : Type} (x : Logged α) : m α := do
  x.notes.forM takeNote
  return x.value

/-- A folder with a log. -/
abbrev Desk := StateT Folder Logged

instance : Host Desk where
  readFile path := do return (← get).read path
  writeFile path text := do
    match (← get).write path text with
    | .ok folder =>
      set folder
      return .ok ()
    | .error e => return .error e
  takeNote n := (Logged.note n.level n.text : Logged Unit)

end RelTrace
