/-!
# Logged results

Some operations leave notes beside their result. The notes are part of the answer: they stay in
order, and an operation that fails keeps those it made before.

## Main definitions

* `Note`: a level and a text.
* `Logged`: a result with notes.
-/

namespace RelTrace

/-- How much a note matters. -/
inductive Level where
  | trace
  | debug
  | info
  | warn
deriving DecidableEq

/-- One entry of the log. -/
structure Note where
  level : Level
  text : String
deriving DecidableEq

/-- A result with the notes made on the way to it. -/
structure Logged (α : Type) where
  value : α
  notes : List Note

namespace Logged

instance : Monad Logged where
  pure a := ⟨a, []⟩
  bind x f := ⟨(f x.value).value, x.notes ++ (f x.value).notes⟩

/-- Makes one note. -/
def note (level : Level) (text : String) : Logged Unit := ⟨(), [⟨level, text⟩]⟩

@[simp] theorem value_pure {α : Type} (a : α) : (pure a : Logged α).value = a := rfl

@[simp] theorem notes_pure {α : Type} (a : α) : (pure a : Logged α).notes = [] := rfl

@[simp] theorem value_bind {α β : Type} (x : Logged α) (f : α → Logged β) :
    (x >>= f).value = (f x.value).value := rfl

@[simp] theorem notes_bind {α β : Type} (x : Logged α) (f : α → Logged β) :
    (x >>= f).notes = x.notes ++ (f x.value).notes := rfl

instance : LawfulMonad Logged :=
  LawfulMonad.mk' Logged
    (fun x => congrArg (Logged.mk x.value) (List.append_nil x.notes))
    (fun _ _ => rfl)
    (fun x f g => congrArg (Logged.mk _) (List.append_assoc x.notes _ _))

end Logged

end RelTrace
