import RelTrace.Command.Run

/-!
# Parts of the command

A part of the command runs on a folder after something has been printed. It gives a result or fails,
may print more, and may leave another folder. Many parts do nothing but give their result: they are
quiet, and what is printed around them does not matter to them.

## Main definitions

* `Command.runOn`: a part of the command on a folder.
* `Command.result`: what the part gives.
* `Command.IsQuiet`: the part gives its result and does nothing else.
-/

namespace RelTrace

namespace Command

variable {α β : Type} {folder folder' : Folder} {printed printed' : String}

/-- What a part of the command gives, prints and leaves on a folder. -/
def runOn (folder : Folder) (printed : String) (x : Session Desk α) :
    (Except Failure α × String) × Folder :=
  ((x.run.run printed).run folder).value

section Parts

variable {x : Session Desk α} {f : α → Session Desk β}

theorem runOn_bind {a : α} (h : runOn folder printed x = ((.ok a, printed'), folder')) :
    runOn folder printed (x >>= f) = runOn folder' printed' (f a) := by
  unfold runOn at *
  rw [ExceptT.run_bind, StateT.run_bind, StateT.run_bind, Logged.value_bind, h]

/-- What comes after a failure is not done. -/
theorem runOn_bind_error {e : Failure}
    (h : runOn folder printed x = ((.error e, printed'), folder')) :
    runOn folder printed (x >>= f) = ((.error e, printed'), folder') := by
  unfold runOn at *
  rw [ExceptT.run_bind, StateT.run_bind, StateT.run_bind, Logged.value_bind, h]
  rfl

theorem runOn_bind_pure (g : α → β) (x : Session Desk α) :
    (runOn folder printed (x >>= fun a => pure (g a))).1 =
      ((runOn folder printed x).1.1.map g, (runOn folder printed x).1.2) := by
  rcases h : runOn folder printed x with ⟨⟨r, printed'⟩, folder'⟩
  cases r with
  | ok a =>
    rw [runOn_bind h]
    rfl
  | error e =>
    rw [runOn_bind_error h]
    rfl

theorem runOn_onHost (x : Desk α) :
    runOn folder printed (onHost x) =
      ((.ok (x.run folder).value.1, printed), (x.run folder).value.2) := rfl

/-- A text that is printed under a condition. -/
theorem runOn_ite_print {c : Bool} {s : String} {f : Unit → Session Desk β} :
    runOn folder printed (if c = true then print s >>= f else f ()) =
      runOn folder (printed ++ if c then s else "") (f ()) := by
  have hprint : runOn folder printed (print s) = ((.ok (), printed ++ s), folder) := rfl
  cases c with
  | true => exact runOn_bind hprint
  | false => simp

end Parts

/-- What a part of the command gives. -/
def result (folder : Folder) (x : Session Desk α) : Except Failure α := (runOn folder "" x).1.1

/-- The part of the command prints nothing and leaves the folder as it is. -/
def IsQuiet (folder : Folder) (x : Session Desk α) : Prop :=
  ∀ printed, runOn folder printed x = ((result folder x, printed), folder)

section Quiet

variable {x : Session Desk α} {f : α → Session Desk β}

theorem isQuiet_of_runOn {r : Except Failure α}
    (h : ∀ printed, runOn folder printed x = ((r, printed), folder)) : IsQuiet folder x := by
  intro printed
  rw [h, result, h]

theorem isQuiet_pure (a : α) : IsQuiet folder (pure a) := fun _ => rfl

theorem isQuiet_throw (e : Failure) : IsQuiet folder (throw e : Session Desk α) := fun _ => rfl

@[simp] theorem result_pure (a : α) : result folder (pure a) = .ok a := rfl

@[simp] theorem result_throw (e : Failure) :
    result folder (throw e : Session Desk α) = .error e := rfl

theorem isQuiet_take {ε : Type} (failure : ε → Failure) (r : Except ε α) :
    IsQuiet folder (take failure r) := by
  cases r with
  | ok a => exact isQuiet_pure a
  | error e => exact isQuiet_throw (failure e)

theorem result_take_eq_ok_iff {ε : Type} {failure : ε → Failure} {r : Except ε α} {a : α} :
    result folder (take failure r) = .ok a ↔ r = .ok a := by
  cases r with
  | ok b => exact ⟨fun h => congrArg Except.ok (Except.ok.inj h), fun h => h ▸ rfl⟩
  | error e => exact ⟨nofun, nofun⟩

theorem IsQuiet.result_bind_eq_ok_iff (hx : IsQuiet folder x) {b : β} :
    result folder (x >>= f) = .ok b ↔
      ∃ a, result folder x = .ok a ∧ result folder (f a) = .ok b := by
  have h := hx ""
  cases hr : result folder x with
  | ok a =>
    rw [result, runOn_bind (hr ▸ h), ← result]
    exact ⟨fun hb => ⟨a, rfl, hb⟩, fun ⟨_, ha, hb⟩ => Except.ok.inj ha ▸ hb⟩
  | error e =>
    rw [result, runOn_bind_error (hr ▸ h)]
    exact ⟨nofun, nofun⟩

theorem IsQuiet.bind (hx : IsQuiet folder x) (hf : ∀ a, IsQuiet folder (f a)) :
    IsQuiet folder (x >>= f) := by
  cases hr : result folder x with
  | ok a =>
    exact isQuiet_of_runOn fun printed => (runOn_bind (hr ▸ hx printed)).trans (hf a printed)
  | error e => exact isQuiet_of_runOn fun printed => runOn_bind_error (hr ▸ hx printed)

/-- A quiet part that gives something is followed by the rest. -/
theorem IsQuiet.runOn_bind (hx : IsQuiet folder x) {a : α} (h : result folder x = .ok a) :
    runOn folder printed (x >>= f) = runOn folder printed (f a) :=
  Command.runOn_bind (h ▸ hx printed)

theorem IsQuiet.runOn_bind_error (hx : IsQuiet folder x) {e : Failure}
    (h : result folder x = .error e) :
    runOn folder printed (x >>= f) = ((.error e, printed), folder) :=
  Command.runOn_bind_error (h ▸ hx printed)

/-- What holds of the rest if a quiet part gives something, and of every failure if it gives
nothing, holds of the whole. -/
theorem IsQuiet.bind_cases {P : Except Failure β × String → Prop} (hx : IsQuiet folder x)
    (hok : ∀ a, result folder x = .ok a → P (runOn folder printed (f a)).1)
    (herror : (∀ a, result folder x ≠ .ok a) → ∀ e, P (.error e, printed)) :
    P (runOn folder printed (x >>= f)).1 := by
  cases hr : result folder x with
  | ok a =>
    rw [hx.runOn_bind hr]
    exact hok a hr
  | error e =>
    rw [hx.runOn_bind_error hr]
    exact herror (fun a ha => nomatch hr.symm.trans ha) e

/-- Notes go to the log only. -/
theorem value_run_forM_takeNote (notes : List Note) :
    ((notes.forM Host.takeNote : Desk Unit).run folder).value = ((), folder) := by
  induction notes with
  | nil => rfl
  | cons n notes ih => exact ih

theorem value_run_lift (x : Logged α) :
    ((Host.lift x : Desk α).run folder).value = (x.value, folder) := by
  rw [Host.lift, StateT.run_bind, Logged.value_bind, value_run_forM_takeNote]
  rfl

theorem isQuiet_lift (x : Logged α) : IsQuiet folder (onHost (Host.lift x)) :=
  isQuiet_of_runOn fun printed => by rw [runOn_onHost, value_run_lift]

theorem result_lift (x : Logged α) : result folder (onHost (Host.lift x)) = .ok x.value := by
  rw [result, runOn_onHost, value_run_lift]

end Quiet

end Command

end RelTrace
