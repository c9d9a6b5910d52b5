import RustScript.Proofs.Pipeline.Resumed

/-!
# A pipeline and its noting copy

The pipeline that notes what it asks for has collaborators that do as those of the pipeline do. So
what is assumed of the collaborators of a pipeline holds of its noting copy too: that they write only
logs, that the runner does not see what some files hold, and that builds leave the manifest file as
it is.
-/

set_option autoImplicit false

namespace RustScript

/-! ## Actions beside something kept -/

namespace Act

variable {σ κ ε α β : Type}

/-- The second action is the first one beside something more that is kept outside. -/
def IsBeside (action : Act σ α) (other : Act (κ × σ) α) : Prop := action.beside = other

theorem isBeside_bind {action : Act σ α} {other : Act (κ × σ) α} {next : α → Act σ β}
    {next' : α → Act (κ × σ) β} (h : IsBeside action other)
    (hnext : ∀ value, IsBeside (next value) (next' value)) :
    IsBeside (action >>= next) (other >>= next') := by
  unfold IsBeside at h
  subst h
  funext world
  exact congrFun (hnext (action.beside world).1) (action.beside world).2

theorem isBeside_pure (value : α) : IsBeside (pure value : Act σ α) (pure value : Act (κ × σ) α) :=
  rfl

/-- An action that is chosen by what the files are. -/
theorem isBeside_look (view : FileSystem → Bool) {yes no : Act σ α} {yes' no' : Act (κ × σ) α}
    (hyes : IsBeside yes yes') (hno : IsBeside no no') :
    IsBeside (do if ← look view then yes else no) (do if ← look view then yes' else no') := by
  refine isBeside_bind rfl fun present => ?_
  cases present with
  | true => exact hyes
  | false => exact hno

theorem isBeside_run_bind {action : ExceptT ε (Act σ) α} {other : ExceptT ε (Act (κ × σ)) α}
    {next : α → ExceptT ε (Act σ) β} {next' : α → ExceptT ε (Act (κ × σ)) β}
    (h : IsBeside action.run other.run)
    (hnext : ∀ value, IsBeside (next value).run (next' value).run) :
    IsBeside (action >>= next).run (other >>= next').run := by
  rw [ExceptT.run_bind, ExceptT.run_bind]
  refine isBeside_bind h fun result => ?_
  cases result with
  | error error => exact isBeside_pure _
  | ok value => exact hnext value

theorem isBeside_readText (path : Path) :
    IsBeside (readText path : Act σ _) (readText path : Act (κ × σ) _) :=
  isBeside_bind rfl fun content => by cases content <;> exact isBeside_pure _

end Act

/-! ## Logs beside something kept -/

namespace Log

open RustScript.Act

variable {σ κ : Type}

theorem isBeside_readLog (path : Path) :
    IsBeside (readLog path : ExceptT LoadError (Act σ) String).run
      (readLog path : ExceptT LoadError (Act (κ × σ)) String).run :=
  isBeside_bind (isBeside_readText path) fun _ => isBeside_pure _

theorem isBeside_readOutput (directory : Path) (stage : String) :
    IsBeside (readOutput directory stage : ExceptT LoadError (Act σ) _).run
      (readOutput directory stage : ExceptT LoadError (Act (κ × σ)) _).run := by
  refine isBeside_run_bind (isBeside_readLog _) fun status => ?_
  cases Integer.readLoose? status with
  | none => exact isBeside_pure _
  | some number =>
      refine isBeside_run_bind (isBeside_readLog _) fun stdout => ?_
      exact isBeside_run_bind (isBeside_readLog _) fun stderr => isBeside_pure _

/-- Logs in files are the same beside something more that is kept. -/
theorem beside_storeIn (base : Path) :
    ((storeIn base : Store σ).beside : Store (κ × σ)) = storeIn base := by
  have hload : ∀ stem stage, ((storeIn base : Store σ).load stem stage).beside =
      (storeIn base : Store (κ × σ)).load stem stage := fun stem stage =>
    isBeside_look _ (isBeside_bind (isBeside_readOutput _ _) fun _ => isBeside_pure _)
      (isBeside_pure _)
  have hevents : ∀ stem, ((storeIn base : Store σ).events stem).beside =
      (storeIn base : Store (κ × σ)).events stem := fun stem =>
    isBeside_look _ (isBeside_bind (isBeside_readLog _) fun _ => isBeside_pure _) (isBeside_pure _)
  have hdelete : ∀ stem, ((storeIn base : Store σ).delete stem).beside =
      (storeIn base : Store (κ × σ)).delete stem := fun stem =>
    isBeside_look _ rfl (isBeside_pure _)
  unfold Store.beside
  simp only [hload, hevents, hdelete]
  rfl

end Log

/-! ## The collaborators of the noting pipeline -/

theorem Runner.Overlooks.noting {σ : Type} {runner : Runner σ} {here : Place}
    {unseen : Place → Prop} (h : runner.Overlooks here unseen) :
    runner.noting.Overlooks here unseen := fun call world other =>
  h call world.behind other.behind

/-- The noting runner shows what has been asked for. -/
theorem Runner.shows_noting {σ : Type} (runner : Runner σ) : runner.noting.Shows Prod.fst := by
  intro call world other h
  show other.outside.1 ++ [.command call] = world.outside.1 ++ [.command call]
  rw [h]

namespace Pipeline

variable {σ : Type} {pipeline : Pipeline σ} {logs : Option Path}

theorem WritesOnlyLogs.noting (h : pipeline.WritesOnlyLogs logs) :
    pipeline.noting.WritesOnlyLogs logs where
  store := by
    show pipeline.store.map Log.Store.beside = _
    rw [h.store, Option.map_map]
    exact congrArg (fun store => Option.map store logs) (funext Log.beside_storeIn)
  resolver name world := h.resolver name world.behind

theorem KeepsManifest.noting {project : Project} (h : pipeline.KeepsManifest project) :
    pipeline.noting.KeepsManifest project := fun world =>
  h world.behind

end Pipeline

end RustScript
