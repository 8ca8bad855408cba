import ElfUnwind.Event

/-!
# Telling what happens

A computation may tell events on its way to a value. `Told` keeps both; running one computation
after another puts their events one after the other, so nothing that was told is lost, also where
the second one fails.

`Task σ` adds a state and failure: a task that fails leaves the state it had reached.
-/

namespace ElfUnwind

/-- A value and the events told on the way to it. -/
structure Told (α : Type) where
  /-- What was told, in order. -/
  events : List Event
  /-- The outcome. -/
  value : α
  deriving Repr

namespace Told

instance : Monad Told where
  pure a := ⟨[], a⟩
  bind x f := ⟨x.events ++ (f x.value).events, (f x.value).value⟩

variable {α β : Type}

@[ext]
theorem ext {x y : Told α} (he : x.events = y.events) (hv : x.value = y.value) : x = y := by
  cases x
  cases y
  simp_all

/-- Tells one event. -/
def tell (e : Event) : Told Unit := ⟨[e], ()⟩

@[simp]
theorem events_pure (a : α) : (pure a : Told α).events = [] := rfl

@[simp]
theorem value_pure (a : α) : (pure a : Told α).value = a := rfl

@[simp]
theorem events_bind (x : Told α) (f : α → Told β) :
    (x >>= f).events = x.events ++ (f x.value).events := rfl

@[simp]
theorem value_bind (x : Told α) (f : α → Told β) : (x >>= f).value = (f x.value).value := rfl

@[simp]
theorem events_map (f : α → β) (x : Told α) : (f <$> x).events = x.events :=
  List.append_nil _

@[simp]
theorem value_map (f : α → β) (x : Told α) : (f <$> x).value = f x.value := rfl

@[simp]
theorem events_tell (e : Event) : (tell e).events = [e] := rfl

instance : LawfulMonad Told :=
  LawfulMonad.mk' Told (fun x => by ext1 <;> simp) (fun a f => by ext1 <;> simp)
    (fun x f g => by ext1 <;> simp)

end Told

/-- A computation with a state that tells events and may fail. -/
abbrev Task (σ : Type) := ExceptT Error (StateT σ Told)

namespace Task

variable {σ α : Type}

/-- Tells one event. -/
def tell (e : Event) : Task σ Unit := ExceptT.lift (StateT.lift (Told.tell e))

/-- Does what tells and neither fails nor touches the state. -/
def ofTold (told : Told α) : Task σ α := ExceptT.lift (StateT.lift told)

/-- Runs a task on the second part of a state. -/
def onSecond {μ : Type} (task : Task σ α) : Task (μ × σ) α := fun s => do
  let (outcome, t) ← task s.2
  return (outcome, (s.1, t))

/-- Runs a task from a state: its outcome and the state it left. -/
def runFrom (task : Task σ α) (s : σ) : Told (Except Error α × σ) := task.run.run s

end Task

end ElfUnwind
